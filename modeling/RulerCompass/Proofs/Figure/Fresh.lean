import RulerCompass.Proofs.Figure.Strokes
import RulerCompass.Proposition.Basic

/-!
# Ids that counters make

What is drawn with automatic labels never shares an id with anything else that is drawn, nor with a
given point.  Only the id that a given segment or circle has been called by may be made again: segments
and circles are counted, whatever they are called.  A figure announces the ids that its counters are
still to make, and all ids stay apart in every drawing exactly when no given segment or circle bears an
announced id.
-/

namespace RulerCompass.Figure

variable {K : Type} (style : Style) {f g : Figure K} {new : List (Element K)}

/-! ### Runs of strokes -/

/-- From one figure to the other counters have made all ids, and no number has been used twice. -/
structure Counted (f g : Figure K) (new : List (Element K)) : Prop where
  elements : g.elements = f.elements ++ new
  numbers : ∃ ns : List (Counter × Nat), new.map Element.id = ns.map (fun s => s.1.id s.2) ∧
    ns.Nodup ∧ ∀ s ∈ ns, f.next s.1 ≤ s.2 ∧ s.2 < g.next s.1 ∧ s.1.Makes s.2
  next_le : ∀ c, f.next c ≤ g.next c

theorem Counted.refl (f : Figure K) : f.Counted f [] where
  elements := (List.append_nil _).symm
  numbers := ⟨[], rfl, List.nodup_nil, fun _ h => nomatch h⟩
  next_le _ := Nat.le_refl _

/-- One stroke before others: its number is below all that the others use. -/
theorem Drawn.counted {h : Figure K} {c? : Option Counter} {rest : List (Element K)}
    (hfg : f.Drawn g c? new) (hgh : g.Counted h rest) : f.Counted h (new ++ rest) where
  elements := by rw [hgh.elements, hfg.elements, List.append_assoc]
  numbers := by
    obtain ⟨ns, hids, hnodup, hbounds⟩ := hgh.numbers
    refine ⟨c?.toList.map (fun c => (c, f.next c)) ++ ns, ?_, ?_, ?_⟩
    · rw [List.map_append, List.map_append, hfg.ids, hids, List.map_map]
      rfl
    · refine List.nodup_append.mpr ⟨?_, hnodup, ?_⟩
      · cases c? <;> simp
      · -- The same counter at the same number would have to stay where the stroke has moved it on.
        rintro s hs t ht rfl
        obtain ⟨c, hc, rfl⟩ := List.mem_map.mp hs
        have hnext := hfg.next_eq c (Option.mem_toList.mp hc)
        have hlow := (hbounds _ ht).1
        dsimp only at hlow
        omega
    · intro s hs
      rcases List.mem_append.mp hs with hs | hs
      · -- The id of the stroke itself, at the counter before it.
        obtain ⟨c, hc, rfl⟩ := List.mem_map.mp hs
        have hnext := hfg.next_eq c (Option.mem_toList.mp hc)
        have hlast := hgh.next_le c
        exact ⟨Nat.le_refl _, by dsimp only; omega, hfg.makes c (Option.mem_toList.mp hc)⟩
      · -- The id of a later stroke.
        have hfirst := hfg.next_le s.1
        obtain ⟨hlow, hhigh, hmakes⟩ := hbounds s hs
        exact ⟨by omega, hhigh, hmakes⟩
  next_le c := Nat.le_trans (hfg.next_le c) (hgh.next_le c)

/-- **Strokes with automatic labels** leave all ids to counters. -/
theorem exists_counted {strokes : List (Stroke K)} (hf : 0 ≤ f.nextLabel)
    (hauto : ∀ s ∈ strokes, s.Automatic) (h : f.drawAll style strokes = .ok g) :
    ∃ new, f.Counted g new := by
  induction strokes generalizing f with
  | nil =>
    cases h
    exact ⟨[], .refl _⟩
  | cons s strokes ih =>
    obtain ⟨u, hu, h⟩ := exists_of_bind_eq_ok h
    obtain ⟨new, hdrawn⟩ := exists_drawn hf (hauto s List.mem_cons_self) hu
    have hnext : 0 ≤ u.nextLabel := Int.le_trans hf (nextLabel_le_of_draw hu)
    obtain ⟨rest, hcounted⟩ := ih hnext (fun t ht => hauto t (List.mem_cons_of_mem s ht)) h
    exact ⟨new ++ rest, hdrawn.counted hcounted⟩

theorem Counted.nodup (h : f.Counted g new) : (new.map Element.id).Nodup := by
  obtain ⟨ns, hids, hnodup, -⟩ := h.numbers
  rw [hids]
  refine hnodup.map ?_
  rintro ⟨c, m⟩ ⟨d, n⟩ hid
  obtain ⟨rfl, rfl⟩ := Counter.id_injective hid
  rfl

/-! ### Announced ids -/

/-- A counter is still to make this id. -/
def Announces (f : Figure K) (id : String) : Prop :=
  ∃ c : Counter, ∃ n, f.next c ≤ n ∧ c.Makes n ∧ id = c.id n

theorem Counted.announces (h : f.Counted g new) {id : String} (hid : id ∈ new.map Element.id) :
    f.Announces id := by
  obtain ⟨ns, hids, -, hbounds⟩ := h.numbers
  rw [hids] at hid
  obtain ⟨s, hs, rfl⟩ := List.mem_map.mp hid
  exact ⟨s.1, s.2, (hbounds s hs).1, (hbounds s hs).2.2, rfl⟩

/-- Labels continue after those of the given points, so no given point bears an announced id. -/
theorem not_announces_given {given : List (Element K)} {p : Point K}
    (hp : p ∈ (ofGiven given).points) (hname : p.id = pointId p.label) :
    ¬ (ofGiven given).Announces p.id := by
  rintro ⟨c, n, hn, hmakes, hid⟩
  rw [hname] at hid
  cases c with
  | label =>
    -- Another point of this label would put the counter past it.
    have hlabel : p.label = Label.text n := pointId_injective hid
    have hindex : Label.index? p.label = .ok (some n) := by
      rw [hlabel, Label.index?_text hmakes]
    have hlt : (n : Int) < (ofGiven given).nextLabel :=
      lt_nextLabel_ofGiven (mem_points.mp hp) hindex
    simp only [next] at hn
    omega
  | segment => exact pointId_ne_seg _ _ hid
  | circle => exact pointId_ne_circleId _ _ hid

/-- A stroke that draws something of the kind that the counter numbers. -/
def strokeFor [Scalar K] : Counter → Stroke K
  | .label => .point ⟨0.0, 0.0⟩ .free
  | .segment => .segment "" ""
  | .circle => .circle "" ""

theorem exists_draw_strokeFor [Scalar K] (hf : 0 ≤ f.nextLabel) {c : Counter}
    (hc : c.Makes (f.next c)) : ∃ g, f.draw style (strokeFor c) = .ok g := by
  cases c with
  | label =>
    have hcapacity : f.nextLabel.toNat < Label.capacity := hc
    refine (f.draw_meets _).1 ⟨hf, ?_, fun label hlabel => nomatch hlabel⟩
    simp only [strokeFor, Stroke.request]
    omega
  | segment => exact ⟨_, rfl⟩
  | circle => exact ⟨_, rfl⟩

/-- What is announced will be made: strokes of its kind reach any number. -/
theorem exists_strokes_of_announces [Scalar K] {id : String} (hf : 0 ≤ f.nextLabel)
    (h : f.Announces id) : ∃ strokes : List (Stroke K), (∀ s ∈ strokes, s.Automatic) ∧
      ∃ g new, f.drawAll style strokes = .ok g ∧ g.elements = f.elements ++ new ∧
        id ∈ new.map Element.id := by
  obtain ⟨c, n, hn, hmakes, rfl⟩ := h
  obtain ⟨k, rfl⟩ := Nat.exists_eq_add_of_le hn
  have hauto : (strokeFor c : Stroke K).Automatic := by
    cases c
    case label => rfl
    all_goals trivial
  have hcounter : (strokeFor c : Stroke K).counter? = some c := by cases c <;> rfl
  induction k generalizing f with
  -- The counter stands at the number: one stroke makes the id.
  | zero =>
    obtain ⟨g, hg⟩ := exists_draw_strokeFor style hf hmakes
    obtain ⟨new, hdrawn⟩ := exists_drawn hf hauto hg
    refine ⟨[strokeFor c], fun s hs => List.mem_singleton.mp hs ▸ hauto, g, new, drawAll_cons hg [],
      hdrawn.elements, ?_⟩
    rw [hdrawn.ids, hcounter]
    exact List.mem_singleton_self _
  | succ k ih =>
    -- One stroke moves the counter on, and the others start behind it.
    obtain ⟨g, hg⟩ := exists_draw_strokeFor style hf (hmakes.mono (Nat.le_add_right _ _))
    obtain ⟨new, hdrawn⟩ := exists_drawn hf hauto hg
    have hnext : g.next c = f.next c + 1 := hdrawn.next_eq c (by rw [hcounter]; rfl)
    have hreach : g.next c + k = f.next c + (k + 1) := by omega
    obtain ⟨strokes, hstrokes, h, rest, hh, helements, hid⟩ :=
      ih (Int.le_trans hf (nextLabel_le_of_draw hg)) (Nat.le_add_right _ k) (hreach ▸ hmakes)
    refine ⟨strokeFor c :: strokes, List.forall_mem_cons.mpr ⟨hauto, hstrokes⟩, h, new ++ rest,
      (drawAll_cons hg strokes).trans hh, ?_, ?_⟩
    · rw [helements, hdrawn.elements, List.append_assoc]
    · rw [hreach] at hid
      rw [List.map_append]
      exact List.mem_append_right _ hid

/-! ### Given figures -/

/-- **Counters keep ids apart** from each other and from those of given points: what strokes with automatic
labels draw shares no id.  They are done as far as labels reach.  All ids are apart after all such strokes
exactly when no given segment or circle bears an id that the given figure announces. -/
theorem ids_nodup_iff_not_announced [Scalar K] {given : List (Element K)}
    (hids : (given.map Element.id).Nodup)
    (hpoints : ∀ p ∈ (ofGiven given).points, p.id = pointId p.label) :
    (∀ strokes : List (Stroke K), LabelsReach given (strokes.map Stroke.request) 0 →
      ∃ f, drawOn style given strokes = .ok f) ∧
    (∀ strokes : List (Stroke K), (∀ s ∈ strokes, s.Automatic) →
      ∀ f, drawOn style given strokes = .ok f → ∃ new, f.elements = given ++ new ∧
        (new.map Element.id).Nodup ∧ ∀ p ∈ (ofGiven given).points, p.id ∉ new.map Element.id) ∧
    ((∀ strokes : List (Stroke K), (∀ s ∈ strokes, s.Automatic) →
        ∀ f, drawOn style given strokes = .ok f → f.ids.Nodup) ↔
      ((ofGiven given).Legible →
        ∀ e ∈ given, e.point? = none → ¬ (ofGiven given).Announces e.id)) := by
  have hcounter := ofGiven_nextLabel_nonneg given
  refine ⟨fun strokes => exists_drawOn, fun strokes hauto f hf => ?_,
    fun hall hlegible e he _ hannounced => ?_, fun hfree strokes hauto f hf => ?_⟩
  · obtain ⟨-, hdrawn⟩ := drawOn_eq_ok_iff.mp hf
    obtain ⟨new, hcounted⟩ := exists_counted style hcounter hauto hdrawn
    refine ⟨new, hcounted.elements, hcounted.nodup, fun p hp hmem => ?_⟩
    exact not_announces_given hp (hpoints p hp) (hcounted.announces hmem)
  · -- The strokes that reach the id of the given element draw a second one with it.
    obtain ⟨strokes, hauto, f, new, hf, helements, hid⟩ :=
      exists_strokes_of_announces style hcounter hannounced
    have hnodup := hall strokes hauto f (drawOn_eq_ok_iff.mpr ⟨hlegible, hf⟩)
    rw [ids, helements, List.map_append, List.nodup_append] at hnodup
    exact hnodup.2.2 _ (List.mem_map_of_mem he) _ hid rfl
  · obtain ⟨hlegible, hdrawn⟩ := drawOn_eq_ok_iff.mp hf
    obtain ⟨new, hcounted⟩ := exists_counted style hcounter hauto hdrawn
    rw [ids, hcounted.elements, List.map_append, List.nodup_append]
    refine ⟨hids, hcounted.nodup, ?_⟩
    -- An id that is given and drawn is announced, which no given element does.
    rintro _ hgiven id hid rfl
    obtain ⟨e, he, rfl⟩ := List.mem_map.mp hgiven
    have hannounced := hcounted.announces hid
    cases e with
    | point p =>
      have hp : p ∈ (ofGiven given).points := mem_points.mpr he
      exact not_announces_given hp (hpoints p hp) hannounced
    | segment s => exact hfree hlegible _ he rfl hannounced
    | circle c => exact hfree hlegible _ he rfl hannounced

/-- The only given segment is called by a number that is used up, so all ids stay apart: here a segment,
a circle, a point that is skipped and the next one are drawn. -/
theorem ids_nodup_iff_not_announced_first_segment :
    let given : List (Element Float) := [Point.given "A" ⟨0.0, 0.0⟩, Point.given "B" ⟨1.0, 0.0⟩,
      .segment ⟨"seg-1", "pt-A", "pt-B", Byrne.given, .given⟩]
    let strokes : List (Stroke Float) :=
      [.segment "pt-B" "pt-A", .circle "pt-A" "pt-B", .skip, .point ⟨2.0, 0.0⟩ .free]
    ((given.map Element.id).Nodup ∧ (∀ p ∈ (ofGiven given).points, p.id = pointId p.label) ∧
      LabelsReach given (strokes.map Stroke.request) 0 ∧
      ∀ e ∈ given, e.point? = none → ¬ (ofGiven given).Announces e.id) ∧
    (∀ s ∈ strokes, s.Automatic) ∧ ∃ f, drawOn {} given strokes = .ok f ∧
      f.ids = ["pt-A", "pt-B", "seg-1", "seg-2", "cir-1", "pt-D"] ∧ f.ids.Nodup := by
  intro given strokes
  have hids : (given.map Element.id).Nodup := by decide +kernel
  have hpoints : ∀ p ∈ (ofGiven given).points, p.id = pointId p.label := by decide +kernel
  have hreach : LabelsReach given (strokes.map Stroke.request) 0 := by decide +kernel
  have hfree : ∀ e ∈ given, e.point? = none → ¬ (ofGiven given).Announces e.id := by
    intro e he hkind
    have hsegment : e = .segment ⟨"seg-1", "pt-A", "pt-B", Byrne.given, .given⟩ := by
      simp only [given, Point.given, List.mem_cons, List.not_mem_nil, or_false] at he
      rcases he with rfl | rfl | rfl
      · cases hkind
      · cases hkind
      · rfl
    subst hsegment
    rintro ⟨c, n, hn, -, hid⟩
    obtain ⟨rfl, rfl⟩ : Counter.segment = c ∧ 1 = n := Counter.id_injective hid
    exact absurd hn (by decide)
  have hauto : ∀ s ∈ strokes, s.Automatic := by decide
  obtain ⟨htotal, -, hiff⟩ := ids_nodup_iff_not_announced {} hids hpoints
  obtain ⟨f, hf⟩ := htotal strokes hreach
  have hdrawn : (drawOn {} given strokes).toOption.map ids =
      some ["pt-A", "pt-B", "seg-1", "seg-2", "cir-1", "pt-D"] := by decide +kernel
  rw [hf] at hdrawn
  exact ⟨⟨hids, hpoints, hreach, hfree⟩, hauto, f, hf, Option.some.inj hdrawn,
    hiff.mpr (fun _ => hfree) strokes hauto f hf⟩

/-- A given segment that is called by the second number: the next segment is called so too. -/
theorem second_segment_id_shared :
    let given : List (Element Float) := [Point.given "A" ⟨0.0, 0.0⟩, Point.given "B" ⟨1.0, 0.0⟩,
      .segment ⟨"seg-2", "pt-A", "pt-B", Byrne.given, .given⟩]
    let strokes : List (Stroke Float) := [.segment "pt-A" "pt-B"]
    (given.map Element.id).Nodup ∧ (∀ p ∈ (ofGiven given).points, p.id = pointId p.label) ∧
      (∀ s ∈ strokes, s.Automatic) ∧ ∃ f, drawOn {} given strokes = .ok f ∧
        f.ids = ["pt-A", "pt-B", "seg-2", "seg-2"] ∧ ¬ f.ids.Nodup := by
  intro given strokes
  have hdrawn : (drawOn {} given strokes).toOption.map ids =
      some ["pt-A", "pt-B", "seg-2", "seg-2"] := by decide +kernel
  obtain ⟨f, hf, hids⟩ := exists_of_map_toOption_eq_some hdrawn
  refine ⟨by decide +kernel, by decide +kernel, by decide, f, hf, hids, ?_⟩
  rw [hids]
  decide

end RulerCompass.Figure
