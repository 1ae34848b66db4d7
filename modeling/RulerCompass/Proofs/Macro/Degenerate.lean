import RulerCompass.Proofs.Macro.Deliveries
import RulerCompass.Proofs.Scalar.Order

/-!
# Macros without a length

Two points that lie on one another span no length.  There the circles of a triangle do not meet, so
the triangle is refused as a whole.  The transfer and the cut look for a direction only: without a
length they still draw their result and prove their equation.
-/

namespace RulerCompass

variable {K : Type} [Scalar K]

namespace Macro

/-- The length that a macro works with: the base of the triangle, the segment to be moved, the part to
be cut off. -/
def length? (m : Macro) (f : Figure K) (inputs : List String) : Option K :=
  match m, inputs with
  | triangle, aId :: bId :: _ => f.distance? aId bId
  | transfer, _ :: startId :: stopId :: _ => f.distance? startId stopId
  | cutOff, _ :: _ :: startId :: stopId :: _ => f.distance? startId stopId
  | _, _ => none

variable {style : Style} {s : Scene K} {extend : Bool} {labels : OutputLabels} {m : Macro}
  {inputs : List String} {o : Outcome K}

/-- A macro that has a length has an input for each of its points. -/
theorem inputCount_le_of_length? {length : K} (h : m.length? s.figure inputs = some length) :
    m.inputCount ≤ inputs.length := by
  unfold length? at h
  split at h
  · simp [inputCount, inputNames]
  · simp [inputCount, inputNames]
  · simp [inputCount, inputNames]
  · cases h

/-! ### The triangle -/

/-- Circles whose centres lie on one another do not meet. -/
theorem apex?_of_short {a b : Coord K} (h : a.distance b ≤ Scalar.epsilon) (aId bId : String) :
    apex? style a b aId bId = pure none := by
  have hmeet : Disc.meet ⟨a, a.distance b⟩ ⟨b, a.distance b⟩ = [] := by
    rw [Disc.meet]
    exact if_pos (Or.inl h)
  rw [apex?]
  simp only [hmeet]
  rfl

theorem drawTriangle_of_short {length : K} (hlength : triangle.length? s.figure inputs = some length)
    (h : length ≤ Scalar.epsilon) :
    drawTriangle style s extend labels inputs = pure (.unchanged s) := by
  rcases inputs with _ | ⟨aId, _ | ⟨bId, rest⟩⟩
  · cases hlength
  · cases hlength
  · obtain ⟨a, ha, hlength⟩ := Option.bind_eq_some_iff.mp hlength
    obtain ⟨b, hb, hlength⟩ := Option.bind_eq_some_iff.mp hlength
    cases hlength
    simp only [drawTriangle, ha, hb]
    rw [triangleOn, apex?_of_short h]
    rfl

/-! ### The transfer and the cut -/

theorem ghosts_ne_nil_of_transferOn {target start stop : Point K} {targetId startId stopId : String}
    (ho : (transferOn style s extend labels target start stop targetId startId stopId).result =
      .ok o) : o.ghosts ≠ [] := by
  obtain ⟨r, -, ho⟩ := Run.exists_of_bind_eq_ok ho
  obtain ⟨ghosts, hghosts, ho⟩ := Run.exists_of_bind_eq_ok ho
  cases ho
  rw [transferGhosts] at hghosts
  split at hghosts
  · obtain ⟨apex, -, hghosts⟩ := Run.exists_of_bind_eq_ok hghosts
    cases hghosts
    exact List.cons_ne_nil _ _
  · cases hghosts
    exact List.cons_ne_nil _ _

theorem ghosts_ne_nil_of_cutOffOn {cut target start stop : Point K} {cutId startId stopId : String}
    (ho : (cutOffOn style s extend labels cut target start stop cutId startId stopId).result =
      .ok o) : o.ghosts ≠ [] := by
  obtain ⟨inner, -, ho⟩ := Run.exists_of_bind_eq_ok ho
  obtain ⟨moved, -, ho⟩ := Run.exists_of_bind_eq_ok ho
  obtain ⟨r, -, ho⟩ := Run.exists_of_bind_eq_ok ho
  cases ho
  exact List.cons_ne_nil _ _

/-- The transfer and the cut always draw, show what they hide and prove something. -/
theorem Runs.draws_of_ne_triangle (h : Runs style s extend labels m inputs o)
    (hm : m ≠ Macro.triangle) : o.added ≠ [] ∧ o.ghosts ≠ [] ∧ o.assertions ≠ [] := by
  cases h with
  | triangle ha hb ho => exact absurd rfl hm
  | transfer ht hs hp ho =>
    obtain ⟨place, r, -, -, hadded, has⟩ := exists_of_transferOn ho
    rw [hadded, has]
    exact ⟨List.cons_ne_nil _ _, ghosts_ne_nil_of_transferOn ho, List.cons_ne_nil _ _⟩
  | cutOff hc ht hs hp ho =>
    obtain ⟨inner, moved, kept, place, r, -, -, -, -, -, hadded, has⟩ := exists_of_cutOffOn ho
    rw [hadded, has]
    refine ⟨List.append_ne_nil_of_right_ne_nil _ (List.cons_ne_nil _ _), ?_,
      List.append_ne_nil_of_right_ne_nil _ (List.cons_ne_nil _ _)⟩
    exact ghosts_ne_nil_of_cutOffOn ho

/-! ### All macros -/

/-- **Only the triangle needs a length.**  Take any macro whose length is there and lies below the bound
under which lengths count as zero.  The triangle, and every macro that lacks an input, does nothing:
no scene, no ledger and no drawing shows that it was called.  But the transfer and the cut, with all
their inputs, draw as ever while there are labels for their points: they add elements, show what they hide
and prove in any ledger that their results have this length. -/
theorem only_triangle_needs_length (style : Style) (m : Macro) (s : Scene Float) (extend : Bool)
    (labels : OutputLabels) (inputs : List String) {length : Float}
    (hlength : m.length? s.figure inputs = some length) (hshort : length < Scalar.epsilon) :
    ((m = .triangle ∨ ¬ m.Finds inputs s.figure) →
      ∃ o, (m.execute style s extend labels inputs).result = .ok o ∧ o.scene = s ∧ o.added = [] ∧
        o.ghosts = [] ∧ ∀ (l : Ledger) (atStep : Int), l.recordAll o.assertions atStep = ([], l)) ∧
    (m ≠ .triangle → m.Finds inputs s.figure →
      (s.figure.Room m.mostPoints (MacroCall.outputLabel? labels m.resultName) →
        ∃ o, (m.execute style s extend labels inputs).result = .ok o) ∧
      ∀ o, (m.execute style s extend labels inputs).result = .ok o →
        o.scene ≠ s ∧ o.added ≠ [] ∧ o.ghosts ≠ [] ∧ o.assertions ≠ [] ∧
          ∀ (l : Ledger) (atStep : Int), l.Reached →
            Delivers (l.recordAll o.assertions atStep).2 m inputs o.added) := by
  refine ⟨fun h => ⟨.unchanged s, ?_, rfl, rfl, rfl, fun _ _ => rfl⟩, fun hm hfinds => ?_⟩
  · rcases h with rfl | h
    · -- The circles of a triangle about close points do not meet.
      rw [execute, drawTriangle_of_short hlength (Double.le_of_lt hshort)]
      rfl
    · rw [execute_of_not_finds fun _ => h]
      rfl
  · have hmeets := m.execute_meets style s extend labels inputs
    refine ⟨hmeets.1, fun o ho => ?_⟩
    -- All points are there, so the macro runs, and I.2 and I.3 draw in every case.
    have hruns := runs_of_finds (inputCount_le_of_length? hlength) hfinds ho
    obtain ⟨hadded, hghosts, has⟩ := hruns.draws_of_ne_triangle hm
    refine ⟨fun hscene => hadded ?_, hadded, hghosts, has, fun l atStep hl =>
      hruns.delivers hadded hl atStep⟩
    have helements := (hmeets.2 o ho).draws.elements_eq
    rw [hscene] at helements
    exact List.self_eq_append_right.mp helements

/-- `C` is as good as on `B`: no triangle stands on `BC`, but the part `BC` is cut off from `AB`. -/
theorem only_triangle_needs_length_close :
    let s : Scene Float :=
      { figure := Figure.ofGiven
          [Point.given "A" ⟨0.0, 0.0⟩, Point.given "B" ⟨3.0, 0.0⟩, Point.given "C" ⟨3.0, 1e-10⟩] }
    let length := Coord.distance (⟨3.0, 0.0⟩ : Coord Float) ⟨3.0, 1e-10⟩
    let cut := (cutOff.execute {} s true none ["pt-A", "pt-B", "pt-B", "pt-C"]).result
    length < Scalar.epsilon ∧
      (∃ o, (triangle.execute {} s true none ["pt-B", "pt-C"]).result = .ok o ∧ o.scene = s ∧
        o.added = []) ∧
      ∃ o, cut = .ok o ∧ o.scene ≠ s ∧ o.added ≠ [] ∧
        Delivers (({} : Ledger).recordAll o.assertions 0).2 .cutOff ["pt-A", "pt-B", "pt-B", "pt-C"]
          o.added := by
  intro s length cut
  have hshort : length < Scalar.epsilon := by decide +kernel
  obtain ⟨hnone, -⟩ := only_triangle_needs_length {} .triangle s true none ["pt-B", "pt-C"] rfl hshort
  obtain ⟨o, ho, hscene, hadded, -⟩ := hnone (Or.inl rfl)
  obtain ⟨-, hdraws⟩ :=
    only_triangle_needs_length {} .cutOff s true none ["pt-A", "pt-B", "pt-B", "pt-C"] rfl hshort
  obtain ⟨houtcome, hshows⟩ := hdraws (by decide) (by decide)
  obtain ⟨o', ho'⟩ := houtcome (by decide +kernel)
  obtain ⟨hscene', hadded', -, -, hdelivers⟩ := hshows o' ho'
  exact ⟨hshort, ⟨o, ho, hscene, hadded⟩, o', ho', hscene', hadded', hdelivers {} 0 ⟨[], rfl⟩⟩

/-- The transfer of `BC` to `A` with `C` on `B`: the point `D` and the line `AD` are added, `AD = BC` is
proved, and two layers are shown. -/
theorem transfer_draws_without_length :
    let s : Scene Float :=
      { figure := Figure.ofGiven
          [Point.given "A" ⟨0.0, 0.0⟩, Point.given "B" ⟨1.0, 0.0⟩, Point.given "C" ⟨1.0, 0.0⟩] }
    let inputs := ["pt-A", "pt-B", "pt-C"]
    ∃ o length, transfer.length? s.figure inputs = some length ∧ length < Scalar.epsilon ∧
      (transfer.execute {} s true none inputs).result = .ok o ∧
      o.added.map Element.id = ["pt-D", "seg-1"] ∧ o.ghosts.length = 2 ∧
      (({} : Ledger).recordAll o.assertions 0).1.map Fact.statement = ["AD = BC"] := by
  intro s inputs
  have hrun : (transfer.execute {} s true none inputs).result.toOption.map (fun o =>
      (o.added.map Element.id, o.ghosts.length,
        (({} : Ledger).recordAll o.assertions 0).1.map Fact.statement)) =
      some (["pt-D", "seg-1"], 2, ["AD = BC"]) := by decide +kernel
  obtain ⟨o, ho, hparts⟩ := exists_of_map_toOption_eq_some hrun
  obtain ⟨hadded, hparts⟩ := Prod.mk.inj hparts
  obtain ⟨hghosts, hfacts⟩ := Prod.mk.inj hparts
  exact ⟨o, _, rfl, by decide +kernel, ho, hadded, hghosts, hfacts⟩

end Macro

end RulerCompass
