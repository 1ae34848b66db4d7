import RulerCompass.Proofs.Crossing.Current
import RulerCompass.Proofs.Replay.Scenes

/-!
# The crossings of a replay

Whatever changes the crossings of a scene is a move: a search appends what it finds, and marking a
point drops what lies there.  Both keep the crossings apart from each other, and drawing leaves them
up to date, so a replay has such crossings at all times.
-/

namespace RulerCompass

variable {K : Type} [Scalar K] {style : Style}

open Crossing (Separated Apart)

/-! ### Moves -/

namespace Scene

variable {s t : Scene K}

/-- Every search is given the crossings that are known at the time. -/
theorem Move.separated (h : Move style s t) (hs : Separated s.crossings) :
    Separated t.crossings := by
  cases h with
  | point h => exact hs
  | circle centerId radiusPointId => exact hs
  | segment fromId toId => exact hs
  | skip label? => exact hs
  | search extend he =>
    exact hs.append (s.figure.newCrossings_separated _ s.crossings extend)
      (s.figure.newCrossings_apart _ s.crossings extend)
  | drop c => exact hs.sublist List.filter_sublist

/-- A search looks at the figure as it is, and what has been found before stays up to date. -/
theorem Move.current (hzero : (0.0 : K) ≤ 0.0) (h : Move style s t)
    (hs : ∀ c ∈ s.crossings, c.Current s.figure) : ∀ c ∈ t.crossings, c.Current t.figure := by
  have hgrows := h.growsTo
  have hkept : ∀ c ∈ s.crossings, c.Current t.figure := fun c hc => (hs c hc).growsTo hgrows hzero
  -- Only a search finds crossings, and it finds current ones.
  cases h with
  | point h => exact hkept
  | circle centerId radiusPointId => exact hkept
  | segment fromId toId => exact hkept
  | skip label? => exact hkept
  | search extend he =>
    intro c hc
    rcases List.mem_append.mp hc with hc | hc
    · exact hs c hc
    · exact Crossing.current_of_mem_newCrossings he hc
  | drop d => exact fun c hc => hkept c (List.mem_of_mem_filter hc)

theorem Leads.separated (h : s.Leads style t) (hs : Separated s.crossings) :
    Separated t.crossings :=
  h.keeps (fun _ _ hmove => hmove.separated) hs

theorem Leads.current (hzero : (0.0 : K) ≤ 0.0) (h : s.Leads style t)
    (hs : ∀ c ∈ s.crossings, c.Current s.figure) : ∀ c ∈ t.crossings, c.Current t.figure :=
  h.keeps (I := fun s => ∀ c ∈ s.crossings, c.Current s.figure) (fun _ _ => Move.current hzero) hs

end Scene

/-! ### Replays -/

namespace Replay

/-- The lists of crossings that a replay passes through: after each step and each extra, while a
macro is drawing, and while prolonged segments are searched.  A macro only appends, so while it is
drawing the list lies between the one before and the one after it. -/
inductive Passes (style : Style) (p : Proposition K) (given : List (Element K)) (steps : List Step)
    (extras : List Extra) : List (Crossing K) → Prop
  | afterSteps {k : Nat} {r : Replay K}
      (h : (performAll style p.id p.prolongs 0 (steps.take k) (start p given)).result = .ok r) :
      Passes style p given steps extras r.scene.crossings
  | withinMacro {k : Nat} {r : Replay K} {m : Macro} {labels : Macro.OutputLabels}
      {inputs : List String} {o : Macro.Outcome K} {cs : List (Crossing K)}
      (h : (performAll style p.id p.prolongs 0 (steps.take k) (start p given)).result = .ok r)
      (ho : (m.execute style r.scene p.prolongs labels inputs).result = .ok o)
      (hbefore : r.scene.crossings <+: cs) (hafter : cs <+: o.scene.crossings) :
      Passes style p given steps extras cs
  | withinSearch {n : Nat} {r : Replay K}
      (h : (throughConclusion style p given steps).result = .ok r) :
      Passes style p given steps extras
        ((r.scene.figure.elements.take n).foldl (fun s e => s.search true e) r.scene).crossings
  | afterExtras {k : Nat} {r r' : Replay K}
      (h : (throughConclusion style p given steps).result = .ok r)
      (h' : r.performExtras style p.prolongs steps.length (extras.take k) = .ok r') :
      Passes style p given steps extras r'.scene.crossings

variable {p : Proposition K} {given : List (Element K)} {steps : List Step} {extras : List Extra}

theorem Passes.separated {cs : List (Crossing K)} (h : Passes style p given steps extras cs) :
    Separated cs := by
  have hstart : Separated (start p given).scene.crossings := Crossing.separated_nil
  cases h with
  | afterSteps h => exact (leads_performAll h).separated hstart
  | @withinMacro k r m labels inputs o cs h ho hbefore hafter =>
    have hdraws := ((m.execute_meets style r.scene p.prolongs labels inputs).2 o ho).draws
    have hleads := (leads_performAll h).trans hdraws.leads
    exact (hleads.separated hstart).sublist hafter.sublist
  | @withinSearch n r h =>
    have hsearch := r.scene.leads_searchEach style true _ (List.take_subset n r.scene.figure.elements)
    exact ((leads_throughConclusion h).trans hsearch).separated hstart
  | afterExtras h h' =>
    exact ((leads_throughConclusion h).trans (leads_performExtras h')).separated hstart

theorem passes_run {r : Replay K} (h : (run style p given steps extras).result = .ok r) :
    Passes style p given steps extras r.scene.crossings := by
  obtain ⟨u, hu, hextras⟩ := exists_concluded_of_run h
  rw [← extras.take_length] at hextras
  exact .afterExtras hu hextras

/-- **Crossings stay apart.**  All lists of crossings that a replay passes through, the last of which
is that of its result, have no crossing near an earlier one.  This comes from the search: whatever
is known, the crossings that it finds are neither near to a known crossing nor to an earlier one. -/
theorem crossings_separated (style : Style) (p : Proposition K) (given : List (Element K))
    (steps : List Step) (extras : List Extra) :
    (∀ cs, Passes style p given steps extras cs → Separated cs) ∧
    (∀ r, (run style p given steps extras).result = .ok r →
      Passes style p given steps extras r.scene.crossings) ∧
    ∀ (f : Figure K) (e : Element K) (known : List (Crossing K)) (extend : Bool),
      Separated (f.newCrossings e known extend) ∧ Apart known (f.newCrossings e known extend) :=
  ⟨fun _ h => h.separated, fun _ h => passes_run h, fun f e known extend =>
    ⟨f.newCrossings_separated e known extend, f.newCrossings_apart e known extend⟩⟩

/-- The two circles of the first proposition cross above and below. -/
theorem crossings_separated_circles :
    let p : Proposition Float := Book.Triangle.proposition
    ∃ r, (run {} p p.given (p.steps.take 2)).result = .ok r ∧ r.scene.crossings.length = 2 ∧
      Passes {} p p.given (p.steps.take 2) [] r.scene.crossings ∧ Separated r.scene.crossings := by
  intro p
  obtain ⟨hseparated, hpasses, -⟩ := crossings_separated {} p p.given (p.steps.take 2) []
  have hlength : (run {} p p.given (p.steps.take 2)).result.toOption.map
      (fun r => r.scene.crossings.length) = some 2 := by decide +kernel
  obtain ⟨r, hr, hlength⟩ := exists_of_map_toOption_eq_some hlength
  exact ⟨r, hr, hlength, hpasses r hr, hseparated _ (hpasses r hr)⟩

/-- **Crossings stay up to date.**  When no two circles or segments of the final figure share an id,
every crossing of a replay names two of them, and it is still their common point with its number. -/
theorem crossings_current (style : Style) (p : Proposition Float) (given : List (Element Float))
    (steps : List Step) (extras : List Extra) {r : Replay Float}
    (h : (run style p given steps extras).result = .ok r)
    (hids : (r.scene.figure.curves.map Element.id).Nodup) :
    ∀ c ∈ r.scene.crossings, c.ofA ≠ c.ofB ∧ c.Current r.scene.figure := by
  have hzero : (0.0 : Float) ≤ 0.0 := by decide +kernel
  have hcurrent := (leads_run h).current hzero fun c hc => nomatch hc
  exact fun c hc => ⟨(hcurrent c hc).ofA_ne_ofB hids, hcurrent c hc⟩

/-- The first proposition up to its apex: one crossing of the circles is left, and two more are found
when the base is drawn again, since the given base may be prolonged then. -/
theorem crossings_current_apex :
    let p : Proposition Float := Book.Triangle.proposition
    ∃ r, (run {} p p.given (p.steps.take 3) [.segment "pt-A" "pt-B"]).result = .ok r ∧
      (r.scene.figure.curves.map Element.id).Nodup ∧ r.scene.crossings.length = 3 ∧
      ∀ c ∈ r.scene.crossings, c.ofA ≠ c.ofB ∧ c.Current r.scene.figure := by
  intro p
  have hchecked : (run {} p p.given (p.steps.take 3) [.segment "pt-A" "pt-B"]).result.toOption.map
      (fun r => (decide (r.scene.figure.curves.map Element.id).Nodup, r.scene.crossings.length)) =
      some (true, 3) := by decide +kernel
  obtain ⟨r, hr, hchecked⟩ := exists_of_map_toOption_eq_some hchecked
  obtain ⟨hids, hlength⟩ := Prod.mk.inj hchecked
  have hids := of_decide_eq_true hids
  exact ⟨r, hr, hids, hlength, crossings_current {} p p.given (p.steps.take 3) _ hr hids⟩

end Replay

end RulerCompass
