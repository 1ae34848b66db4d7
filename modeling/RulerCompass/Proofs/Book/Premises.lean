import RulerCompass.Proofs.Book.Layouts

/-!
# The premises of the book's conclusions

A conclusion cites equations that the construction has proved.  When every step succeeds the ledger
does know them, wherever the given points are: they are promised by the steps or given.  What a
conclusion then adds is no more than the equation that it draws from them.
-/

namespace RulerCompass.Book

open Replay

variable (style : Style)

/-- The replay of a proposition gives a result, and when every step succeeds `Q` holds of the replay
just before the conclusion and the finished one. -/
def WhenComplete (p : Proposition Float) (given : List (Element Float))
    (Q : Replay Float → Replay Float → Prop) : Prop :=
  ∃ r s, (performAll style p.id p.prolongs 0 p.steps (start p given)).result = .ok r ∧
    (run style p given p.steps).result = .ok s ∧ (Complete style p given p.steps → Q r s)

/-- Before the conclusion a complete replay knows what is promised. -/
theorem whenComplete_of_promised {p : Proposition Float} (hp : p ∈ propositions)
    {layout : Positions Float → List (Element Float)} (hlayout : p.layout? = some layout)
    (positions : Positions Float) {Q : Replay Float → Replay Float → Prop}
    (hQ : ∀ r : Replay Float, r.ledger.Reached →
      (∀ e ∈ p.promised p.steps, r.ledger.Equates e.left e.right) →
        Q r (r.prove p.conclusion p.steps.length)) :
    WhenComplete style p (layout positions) Q := by
  have hstart : Transcript (start p (layout positions)) (0 : Nat) :=
    (transcript_start p (layout positions)).later (by omega)
  obtain ⟨s, hs⟩ := exists_run_layout hp hlayout positions style []
    (fun _ he => nomatch he) Label.alphabet_le_capacity
  -- A complete replay has no extras to do, so its last state is that of the conclusion.
  have hthrough := hs
  rw [run_nil] at hthrough
  obtain ⟨-, r, hr, rfl⟩ := throughConclusion_eq_ok_iff.mp hthrough
  refine ⟨r, _, hr, hs, fun hcomplete => hQ r (hstart.performAll hr).reached fun e he => ?_⟩
  exact equates_of_complete (tidy_layout hp hlayout positions) hcomplete hr he

variable (positions : Positions Float)

/-! ### Proposition I.1 -/

/-- The two circles make the sides equal, so the conclusion says nothing new. -/
structure Triangle.Premises (r s : Replay Float) : Prop where
  sideA : r.ledger.SameLength "pt-A" "pt-C" "pt-A" "pt-B"
  sideB : r.ledger.SameLength "pt-B" "pt-C" "pt-B" "pt-A"
  sides : r.ledger.SameLength "pt-C" "pt-A" "pt-C" "pt-B"
  nothing_concluded : s.facts = r.facts

theorem triangle_premises :
    WhenComplete style Triangle.proposition (Triangle.layout positions) Triangle.Premises := by
  refine whenComplete_of_promised style (List.mem_of_getElem? (i := 0) rfl) rfl positions ?_
  intro r hr hknown
  have hAC : r.ledger.SameLength "pt-A" "pt-C" "pt-A" "pt-B" :=
    hknown _ (List.mem_of_getElem? (i := 0) rfl)
  have hBC : r.ledger.SameLength "pt-B" "pt-C" "pt-B" "pt-A" :=
    hknown _ (List.mem_of_getElem? (i := 1) rfl)
  -- `CA = CB` is in the class of `AB` already, which both circles have given.
  have hCA : r.ledger.SameLength "pt-C" "pt-A" "pt-C" "pt-B" := by
    rw [Ledger.sameLength_comm_left, Ledger.sameLength_comm_right]
    exact hAC.trans ((Ledger.sameLength_comm_right.mp hBC).symm hr) hr
  refine ⟨hAC, hBC, hCA, ?_⟩
  have hnothing : (r.ledger.recordAll Triangle.conclusion 5).1 = [] :=
    hr.recordAll_concat_eq [] (a := Triangle.conclusion[0]) hCA
  show r.facts ++ (r.ledger.recordAll Triangle.conclusion 5).1 = r.facts
  rw [hnothing, List.append_nil]

/-! ### Proposition I.2 -/

/-- Equals are taken from equals.  The conclusion enters `AF = BE` alone, since `AF = BC` follows
from it by `BE = BC`. -/
structure Transfer.Premises (r s : Replay Float) : Prop where
  wholes : r.ledger.SameLength "pt-D" "pt-F" "pt-D" "pt-E"
  parts : r.ledger.SameLength "pt-D" "pt-A" "pt-D" "pt-B"
  radius : r.ledger.SameLength "pt-B" "pt-E" "pt-B" "pt-C"
  transferred : s.ledger.SameLength "pt-A" "pt-F" "pt-B" "pt-C"
  concluded : ∃ new, s.facts = r.facts ++ new ∧ ∀ f ∈ new,
    f.equation = .distances (.between "pt-A" "pt-F") (.between "pt-B" "pt-E")

theorem transfer_premises :
    WhenComplete style Transfer.proposition (Transfer.layout positions) Transfer.Premises := by
  refine whenComplete_of_promised style (List.mem_of_getElem? (i := 1) rfl) rfl positions ?_
  intro r hr hknown
  have hAD : r.ledger.SameLength "pt-A" "pt-D" "pt-A" "pt-B" :=
    hknown _ (List.mem_of_getElem? (i := 0) rfl)
  have hBD : r.ledger.SameLength "pt-B" "pt-D" "pt-B" "pt-A" :=
    hknown _ (List.mem_of_getElem? (i := 1) rfl)
  have hBE : r.ledger.SameLength "pt-B" "pt-E" "pt-B" "pt-C" :=
    hknown _ (List.mem_of_getElem? (i := 2) rfl)
  have hDF : r.ledger.SameLength "pt-D" "pt-F" "pt-D" "pt-E" :=
    hknown _ (List.mem_of_getElem? (i := 3) rfl)
  -- `DA = DB` comes from the two sides of the triangle.
  have hDA : r.ledger.SameLength "pt-D" "pt-A" "pt-D" "pt-B" := by
    rw [Ledger.sameLength_comm_left, Ledger.sameLength_comm_right]
    exact hAD.trans ((Ledger.sameLength_comm_right.mp hBD).symm hr) hr
  -- The ledger between the two assertions of the conclusion knows `AF = BE`.
  let first : List Assertion := [Transfer.conclusion[0]]
  have hmid : (r.ledger.recordAll first 6).2.Reached := hr.recordAll first 6
  have hAF : (r.ledger.recordAll first 6).2.SameLength "pt-A" "pt-F" "pt-B" "pt-E" :=
    hr.equates_recordAll 6 (List.mem_singleton_self Transfer.conclusion[0])
  -- The second assertion follows from the first one and the step of the circle about `B`.
  have hAF' : (r.ledger.recordAll first 6).2.SameLength "pt-A" "pt-F" "pt-B" "pt-C" :=
    hAF.trans (hBE.mono hr hmid (r.ledger.equations_subset_recordAll first 6)) hmid
  have hconcluded : (r.ledger.recordAll Transfer.conclusion 6).1 = (r.ledger.recordAll first 6).1 :=
    hr.recordAll_concat_eq first (a := Transfer.conclusion[1]) hAF'
  have hknown' : (r.ledger.recordAll Transfer.conclusion 6).2.SameLength "pt-A" "pt-F" "pt-B" "pt-C" :=
    hr.equates_recordAll 6 (a := Transfer.conclusion[1]) (List.getElem_mem _)
  refine ⟨hDF, hDA, hBE, hknown', (r.ledger.recordAll first 6).1, ?_, fun f hf => ?_⟩
  · show r.facts ++ (r.ledger.recordAll Transfer.conclusion 6).1 = _
    rw [hconcluded]
  · have ha := Ledger.assertion_mem_of_mem_recordAll hf
    exact congrArg Assertion.equation (List.mem_singleton.mp ha)

/-! ### Proposition I.3 -/

/-- The circle cuts off what has been transferred. -/
structure CutOff.Premises (r s : Replay Float) : Prop where
  cut : r.ledger.SameLength "pt-A" "pt-F" "pt-C" "pt-D"
  nothing_concluded : s.facts = r.facts

theorem cutOff_premises :
    WhenComplete style CutOff.proposition (CutOff.layout positions) CutOff.Premises := by
  refine whenComplete_of_promised style (List.mem_of_getElem? (i := 2) rfl) rfl positions ?_
  intro r hr hknown
  have hAE : r.ledger.SameLength "pt-A" "pt-E" "pt-C" "pt-D" :=
    hknown _ (List.mem_of_getElem? (i := 0) rfl)
  have hAF : r.ledger.SameLength "pt-A" "pt-F" "pt-A" "pt-E" :=
    hknown _ (List.mem_of_getElem? (i := 1) rfl)
  exact ⟨hAF.trans hAE hr, congrArg Replay.facts (r.prove_nil 3)⟩

/-! ### Proposition I.5 -/

/-- Equals are taken from equals: the wholes are equal by the cut, and the parts are given as
equal. -/
structure BaseAngles.Premises (r s : Replay Float) : Prop where
  wholes : r.ledger.SameLength "pt-A" "pt-G" "pt-A" "pt-F"
  parts : r.ledger.SameLength "pt-A" "pt-B" "pt-A" "pt-C"
  rests : s.ledger.SameLength "pt-C" "pt-G" "pt-B" "pt-F"

theorem baseAngles_premises :
    WhenComplete style BaseAngles.proposition (BaseAngles.layout positions)
      BaseAngles.Premises := by
  refine whenComplete_of_promised style (List.mem_of_getElem? (i := 4) rfl) rfl positions ?_
  intro r hr hknown
  have hAB : r.ledger.SameLength "pt-A" "pt-B" "pt-A" "pt-C" :=
    hknown _ (List.mem_of_getElem? (i := 0) rfl)
  have hAG : r.ledger.SameLength "pt-A" "pt-G" "pt-A" "pt-F" :=
    hknown _ (List.mem_of_getElem? (i := 2) rfl)
  have hCG : (r.ledger.recordAll BaseAngles.conclusion 5).2.SameLength "pt-C" "pt-G" "pt-B" "pt-F" :=
    hr.equates_recordAll 5 (a := BaseAngles.conclusion[0]) (List.getElem_mem _)
  exact ⟨hAG, hAB, hCG⟩

/-! ### All together -/

/-- **What a conclusion cites is known.**  Wherever the given points are, the replay of I.1, I.2, I.3
and I.5 gives a result, and when every step succeeds the ledger before the conclusion knows the
premises that the conclusion cites. -/
theorem premises_known :
    WhenComplete style Triangle.proposition (Triangle.layout positions) Triangle.Premises ∧
    WhenComplete style Transfer.proposition (Transfer.layout positions) Transfer.Premises ∧
    WhenComplete style CutOff.proposition (CutOff.layout positions) CutOff.Premises ∧
    WhenComplete style BaseAngles.proposition (BaseAngles.layout positions) BaseAngles.Premises :=
  ⟨triangle_premises style positions, transfer_premises style positions,
    cutOff_premises style positions, baseAngles_premises style positions⟩

/-- The first three propositions as the book has them: no step fails, and the facts of the second one
end with its conclusion `AF = BE`. -/
theorem premises_known_book :
    let triangle : Proposition Float := Triangle.proposition
    let transfer : Proposition Float := Transfer.proposition
    let cutOff : Proposition Float := CutOff.proposition
    Complete {} triangle triangle.given triangle.steps ∧
    Complete {} transfer transfer.given transfer.steps ∧
    Complete {} cutOff cutOff.given cutOff.steps ∧
    (∃ r s, (run {} triangle triangle.given triangle.steps).result = .ok s ∧
      Triangle.Premises r s) ∧
    (∃ r s, (run {} transfer transfer.given transfer.steps).result = .ok s ∧
      Transfer.Premises r s ∧ (s.facts.map Fact.equation).getLast? =
        some (.distances (.between "pt-A" "pt-F") (.between "pt-B" "pt-E"))) ∧
    ∃ r s, (run {} cutOff cutOff.given cutOff.steps).result = .ok s ∧ CutOff.Premises r s := by
  intro triangle transfer cutOff
  obtain ⟨htriangle, htransfer, hcutOff, -⟩ := premises_known {} fun _ => none
  have hcomplete₁ : Complete {} triangle triangle.given triangle.steps :=
    complete_of_flags (by decide +kernel)
  have hcomplete₂ : Complete {} transfer transfer.given transfer.steps :=
    complete_of_flags (by decide +kernel)
  have hcomplete₃ : Complete {} cutOff cutOff.given cutOff.steps :=
    complete_of_flags (by decide +kernel)
  have hlast : (run {} transfer transfer.given transfer.steps).result.toOption.map
      (fun s => (s.facts.map Fact.equation).getLast?) =
      some (some (.distances (.between "pt-A" "pt-F") (.between "pt-B" "pt-E"))) := by
    decide +kernel
  obtain ⟨r₁, s₁, -, hs₁, h₁⟩ := htriangle
  obtain ⟨r₂, s₂, -, hs₂, h₂⟩ := htransfer
  obtain ⟨r₃, s₃, -, hs₃, h₃⟩ := hcutOff
  obtain ⟨s, hs, hlast⟩ := exists_of_map_toOption_eq_some hlast
  obtain rfl : s₂ = s := Except.ok.inj (hs₂.symm.trans hs)
  exact ⟨hcomplete₁, hcomplete₂, hcomplete₃, ⟨r₁, s₁, hs₁, h₁ hcomplete₁⟩,
    ⟨r₂, s₂, hs₂, h₂ hcomplete₂, hlast⟩, r₃, s₃, hs₃, h₃ hcomplete₃⟩

end RulerCompass.Book
