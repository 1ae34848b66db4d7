import RulerCompass.Proofs.Ledger.Batch
import RulerCompass.Proofs.Macro.Shape
import RulerCompass.Proposition.Basic

/-!
# Macros are atomic

A macro either leaves scene and ledger as they were or appends to both: there is no way to stop in
the middle.  What an outcome asserts is entered in one batch, so a macro that could not run, which
asserts nothing, never touches the ledger.  A cut that begins where the less segment does performs a
transfer for the ghosts alone, and nothing of it is kept.
-/

namespace RulerCompass.Macro

variable {K : Type} [Scalar K] {style : Style} {s : Scene K} {extend : Bool} {labels : OutputLabels}
  {m : Macro} {inputs : List String} {o : Outcome K}

/-- An outcome that has added something continues scene and ledger. -/
theorem Outcome.Follows.appends (ho : Outcome.Follows style s o) (l : Ledger) (atStep : Int) :
    o.scene.figure.elements = s.figure.elements ++ o.added ∧ s.crossings <+: o.scene.crossings ∧
      (l.recordAll o.assertions atStep).2.facts =
        l.facts ++ (l.recordAll o.assertions atStep).1 ∧
      s.figure.nextLabel ≤ o.scene.figure.nextLabel ∧
      s.figure.nextColor ≤ o.scene.figure.nextColor := by
  have hleads := ho.draws.leads
  exact ⟨ho.draws.elements_eq, ho.draws.crossings_prefix, l.recordAll_facts o.assertions atStep,
    hleads.nextLabel_le, hleads.nextColor_le⟩

/-- The cut draws its point in the scene as it was, and only that, when it begins where the less
segment does. -/
theorem exists_of_cutOffOn_start {cut target start stop : Point K} {cutId startId stopId : String}
    (ho : (cutOffOn style s extend labels cut target start stop cutId startId stopId).result =
      .ok o) (hnear : start.position.distance cut.position < Scalar.epsilon) :
    ∃ place r,
      s.figure.addPoint style place .intersection (MacroCall.outputLabel? labels "result") = .ok r ∧
      o.scene = { s with figure := r.1 } ∧ o.added = [.point r.2] ∧
        o.assertions = [cutAssertion cut target start stop r.2 cutId startId stopId] := by
  obtain ⟨inner, moved, kept, place, r, -, -, hkept, hr, hscene, hadded, has⟩ := exists_of_cutOffOn ho
  rw [if_pos hnear] at hkept
  subst hkept
  exact ⟨place, r, hr, hscene, hadded, has⟩

/-- **Macros are atomic.**  A macro gives an outcome whatever its inputs are, while there are labels for its
points; it can fail for the length of a label only.  Entered into any ledger, the outcome has either
added nothing, and then scene, ledger and ghosts are as before, or it has added elements after those of
the figure, crossings after those known and facts after those of the ledger, and no counter goes back.
A cut that begins where the less segment does adds one point to the scene as it was, and asserts one
equation. -/
theorem execute_atomic (style : Style) (m : Macro) (s : Scene K) (extend : Bool)
    (labels : OutputLabels) (inputs : List String) (l : Ledger) (atStep : Int) :
    (s.figure.Room m.mostPoints (MacroCall.outputLabel? labels m.resultName) →
      ∃ o, (m.execute style s extend labels inputs).result = .ok o) ∧
    (0 ≤ s.figure.nextLabel →
      FailsBy Fault.OfLength (m.execute style s extend labels inputs).result) ∧
    ∀ o, (m.execute style s extend labels inputs).result = .ok o →
      ((o.scene = s ∧ (l.recordAll o.assertions atStep).2 = l ∧ o.added = [] ∧
          (l.recordAll o.assertions atStep).1 = [] ∧ o.ghosts = []) ∨
        (o.added ≠ [] ∧ o.scene.figure.elements = s.figure.elements ++ o.added ∧
          s.crossings <+: o.scene.crossings ∧
          (l.recordAll o.assertions atStep).2.facts =
            l.facts ++ (l.recordAll o.assertions atStep).1 ∧
          s.figure.nextLabel ≤ o.scene.figure.nextLabel ∧
          s.figure.nextColor ≤ o.scene.figure.nextColor)) ∧
      ∀ cutId targetId startId stopId rest cut target start stop, m = .cutOff →
        inputs = cutId :: targetId :: startId :: stopId :: rest →
        s.figure.point? cutId = some cut → s.figure.point? targetId = some target →
        s.figure.point? startId = some start → s.figure.point? stopId = some stop →
        start.position.distance cut.position < Scalar.epsilon →
        ∃ place r, s.figure.addPoint style place .intersection
            (MacroCall.outputLabel? labels "result") = .ok r ∧
          o.scene = { s with figure := r.1 } ∧ o.added = [.point r.2] ∧
          o.assertions = [cutAssertion cut target start stop r.2 cutId startId stopId] := by
  have hmeets := m.execute_meets style s extend labels inputs
  refine ⟨hmeets.1, fun hcounter => execute_failsBy hcounter m inputs, fun o ho => ⟨?_, ?_⟩⟩
  · by_cases hadded : o.added = []
    · -- Nothing is added, so nothing else is done either.
      left
      have hsame : o = .unchanged s := eq_unchanged_of_added_eq_nil ho hadded
      subst hsame
      exact ⟨rfl, rfl, rfl, rfl, rfl⟩
    · -- Something is added, and all the rest is put behind what was there.
      right
      exact ⟨hadded, (hmeets.2 o ho).appends l atStep⟩
  · intro cutId targetId startId stopId rest cut target start stop hm hinputs hcut htarget hstart
      hstop hnear
    subst hm hinputs
    have hrun : (cutOffOn style s extend labels cut target start stop cutId startId stopId).result =
        .ok o := by
      simpa only [execute, drawCutOff, hcut, htarget, hstart, hstop] using ho
    exact exists_of_cutOffOn_start hrun hnear

/-- The part `AC` cut off from `AB` where both lines begin in `A`: the point `G` is all that is added
to the scene, and `AG = AC` is the one fact. -/
theorem execute_atomic_corner :
    let s : Scene Float :=
      { figure := Figure.ofGiven
          [Point.given "A" ⟨0.0, 0.0⟩, Point.given "B" ⟨4.0, 0.0⟩, Point.given "C" ⟨0.0, 1.0⟩] }
    let labels : OutputLabels := some [("result", "G")]
    let result := (Macro.cutOff.execute {} s true labels ["pt-A", "pt-B", "pt-A", "pt-C"]).result
    s.figure.Room 2 (MacroCall.outputLabel? labels "result") ∧
      ∃ (o : Outcome Float) (r : Figure Float × Point Float), result = .ok o ∧
        o.scene = { s with figure := r.1 } ∧ o.added = [.point r.2] ∧ r.2.id = "pt-G" ∧
        (({} : Ledger).recordAll o.assertions 3).2.facts.map Fact.equation =
          [.distances (.between "pt-A" "pt-G") (.between "pt-A" "pt-C")] := by
  intro s labels result
  have hroom : s.figure.Room 2 (MacroCall.outputLabel? labels "result") := by decide +kernel
  obtain ⟨houtcome, -, hatomic⟩ := execute_atomic {} .cutOff s true labels
    ["pt-A", "pt-B", "pt-A", "pt-C"] {} 3
  obtain ⟨o, ho⟩ := houtcome hroom
  obtain ⟨-, hcut⟩ := hatomic o ho
  have hnear : Coord.distance (⟨0.0, 0.0⟩ : Coord Float) ⟨0.0, 0.0⟩ < Scalar.epsilon := by
    decide +kernel
  obtain ⟨place, r, hr, hscene, hadded, has⟩ :=
    hcut "pt-A" "pt-B" "pt-A" "pt-C" [] _ _ _ _ rfl rfl rfl rfl rfl rfl hnear
  have hid : r.2.id = "pt-G" := Figure.id_of_addPoint hr rfl
  have hfacts : result.toOption.map (fun o =>
      (({} : Ledger).recordAll o.assertions 3).2.facts.map Fact.equation) =
      some [.distances (.between "pt-A" "pt-G") (.between "pt-A" "pt-C")] := by decide +kernel
  have hresult : result = .ok o := ho
  rw [hresult] at hfacts
  exact ⟨hroom, o, r, ho, hscene, hadded, hid, Option.some.inj hfacts⟩

end RulerCompass.Macro
