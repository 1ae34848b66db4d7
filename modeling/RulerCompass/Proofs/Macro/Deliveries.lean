import RulerCompass.Proofs.Ledger.Known
import RulerCompass.Proofs.Macro.Abreast
import RulerCompass.Proposition.Basic

/-!
# What a macro delivers

A macro is called for the equal distances that it makes.  Its assertions are entered into a ledger that
may know some of them already, and may refuse them for this reason.  So what is delivered is read off the
answers of the ledger, not off the new facts: all that has been asserted is known, and what follows from it
is known by transitivity.
-/

namespace RulerCompass.Macro

variable {K : Type} {style : Style}

/-- What a ledger knows about the points that a macro has made, from the inputs and the elements added.  The
inner point of a cut comes with a segment, before the result. -/
def Delivers (l : Ledger) : Macro → List String → List (Element K) → Prop
  | triangle, a :: b :: _, [.point apex, .segment _, .segment _] =>
    l.SameLength a apex.id a b ∧ l.SameLength b apex.id b a ∧ l.SameLength a apex.id b apex.id
  | transfer, target :: start :: stop :: _, [.point result, .segment _] =>
    l.SameLength target result.id start stop
  | cutOff, cut :: _ :: start :: stop :: _, [.point result] => l.SameLength cut result.id start stop
  | cutOff, cut :: _ :: start :: stop :: _, [.point inner, .segment _, .point result] =>
    l.SameLength cut result.id start stop ∧ l.SameLength cut inner.id start stop ∧
      l.SameLength cut inner.id cut result.id
  | _, _, _ => False

variable [Scalar K] {s : Scene K} {extend : Bool} {labels : OutputLabels} {m : Macro}
  {inputs : List String} {o : Outcome K} {l : Ledger}

/-- **All that is promised is known** once the assertions are entered, be they new or not. -/
theorem Runs.delivers (h : Runs style s extend labels m inputs o) (hadded : o.added ≠ [])
    (hl : l.Reached) (atStep : Int) :
    Delivers (l.recordAll o.assertions atStep).2 m inputs o.added := by
  have hafter := hl.recordAll o.assertions atStep
  have hknown : ∀ a ∈ o.assertions, (l.recordAll o.assertions atStep).2.Equates a.equation.left
      a.equation.right := fun a ha => hl.equates_recordAll atStep ha
  cases h with
  | @triangle aId bId rest a b o ha hb ho =>
    rcases exists_of_triangleOn ho with rfl | ⟨place, r, -, -, hdrawn, has⟩
    · exact absurd rfl hadded
    · obtain rfl := Figure.id_of_point? ha
      obtain rfl := Figure.id_of_point? hb
      rw [hdrawn]
      have hfirst := hknown (sideAssertion a b r.2) (by simp [has])
      have hsecond := hknown (sideAssertion b a r.2) (by simp [has])
      -- The base is named from both ends.
      have hbase := Ledger.sameLength_comm_right.mp hfirst
      exact ⟨hfirst, hsecond, hbase.trans (hsecond.symm hafter) hafter⟩
  | @transfer targetId startId stopId rest target start stop o ht hs hp ho =>
    obtain ⟨place, r, -, -, hdrawn, has⟩ := exists_of_transferOn ho
    rw [hdrawn]
    exact hknown (transferAssertion target start stop r.2 targetId startId stopId) (by simp [has])
  | @cutOff cutId targetId startId stopId rest cut target start stop o hc ht hs hp ho =>
    obtain ⟨inner, moved, kept, place, r, -, hmoved, hkept, -, -, hdrawn, has⟩ := exists_of_cutOffOn ho
    have hresult := hknown (cutAssertion cut target start stop r.2 cutId startId stopId) (by simp [has])
    rw [hdrawn]
    split at hkept
    · -- Nothing is promised of the inner run, which is dropped.
      rw [hkept]
      exact hresult
    · -- The inner run is kept: its length is that of the result too.
      obtain ⟨place', q, -, -, hmovedDrawn, hmovedAs⟩ := exists_of_transferOn hmoved
      have hinner := hknown (transferAssertion cut start stop q.2 cutId startId stopId)
        (by simp [has, hkept, hmovedAs])
      rw [hkept, hmovedDrawn]
      exact ⟨hresult, hinner, hinner.trans (hresult.symm hafter) hafter⟩

/-- **Macros deliver.**  Take any ledger that calls have made, and a macro with any inputs, labels and
crossings.  If the macro adds elements, then its assertions, entered at any step, leave a ledger that knows
all that the macro promises about the points it has made, and all that was known before.  A cut makes its
inner point too unless it begins at the start of the less segment. -/
theorem execute_delivers (style : Style) (m : Macro) (s : Scene K) (extend : Bool)
    (labels : OutputLabels) (inputs : List String) (calls : List Ledger.Call) (atStep : Int)
    {o : Outcome K} (ho : (m.execute style s extend labels inputs).result = .ok o)
    (hadded : o.added ≠ []) :
    let l := Ledger.after {} calls
    let l' := (l.recordAll o.assertions atStep).2
    Delivers l' m inputs o.added ∧ pointCount o.added = m.pointsMade s.figure inputs ∧
      ∀ r r' : Relation, l.Equates r r' → l'.Equates r r' := by
  intro l l'
  have hl : l.Reached := ⟨calls, rfl⟩
  have hdelivers : Delivers l' m inputs o.added := by
    rcases eq_unchanged_or_runs ho with rfl | hruns
    · exact absurd rfl hadded
    · exact hruns.delivers hadded hl atStep
  refine ⟨hdelivers, pointCount_of_execute ho hadded, fun r r' hr => ?_⟩
  exact hr.mono hl (hl.recordAll _ _) (l.equations_subset_recordAll _ _)

/-- The part `AG` cut off from `AB` equal to `CD`, where `AG = CD` is known beforehand: the inner transfer
to `AE` gives the one new fact, and all three distances are known to be equal. -/
theorem execute_delivers_known_part :
    let s : Scene Float :=
      { figure := Figure.ofGiven [Point.given "A" ⟨0.0, 0.0⟩, Point.given "B" ⟨4.0, 0.0⟩,
          Point.given "C" ⟨0.0, 1.0⟩, Point.given "D" ⟨0.0, 3.0⟩] }
    let inputs := ["pt-A", "pt-B", "pt-C", "pt-D"]
    let result := (cutOff.execute {} s true (some [("result", "G")]) inputs).result
    let l := Ledger.after {} [.record
      ⟨.distances (.between "pt-A" "pt-G") (.between "pt-C" "pt-D"), .given, "", ""⟩ 0]
    ∃ o, result = .ok o ∧ o.added.map Element.id = ["pt-E", "seg-1", "pt-G"] ∧
      (l.recordAll o.assertions 3).1.map Fact.equation =
        [.distances (.between "pt-A" "pt-E") (.between "pt-C" "pt-D")] ∧
      Delivers (l.recordAll o.assertions 3).2 .cutOff inputs o.added := by
  intro s inputs result l
  have hrun : result.toOption.map (fun o =>
      (o.added.map Element.id, (l.recordAll o.assertions 3).1.map Fact.equation)) =
      some (["pt-E", "seg-1", "pt-G"],
        [.distances (.between "pt-A" "pt-E") (.between "pt-C" "pt-D")]) := by decide +kernel
  obtain ⟨o, ho, hparts⟩ := exists_of_map_toOption_eq_some hrun
  obtain ⟨hids, hfacts⟩ := Prod.mk.inj hparts
  have hadded : o.added ≠ [] := by
    intro hnil
    rw [hnil] at hids
    cases hids
  obtain ⟨hdelivers, -, -⟩ := execute_delivers {} .cutOff s true (some [("result", "G")]) inputs _ 3 ho
    hadded
  exact ⟨o, ho, hids, hfacts, hdelivers⟩

end RulerCompass.Macro
