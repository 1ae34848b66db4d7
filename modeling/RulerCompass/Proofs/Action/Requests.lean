import RulerCompass.Macro.Catalogue
import RulerCompass.Proofs.Figure.Counter
import RulerCompass.Proposition.Basic

/-!
# Labels that actions ask for

A step may ask for a label by name, and it makes points that get labels.  Where the counter has come to
by then depends on what has failed before, but a bound can be read off the steps.  While this bound stays
below the number of labels that can be written, no step is without a label.
-/

namespace RulerCompass

namespace Macro

/-- The name by which a macro looks up the label of its result. -/
def resultName : Macro → String
  | triangle => "apex"
  | transfer => "result"
  | cutOff => "result"

/-- The most points that a macro makes. -/
def mostPoints : Macro → Nat
  | triangle => 1
  | transfer => 1
  | cutOff => 2

theorem mostPoints_pos (m : Macro) : 0 < m.mostPoints := by
  cases m <;> decide

end Macro

/-- What an action asks of the counter. -/
def Action.request : Action → Request
  | .mark m => ⟨m.label, 1⟩
  | .call c => match Macro.ofProp? c.propId with
    | none => {}
    | some m => ⟨MacroCall.outputLabel? c.outputLabels m.resultName, m.mostPoints⟩
  | _ => {}

theorem Action.request_call {c : MacroCall} {m : Macro} (hm : Macro.ofProp? c.propId = some m) :
    (call c).request = ⟨MacroCall.outputLabel? c.outputLabels m.resultName, m.mostPoints⟩ := by
  rw [request, hm]

/-- What steps ask of the counter, one after the other. -/
def requests (steps : List Step) : List Request := steps.map fun step => step.action.request

end RulerCompass
