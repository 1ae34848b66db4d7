import RulerCompass.Macro.Basic

/-!
# The equilateral triangle as a macro

On two points: draws the apex and its two sides.
-/

namespace RulerCompass.Macro

variable {K : Type} [Scalar K] (style : Style)

/-- The side to `center` equals the base, by the hidden circle about `center`. -/
def sideAssertion (center other apex : Point K) : Assertion :=
  Crossing.onCircle (hiddenCircleId center.id) center.id other.id apex.id
    center.label other.label apex.label

/-- The triangle on two points of the figure. -/
def triangleOn (s : Scene K) (extend : Bool) (labels : OutputLabels) (a b : Point K)
    (aId bId : String) : Run K (Outcome K) := do
  match ← apex? style a.position b.position aId bId with
  | none => return .unchanged s
  | some place =>
    let (figure, apex) ←
      s.figure.addPoint style place .intersection (MacroCall.outputLabel? labels "apex")
    let (s, sideA) := Scene.drawSegment style { s with figure := figure } extend apex.id aId
    let (s, sideB) := Scene.drawSegment style s extend apex.id bId
    let radius := a.position.distance b.position
    return {
      scene := s
      added := [.point apex, .segment sideA, .segment sideB]
      assertions := [sideAssertion a b apex, sideAssertion b a apex]
      ghosts :=
        if Scalar.epsilon < radius then [twinCircles style a.position b.position 1] else [] }

/-- Inputs: the two ends of the base. -/
def drawTriangle (s : Scene K) (extend : Bool) (labels : OutputLabels) (inputs : List String) :
    Run K (Outcome K) :=
  match inputs with
  | aId :: bId :: _ =>
    match s.figure.point? aId, s.figure.point? bId with
    | some a, some b => triangleOn style s extend labels a b aId bId
    | _, _ => return .unchanged s
  | _ => return .unchanged s

end RulerCompass.Macro
