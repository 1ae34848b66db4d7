import RulerCompass.Macro.Basic

/-!
# The transfer of a distance as a macro

On a target point and the two ends of a segment: draws from the target a segment of equal length,
toward the start of the given one, or straight up when the target lies there.
-/

namespace RulerCompass.Macro

variable {K : Type} [Scalar K] (style : Style)

/-- The hidden construction when the target lies off the start of the segment: a triangle with the
apex `D`, the circle that gives `E` and the circle that gives `F`. -/
def transferGhostsFrom (target start apex : Coord K) (length : K) : List (GhostLayer K) :=
  let color (i : Int) : String := style.palette.color i
  let e := start + (start - apex).direction.scale length
  let reach := apex.distance e
  let f := apex.toward target reach
  [⟨2, 1, 0, [
      .segment target start (color 0) false,
      .point apex "D" (color 1),
      .segment apex target (color 2) false,
      .segment apex start (color 3) false,
      .circle start length (color 4),
      .point e "E" (color 5),
      .segment start e (color 3) true,
      .circle apex reach (color 6),
      .point f "F" (color 7),
      .segment target f (color 2) true]⟩,
    twinCircles style target start 2]

/-- The hidden construction of a transfer.  When the target already lies on the start of the segment
only the circle about it means something.  Without an apex the construction takes a point above the
target. -/
def transferGhosts (target start : Coord K) (length : K) : Run K (List (GhostLayer K)) := do
  let base := target.distance start
  if Scalar.epsilon < base then
    let apex ← apex? style target start "A" "B"
    let above : Coord K := target + ⟨0.0, base * Scalar.sqrt 3.0 / 2.0⟩
    return transferGhostsFrom style target start (apex.getD above) length
  else
    return [⟨2, 1, 0, [
      .segment target start (style.palette.color 0) false,
      .circle start length (style.palette.color 1)]⟩]

/-- What a transfer proves about its result. -/
def transferAssertion (target start stop result : Point K) (targetId startId stopId : String) :
    Assertion where
  equation := .distances (.between targetId result.id) (.between startId stopId)
  citation := .proposition 2
  statement := target.label ++ result.label ++ " = " ++ start.label ++ stop.label
  justification := "I.2: placed at " ++ target.label ++ " a line equal to " ++ start.label ++
    stop.label

/-- The transfer on three points of the figure. -/
def transferOn (s : Scene K) (extend : Bool) (labels : OutputLabels) (target start stop : Point K)
    (targetId startId stopId : String) : Run K (Outcome K) := do
  let length := start.position.distance stop.position
  let place := target.position.toward start.position length
  let (figure, result) ←
    s.figure.addPoint style place .intersection (MacroCall.outputLabel? labels "result")
  let (s, segment) := Scene.drawSegment style { s with figure := figure } extend targetId result.id
  let ghosts ← transferGhosts style target.position start.position length
  return {
    scene := s
    added := [.point result, .segment segment]
    assertions := [transferAssertion target start stop result targetId startId stopId]
    ghosts := ghosts }

/-- Inputs: the target, the start and the end of the segment. -/
def drawTransfer (s : Scene K) (extend : Bool) (labels : OutputLabels) (inputs : List String) :
    Run K (Outcome K) :=
  match inputs with
  | targetId :: startId :: stopId :: _ =>
    match s.figure.point? targetId, s.figure.point? startId, s.figure.point? stopId with
    | some target, some start, some stop =>
      transferOn style s extend labels target start stop targetId startId stopId
    | _, _, _ => return .unchanged s
  | _ => return .unchanged s

end RulerCompass.Macro
