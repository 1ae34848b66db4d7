import RulerCompass.Macro.Transfer

/-!
# Cutting off an equal part as a macro

On the two ends of a greater segment and the two ends of a less one: marks on the greater, from its
first end, the length of the less.  The length is first transferred to that end.  When it already is
the start of the less segment, the transfer only shows as ghosts.
-/

namespace RulerCompass.Macro

variable {K : Type} [Scalar K] (style : Style)

/-- The label for the point of the inner transfer, which must not take the one requested for the
result. -/
def innerLabels (f : Figure K) (labels : OutputLabels) : Except Fault OutputLabels := do
  match MacroCall.outputLabel? labels "result" with
  | none => return none
  | some reserved =>
    if (← Label.ofIndex f.nextLabel) = reserved then
      return some [("result", ← Label.ofIndex (f.nextLabel + 1))]
    else return none

/-- What the cut proves about its result. -/
def cutAssertion (cut target start stop result : Point K) (cutId startId stopId : String) :
    Assertion where
  equation := .distances (.between cutId result.id) (.between startId stopId)
  citation := .proposition 3
  statement := cut.label ++ result.label ++ " = " ++ start.label ++ stop.label
  justification := "I.3: cut off from " ++ cut.label ++ target.label ++ " a part equal to " ++
    start.label ++ stop.label

/-- Drawn points and segments as ghosts, coloured by their place in the list. -/
def addedGhosts (f : Figure K) (added : List (Element K)) : List (Ghost K) :=
  (added.mapIdx fun i e => match e with
    | .point p => some (Ghost.ofPoint p (style.palette.color i))
    | .segment s => Ghost.ofSegment? f s (style.palette.color i)
    | .circle _ => none).filterMap id

/-- The cut on four points of the figure. -/
def cutOffOn (s : Scene K) (extend : Bool) (labels : OutputLabels)
    (cut target start stop : Point K) (cutId startId stopId : String) : Run K (Outcome K) := do
  let inner ← innerLabels s.figure labels
  let moved ← transferOn style s extend inner cut start stop cutId startId stopId
  let kept := if start.position.distance cut.position < Scalar.epsilon then .unchanged s else moved
  let length := start.position.distance stop.position
  let place := cut.position.toward target.position length
  let (figure, result) ← kept.scene.figure.addPoint style place .intersection
    (MacroCall.outputLabel? labels "result")
  let drawn := addedGhosts style moved.scene.figure moved.added
  let count := moved.added.length
  return {
    scene := { kept.scene with figure := figure }
    added := kept.added ++ [.point result]
    assertions :=
      kept.assertions ++ [cutAssertion cut target start stop result cutId startId stopId]
    ghosts :=
      ⟨3, 1, 0, drawn ++ [
        .circle cut.position length (style.palette.color count),
        .point place result.label (style.palette.color (count + 1))]⟩ ::
      moved.ghosts.map fun layer => { layer with depth := layer.depth + 1 } }

/-- Inputs: the two ends of the greater segment, then those of the less. -/
def drawCutOff (s : Scene K) (extend : Bool) (labels : OutputLabels) (inputs : List String) :
    Run K (Outcome K) :=
  match inputs with
  | cutId :: targetId :: startId :: stopId :: _ =>
    match s.figure.point? cutId, s.figure.point? targetId, s.figure.point? startId,
      s.figure.point? stopId with
    | some cut, some target, some start, some stop =>
      cutOffOn style s extend labels cut target start stop cutId startId stopId
    | _, _, _, _ => return .unchanged s
  | _ => return .unchanged s

end RulerCompass.Macro
