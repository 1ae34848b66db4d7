import RulerCompass.Ghost.Hidden

/-!
# Replays

Moving a given point invalidates all that was built on it, so a construction is performed again from
its given figure: the steps in order, the conclusion, then what the user did afterwards.  A step
that cannot be performed any more is passed over; a missing point still uses up its label.
-/

namespace RulerCompass

variable {K : Type} [Scalar K] (style : Style)

/-- A construction on its way. -/
structure Replay (K : Type) where
  scene : Scene K
  ledger : Ledger := {}
  /-- The facts proved so far, in order. -/
  facts : List Fact := []
  ghosts : List (GhostLayer K) := []
  /-- The number of steps up to the last one that succeeded. -/
  completed : Nat := 0

namespace Replay

/-- Enters what has been proved at a step. -/
def prove (r : Replay K) (as : List Assertion) (atStep : Int) : Replay K :=
  let (facts, ledger) := r.ledger.recordAll as atStep
  { r with ledger := ledger, facts := r.facts ++ facts }

/-- Marks a crossing and enters what Definition 15 says about the point. -/
def markAt (r : Replay K) (c : Crossing K) (label? : Option String) (atStep : Int) :
    Except Fault (Replay K) := do
  let (s, point) ← r.scene.mark style c label?
  return prove { r with scene := s } (c.radiusAssertions point.id s.figure) atStep

/-! ### Steps -/

/-- Performs a step; the flag tells whether it succeeded. -/
def attempt (propId : Int) (extend : Bool) (index : Nat) (r : Replay K) :
    Action → Run K (Bool × Replay K)
  | .straightedge fromId toId =>
    return (true, { r with scene := (r.scene.drawSegment style extend fromId toId).1 })
  | .compass centerId radiusPointId =>
    return (true, { r with scene := (r.scene.drawCircle style extend centerId radiusPointId).1 })
  | .mark m => do
    match ← Crossing.matching style m r.scene.crossings r.scene.figure with
    | some c => return (true, ← r.markAt style c m.label index)
    | none =>
      Run.give [.noMeeting index propId]
      return (false, { r with scene := ← r.scene.skip m.label })
  | .call c =>
    match Macro.ofProp? c.propId with
    | none => do
      Run.give [.unknownMacro index propId c.propId]
      return (false, r)
    | some m => do
      let outcome ← m.execute style r.scene extend c.outputLabels c.inputs
      if outcome.added.isEmpty then
        Run.give [.macroRefused index propId c.propId c.inputs]
        return (false, r)
      else
        let layers ← Hidden.layers style c.propId c.inputs outcome.scene.figure index
        let r := prove { r with scene := outcome.scene } outcome.assertions index
        return (true, { r with ghosts := r.ghosts ++ layers })
  | .unknown shown => Run.fail (.unknownAction shown)

/-- Performs a step and counts it when it succeeds. -/
def perform (propId : Int) (extend : Bool) (r : Replay K) (step : Step × Nat) :
    Run K (Replay K) := do
  let (succeeded, r) ← r.attempt style propId extend step.2 step.1.action
  return if succeeded then { r with completed := step.2 + 1 } else r

/-- Performs steps that are numbered from `first` on. -/
def performAll (propId : Int) (extend : Bool) (first : Nat) (steps : List Step) (r : Replay K) :
    Run K (Replay K) :=
  (steps.zipIdx first).foldlM (perform style propId extend) r

/-! ### Extras -/

/-- Performs what the user did after the proposition; segments are always prolonged. -/
def performExtra (atStep : Int) (r : Replay K) : Extra → Except Fault (Replay K)
  | .circle centerId radiusPointId =>
    .ok { r with scene := (r.scene.drawCircle style true centerId radiusPointId).1 }
  | .segment fromId toId =>
    .ok { r with scene := (r.scene.drawSegment style true fromId toId).1 }
  | .mark ofA ofB which =>
    match r.scene.crossings.find? fun c => c.Joins ofA ofB ∧ c.which = which with
    | some c => r.markAt style c none atStep
    | none => return { r with scene := ← r.scene.skip }
  | .unknown shown => .error (.unknownExtra shown)

/-- Performs all extras.  When the steps did not prolong segments, the crossings on prolonged
segments are searched first. -/
def performExtras (extend : Bool) (atStep : Int) (extras : List Extra) (r : Replay K) :
    Except Fault (Replay K) :=
  if extras.isEmpty then .ok r
  else
    let r := if extend then r else { r with scene := r.scene.searchAll true }
    extras.foldlM (performExtra style atStep) r

/-! ### The whole replay -/

/-- The given figure, with what is given as equal. -/
def start (p : Proposition K) (given : List (Element K)) : Replay K :=
  prove { scene := { figure := Figure.ofGiven given } } p.hypotheses (-1)

/-- Reads the given labels, performs the steps and enters the conclusion. -/
def throughConclusion (p : Proposition K) (given : List (Element K)) (steps : List Step) :
    Run K (Replay K) := do
  Figure.readLabels given
  let r ← performAll style p.id p.prolongs 0 steps (start p given)
  return r.prove p.conclusion steps.length

/-- Replays steps and extras on a given figure.  The definition tells what is given and concluded
and whether segments are prolonged. -/
def run (p : Proposition K) (given : List (Element K)) (steps : List Step)
    (extras : List Extra := []) : Run K (Replay K) := do
  let r ← throughConclusion style p given steps
  let r ← performExtras style p.prolongs steps.length extras r
  Run.give [.replayed p.id r.completed steps.length r.facts.length]
  return r

end Replay

end RulerCompass
