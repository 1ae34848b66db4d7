import RulerCompass.Gesture
import RulerCompass.Ghost.Hidden
import RulerCompass.History
import RulerCompass.Ledger.View
import RulerCompass.Narration

/-!
# Sessions

A session is free play: a scene that grows by single operations, the facts and hidden constructions
collected on the way, the ledger behind the facts, and the history to go back to.  An operation that
fails leaves the session as it was.
-/

namespace RulerCompass

/-- The state of free play. -/
structure Session (K : Type) where
  style : Style := {}
  scene : Scene K := {}
  facts : List Fact := []
  ghosts : List (GhostLayer K) := []
  ledger : Ledger := {}
  history : History K := []

namespace Session

variable {K : Type} [Scalar K] (s : Session K)

/-- What has been drawn. -/
def figure : Figure K := s.scene.figure

/-! ### Drawing -/

/-- Puts another figure in the place of the present one. -/
def withFigure (f : Figure K) : Session K := { s with scene := { s.scene with figure := f } }

/-- Draws a point. -/
def addPoint (place : Coord K) (origin : Origin) (label? : Option String) :
    Except Fault (Point K × Session K) := do
  let (f, p) ← s.figure.addPoint s.style place origin label?
  return (p, s.withFigure f)

/-- The crossings of an element that the session does not know yet. -/
def unknownCrossings (e : Element K) (extend : Bool) : List (Crossing K) :=
  s.figure.newCrossings e s.scene.crossings extend

/-- Searches the crossings of an element and keeps them. -/
def search (e : Element K) (extend : Bool) : List (Crossing K) × Session K :=
  (s.unknownCrossings e extend, { s with scene := s.scene.search extend e })

/-- Draws a circle; its crossings are not searched yet. -/
def addCircle (centerId radiusPointId : String) : Element K × Session K :=
  let (f, c) := s.figure.addCircle s.style centerId radiusPointId
  (.circle c, s.withFigure f)

/-- Draws a segment; its crossings are not searched yet. -/
def addSegment (fromId toId : String) : Element K × Session K :=
  let (f, g) := s.figure.addSegment s.style fromId toId
  (.segment g, s.withFigure f)

/-! ### Proving -/

/-- Enters assertions; gives the new facts. -/
def prove (as : List Assertion) (atStep : Int) : List Fact × Session K :=
  let (facts, ledger) := s.ledger.recordAll as atStep
  (facts, { s with ledger := ledger, facts := s.facts ++ facts })

/-- Enters what follows at the end of a proposition; gives the new facts. -/
def conclude (p : Proposition K) (atStep : Int) : Except Fault (List Fact × Session K) :=
  if p.conclusion.isEmpty then .error .noConclusion else .ok (s.prove p.conclusion atStep)

/-- Marks the crossing that a step means; gives the crossing, the point and the new facts. -/
def mark (m : Marking) (atStep : Int) :
    Run K (Option (Crossing K × Point K × List Fact) × Session K) := do
  match ← Crossing.matching s.style m s.scene.crossings s.figure with
  | none => return (none, s)
  | some c =>
    let (scene, p) ← s.scene.mark s.style c m.label
    let (facts, s) := prove { s with scene := scene } (c.radiusAssertions p.id scene.figure) atStep
    return (some (c, p, facts), s)

/-- Uses a macro; gives what it added, the new facts and the hidden construction.  None when there
is no macro of that number. -/
def call (c : MacroCall) (extend : Bool) (atStep : Int) :
    Run K (Option (Macro.Outcome K × List Fact) × Session K) := do
  match Macro.ofProp? c.propId with
  | none => return (none, s)
  | some m =>
    let outcome ← m.execute s.style s.scene extend c.outputLabels c.inputs
    let (facts, s) := prove { s with scene := outcome.scene } outcome.assertions atStep
    return (some (outcome, facts), { s with ghosts := s.ghosts ++ outcome.ghosts })

/-- Collects the hidden construction of a proposition used on these inputs. -/
def reveal (propId : Int) (inputs : List String) (atStep depth : Int) :
    Run K (List (GhostLayer K) × Session K) := do
  let layers ← Hidden.layers s.style propId inputs s.figure atStep depth
  return (layers, { s with ghosts := s.ghosts ++ layers })

/-! ### The ledger -/

/-- Whether two relations are known to be equal. -/
def ask (r t : Relation) : Bool × Session K :=
  let (answer, ledger) := s.ledger.equal r t
  (answer, { s with ledger := ledger })

/-- The facts made before a step, or all. -/
def factsUpTo (step? : Option Int) : List Fact :=
  match step? with
  | none => s.facts
  | some step => Fact.before step s.facts

/-- Builds the ledger anew from the collected facts. -/
def rebuild (step? : Option Int) : Session K :=
  { s with ledger := Ledger.ofFacts (s.factsUpTo step?) }

/-! ### The history -/

/-- Puts the present state on the history. -/
def snapshot (stepIndex : Int) : Session K :=
  { s with history := s.history.push ⟨s.scene, s.facts, s.ghosts, stepIndex⟩ }

/-- Goes on from a snapshot. -/
def restore (h : History K) (t : Snapshot K) : Session K :=
  { s with
    scene := t.scene
    facts := t.facts
    ghosts := t.ghosts
    ledger := t.ledger
    history := h }

/-- Goes back to the snapshot before the newest one. -/
def undo : Except Fault (Snapshot K × Session K) := do
  let (h, t) ← s.history.undo
  return (t, s.restore h t)

/-- Goes back to the snapshot of a step. -/
def rewind (step : Int) : Except Fault (Snapshot K × Session K) := do
  let (h, t) ← s.history.rewind step
  return (t, s.restore h t)

end Session

end RulerCompass
