import RulerCompass.Book.Catalogue
import RulerCompass.Macro.Catalogue

/-!
# Hidden constructions

The drawing that a macro leaves out: the proposition's own steps, performed on the inputs of the
macro in a figure of their own.  Macros inside it lie one layer deeper.
-/

namespace RulerCompass

variable {K : Type} [Scalar K] (style : Style)

/-! ### Prolongations -/

/-- The first segment among these elements that ends in the point. -/
def Figure.segmentEndingIn? (f : Figure K) (pointId : String) :
    List Selector → Except Fault (Option Segment)
  | [] => .ok none
  | s :: rest => do
    let id ← s.resolve f
    match (f.segment? (id.getD "")).filter fun t => pointId = t.fromId ∨ pointId = t.toId with
    | some t => return some t
    | none => segmentEndingIn? f pointId rest

/-- A prolongation has the colour of the segment that it prolongs. -/
def Marking.prolongationColor (m : Marking) (f : Figure K) (beyondId : String) :
    Except Fault String := do
  let parent ← f.segmentEndingIn? beyondId (m.ofA.toList ++ m.ofB.toList)
  return parent.elim style.fallback Segment.color

/-- The prolongation past the end point that a marking names. -/
def Marking.prolongation? (m : Marking) (f : Figure K) (marked : Point K) :
    Except Fault (Option (Ghost K)) := do
  match m.beyond? with
  | none => return none
  | some beyondId =>
    match f.point? beyondId with
    | none => return none
    | some p =>
      let color ← m.prolongationColor style f beyondId
      return some (.segment p.position marked.position color true)

/-! ### Moving the given figure -/

/-- The given figure of a proposition with its points moved to the inputs, in order; none when an
input is not a point of the figure. -/
def Macro.givenFor? (m : Macro) (p : Proposition K) (inputs : List String) (parent : Figure K) :
    Option (List (Element K)) := do
  let places ← (m.givenIds.zip inputs).mapM fun (givenId, inputId) => do
    let q ← parent.point? inputId
    return (givenId, q)
  return p.given.map fun e => match e with
    | .point g => match places.lookup g.id with
      | some q => .point { g with x := q.x, y := q.y }
      | none => e
    | _ => e

/-! ### Performing the steps -/

/-- A hidden construction on its way: its scene, its own drawing and the layers below. -/
structure Hidden (K : Type) where
  scene : Scene K
  elements : List (Ghost K) := []
  deeper : List (GhostLayer K) := []

namespace Hidden

/-- Goes on in a scene with more of its own drawing. -/
def draw (h : Hidden K) (s : Scene K) (gs : List (Ghost K)) : Hidden K :=
  { h with scene := s, elements := h.elements ++ gs }

/-- The drawing that a macro adds, without circles. -/
def drawn (f : Figure K) : Element K → Option (Ghost K)
  | .point p => some (.ofPoint p p.color)
  | .segment s => Ghost.ofSegment? f s s.color
  | .circle _ => none

/-- Performs one step.  `below` gives the layers of a macro used in it, on the figure so far. -/
def perform (extend : Bool) (below : Macro → List String → Figure K → Run K (List (GhostLayer K)))
    (h : Hidden K) : Action → Run K (Hidden K)
  | .compass centerId radiusPointId =>
    let (s, circle) := h.scene.drawCircle style extend centerId radiusPointId
    return h.draw s (Ghost.ofCircle? s.figure circle circle.color).toList
  | .straightedge fromId toId =>
    let (s, segment) := h.scene.drawSegment style extend fromId toId
    return h.draw s (Ghost.ofSegment? s.figure segment segment.color).toList
  | .mark m => do
    match ← Crossing.matching style m h.scene.crossings h.scene.figure with
    | none => return { h with scene := ← h.scene.skip m.label }
    | some c =>
      let (s, point) ← h.scene.mark style c m.label
      let beyond ← m.prolongation? style s.figure point
      return h.draw s (Ghost.ofPoint point point.color :: beyond.toList)
  | .call c =>
    match Macro.ofProp? c.propId with
    | none => return h
    | some m => do
      let outcome ← m.execute style h.scene extend c.outputLabels c.inputs
      let layers ← below m c.inputs h.scene.figure
      let h := h.draw outcome.scene (outcome.added.filterMap (drawn outcome.scene.figure))
      return { h with deeper := h.deeper ++ layers }
  | .unknown shown => Run.fail (.unknownAction shown)

/-- The layers of a macro, its own first unless it is empty.  A proposition uses only earlier ones,
so its number bounds the nesting. -/
def layersWithin : Nat → Macro → List String → Figure K → Int → Int → Run K (List (GhostLayer K))
  | 0, _, _, _, _, _ => return []
  | bound + 1, m, inputs, parent, atStep, depth =>
    match Book.proposition? (K := K) m.number with
    | none => return []
    | some p =>
      match m.givenFor? p inputs parent with
      | none => return []
      | some given => do
        let start : Hidden K := { scene := { figure := ← Figure.readGiven given } }
        let below := fun m inputs f => layersWithin bound m inputs f atStep (depth + 1)
        let h ← p.steps.foldlM (fun h s => h.perform style p.prolongs below s.action) start
        let own := if h.elements.isEmpty then [] else [⟨m.number, depth, atStep, h.elements⟩]
        return own ++ h.deeper

/-- The layers of the hidden construction of a proposition used on these inputs. -/
def layers (propId : Int) (inputs : List String) (parent : Figure K) (atStep : Int)
    (depth : Int := 1) : Run K (List (GhostLayer K)) :=
  match Macro.ofProp? propId with
  | none => return []
  | some m => layersWithin style m.number m inputs parent atStep depth

end Hidden

end RulerCompass
