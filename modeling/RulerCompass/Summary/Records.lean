import RulerCompass.Action
import RulerCompass.Crossing.Search
import RulerCompass.Ghost.Basic
import RulerCompass.Ledger.Fact
import RulerCompass.Summary.Exhibit

/-!
# Records of the domain

Figures, crossings, facts, actions and ghosts as values that a trace can show.  A record with an id
is shown by the id alone, so its other fields are left out here.
-/

namespace RulerCompass.Exhibit

mutual

def ofDatum : Datum → Exhibit
  | .null => null
  | .bool b => bool b
  | .int i => int i
  | .float x => float x
  | .text s => text s
  | .list items => list (ofData items)
  | .table entries => table (ofEntries entries)

def ofData : List Datum → List Exhibit
  | [] => []
  | d :: rest => ofDatum d :: ofData rest

def ofEntries : List (String × Datum) → List (String × Exhibit)
  | [] => []
  | (key, d) :: rest => (key, ofDatum d) :: ofEntries rest

end

/-- A text, or nothing. -/
def ofOption (s : Option String) : Exhibit := s.elim null text

/-- An element is shown by its kind and id. -/
def ofElement : Element Float → Exhibit
  | .point p => record "ConstructionPoint" [("id", text p.id)]
  | .segment s => record "ConstructionSegment" [("id", text s.id)]
  | .circle c => record "ConstructionCircle" [("id", text c.id)]

def ofFigure (f : Figure Float) : Exhibit :=
  record "ConstructionState"
    [("elements", tuple (f.elements.map ofElement)), ("next_label_index", int f.nextLabel),
      ("next_color_index", int f.nextColor)]

def ofCrossing (c : Crossing Float) : Exhibit :=
  record "IntersectionCandidate"
    [("x", float c.x), ("y", float c.y), ("of_a", text c.ofA), ("of_b", text c.ofB),
      ("which", int c.which)]

/-- A fact is shown by its kind and number. -/
def ofFact (f : Fact) : Exhibit :=
  let name := match f.equation with
    | .distances .. => "EqualityFact"
    | .angles .. => "AngleEqualityFact"
  record name [("id", int f.id)]

def ofDistance (d : Distance) : Exhibit := record "DistancePair" [("a", text d.a), ("b", text d.b)]

def ofAngle (a : Angle) : Exhibit :=
  record "AngleMeasure" [("vertex", text a.vertex), ("ray1", text a.ray1), ("ray2", text a.ray2)]

def ofSelector : Selector → Exhibit
  | .named id => text id
  | .circle centerId radiusPointId =>
    record "CircleSelector"
      [("center_id", text centerId), ("radius_point_id", text radiusPointId),
        ("kind", text "circle")]
  | .segment fromId toId =>
    record "SegmentSelector"
      [("from_id", text fromId), ("to_id", text toId), ("kind", text "segment")]
  | .unknown d => ofDatum d

/-- Requested labels in the order of the names. -/
def ofLabels (labels : Option (List (String × String))) : Exhibit :=
  match labels with
  | none => null
  | some labels => table ((labels.mergeSort fun a b => decide (a.1 ≤ b.1)).map
      fun (name, label) => (name, text label))

def ofAction : Action → Exhibit
  | .straightedge fromId toId =>
    record "StraightedgeAction"
      [("from_id", text fromId), ("to_id", text toId), ("type", text "straightedge")]
  | .compass centerId radiusPointId =>
    record "CompassAction"
      [("center_id", text centerId), ("radius_point_id", text radiusPointId),
        ("type", text "compass")]
  | .mark m =>
    record "IntersectionAction"
      [("of_a", m.ofA.elim null ofSelector), ("of_b", m.ofB.elim null ofSelector),
        ("beyond_id", ofOption m.beyondId), ("label", ofOption m.label),
        ("type", text "intersection")]
  | .call c =>
    record "MacroAction"
      [("prop_id", int c.propId), ("input_point_ids", tuple (c.inputs.map text)),
        ("output_labels", ofLabels c.outputLabels), ("type", text "macro")]
  | .unknown d => ofDatum d

def ofGhost : Ghost Float → Exhibit
  | .point p label color =>
    record "GhostPoint"
      [("x", float p.x), ("y", float p.y), ("label", text label), ("color", text color),
        ("kind", text "point")]
  | .segment a b color isProduction =>
    record "GhostSegment"
      [("x1", float a.x), ("y1", float a.y), ("x2", float b.x), ("y2", float b.y),
        ("color", text color), ("is_production", bool isProduction), ("kind", text "segment")]
  | .circle c r color =>
    record "GhostCircle"
      [("cx", float c.x), ("cy", float c.y), ("r", float r), ("color", text color),
        ("kind", text "circle")]

def ofLayer (l : GhostLayer Float) : Exhibit :=
  record "GhostLayer"
    [("prop_id", int l.propId), ("depth", int l.depth), ("at_step", int l.atStep),
      ("elements", tuple (l.elements.map ofGhost))]

end RulerCompass.Exhibit
