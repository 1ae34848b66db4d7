import RulerCompass.Ghost.Basic
import RulerCompass.Ledger.Fact

/-!
# Narration

Plain text of a figure, of what has been proved in it, and of its hidden constructions.
-/

namespace RulerCompass

variable {K : Type}

/-- Text without the first occurrence of the mark for points. -/
def withoutPointMark : List Char → List Char
  | 'p' :: 't' :: '-' :: rest => rest
  | c :: rest => c :: withoutPointMark rest
  | [] => []

/-- The short name of a point. -/
def shortName (pointId : String) : String := String.ofList (withoutPointMark pointId.toList)

namespace Figure

/-- The line of the points, if there are any. -/
def pointLine (f : Figure K) : List String :=
  if f.points.isEmpty then []
  else ["Points: " ++ ", ".intercalate
    (f.points.map fun p => p.label ++ " (" ++ p.origin.name ++ ")")]

/-- The line of the segments, if there are any. -/
def segmentLine (f : Figure K) : List String :=
  if f.segments.isEmpty then []
  else ["Segments: " ++ ", ".intercalate
    (f.segments.map fun s => shortName s.fromId ++ shortName s.toId)]

/-- The line of the circles, if there are any. -/
def circleLine (f : Figure K) : List String :=
  if f.circles.isEmpty then []
  else ["Circles: " ++ toString f.circles.length ++ " (" ++ "; ".intercalate
    (f.circles.map fun c => "centered at " ++ shortName c.centerId) ++ ")"]

/-- What the figure consists of, a line for each kind of element. -/
def narrate (f : Figure K) : String :=
  let lines := f.pointLine ++ f.segmentLine ++ f.circleLine
  if lines.isEmpty then "Empty construction." else "\n".intercalate lines

end Figure

namespace Fact

/-- The numbered facts with their reasons. -/
def narrate (facts : List Fact) : String :=
  if facts.isEmpty then "No facts proven yet."
  else "\n".intercalate (facts.mapIdx fun i f =>
    toString (i + 1) ++ ". " ++ f.statement ++ " - " ++ f.justification)

/-- Each fact with the short name of its citation. -/
def narrateCitations (facts : List Fact) : Except Fault String := do
  let lines ← facts.mapM fun f => do
    let name ← f.citation.name
    return "[" ++ name ++ "] " ++ f.statement
  return "\n".intercalate lines

end Fact

/-- The figure and the proof. -/
def narrateProof (f : Figure K) (facts : List Fact) : String :=
  "=== Current Construction ===\n" ++ f.narrate ++ "\n\n=== Proven Facts ===\n" ++
    Fact.narrate facts

namespace GhostLayer

/-- The numbers of points, segments and circles in a layer, indented by depth. -/
def line (l : GhostLayer K) : String :=
  let points := l.elements.countP fun g => g matches .point ..
  let segments := l.elements.countP fun g => g matches .segment ..
  let circles := l.elements.countP fun g => g matches .circle ..
  String.ofList (List.replicate (2 * (l.depth - 1)).toNat ' ') ++ "I." ++ toString l.propId ++
    " at step " ++ toString l.atStep ++ ": " ++ toString points ++ " point(s), " ++
    toString segments ++ " segment(s), " ++ toString circles ++ " circle(s)"

def narrate (layers : List (GhostLayer K)) : String :=
  if layers.isEmpty then "No ghost geometry." else "\n".intercalate (layers.map line)

end GhostLayer

end RulerCompass
