import RulerCompass.Figure.Basic
import RulerCompass.Style

/-!
# Drawing

Each drawing operation appends one element and moves the counters.  A skipped point moves the
counters as if it had been drawn, so that later points keep their names.
-/

namespace RulerCompass

variable {K : Type} (style : Style)

namespace Figure

/-- The figure of given elements: labels continue after the highest given one. -/
def ofGiven (given : List (Element K)) : Figure K where
  elements := given
  nextLabel := given.foldl (fun next e =>
    match e.point?.bind fun p => Label.number? p.label with
    | none => next
    | some i => max next (i + 1)) 0

/-- Reads the labels of given points, which may have too many digits. -/
def readLabels (given : List (Element K)) : Except Fault Unit :=
  (given.filterMap Element.point?).forM fun p => discard (Label.index? p.label)

/-- Reads given elements: their labels first. -/
def readGiven (given : List (Element K)) : Except Fault (Figure K) := do
  readLabels given
  return ofGiven given

/-- Given and free points have colours of their own, others take the next one of the palette. -/
def pointColor (f : Figure K) : Origin → String
  | .given => style.given
  | .free => style.free
  | _ => style.palette.color f.nextColor

/-- A new point with an explicit label or the next automatic one. -/
def addPoint (f : Figure K) (place : Coord K) (origin : Origin) (label? : Option String := none) :
    Except Fault (Figure K × Point K) := do
  let label ← match label? with
    | some label => pure label
    | none => Label.ofIndex f.nextLabel
  let next ← Label.advance f.nextLabel label?
  let point : Point K :=
    ⟨pointId label, place.x, place.y, label, f.pointColor style origin, origin⟩
  let spent : Int := if origin = .given ∨ origin = .free then 0 else 1
  return (⟨f.elements ++ [.point point], next, f.nextColor + spent⟩, point)

/-- The number of the next circle counts the circles there are. -/
def addCircle (f : Figure K) (centerId radiusPointId : String) : Figure K × Circle :=
  let circle : Circle :=
    ⟨"cir-" ++ toString (f.circles.length + 1), centerId, radiusPointId,
      style.palette.color f.nextColor, .compass⟩
  ({ f with elements := f.elements ++ [.circle circle], nextColor := f.nextColor + 1 }, circle)

/-- The number of the next segment counts the segments there are. -/
def addSegment (f : Figure K) (fromId toId : String) : Figure K × Segment :=
  let segment : Segment :=
    ⟨"seg-" ++ toString (f.segments.length + 1), fromId, toId,
      style.palette.color f.nextColor, .straightedge⟩
  ({ f with elements := f.elements ++ [.segment segment], nextColor := f.nextColor + 1 }, segment)

/-- Moves the counters as if an intersection point had been drawn. -/
def skipPoint (f : Figure K) (label? : Option String := none) : Except Fault (Figure K) := do
  let next ← Label.advance f.nextLabel label?
  return { f with nextLabel := next, nextColor := f.nextColor + 1 }

end Figure

end RulerCompass
