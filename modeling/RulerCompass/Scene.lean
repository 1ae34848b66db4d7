import RulerCompass.Crossing.Choice
import RulerCompass.Figure.Draw

/-!
# Scenes

A scene is a figure with the crossings that are still to be marked.  Drawing a line or circle adds
its new crossings; marking a crossing drops all that coincide with it.
-/

namespace RulerCompass

/-- A figure with its unmarked crossings, in the order in which they were found. -/
structure Scene (K : Type) where
  figure : Figure K := {}
  crossings : List (Crossing K) := []

namespace Scene

variable {K : Type} [Scalar K] (style : Style) (s : Scene K)

/-- Searches the crossings of an element with what is drawn. -/
def search (extend : Bool) (e : Element K) : Scene K :=
  { s with crossings := s.crossings ++ s.figure.newCrossings e s.crossings extend }

/-- Searches the crossings of all lines and circles again, in their order. -/
def searchAll (extend : Bool) : Scene K :=
  s.figure.elements.foldl (fun s e => s.search extend e) s

/-- Draws a circle and searches its crossings. -/
def drawCircle (extend : Bool) (centerId radiusPointId : String) : Scene K × Circle :=
  let (figure, circle) := s.figure.addCircle style centerId radiusPointId
  (search { s with figure := figure } extend (.circle circle), circle)

/-- Draws a segment and searches its crossings. -/
def drawSegment (extend : Bool) (fromId toId : String) : Scene K × Segment :=
  let (figure, segment) := s.figure.addSegment style fromId toId
  (search { s with figure := figure } extend (.segment segment), segment)

/-- Marks a crossing with a point. -/
def mark (c : Crossing K) (label? : Option String := none) : Except Fault (Scene K × Point K) := do
  let (figure, point) ← s.figure.addPoint style c.position .intersection label?
  return ({ figure := figure, crossings := Crossing.without s.crossings c }, point)

/-- Passes over a point that cannot be marked. -/
def skip (label? : Option String := none) : Except Fault (Scene K) := do
  let figure ← s.figure.skipPoint label?
  return { s with figure := figure }

end Scene

end RulerCompass
