import RulerCompass.Figure.Draw

/-!
# Ghosts

Hidden constructions, as bare drawings.  A layer holds what one proposition draws when it is used
inside another; deeper layers belong to the propositions used by that one.
-/

namespace RulerCompass

/-- A hidden element, by its place alone. -/
inductive Ghost (K : Type) where
  | point (place : Coord K) (label color : String)
  /-- A prolongation past an end of a segment is marked as one. -/
  | segment (start stop : Coord K) (color : String) (isProduction : Bool)
  | circle (center : Coord K) (radius : K) (color : String)
  deriving DecidableEq

/-- What the proposition `propId` draws out of sight at a step, `depth` macros deep. -/
structure GhostLayer (K : Type) where
  propId : Int
  depth : Int
  atStep : Int
  elements : List (Ghost K)
  deriving DecidableEq

variable {K : Type}

namespace Ghost

/-- A point where a point of a figure lies. -/
def ofPoint (p : Point K) (color : String) : Ghost K := .point p.position p.label color

/-- A segment whose ends are in the figure. -/
def ofSegment? (f : Figure K) (s : Segment) (color : String) : Option (Ghost K) :=
  (f.span? s).map fun l => .segment l.start l.stop color false

/-- A circle whose centre is in the figure. -/
def ofCircle? [Scalar K] (f : Figure K) (c : Circle) (color : String) : Option (Ghost K) :=
  (f.point? c.centerId).map fun p => .circle p.position (f.radius c.id) color

end Ghost

end RulerCompass
