import RulerCompass.Label
import RulerCompass.Plane.Meeting

/-!
# Figures

A figure lists what has been drawn, in the order of drawing, with the counters for the next
automatic label and the next colour.  Elements refer to points by id; look-ups take the first
element with an id and kind.
-/

namespace RulerCompass

/-- How an element came about. -/
inductive Origin where
  | given
  | compass
  | straightedge
  | intersection
  | free
  | other (name : String)
  deriving DecidableEq

namespace Origin

/-- The word for an origin. -/
def name : Origin → String
  | given => "given"
  | compass => "compass"
  | straightedge => "straightedge"
  | intersection => "intersection"
  | free => "free"
  | other name => name

/-- Reads back the word for an origin; any other word stands for itself. -/
def ofName (s : String) : Origin :=
  if s = "given" then given
  else if s = "compass" then compass
  else if s = "straightedge" then straightedge
  else if s = "intersection" then intersection
  else if s = "free" then free
  else other s

end Origin

/-- A labelled point. -/
structure Point (K : Type) where
  id : String
  x : K
  y : K
  label : String
  color : String
  origin : Origin
  deriving DecidableEq

/-- A straight line between two points. -/
structure Segment where
  id : String
  fromId : String
  toId : String
  color : String
  origin : Origin
  deriving DecidableEq

/-- A circle, by its centre and a point on it. -/
structure Circle where
  id : String
  centerId : String
  radiusPointId : String
  color : String
  origin : Origin
  deriving DecidableEq

/-- Something drawn. -/
inductive Element (K : Type) where
  | point (p : Point K)
  | segment (s : Segment)
  | circle (c : Circle)
  deriving DecidableEq

variable {K : Type}

/-- The id of the point with a label. -/
def pointId (label : String) : String := "pt-" ++ label

/-- Where a point lies. -/
def Point.position (p : Point K) : Coord K := ⟨p.x, p.y⟩

namespace Segment

/-- Whether the segment joins these two points, in either order. -/
def Joins (s : Segment) (p q : String) : Prop :=
  (s.fromId = p ∧ s.toId = q) ∨ (s.fromId = q ∧ s.toId = p)

instance (s : Segment) (p q : String) : Decidable (s.Joins p q) :=
  inferInstanceAs (Decidable (_ ∨ _))

/-- Drawn and given segments may be prolonged past their ends. -/
def CanProlong (s : Segment) : Prop := s.origin = .straightedge ∨ s.origin = .given

instance (s : Segment) : Decidable s.CanProlong := inferInstanceAs (Decidable (_ ∨ _))

end Segment

namespace Element

/-- The id of an element of any kind. -/
def id : Element K → String
  | point p => p.id
  | segment s => s.id
  | circle c => c.id

/-- The point, if the element is one. -/
def point? : Element K → Option (Point K)
  | point p => some p
  | _ => none

/-- The segment, if the element is one. -/
def segment? : Element K → Option Segment
  | segment s => some s
  | _ => none

/-- The circle, if the element is one. -/
def circle? : Element K → Option Circle
  | circle c => some c
  | _ => none

end Element

/-- What has been drawn so far. -/
structure Figure (K : Type) where
  elements : List (Element K) := []
  nextLabel : Int := 0
  nextColor : Int := 0

namespace Figure

/-! ### Looking up -/

/-- The points, in the order of drawing. -/
def points (f : Figure K) : List (Point K) := f.elements.filterMap Element.point?

/-- The segments, in the order of drawing. -/
def segments (f : Figure K) : List Segment := f.elements.filterMap Element.segment?

/-- The circles, in the order of drawing. -/
def circles (f : Figure K) : List Circle := f.elements.filterMap Element.circle?

/-- The first element with this id, of any kind. -/
def element? (f : Figure K) (id : String) : Option (Element K) :=
  f.elements.find? fun e => e.id = id

/-- The first point with this id. -/
def point? (f : Figure K) (id : String) : Option (Point K) :=
  f.points.find? fun p => p.id = id

/-- The first segment with this id. -/
def segment? (f : Figure K) (id : String) : Option Segment :=
  f.segments.find? fun s => s.id = id

/-- The first circle with this id. -/
def circle? (f : Figure K) (id : String) : Option Circle :=
  f.circles.find? fun c => c.id = id

/-- The label of a point; a missing point is called by its id. -/
def labelOf (f : Figure K) (id : String) : String :=
  match f.point? id with
  | some p => p.label
  | none => id

/-! ### Measuring -/

/-- The segment between its two ends, if both are there. -/
def span? (f : Figure K) (s : Segment) : Option (Span K) := do
  let a ← f.point? s.fromId
  let b ← f.point? s.toId
  return ⟨a.position, b.position⟩

variable [Scalar K]

/-- The distance between two points of the figure. -/
def distance? (f : Figure K) (p q : String) : Option K := do
  let a ← f.point? p
  let b ← f.point? q
  return a.position.distance b.position

/-- The radius of the circle with this id; zero for a circle that is not there. -/
def radius (f : Figure K) (id : String) : K :=
  match f.circle? id with
  | none => 0.0
  | some c => (f.distance? c.centerId c.radiusPointId).getD 0.0

/-- A circle as a bare figure.  It needs a centre and a radius that is not zero or less. -/
def disc? (f : Figure K) (c : Circle) : Option (Disc K) := do
  let center ← f.point? c.centerId
  let r := f.radius c.id
  if r ≤ 0.0 then none else return ⟨center.position, r⟩

end Figure

end RulerCompass
