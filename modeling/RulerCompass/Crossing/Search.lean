import RulerCompass.Figure.Basic

/-!
# Crossings

A crossing is a place where two drawn elements meet and no point has been marked yet.  It names both
elements and its number in the list of their common points (`meetings`).  `newCrossings` searches
the crossings of one element with all others.
-/

namespace RulerCompass

/-- An unmarked common point of the elements `ofA` and `ofB`. -/
structure Crossing (K : Type) where
  x : K
  y : K
  ofA : String
  ofB : String
  which : Int
  deriving DecidableEq

namespace Crossing

variable {K : Type}

/-- Where the elements meet. -/
def position (c : Crossing K) : Coord K := ⟨c.x, c.y⟩

/-- Whether these are the two parents, in either order. -/
def Joins (c : Crossing K) (a b : String) : Prop :=
  (c.ofA = a ∧ c.ofB = b) ∨ (c.ofA = b ∧ c.ofB = a)

instance (c : Crossing K) (a b : String) : Decidable (c.Joins a b) :=
  inferInstanceAs (Decidable (_ ∨ _))

end Crossing

namespace Figure

variable {K : Type} [Scalar K] (f : Figure K)

/-! ### Common points of two elements -/

/-- The common points of a circle and a segment: first those on the segment, then, for a segment
that may be prolonged from the centre of the circle, the others on its line. -/
def discMeetings (extend : Bool) (d : Disc K) (s : Segment) (l : Span K) : List (Coord K) :=
  let inner := d.meetSegment l
  if extend ∧ s.CanProlong ∧ (d.center.Near l.start ∨ d.center.Near l.stop) then
    inner ++ (d.meetLine l).filter fun p => inner.all fun q => !decide (p.Near q)
  else inner

/-- All common points of two elements, in the order that numbers them.  Elements whose points are
missing meet nothing, and a circle needs a positive radius. -/
def meetings (extend : Bool) : Element K → Element K → List (Coord K)
  | .circle c, .circle d =>
    match f.disc? c, f.disc? d with
    | some x, some y => x.meet y
    | _, _ => []
  | .circle c, .segment s | .segment s, .circle c =>
    match f.disc? c, f.span? s with
    | some x, some l => discMeetings extend x s l
    | _, _ => []
  | .segment s, .segment t =>
    match f.span? s, f.span? t with
    | some l, some m => l.meet m
    | _, _ => []
  | _, _ => []

/-! ### The search -/

/-- The elements that a new one is compared with: circles first, then segments.  An element of the
same kind with the same id is the element itself. -/
def partners : Element K → List (Element K)
  | .point _ => []
  | .circle c => (f.circles.filter fun d => d.id ≠ c.id).map .circle ++ f.segments.map .segment
  | .segment s => f.circles.map .circle ++ (f.segments.filter fun t => t.id ≠ s.id).map .segment

/-- All common points of an element with its partners, each as a crossing. -/
def allCrossings (extend : Bool) (e : Element K) : List (Crossing K) :=
  (f.partners e).flatMap fun other =>
    (f.meetings extend e other).mapIdx fun i p => ⟨p.x, p.y, e.id, other.id, i⟩

/-- Keeps a crossing unless it lies near a known one or near a point of the figure. -/
def admits (known found : List (Crossing K)) (c : Crossing K) : Bool :=
  !((known ++ found).any fun k => c.position.Near k.position) &&
    !(f.points.any fun p => c.position.Near p.position)

/-- The crossings of `e` with what is drawn, apart from those known, marked or already found. -/
def newCrossings (e : Element K) (known : List (Crossing K)) (extend : Bool) : List (Crossing K) :=
  (f.allCrossings extend e).foldl
    (fun found c => if f.admits known found c then found ++ [c] else found) []

end Figure

end RulerCompass
