import RulerCompass.Plane.Basic

/-!
# Where circles and lines meet

The common points of two bare figures, in a fixed order: of two circles first the point to the left
of the way from centre to centre, of a circle and a line in the direction of the line.  Almost
tangent figures meet once.
-/

namespace RulerCompass

/-- A circle given by its centre and radius. -/
structure Disc (K : Type) where
  center : Coord K
  radius : K

/-- Two positions, which bound a segment and span a line. -/
structure Span (K : Type) where
  start : Coord K
  stop : Coord K

variable {K : Type} [Scalar K]

open Scalar (epsilon)

namespace Span

/-- The position that divides the segment in the ratio `t`. -/
def pointAt (l : Span K) (t : K) : Coord K := l.start + (l.stop - l.start).scale t

/-- Whether `t` stays between the ends, up to rounding. -/
def InBounds (t : K) : Prop := -epsilon ≤ t ∧ t ≤ 1.0 + epsilon

instance (t : K) : Decidable (InBounds t) := inferInstanceAs (Decidable (_ ∧ _))

/-- The point that two segments share; none for parallel ones. -/
def meet (l m : Span K) : List (Coord K) :=
  let r := l.stop - l.start
  let s := m.stop - m.start
  let denominator := r.cross s
  if Scalar.abs denominator ≤ epsilon then [] else
  let gap := m.start - l.start
  let t := gap.cross s / denominator
  let u := gap.cross r / denominator
  if InBounds t ∧ InBounds u then [l.start + r.scale t] else []

end Span

namespace Disc

/-- The common points of two circles. -/
def meet (c d : Disc K) : List (Coord K) :=
  let delta := d.center - c.center
  let gap := delta.length
  let r := c.radius
  let s := d.radius
  if gap ≤ epsilon ∨ r ≤ 0.0 ∨ s ≤ 0.0 then [] else
  if r + s + epsilon < gap ∨ gap < Scalar.abs (r - s) - epsilon then [] else
  let a := (r * r - s * s + gap * gap) / (2.0 * gap)
  let square := r * r - a * a
  let base := c.center + delta.scale (a / gap)
  if square ≤ epsilon * Scalar.max r 1.0 then [base] else
  let offset := delta.quarterTurn.scale (Scalar.sqrt square / gap)
  [base + offset, base - offset]

/-- The ratios at which a circle cuts the line through a span. -/
def cuts (c : Disc K) (l : Span K) : List K :=
  let direction := l.stop - l.start
  let rel := l.start - c.center
  let a := direction.dot direction
  if a ≤ epsilon * epsilon ∨ c.radius ≤ 0.0 then [] else
  let b := 2.0 * direction.dot rel
  let constant := rel.dot rel - c.radius * c.radius
  let discriminant := b * b - 4.0 * a * constant
  if discriminant < -epsilon * a then [] else
  if discriminant ≤ epsilon * a then [-b / (2.0 * a)] else
  let root := Scalar.sqrt discriminant
  [(-b - root) / (2.0 * a), (-b + root) / (2.0 * a)]

/-- The points of a circle on a segment. -/
def meetSegment (c : Disc K) (l : Span K) : List (Coord K) :=
  ((c.cuts l).filter fun t => decide (Span.InBounds t)).map l.pointAt

/-- The points of a circle on the whole line, which takes two distinct ends to span. -/
def meetLine (c : Disc K) (l : Span K) : List (Coord K) :=
  if l.start.Near l.stop then [] else (c.cuts l).map l.pointAt

end Disc

end RulerCompass
