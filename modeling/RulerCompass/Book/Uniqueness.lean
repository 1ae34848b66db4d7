import RulerCompass.Plane.Turn
import RulerCompass.Proposition.Basic

/-!
# Proposition I.7

On the same straight line and side, two pairs of equal straight lines from its ends cannot meet at
two points.  `AC = AD` and `BC = BD` are stipulated; the figure does not enforce them.
-/

namespace RulerCompass.Book

variable {K : Type} [Scalar K]

namespace Uniqueness

/-- The given figure; points that have not been moved stand where the book has them. -/
def layout (positions : Positions K) : List (Element K) := [
  Point.given "A" ((positions "pt-A").getD ⟨-1.5, 0.0⟩),
  Point.given "B" ((positions "pt-B").getD ⟨1.5, 0.0⟩),
  Point.given "C" ((positions "pt-C").getD ⟨0.0, 2.5⟩),
  Point.given "D" ((positions "pt-D").getD ⟨1.0, 2.3⟩),
  Segment.given "A" "B",
  Segment.given "A" "C",
  Segment.given "A" "D",
  Segment.given "B" "C",
  Segment.given "B" "D"]

/-- The construction. -/
def steps : List Step := [
  { instruction := "Join C to D"
    action := .straightedge "pt-C" "pt-D"
    highlights := ["pt-C", "pt-D"]
    tool := some .straightedge
    citation := some "Post.1" }]

/-- What follows from the construction. -/
def conclusion : List Assertion := [
  { equation := .angles (.between "pt-C" "pt-A" "pt-D") (.between "pt-D" "pt-A" "pt-C")
    citation := .proposition 5
    statement := "∠ACD = ∠ADC"
    justification := "I.5: Triangle ACD is isosceles (AC = AD)" },
  { equation := .angles (.between "pt-C" "pt-B" "pt-D") (.between "pt-D" "pt-B" "pt-C")
    citation := .proposition 5
    statement := "∠BCD = ∠BDC"
    justification := "I.5: Triangle BCD is isosceles (BC = BD)" }]

/-- The contradiction runs through `∠BDC` when `D` lies inside the triangle `ACB`, otherwise through
`∠ADC`.  A figure without the four points gets the former. -/
def contradiction (f : Figure K) : String :=
  let inside := "C and D cannot be distinct (C.N.5: ∠BDC > ∠ADC = ∠ACD > ∠BCD = ∠BDC)"
  let outside := "C and D cannot be distinct (C.N.5: ∠ADC > ∠BDC = ∠BCD > ∠ACD = ∠ADC)"
  match f.point? "pt-A", f.point? "pt-B", f.point? "pt-C", f.point? "pt-D" with
  | some a, some b, some c, some d =>
    if c.position.unsignedAngle b.position d.position <
        c.position.unsignedAngle a.position d.position then inside
    else outside
  | _, _, _, _ => inside

/-- The proposition as the book has it. -/
def proposition : Proposition K where
  id := 7
  title := "Given two lines from the ends of a line meeting at a point, " ++
    "no two other equal lines can be constructed on the same side"
  purpose := .demonstration
  given := layout fun _ => none
  steps := steps
  givenDistances := [
    ⟨.between "pt-A" "pt-C", .between "pt-A" "pt-D", "AC = AD"⟩,
    ⟨.between "pt-B" "pt-C", .between "pt-B" "pt-D", "BC = BD"⟩]
  draggable := ["pt-A", "pt-B", "pt-C", "pt-D"]
  layout? := some layout
  conclusion := conclusion
  verdict? := some contradiction

end Uniqueness

end RulerCompass.Book
