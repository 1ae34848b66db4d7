import RulerCompass.Plane.Turn
import RulerCompass.Proposition.Basic

/-!
# Proposition I.6

If two angles of a triangle are equal, the opposite sides are equal.  The proof cuts off `BD = AC`
from `BA` and leads to a contradiction.  `D` falls between `A` and `B` only while `AB` is greater
than `AC`, so `C` keeps a fixed ratio and angle from `B` around `A`.
-/

namespace RulerCompass.Book

variable {K : Type} [Scalar K]

namespace EqualSides

/-- The side from `A` to `B`. -/
def sideAB : Coord K := ⟨-2.0, 0.0⟩ - ⟨0.0, 2.5⟩
/-- The side from `A` to `C`. -/
def sideAC : Coord K := ⟨1.0, 0.0⟩ - ⟨0.0, 2.5⟩

/-- The ratio of `AC` to `AB`, less than one. -/
def ratio : K := (sideAC : Coord K).length / (sideAB : Coord K).length

/-- The turn about `A` from the direction of `B` to that of `C`. -/
def turn : Rotation K := .byAngle (sideAB.angleTo sideAC)

/-- The given figure; points that have not been moved stand where the book has them. -/
def layout (positions : Positions K) : List (Element K) :=
  let a := (positions "pt-A").getD ⟨0.0, 2.5⟩
  let b := (positions "pt-B").getD ⟨-2.0, 0.0⟩
  [Point.given "A" a,
    Point.given "B" b,
    Point.given "C" (a + (turn.apply (b - a)).scale ratio),
    Segment.given "A" "B",
    Segment.given "A" "C",
    Segment.given "B" "C"]

/-- The construction. -/
def steps : List Step := [
  { instruction := "Cut off from BA a part equal to AC (I.3)"
    action := .call
      { propId := 3
        inputs := ["pt-B", "pt-A", "pt-A", "pt-C"]
        outputLabels := some [("result", "D")] }
    highlights := ["pt-B", "pt-A", "pt-C"]
    tool := some .proposition
    citation := some "I.3" },
  { instruction := "Join D to C"
    action := .straightedge "pt-D" "pt-C"
    highlights := ["pt-D", "pt-C"]
    tool := some .straightedge
    citation := some "Post.1" }]

/-- What follows from the construction. -/
def conclusion : List Assertion := [
  { equation := .distances (.between "pt-A" "pt-B") (.between "pt-A" "pt-C")
    citation := .proposition 4
    statement := "AB = AC"
    justification :=
      "Reductio: BD = AC (I.3), BC = BC, ∠DBC = ∠ACB (given) → △DBC ≅ △ACB (I.4). " ++
        "But D is between A and B, so △DBC ⊂ △ACB, contradicting C.N.5. Therefore AB = AC." }]

/-- The proposition as the book has it. -/
def proposition : Proposition K where
  id := 6
  title := "If two angles of a triangle are equal, the sides opposite them are equal"
  purpose := .demonstration
  given := layout fun _ => none
  steps := steps
  givenAngles := [
    ⟨.between "pt-B" "pt-A" "pt-C", .between "pt-C" "pt-A" "pt-B", "∠ABC = ∠ACB"⟩]
  results := [("pt-A", "pt-B"), ("pt-A", "pt-C")]
  draggable := ["pt-A", "pt-B"]
  layout? := some layout
  conclusion := conclusion
  verdict? := some fun _ => "AB = AC"

end EqualSides

end RulerCompass.Book
