import RulerCompass.Plane.Turn
import RulerCompass.Proposition.Basic

/-!
# Proposition I.4

Two sides and the angle between them determine a triangle.  The triangle `DEF` is `ABC` turned by a
fixed angle and moved to `D`, so what is given holds wherever `A`, `B`, `C` and `D` are.
-/

namespace RulerCompass.Book

variable {K : Type} [Scalar K]

namespace SideAngleSide

/-- The given figure; points that have not been moved stand where the book has them. -/
def layout (positions : Positions K) : List (Element K) :=
  let a := (positions "pt-A").getD ⟨-4.0, -0.5⟩
  let b := (positions "pt-B").getD ⟨-6.2, -1.5⟩
  let c := (positions "pt-C").getD ⟨-2.8, 1.8⟩
  let d := (positions "pt-D").getD ⟨2.5, -0.5⟩
  let turn := Rotation.byAngle 0.4
  [Point.given "A" a,
    Point.given "B" b,
    Point.given "C" c,
    Segment.given "A" "B",
    Segment.given "A" "C",
    Segment.given "B" "C",
    Point.given "D" d,
    Point.given "E" (d + turn.apply (b - a)),
    Point.given "F" (d + turn.apply (c - a)),
    Segment.given "D" "E",
    Segment.given "D" "F"]

/-- The construction. -/
def steps : List Step := [
  { instruction := "Join E to F"
    action := .straightedge "pt-E" "pt-F"
    highlights := ["pt-E", "pt-F"]
    tool := some .straightedge
    citation := some "Post.1" }]

/-- What follows from the construction. -/
def conclusion : List Assertion := [
  { equation := .distances (.between "pt-B" "pt-C") (.between "pt-E" "pt-F")
    citation := .cn4
    statement := "BC = EF"
    justification :=
      "C.N.4: Since AB = DE, AC = DF, and ∠BAC = ∠EDF, triangles coincide by superposition" },
  { equation := .angles (.between "pt-B" "pt-A" "pt-C") (.between "pt-E" "pt-D" "pt-F")
    citation := .cn4
    statement := "∠ABC = ∠DEF"
    justification := "C.N.4: Remaining angles of congruent triangles coincide" },
  { equation := .angles (.between "pt-C" "pt-A" "pt-B") (.between "pt-F" "pt-D" "pt-E")
    citation := .cn4
    statement := "∠ACB = ∠DFE"
    justification := "C.N.4: Remaining angles of congruent triangles coincide" }]

/-- The proposition as the book has it. -/
def proposition : Proposition K where
  id := 4
  title :=
    "If two triangles have two sides and the included angle equal, the triangles are congruent"
  purpose := .demonstration
  given := layout fun _ => none
  steps := steps
  givenDistances := [
    ⟨.between "pt-A" "pt-B", .between "pt-D" "pt-E", "AB = DE"⟩,
    ⟨.between "pt-A" "pt-C", .between "pt-D" "pt-F", "AC = DF"⟩]
  givenAngles := [
    ⟨.between "pt-A" "pt-B" "pt-C", .between "pt-D" "pt-E" "pt-F", "∠BAC = ∠EDF"⟩]
  results := [("pt-B", "pt-C"), ("pt-E", "pt-F")]
  draggable := ["pt-A", "pt-B", "pt-C", "pt-D"]
  layout? := some layout
  conclusion := conclusion
  verdict? := some fun _ => "△ABC = △DEF; ∠ABC = ∠DEF, ∠ACB = ∠DFE"

end SideAngleSide

end RulerCompass.Book
