import RulerCompass.Plane.Turn
import RulerCompass.Proposition.Basic

/-!
# Proposition I.5

In isosceles triangles the angles at the base are equal.  `C` is always the image of `B` under one
turn about `A`, so `AB = AC` wherever `A` and `B` are.
-/

namespace RulerCompass.Book

variable {K : Type} [Scalar K]

namespace BaseAngles

/-- The turn about `A` that takes `B` to `C`. -/
def turn : Rotation K :=
  .byAngle (Coord.angleTo (⟨-2.0, -1.0⟩ - ⟨0.0, 2.0⟩) (⟨2.0, -1.0⟩ - ⟨0.0, 2.0⟩))

/-- The given figure; points that have not been moved stand where the book has them. -/
def layout (positions : Positions K) : List (Element K) :=
  let a := (positions "pt-A").getD ⟨0.0, 2.0⟩
  let b := (positions "pt-B").getD ⟨-2.0, -1.0⟩
  [Point.given "A" a,
    Point.given "B" b,
    Point.given "C" (a + turn.apply (b - a)),
    Segment.given "A" "B",
    Segment.given "A" "C",
    Segment.given "B" "C"]

/-- The construction. -/
def steps : List Step := [
  { instruction := "Draw a circle centered at B through C"
    action := .compass "pt-B" "pt-C"
    highlights := ["pt-B", "pt-C"]
    tool := some .compass
    citation := some "Post.3" },
  { instruction := "Mark where the circle crosses line AB past B"
    action := .mark
      { ofA := some (.circle "pt-B" "pt-C")
        ofB := some (.segment "pt-A" "pt-B")
        beyondId := some "pt-B"
        label := some "F" }
    citation := some "Def.15" },
  { instruction := "From AC, cut off a length equal to AF (I.3)"
    action := .call
      { propId := 3
        inputs := ["pt-A", "pt-C", "pt-A", "pt-F"]
        outputLabels := some [("result", "G")] }
    highlights := ["pt-A", "pt-C", "pt-F"]
    tool := some .proposition
    citation := some "I.3" },
  { instruction := "Join F to C"
    action := .straightedge "pt-F" "pt-C"
    highlights := ["pt-F", "pt-C"]
    tool := some .straightedge
    citation := some "Post.1" },
  { instruction := "Join G to B"
    action := .straightedge "pt-G" "pt-B"
    highlights := ["pt-G", "pt-B"]
    tool := some .straightedge
    citation := some "Post.1" }]

/-- What follows from the construction. -/
def conclusion : List Assertion := [
  { equation := .distances (.between "pt-C" "pt-G") (.between "pt-B" "pt-F")
    citation := .cn3 (.between "pt-A" "pt-G") (.between "pt-A" "pt-C")
    statement := "CG = BF"
    justification := "C.N.3: AG − AC = AF − AB (since AG = AF, AB = AC)" },
  { equation := .distances (.between "pt-F" "pt-C") (.between "pt-G" "pt-B")
    citation := .proposition 4
    statement := "FC = GB"
    justification := "I.4: △AFC ≅ △AGB (AF = AG, AC = AB, ∠FAC = ∠GAB)" }]

/-- The proposition as the book has it. -/
def proposition : Proposition K where
  id := 5
  title := "In isosceles triangles the base angles are equal"
  purpose := .demonstration
  given := layout fun _ => none
  steps := steps
  givenDistances := [⟨.between "pt-A" "pt-B", .between "pt-A" "pt-C", "AB = AC"⟩]
  draggable := ["pt-A", "pt-B"]
  layout? := some layout
  conclusion := conclusion
  verdict? := some fun _ => "∠ABC = ∠ACB; ∠FBC = ∠GCB"

end BaseAngles

end RulerCompass.Book
