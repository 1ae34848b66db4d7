import RulerCompass.Proposition.Basic

/-!
# Proposition I.2

To place at a given point a straight line equal to a given straight line.  An equilateral triangle
`ABD` on `AB`, the circle about `B` through `C` that meets `DB` beyond `B` in `E`, and the circle
about `D` through `E` that meets `DA` beyond `A` in `F` give `AF = BE` by subtraction.
-/

namespace RulerCompass.Book

variable {K : Type} [Scalar K]

namespace Transfer

/-- The given figure; points that have not been moved stand where the book has them. -/
def layout (positions : Positions K) : List (Element K) := [
  Point.given "A" ((positions "pt-A").getD ⟨-1.5, 1.5⟩),
  Point.given "B" ((positions "pt-B").getD ⟨0.0, 0.0⟩),
  Point.given "C" ((positions "pt-C").getD ⟨1.5, 0.0⟩),
  Segment.given "B" "C"]

/-- The construction. -/
def steps : List Step := [
  { instruction := "Join point A to point B"
    action := .straightedge "pt-A" "pt-B"
    highlights := ["pt-A", "pt-B"]
    tool := some .straightedge
    citation := some "Post.1" },
  { instruction := "Construct equilateral triangle on AB (I.1)"
    action := .call
      { propId := 1
        inputs := ["pt-A", "pt-B"]
        outputLabels := some [("apex", "D")] }
    highlights := ["pt-A", "pt-B"]
    tool := some .proposition
    citation := some "I.1" },
  { instruction := "Draw a circle centered at B through C"
    action := .compass "pt-B" "pt-C"
    highlights := ["pt-B", "pt-C"]
    tool := some .compass
    citation := some "Post.3" },
  { instruction := "Mark where the circle crosses line DB, past B"
    action := .mark
      { ofA := some (.circle "pt-B" "pt-C")
        ofB := some (.segment "pt-D" "pt-B")
        beyondId := some "pt-B"
        label := some "E" }
    citation := some "Def.15" },
  { instruction := "Draw a circle centered at D through E"
    action := .compass "pt-D" "pt-E"
    highlights := ["pt-D", "pt-E"]
    tool := some .compass
    citation := some "Post.3" },
  { instruction := "Mark where the circle crosses line DA, past A"
    action := .mark
      { ofA := some (.circle "pt-D" "pt-E")
        ofB := some (.segment "pt-D" "pt-A")
        beyondId := some "pt-A"
        label := some "F" }
    citation := some "Def.15" }]

/-- The second equation is entailed by the first when `BE = BC` is known. -/
def conclusion : List Assertion := [
  { equation := .distances (.between "pt-A" "pt-F") (.between "pt-B" "pt-E")
    citation := .cn3 (.between "pt-D" "pt-F") (.between "pt-D" "pt-A")
    statement := "AF = BE"
    justification := "C.N.3: DF − DA = DE − DB (since DA = DB)" },
  { equation := .distances (.between "pt-A" "pt-F") (.between "pt-B" "pt-C")
    citation := .cn1 (.between "pt-B" "pt-E")
    statement := "AF = BC"
    justification := "C.N.1: AF = BE and BE = BC" }]

/-- The proposition as the book has it. -/
def proposition : Proposition K where
  id := 2
  title := "Place a line equal to a given line at a given point"
  given := layout fun _ => none
  steps := steps
  results := [("pt-A", "pt-F")]
  draggable := ["pt-A", "pt-B", "pt-C"]
  layout? := some layout
  conclusion := conclusion

end Transfer

end RulerCompass.Book
