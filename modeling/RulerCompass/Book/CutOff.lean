import RulerCompass.Proposition.Basic

/-!
# Proposition I.3

Given two unequal straight lines, to cut off from the greater a straight line equal to the less.
I.2 gives `AE = CD` and the circle about `A` gives `AF = AE`, so the ledger knows `AF = CD` without
a concluding step.
-/

namespace RulerCompass.Book

variable {K : Type} [Scalar K]

namespace CutOff

/-- The given figure; points that have not been moved stand where the book has them. -/
def layout (positions : Positions K) : List (Element K) := [
  Point.given "A" ((positions "pt-A").getD ⟨-2.5, 0.5⟩),
  Point.given "B" ((positions "pt-B").getD ⟨1.5, 0.5⟩),
  Point.given "C" ((positions "pt-C").getD ⟨0.5, -1.5⟩),
  Point.given "D" ((positions "pt-D").getD ⟨2.0, -1.5⟩),
  Segment.given "A" "B",
  Segment.given "C" "D"]

/-- The construction. -/
def steps : List Step := [
  { instruction := "Place at A a line equal to CD (I.2)"
    action := .call
      { propId := 2
        inputs := ["pt-A", "pt-C", "pt-D"]
        outputLabels := some [("result", "E")] }
    highlights := ["pt-A", "pt-C", "pt-D"]
    tool := some .proposition
    citation := some "I.2" },
  { instruction := "Draw a circle centered at A through E"
    action := .compass "pt-A" "pt-E"
    highlights := ["pt-A", "pt-E"]
    tool := some .compass
    citation := some "Post.3" },
  { instruction := "Mark where the circle crosses line AB"
    action := .mark
      { ofA := some (.circle "pt-A" "pt-E")
        ofB := some (.segment "pt-A" "pt-B")
        label := some "F" }
    citation := some "Def.15" }]

/-- The proposition as the book has it. -/
def proposition : Proposition K where
  id := 3
  title := "Cut off from the greater a line equal to the less"
  given := layout fun _ => none
  steps := steps
  results := [("pt-A", "pt-F")]
  draggable := ["pt-A", "pt-B", "pt-C", "pt-D"]
  layout? := some layout

end CutOff

end RulerCompass.Book
