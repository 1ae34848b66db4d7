import RulerCompass.Proposition.Basic

/-!
# Proposition I.1

On a given finite straight line to construct an equilateral triangle.
-/

namespace RulerCompass.Book

variable {K : Type} [Scalar K]

namespace Triangle

/-- The given figure; points that have not been moved stand where the book has them. -/
def layout (positions : Positions K) : List (Element K) := [
  Point.given "A" ((positions "pt-A").getD ⟨-1.0, 0.0⟩),
  Point.given "B" ((positions "pt-B").getD ⟨1.0, 0.0⟩),
  Segment.given "A" "B"]

/-- The construction. -/
def steps : List Step := [
  { instruction := "Draw a circle centered at A through B"
    action := .compass "pt-A" "pt-B"
    highlights := ["pt-A", "pt-B"]
    tool := some .compass
    citation := some "Post.3" },
  { instruction := "Draw a circle centered at B through A"
    action := .compass "pt-B" "pt-A"
    highlights := ["pt-B", "pt-A"]
    tool := some .compass
    citation := some "Post.3" },
  { instruction := "Mark where the two circles meet"
    action := .mark
      { ofA := some (.circle "pt-A" "pt-B")
        ofB := some (.circle "pt-B" "pt-A")
        label := some "C" }
    citation := some "Def.15" },
  { instruction := "Join C to A"
    action := .straightedge "pt-C" "pt-A"
    highlights := ["pt-C", "pt-A"]
    tool := some .straightedge
    citation := some "Post.1" },
  { instruction := "Join C to B"
    action := .straightedge "pt-C" "pt-B"
    highlights := ["pt-C", "pt-B"]
    tool := some .straightedge
    citation := some "Post.1" }]

/-- The two circles give `CA = AB` and `CB = BA`, so the sides meet through `AB`. -/
def conclusion : List Assertion := [
  { equation := .distances (.between "pt-C" "pt-A") (.between "pt-C" "pt-B")
    citation := .cn1 (.between "pt-A" "pt-B")
    statement := "CA = CB"
    justification := "C.N.1: CA = AB and CB = AB" }]

/-- The proposition as the book has it. -/
def proposition : Proposition K where
  id := 1
  title := "Construct an equilateral triangle on a given finite line"
  given := layout fun _ => none
  steps := steps
  results := [("pt-C", "pt-A"), ("pt-C", "pt-B")]
  draggable := ["pt-A", "pt-B"]
  layout? := some layout
  conclusion := conclusion

end Triangle

end RulerCompass.Book
