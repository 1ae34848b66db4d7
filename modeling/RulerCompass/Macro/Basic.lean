import RulerCompass.Crossing.Definition15
import RulerCompass.Ghost.Basic
import RulerCompass.Scene

/-!
# Macros

A macro performs a proved proposition as one operation.  It draws the result and the lines to it
but keeps the auxiliary circles out of the figure; those are reported as ghosts.  What it has proved
comes back as assertions: drawing never looks into a ledger.
-/

namespace RulerCompass

namespace Macro

/-- What a macro has drawn and proved.  A macro that could not run has added nothing. -/
structure Outcome (K : Type) where
  scene : Scene K
  added : List (Element K) := []
  assertions : List Assertion := []
  ghosts : List (GhostLayer K) := []

/-- The labels requested for the points that a macro makes. -/
abbrev OutputLabels := Option (List (String × String))

variable {K : Type} [Scalar K]

/-- A macro that cannot run changes nothing. -/
def Outcome.unchanged (s : Scene K) : Outcome K := { scene := s }

/-- The name by which facts cite a circle that is not in the figure. -/
def hiddenCircleId (centerId : String) : String := "internal-cir-" ++ centerId

/-- The higher of the two points at distance `|ab|` from both ends. -/
def apex? (style : Style) (a b : Coord K) (aId bId : String) : Run K (Option (Coord K)) := do
  let radius := a.distance b
  let roots := Disc.meet ⟨a, radius⟩ ⟨b, radius⟩
  let crossings := roots.mapIdx fun i p =>
    ⟨p.x, p.y, hiddenCircleId aId, hiddenCircleId bId, i⟩
  let best ← Crossing.pick style crossings
  return best.map Crossing.position

/-- The two circles about `a` and `b` through each other. -/
def twinCircles (style : Style) (a b : Coord K) (depth : Int) : GhostLayer K :=
  let radius := a.distance b
  ⟨1, depth, 0,
    [.circle a radius (style.palette.color 0), .circle b radius (style.palette.color 1)]⟩

end Macro

end RulerCompass
