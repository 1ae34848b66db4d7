import RulerCompass.Scalar

/-!
# Points of the plane

Coordinates with the vector operations that constructions need, and the two relations between bare
positions: `Near`, which makes two positions one, and the direction from one position to another.
-/

namespace RulerCompass

/-- A position or a displacement. -/
structure Coord (K : Type) where
  x : K
  y : K
  deriving DecidableEq

namespace Coord

variable {K : Type} [Scalar K]

instance : Add (Coord K) := ⟨fun a b => ⟨a.x + b.x, a.y + b.y⟩⟩

instance : Sub (Coord K) := ⟨fun a b => ⟨a.x - b.x, a.y - b.y⟩⟩

/-- The displacement stretched by a factor. -/
def scale (a : Coord K) (factor : K) : Coord K := ⟨a.x * factor, a.y * factor⟩

/-- The scalar product. -/
def dot (a b : Coord K) : K := a.x * b.x + a.y * b.y

/-- The signed area of the parallelogram on two displacements. -/
def cross (a b : Coord K) : K := a.x * b.y - a.y * b.x

/-- A quarter turn to the left. -/
def quarterTurn (a : Coord K) : Coord K := ⟨-a.y, a.x⟩

/-- The length of a displacement. -/
def length (a : Coord K) : K := Scalar.hypot a.x a.y

/-- The distance of two positions. -/
def distance (a b : Coord K) : K := (b - a).length

/-- Both coordinates differ by less than the tolerance. -/
def Near (a b : Coord K) : Prop :=
  Scalar.abs (a.x - b.x) < Scalar.tolerance ∧ Scalar.abs (a.y - b.y) < Scalar.tolerance

instance (a b : Coord K) : Decidable (Near a b) :=
  inferInstanceAs (Decidable (_ ∧ _))

/-- The displacement with length one; straight up when it has no direction. -/
def direction (a : Coord K) : Coord K :=
  let size := a.length
  if size < Scalar.epsilon then ⟨0.0, 1.0⟩ else ⟨a.x / size, a.y / size⟩

/-- The position at a distance from `a` on the ray toward `b`. -/
def toward (a b : Coord K) (length : K) : Coord K := a + (b - a).direction.scale length

end Coord

end RulerCompass
