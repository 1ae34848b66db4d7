import RulerCompass.Fault
import RulerCompass.Plane.Basic

/-!
# Turns and angles

Rotations about the origin and the angles between directions.
-/

namespace RulerCompass

/-- A rotation, by the cosine and sine of its angle. -/
structure Rotation (K : Type) where
  cos : K
  sin : K

variable {K : Type} [Scalar K]

namespace Rotation

/-- The rotation to the left by an angle. -/
def byAngle (angle : K) : Rotation K := ⟨Scalar.cos angle, Scalar.sin angle⟩

/-- Turns a displacement. -/
def apply (r : Rotation K) (v : Coord K) : Coord K :=
  ⟨r.cos * v.x + -r.sin * v.y, r.sin * v.x + r.cos * v.y⟩

/-- The rotation by an angle that may be out of range. -/
def byAngle? (angle : Float) : Except Fault (Rotation Float) :=
  if angle.isInf then .error .infiniteAngle else .ok (byAngle angle)

/-- The rows of the rotation as a matrix. -/
def rows (r : Rotation K) : List (List K) := [[r.cos, -r.sin], [r.sin, r.cos]]

end Rotation

namespace Coord

/-- The signed angle that turns `u` onto `v`. -/
def angleTo (u v : Coord K) : K := Scalar.atan2 (u.cross v) (u.dot v)

/-- The angle of a displacement with the first axis. -/
def heading (v : Coord K) : K := Scalar.atan2 v.y v.x

/-- The angle at `vertex` between the rays to `p` and `q`, at most a half turn.  Two headings differ
by at most a full turn, so one subtraction brings the difference below it. -/
def unsignedAngle (vertex p q : Coord K) : K :=
  let turn : K := 2.0 * Scalar.pi
  let difference := Scalar.abs ((q - vertex).heading - (p - vertex).heading)
  let difference := if difference < turn then difference else difference - turn
  if Scalar.pi < difference then turn - difference else difference

end Coord

end RulerCompass
