/-!
# Scalars

The plane is measured in a type `K` of scalars.  `Scalar K` names the operations that constructions
use and promises no law: doubles have overflow, rounding and `NaN`.  Everything is written once over
`Scalar K`, runs at `Float` and can be read at any other instance.
-/

namespace RulerCompass

/-- The operations on coordinates, lengths and angles. -/
class Scalar (K : Type) extends Add K, Sub K, Mul K, Div K, Neg K, LT K, LE K, OfScientific K where
  ltDecidable : ∀ a b : K, Decidable (a < b)
  leDecidable : ∀ a b : K, Decidable (a ≤ b)
  abs : K → K
  sqrt : K → K
  /-- Length of the vector with these two components. -/
  hypot : K → K → K
  cos : K → K
  sin : K → K
  /-- Angle of the vector whose second component comes first. -/
  atan2 : K → K → K
  pi : K

namespace Scalar

variable {K : Type} [Scalar K]

instance (a b : K) : Decidable (a < b) := ltDecidable a b

instance (a b : K) : Decidable (a ≤ b) := leDecidable a b

/-- The later operand counts only when it is strictly greater. -/
def max (a b : K) : K := if a < b then b else a

/-- Differences below this bound in both coordinates make two points one. -/
def tolerance : K := 1e-3

/-- Bound below which lengths, determinants and discriminants count as zero. -/
def epsilon : K := 1e-9

end Scalar

/-! ### Doubles -/

namespace Double

/-- `2 ^ 600` and its inverse, which bring extreme lengths back into range. -/
def large : Float := Float.ofBits 0x6570000000000000
def small : Float := Float.ofBits 0x1A70000000000000

/-- Length of a vector without overflow or underflow on the way.  An infinite component settles the
length, also beside a `NaN`. -/
def hypot (x y : Float) : Float :=
  let a := x.abs
  let b := y.abs
  let size := if a < b then b else a
  let length (s : Float) : Float := ((a * s) * (a * s) + (b * s) * (b * s)).sqrt
  if a.isInf || b.isInf then 1.0 / 0.0
  else if 1e150 < size then length small / small
  else if size < 1e-140 then length large / large
  else length 1.0

end Double

instance : Scalar Float where
  ltDecidable := Float.decLt
  leDecidable := Float.decLe
  abs := Float.abs
  sqrt := Float.sqrt
  hypot := Double.hypot
  cos := Float.cos
  sin := Float.sin
  atan2 := Float.atan2
  pi := 3.141592653589793

end RulerCompass
