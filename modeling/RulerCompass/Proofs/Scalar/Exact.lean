import Mathlib.Analysis.SpecialFunctions.Complex.Arg
import RulerCompass.Plane.Basic

/-!
# Exact scalars

Read at the real numbers, every operation is exact: nothing is rounded, and roots, lengths and angles are
what they are called.  What constructions do at doubles up to rounding, they do at the real numbers.
-/

namespace RulerCompass

-- Shortcuts: real numbers are divided, and written as decimals, as they are without being scalars.
noncomputable instance realDiv : Div ℝ := DivInvMonoid.toDiv

noncomputable instance realOfScientific : OfScientific ℝ := NNRatCast.toOfScientific

noncomputable instance : Scalar ℝ where
  ltDecidable := Real.decidableLT
  leDecidable := Real.decidableLE
  abs x := |x|
  sqrt := Real.sqrt
  hypot x y := Real.sqrt (x * x + y * y)
  cos := Real.cos
  sin := Real.sin
  atan2 y x := Complex.arg ⟨x, y⟩
  pi := Real.pi

namespace Scalar

@[simp] theorem abs_real (x : ℝ) : Scalar.abs x = |x| := rfl

@[simp] theorem sqrt_real (x : ℝ) : Scalar.sqrt x = Real.sqrt x := rfl

@[simp] theorem hypot_real (x y : ℝ) : Scalar.hypot x y = Real.sqrt (x * x + y * y) := rfl

@[simp] theorem max_real (x y : ℝ) : Scalar.max x y = Max.max x y := by
  rw [Scalar.max]
  split
  next h => exact (max_eq_right h.le).symm
  next h => exact (max_eq_left (not_lt.mp h)).symm

theorem zero_real : (0.0 : ℝ) = 0 := by norm_num

theorem one_real : (1.0 : ℝ) = 1 := by norm_num

theorem two_real : (2.0 : ℝ) = 2 := by norm_num

theorem four_real : (4.0 : ℝ) = 4 := by norm_num

theorem tolerance_real : (tolerance : ℝ) = 1 / 10 ^ 3 := by
  rw [tolerance]
  norm_num

theorem tolerance_pos : (0 : ℝ) < tolerance := by
  rw [tolerance_real]
  norm_num

theorem epsilon_real : (epsilon : ℝ) = 1 / 10 ^ 9 := by
  rw [epsilon]
  norm_num

end Scalar

namespace Coord

variable (a b : Coord ℝ)

theorem distance_nonneg : 0 ≤ a.distance b := Real.sqrt_nonneg _

theorem distance_comm : a.distance b = b.distance a := by
  show √((b.x - a.x) * (b.x - a.x) + (b.y - a.y) * (b.y - a.y)) =
    √((a.x - b.x) * (a.x - b.x) + (a.y - b.y) * (a.y - b.y))
  congr 1
  ring

/-- The theorem of Pythagoras. -/
theorem distance_sq : a.distance b ^ 2 = (b.x - a.x) ^ 2 + (b.y - a.y) ^ 2 := by
  have hsum : 0 ≤ (b.x - a.x) * (b.x - a.x) + (b.y - a.y) * (b.y - a.y) :=
    add_nonneg (mul_self_nonneg _) (mul_self_nonneg _)
  rw [sq (b.x - a.x), sq (b.y - a.y)]
  exact Real.sq_sqrt hsum

theorem near_comm : a.Near b ↔ b.Near a := by
  show |a.x - b.x| < _ ∧ |a.y - b.y| < _ ↔ |b.x - a.x| < _ ∧ |b.y - a.y| < _
  rw [abs_sub_comm a.x, abs_sub_comm a.y]

theorem near_self : a.Near a := by
  show |a.x - a.x| < _ ∧ |a.y - a.y| < _
  rw [sub_self, sub_self, abs_zero]
  exact ⟨Scalar.tolerance_pos, Scalar.tolerance_pos⟩

theorem not_near_iff : ¬ a.Near b ↔
    Scalar.tolerance ≤ |a.x - b.x| ∨ Scalar.tolerance ≤ |a.y - b.y| := by
  show ¬ (|a.x - b.x| < _ ∧ |a.y - b.y| < _) ↔ _
  rw [not_and_or, not_lt, not_lt]

theorem distance_axis (x y : ℝ) : (⟨x, 0⟩ : Coord ℝ).distance ⟨y, 0⟩ = |y - x| := by
  rw [distance, length, Scalar.hypot_real]
  show √((y - x) * (y - x) + (0 - 0) * (0 - 0)) = |y - x|
  rw [sub_zero, mul_zero, add_zero, Real.sqrt_mul_self_eq_abs]

end Coord

end RulerCompass
