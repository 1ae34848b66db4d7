import Mathlib.Data.Prod.Lex
import RulerCompass.Scalar

/-!
# Doubles in order

Apart from `NaN`, doubles are totally ordered, where both zeros count as one.  The rank of a double says
where it stands: first come negative infinity and the negative doubles, then zero, then the positive ones
up to infinity, and among doubles of one sign exponents count before mantissas.
-/

namespace RulerCompass.Double

open Float.Model (UnpackedFloat)

/-- The place of an unpacked double. -/
def place : UnpackedFloat → ℤ ×ₗ ℤ ×ₗ ℤ
  | .infinity .negative => toLex (-2, toLex (0, 0))
  | .finite .negative mantissa exponent _ => toLex (-1, toLex (-exponent, -mantissa))
  | .zero _ | .notANumber => toLex (0, toLex (0, 0))
  | .finite .positive mantissa exponent _ => toLex (1, toLex (exponent, mantissa))
  | .infinity .positive => toLex (2, toLex (0, 0))

/-- The rank of a double; that of a `NaN` has no meaning. -/
def rank (x : Float) : ℤ ×ₗ ℤ ×ₗ ℤ := place x.toModel.unpack

theorem compare_toLex (a b c d e f : ℤ) :
    compare (toLex (a, toLex (b, c))) (toLex (d, toLex (e, f))) =
      (compare a d).then ((compare b e).then (compare c f)) := rfl

theorem compare_neg (a b : ℤ) : compare (-a) (-b) = (compare a b).swap := by
  have hanti : StrictAnti fun a : ℤ => -a := fun _ _ h => Int.neg_lt_neg h
  rw [← cmp_eq_compare, ← cmp_eq_compare, hanti.cmp_map_eq, cmp_swap]

theorem compare_natCast (m n : ℕ) : compare (m : ℤ) (n : ℤ) = compare m n := by
  have hmono : StrictMono fun n : ℕ => (n : ℤ) := fun _ _ h => Int.ofNat_lt.mpr h
  rw [← cmp_eq_compare, ← cmp_eq_compare, hmono.cmp_map_eq]

/-- Doubles compare as their places do. -/
theorem compare_eq {a b : UnpackedFloat} (ha : a.isNaN = false) (hb : b.isNaN = false) :
    a.compare b = some (compare (place a) (place b)) := by
  -- Kind and sign decide about all pairs but those of finite doubles with one sign.
  rcases a with (_ | _) | _ | _ | ⟨_ | _, m, e, _⟩ <;>
    rcases b with (_ | _) | _ | _ | ⟨_ | _, n, d, _⟩ <;> try rfl
  all_goals try contradiction
  · -- Of negative doubles the one with the larger exponent and mantissa is the smaller.
    have hplace : compare (toLex (-1, toLex (-e, -(m : ℤ)))) (toLex (-1, toLex (-d, -(n : ℤ)))) =
        ((compare e d).then (compare m n)).swap := by
      rw [compare_toLex, compare_neg e d, compare_neg m n, compare_natCast, Ordering.swap_then]
      rfl
    exact congrArg some hplace.symm
  · -- Of positive ones it is the larger.
    have hplace : compare (toLex ((1 : ℤ), toLex (e, (m : ℤ)))) (toLex (1, toLex (d, (n : ℤ)))) =
        (compare e d).then (compare m n) := by
      rw [compare_toLex, compare_natCast]
      rfl
    exact congrArg some hplace.symm

variable {x y : Float}

theorem lt_iff_compare : x < y ↔ x.toModel.unpack.compare y.toModel.unpack = some .lt :=
  decide_eq_true_iff.trans beq_iff_eq

theorem le_iff_compare :
    x ≤ y ↔ (x.toModel.unpack.compare y.toModel.unpack).any (·.isLE) = true := decide_eq_true_iff

/-- A double below another is at most that one, since a `NaN` is neither. -/
theorem le_of_lt (h : x < y) : x ≤ y := by
  rw [le_iff_compare, lt_iff_compare.mp h]
  rfl

theorem lt_iff_rank_lt (hx : x.isNaN = false) (hy : y.isNaN = false) : x < y ↔ rank x < rank y := by
  rw [lt_iff_compare, compare_eq hx hy, Option.some_inj]
  exact compare_lt_iff_lt

theorem le_iff_rank_le (hx : x.isNaN = false) (hy : y.isNaN = false) : x ≤ y ↔ rank x ≤ rank y := by
  rw [le_iff_compare, compare_eq hx hy, Option.any_some, Ordering.isLE_iff_ne_gt]
  exact compare_le_iff_le

variable {z : Float}

theorem le_refl (hx : x.isNaN = false) : x ≤ x := (le_iff_rank_le hx hx).mpr le_rfl

theorem le_of_not_lt (hx : x.isNaN = false) (hy : y.isNaN = false) (h : ¬ x < y) : y ≤ x := by
  rw [lt_iff_rank_lt hx hy, not_lt] at h
  exact (le_iff_rank_le hy hx).mpr h

theorem lt_of_lt_of_le (hx : x.isNaN = false) (hy : y.isNaN = false) (hz : z.isNaN = false)
    (hxy : x < y) (hyz : y ≤ z) : x < z := by
  rw [lt_iff_rank_lt hx hy] at hxy
  rw [le_iff_rank_le hy hz] at hyz
  exact (lt_iff_rank_lt hx hz).mpr (hxy.trans_le hyz)

theorem lt_of_le_of_lt (hx : x.isNaN = false) (hy : y.isNaN = false) (hz : z.isNaN = false)
    (hxy : x ≤ y) (hyz : y < z) : x < z := by
  rw [le_iff_rank_le hx hy] at hxy
  rw [lt_iff_rank_lt hy hz] at hyz
  exact (lt_iff_rank_lt hx hz).mpr (hxy.trans_lt hyz)

end RulerCompass.Double
