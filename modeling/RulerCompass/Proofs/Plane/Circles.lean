import RulerCompass.Plane.Meeting
import RulerCompass.Proofs.Scalar.Exact

/-!
# Where two circles meet, exactly

Read at the real numbers, two circles meet on their radical line.  A point of the plane is described by
how far it lies along the line of centres and how far to the left of it; the common points lie at the foot
of the radical line, half a chord to the left and half a chord to the right.  Where the square of half the
chord counts as zero or is negative, the foot itself is taken for the only common point.
-/

namespace RulerCompass

open Scalar (epsilon)

namespace Disc

/-! ### Along the line of centres -/

section Frame

variable (c d : Disc ℝ)

/-- The distance of the centres. -/
noncomputable def gap : ℝ := c.center.distance d.center

/-- The way from the first centre to the foot of the radical line. -/
noncomputable def foot : ℝ :=
  (c.radius * c.radius - d.radius * d.radius + c.gap d * c.gap d) / (2 * c.gap d)

/-- The square of half the common chord, negative when there is none. -/
noncomputable def chordSquare : ℝ := c.radius * c.radius - c.foot d * c.foot d

/-- The point that lies so far along the line of centres and so far to the left of it. -/
noncomputable def placeAt (along aside : ℝ) : Coord ℝ :=
  c.center + (d.center - c.center).scale (along / c.gap d) +
    (d.center - c.center).quarterTurn.scale (aside / c.gap d)

@[simp] theorem placeAt_x (x y : ℝ) : (c.placeAt d x y).x =
    c.center.x + (d.center.x - c.center.x) * (x / c.gap d) +
      -(d.center.y - c.center.y) * (y / c.gap d) := rfl

@[simp] theorem placeAt_y (x y : ℝ) : (c.placeAt d x y).y =
    c.center.y + (d.center.y - c.center.y) * (x / c.gap d) +
      (d.center.x - c.center.x) * (y / c.gap d) := rfl

variable {c d}

theorem gap_sq : c.gap d ^ 2 =
    (d.center.x - c.center.x) ^ 2 + (d.center.y - c.center.y) ^ 2 := Coord.distance_sq _ _

/-- A turn and a stretch of the line of centres: the square of the length is that of the two parts. -/
theorem sq_add_sq_of_gap (hgap : 0 < c.gap d) (x y : ℝ) :
    ((d.center.x - c.center.x) * (x / c.gap d) - (d.center.y - c.center.y) * (y / c.gap d)) ^ 2 +
      ((d.center.y - c.center.y) * (x / c.gap d) + (d.center.x - c.center.x) * (y / c.gap d)) ^ 2 =
      x ^ 2 + y ^ 2 := by
  have hne : c.gap d ^ 2 ≠ 0 := pow_ne_zero 2 hgap.ne'
  calc _ = ((d.center.x - c.center.x) ^ 2 + (d.center.y - c.center.y) ^ 2) *
        ((x / c.gap d) ^ 2 + (y / c.gap d) ^ 2) := by ring
    _ = c.gap d ^ 2 * ((x / c.gap d) ^ 2 + (y / c.gap d) ^ 2) := by rw [gap_sq]
    _ = x ^ 2 + y ^ 2 := by
      rw [div_pow, div_pow, ← add_div, mul_div_cancel₀ _ hne]

theorem distance_center_sq (hgap : 0 < c.gap d) (x y : ℝ) :
    (c.placeAt d x y).distance c.center ^ 2 = x ^ 2 + y ^ 2 := by
  rw [Coord.distance_sq, placeAt_x, placeAt_y, ← sq_add_sq_of_gap hgap x y]
  ring

theorem distance_center_sq' (hgap : 0 < c.gap d) (x y : ℝ) :
    (c.placeAt d x y).distance d.center ^ 2 = (x - c.gap d) ^ 2 + y ^ 2 := by
  have hsplit : (x - c.gap d) / c.gap d = x / c.gap d - 1 := by
    rw [sub_div, div_self hgap.ne']
  rw [Coord.distance_sq, placeAt_x, placeAt_y, ← sq_add_sq_of_gap hgap (x - c.gap d) y, hsplit]
  ring

theorem foot_mul (hgap : 0 < c.gap d) : c.foot d * (2 * c.gap d) =
    c.radius * c.radius - d.radius * d.radius + c.gap d * c.gap d :=
  div_mul_cancel₀ _ (mul_pos two_pos hgap).ne'

/-- From the foot of the radical line both circles are seen alike. -/
theorem foot_sub_gap_sq (hgap : 0 < c.gap d) :
    (c.foot d - c.gap d) ^ 2 = d.radius ^ 2 - c.chordSquare d := by
  have hfoot := foot_mul hgap
  rw [chordSquare]
  linarith [sq (c.foot d - c.gap d), hfoot]

/-- Heron's formula, for the triangle on the centres and a common point. -/
theorem chordSquare_mul (hgap : 0 < c.gap d) :
    c.chordSquare d * (4 * c.gap d ^ 2) =
      (c.radius + d.radius + c.gap d) * (c.radius + d.radius - c.gap d) *
        ((c.gap d + (c.radius - d.radius)) * (c.gap d - (c.radius - d.radius))) := by
  calc _ = c.radius ^ 2 * (4 * c.gap d ^ 2) - (c.foot d * (2 * c.gap d)) ^ 2 := by
        rw [chordSquare]; ring
    _ = _ := by rw [foot_mul hgap]; ring

theorem gap_axis {r s x : ℝ} (hx : 0 < x) : gap ⟨⟨0, 0⟩, r⟩ ⟨⟨x, 0⟩, s⟩ = x := by
  rw [gap, Coord.distance_axis, sub_zero, abs_of_pos hx]

/-- With the centres on the first axis, the plane is described by its coordinates. -/
theorem placeAt_axis {r s x : ℝ} (hx : 0 < x) (along aside : ℝ) :
    placeAt ⟨⟨0, 0⟩, r⟩ ⟨⟨x, 0⟩, s⟩ along aside = ⟨along, aside⟩ := by
  unfold placeAt
  rw [gap_axis hx]
  show Coord.mk (0 + (x - 0) * (along / x) + -(0 - 0) * (aside / x))
    (0 + (0 - 0) * (along / x) + (x - 0) * (aside / x)) = _
  rw [sub_zero, sub_zero, mul_div_cancel₀ _ hx.ne', mul_div_cancel₀ _ hx.ne']
  simp

end Frame

/-! ### The common points, case by case -/

section Meet

variable {c d : Disc ℝ}

/-- What the construction asks of two circles before it looks for common points: distinct centres, circles
that are more than a point, and neither circle clear of the other, up to the bound for zero. -/
structure WithinReach (c d : Disc ℝ) : Prop where
  gap_gt : 1 / 10 ^ 9 < c.gap d
  radius_pos : 0 < c.radius
  radius_pos' : 0 < d.radius
  gap_le : c.gap d ≤ c.radius + d.radius + 1 / 10 ^ 9
  le_gap : |c.radius - d.radius| - 1 / 10 ^ 9 ≤ c.gap d

/-- The half chord counts as zero, on the scale of the first circle. -/
def Touches (c d : Disc ℝ) : Prop := c.chordSquare d ≤ 1 / 10 ^ 9 * max c.radius 1

theorem WithinReach.gap_pos (h : c.WithinReach d) : 0 < c.gap d :=
  lt_trans (by norm_num) h.gap_gt

theorem withinReach_iff : c.WithinReach d ↔
    ¬ ((d.center - c.center).length ≤ epsilon ∨ c.radius ≤ 0.0 ∨ d.radius ≤ 0.0) ∧
      ¬ (c.radius + d.radius + epsilon < (d.center - c.center).length ∨
        (d.center - c.center).length < Scalar.abs (c.radius - d.radius) - epsilon) := by
  rw [Scalar.epsilon_real, Scalar.abs_real]
  simp only [Scalar.zero_real, not_or, not_le, not_lt]
  exact ⟨fun h => ⟨⟨h.gap_gt, h.radius_pos, h.radius_pos'⟩, h.gap_le, h.le_gap⟩,
    fun ⟨⟨hgap, hr, hs⟩, hfar, hin⟩ => ⟨hgap, hr, hs, hfar, hin⟩⟩

theorem touches_iff : c.Touches d ↔
    c.radius * c.radius - c.foot d * c.foot d ≤ epsilon * Scalar.max c.radius 1.0 := by
  rw [Scalar.epsilon_real, Scalar.one_real, Scalar.max_real]
  rfl

theorem foot_eq : (c.radius * c.radius - d.radius * d.radius +
      (d.center - c.center).length * (d.center - c.center).length) /
    (2.0 * (d.center - c.center).length) = c.foot d := by
  rw [Scalar.two_real]
  rfl

theorem placeAt_zero (x : ℝ) :
    c.center + (d.center - c.center).scale (x / c.gap d) = c.placeAt d x 0 := by
  show Coord.mk _ _ = Coord.mk (_ + _ * (0 / c.gap d)) (_ + _ * (0 / c.gap d))
  rw [zero_div, mul_zero, mul_zero, add_zero, add_zero]
  rfl

theorem placeAt_neg (x y : ℝ) :
    c.center + (d.center - c.center).scale (x / c.gap d) -
      (d.center - c.center).quarterTurn.scale (y / c.gap d) = c.placeAt d x (-y) := by
  show Coord.mk (_ - _) (_ - _) = Coord.mk (_ + _ * (-y / c.gap d)) (_ + _ * (-y / c.gap d))
  rw [neg_div, mul_neg, mul_neg, ← sub_eq_add_neg, ← sub_eq_add_neg]
  rfl

theorem meet_eq_nil (h : ¬ c.WithinReach d) : c.meet d = [] := by
  simp only [meet]
  split
  next => rfl
  next hguard =>
    split
    next => rfl
    next hreach => exact absurd (withinReach_iff.mpr ⟨hguard, hreach⟩) h

theorem meet_eq_touch (h : c.WithinReach d) (ht : c.Touches d) :
    c.meet d = [c.placeAt d (c.foot d) 0] := by
  obtain ⟨hguard, hreach⟩ := withinReach_iff.mp h
  simp only [meet]
  rw [if_neg hguard, if_neg hreach, foot_eq, if_pos (touches_iff.mp ht)]
  exact congrArg (fun p => [p]) (placeAt_zero (c.foot d))

theorem meet_eq_cross (h : c.WithinReach d) (ht : ¬ c.Touches d) :
    c.meet d = [c.placeAt d (c.foot d) √(c.chordSquare d),
      c.placeAt d (c.foot d) (-√(c.chordSquare d))] := by
  obtain ⟨hguard, hreach⟩ := withinReach_iff.mp h
  simp only [meet]
  rw [if_neg hguard, if_neg hreach, foot_eq, if_neg (mt touches_iff.mpr ht), Scalar.sqrt_real]
  exact congrArg (fun p => [_, p]) (placeAt_neg (c.foot d) √(c.chordSquare d))

theorem withinReach_of_mem {p : Coord ℝ} (hp : p ∈ c.meet d) : c.WithinReach d := by
  by_contra hout
  rw [meet_eq_nil hout] at hp
  exact List.not_mem_nil hp

/-- Half a chord to either side of the foot lies exactly on both circles. -/
theorem distance_of_sq (h : c.WithinReach d) {y : ℝ} (hy : y ^ 2 = c.chordSquare d) :
    (c.placeAt d (c.foot d) y).distance c.center = c.radius ∧
      (c.placeAt d (c.foot d) y).distance d.center = d.radius := by
  refine ⟨(sq_eq_sq₀ (Coord.distance_nonneg _ _) h.radius_pos.le).mp ?_,
    (sq_eq_sq₀ (Coord.distance_nonneg _ _) h.radius_pos'.le).mp ?_⟩
  · rw [distance_center_sq h.gap_pos, hy, chordSquare]; ring
  · rw [distance_center_sq' h.gap_pos, foot_sub_gap_sq h.gap_pos, hy]; ring

theorem chordSquare_pos (ht : ¬ c.Touches d) : 0 < c.chordSquare d := by
  have hslack : (0 : ℝ) < 1 / 10 ^ 9 * max c.radius 1 :=
    mul_pos (by norm_num) (lt_max_of_lt_right one_pos)
  exact hslack.trans (not_le.mp ht)

/-- With the centres on the first axis, the tests before the construction are tests of three numbers. -/
theorem withinReach_axis {r s x : ℝ} (hx : 1 / 10 ^ 9 < x) (hr : 0 < r) (hs : 0 < s)
    (hfar : x ≤ r + s + 1 / 10 ^ 9) (hin : |r - s| - 1 / 10 ^ 9 ≤ x) :
    WithinReach ⟨⟨0, 0⟩, r⟩ ⟨⟨x, 0⟩, s⟩ := by
  have hgap : gap ⟨⟨0, 0⟩, r⟩ ⟨⟨x, 0⟩, s⟩ = x := gap_axis (lt_trans (by norm_num) hx)
  exact ⟨hgap.symm ▸ hx, hr, hs, hgap.symm ▸ hfar, hgap.symm ▸ hin⟩

/-- Centres on the first axis: the numbers that make the foot the only common point. -/
theorem mem_meet_axis {r s x a : ℝ} (hx : 1 / 10 ^ 9 < x) (hr : 0 < r) (hs : 0 < s)
    (hfar : x ≤ r + s + 1 / 10 ^ 9) (hin : |r - s| - 1 / 10 ^ 9 ≤ x)
    (ha : (r * r - s * s + x * x) / (2 * x) = a) (hq : r * r - a * a ≤ 1 / 10 ^ 9 * max r 1) :
    (⟨a, 0⟩ : Coord ℝ) ∈ meet ⟨⟨0, 0⟩, r⟩ ⟨⟨x, 0⟩, s⟩ := by
  have hpos : 0 < x := lt_trans (by norm_num) hx
  have hgap : gap ⟨⟨0, 0⟩, r⟩ ⟨⟨x, 0⟩, s⟩ = x := gap_axis hpos
  have hfoot : foot ⟨⟨0, 0⟩, r⟩ ⟨⟨x, 0⟩, s⟩ = a := by rw [foot, hgap, ha]
  have htouch : Touches ⟨⟨0, 0⟩, r⟩ ⟨⟨x, 0⟩, s⟩ := by
    rwa [Touches, chordSquare, hfoot]
  rw [meet_eq_touch (withinReach_axis hx hr hs hfar hin) htouch, hfoot, placeAt_axis hpos]
  exact List.mem_singleton_self _

end Meet

end Disc

end RulerCompass
