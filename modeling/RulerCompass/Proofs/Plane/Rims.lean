import RulerCompass.Proofs.Plane.Circles

/-!
# How near the common points of two circles are

Two common points lie on both circles.  A single one is the foot of the radical line, whose distance from
either circle depends on the chord alone: a chord that is too long puts it inside, and a chord whose square
is far below zero puts it outside.  The tests before the construction leave room for both.

`near_rims_iff` says when a common point is near both circles, and that this is so for all circles that are
not out of proportion to each other or to the way between their centres.
-/

namespace RulerCompass

open Scalar (tolerance)

namespace Disc

variable {c d : Disc ℝ}

/-- The point is as far from the centre as the radius says, up to the tolerance. -/
def NearRim (c : Disc ℝ) (p : Coord ℝ) : Prop := |p.distance c.center - c.radius| < tolerance

/-- A length with a known square, near a positive number. -/
theorem abs_sub_lt_iff_of_sq {x r t q : ℝ} (hx : 0 ≤ x) (hr : 0 < r) (ht : 0 < t)
    (hsq : x ^ 2 = r ^ 2 - q) :
    |x - r| < t ↔ -(t * (2 * r + t)) < q ∧ (r < t ∨ q < t * (2 * r - t)) := by
  -- Both sides are squared, since distances and radii are not negative.
  have hover : x - r < t ↔ -(t * (2 * r + t)) < q := by
    have hroot : x < r + t ↔ x ^ 2 < (r + t) ^ 2 := (sq_lt_sq₀ hx (by positivity)).symm
    rw [sub_lt_iff_lt_add', hroot, hsq]
    constructor <;> intro h <;> nlinarith only [h]
  have hunder : r - x < t ↔ r < t ∨ q < t * (2 * r - t) := by
    -- A radius below the tolerance leaves nothing to fall short of.
    rcases lt_or_ge r t with hrt | hrt
    · exact ⟨fun _ => .inl hrt, fun _ => by linarith⟩
    · have hroot : r - t < x ↔ (r - t) ^ 2 < x ^ 2 := (sq_lt_sq₀ (by linarith) hx).symm
      rw [sub_lt_comm, hroot, hsq, or_iff_right (not_lt.mpr hrt)]
      constructor <;> intro h <;> nlinarith only [h]
  rw [abs_sub_lt_iff, hover, hunder]

/-- Where the circles miss each other by `z`, the foot is little further from both of them. -/
theorem chordSquare_gt_of_miss {m z q g w : ℝ} (hg : 0 < g) (hm : 0 < m) (hz : 0 < z)
    (hzle : z ≤ 1 / 10 ^ 9) (hq : q * (4 * g ^ 2) = -(w * (z * (2 * m + z))))
    (hw : w ≤ 10 ^ 6 * (4 * g ^ 2)) : -(1 / 10 ^ 3 * (2 * m + 1 / 10 ^ 3)) < q := by
  have hsq : 0 < 4 * g ^ 2 := by positivity
  have hwz : w * (z * (2 * m + z)) ≤ 10 ^ 6 * (4 * g ^ 2) * (z * (2 * m + z)) :=
    mul_le_mul_of_nonneg_right hw (by positivity)
  have hlow : -(10 ^ 6 * (z * (2 * m + z))) ≤ q := by
    refine le_of_mul_le_mul_right ?_ hsq
    rw [hq]
    linarith only [hwz]
  have hz2 : z * (2 * m + z) ≤ 1 / 10 ^ 9 * (2 * m + 1 / 10 ^ 9) :=
    mul_le_mul hzle (by linarith) (by positivity) (by norm_num)
  calc -(1 / 10 ^ 3 * (2 * m + 1 / 10 ^ 3)) < -(10 ^ 6 * (1 / 10 ^ 9 * (2 * m + 1 / 10 ^ 9))) := by
        linarith only [hm]
    _ ≤ -(10 ^ 6 * (z * (2 * m + z))) := by linarith only [hz2]
    _ ≤ q := hlow

/-- Heron's formula bounds the chord from below, for a smaller radius `m` and a larger `M`: the circles
cross, lie apart, or lie one in the other. -/
theorem chordSquare_gt_of_heron {m M g q : ℝ} (hm : 0 < m) (hmM : m ≤ M) (hg : 1 / 10 ^ 9 < g)
    (hfar : g ≤ M + m + 1 / 10 ^ 9) (hin : M - m - 1 / 10 ^ 9 ≤ g)
    (hshape : M - m ≤ g ∨ M + m ≤ 10 ^ 6 * g)
    (hq : q * (4 * g ^ 2) = (M + m + g) * (M + m - g) * ((g + (M - m)) * (g - (M - m)))) :
    -(1 / 10 ^ 3 * (2 * m + 1 / 10 ^ 3)) < q := by
  have hpos : 0 < g := lt_trans (by norm_num) hg
  -- The circles are apart: the first factor of Heron's formula makes the chord negative.
  rcases lt_or_ge (M + m) g with hapart | hapart
  · have hw : (M + m + g) * (g + (M - m)) ≤ 2 * g * (2 * g) :=
      mul_le_mul (by linarith) (by linarith) (by linarith) (by linarith)
    refine chordSquare_gt_of_miss hpos hm (sub_pos.mpr hapart) (by linarith)
      (w := (M + m + g) * (g + (M - m))) ?_ ?_
    · rw [hq]; ring
    · nlinarith only [hw, sq_nonneg g]
  -- One circle lies in the other: the last factor makes it negative.
  rcases lt_or_ge g (M - m) with hnested | hcross
  · have hsum : M + m ≤ 10 ^ 6 * g := hshape.resolve_left (not_le.mpr hnested)
    have hw : (M + m + g) * (g + (M - m)) ≤ (10 ^ 6 + 1) * g * (3 * g) :=
      mul_le_mul (by linarith) (by linarith) (by linarith) (by positivity)
    refine chordSquare_gt_of_miss hpos hm (sub_pos.mpr hnested) (by linarith)
      (w := (M + m + g) * (g + (M - m))) ?_ ?_
    · rw [hq]; ring
    · nlinarith only [hw, sq_nonneg g]
  · -- The circles cross, and no factor is negative.
    have hheron : 0 ≤ q * (4 * g ^ 2) := by
      rw [hq]
      exact mul_nonneg (mul_nonneg (by linarith) (by linarith)) (mul_nonneg (by linarith) (by linarith))
    have hnonneg : 0 ≤ q := nonneg_of_mul_nonneg_left hheron (by positivity)
    linarith

/-- The foot is hardly outside either circle, but for circles one inside the other that are a million times
larger than the gap. -/
theorem chordSquare_gt (h : c.WithinReach d)
    (hshape : |c.radius - d.radius| ≤ c.gap d ∨ c.radius + d.radius ≤ 10 ^ 6 * c.gap d) :
    -(1 / 10 ^ 3 * (2 * min c.radius d.radius + 1 / 10 ^ 3)) < c.chordSquare d := by
  have hheron := chordSquare_mul h.gap_pos
  have hfar := h.gap_le
  have hin := h.le_gap
  -- Heron's formula is the same for both orders, so the smaller radius may be taken as the first.
  rcases le_total c.radius d.radius with hle | hle
  · rw [abs_sub_comm, abs_of_nonneg (sub_nonneg.mpr hle)] at hshape hin
    rw [min_eq_left hle]
    refine chordSquare_gt_of_heron h.radius_pos hle h.gap_gt (by linarith) hin (by rwa [add_comm]) ?_
    rw [hheron]; ring
  · rw [abs_of_nonneg (sub_nonneg.mpr hle)] at hshape hin
    rw [min_eq_right hle]
    exact chordSquare_gt_of_heron h.radius_pos' hle h.gap_gt hfar hin hshape hheron

/-- A half chord that counts as zero on the scale of one circle is short beside the other. -/
theorem lt_of_touches {r s q : ℝ} (hs : 1 / 10 ^ 3 ≤ s) (hscale : r ≤ 1 ∨ r < 10 ^ 6 * s)
    (hq : q ≤ 1 / 10 ^ 9 * max r 1) : q < 1 / 10 ^ 3 * (2 * s - 1 / 10 ^ 3) := by
  have hmax : max r 1 < 10 ^ 6 * s := by
    rcases hscale with hr | hr
    · rw [max_eq_right hr]; linarith
    · exact max_lt hr (by linarith)
  linarith

theorem nearRim_of_cross (h : c.WithinReach d) (ht : ¬ c.Touches d) {p : Coord ℝ}
    (hp : p ∈ c.meet d) : c.NearRim p ∧ d.NearRim p := by
  have hroot : √(c.chordSquare d) ^ 2 = c.chordSquare d := Real.sq_sqrt (chordSquare_pos ht).le
  have hon : p.distance c.center = c.radius ∧ p.distance d.center = d.radius := by
    rw [meet_eq_cross h ht, List.mem_pair] at hp
    rcases hp with rfl | rfl
    · exact distance_of_sq h hroot
    · exact distance_of_sq h (by rw [neg_sq, hroot])
  unfold NearRim
  rw [hon.1, hon.2, sub_self, sub_self, abs_zero]
  exact ⟨Scalar.tolerance_pos, Scalar.tolerance_pos⟩

/-- The foot alone, taken for the only common point. -/
theorem nearRim_foot_iff (h : c.WithinReach d) (ht : c.Touches d) :
    c.NearRim (c.placeAt d (c.foot d) 0) ∧ d.NearRim (c.placeAt d (c.foot d) 0) ↔
      -(tolerance * (2 * min c.radius d.radius + tolerance)) < c.chordSquare d ∧
        (d.radius < tolerance ∨ c.chordSquare d < tolerance * (2 * d.radius - tolerance)) := by
  have htol : (0 : ℝ) < tolerance := Scalar.tolerance_pos
  have hc : (c.placeAt d (c.foot d) 0).distance c.center ^ 2 = c.radius ^ 2 - c.chordSquare d := by
    rw [distance_center_sq h.gap_pos, chordSquare]; ring
  have hd : (c.placeAt d (c.foot d) 0).distance d.center ^ 2 = d.radius ^ 2 - c.chordSquare d := by
    rw [distance_center_sq' h.gap_pos, foot_sub_gap_sq h.gap_pos]; ring
  -- the bound for zero is on the scale of the first circle, so the foot is never far inside that one
  have hfirst : c.radius < tolerance ∨ c.chordSquare d < tolerance * (2 * c.radius - tolerance) := by
    rw [Scalar.tolerance_real]
    refine or_iff_not_imp_left.mpr fun hr => lt_of_touches (not_lt.mp hr) (.inr ?_) ht
    linarith [h.radius_pos]
  have hmin : -(tolerance * (2 * min c.radius d.radius + tolerance)) < c.chordSquare d ↔
      -(tolerance * (2 * c.radius + tolerance)) < c.chordSquare d ∧
        -(tolerance * (2 * d.radius + tolerance)) < c.chordSquare d := by
    rcases le_total c.radius d.radius with hle | hle
    · rw [min_eq_left hle]
      exact ⟨fun hlow => ⟨hlow, by nlinarith only [hlow, hle, htol]⟩, And.left⟩
    · rw [min_eq_right hle]
      exact ⟨fun hlow => ⟨by nlinarith only [hlow, hle, htol], hlow⟩, And.right⟩
  unfold NearRim
  rw [abs_sub_lt_iff_of_sq (Coord.distance_nonneg _ _) h.radius_pos htol hc,
    abs_sub_lt_iff_of_sq (Coord.distance_nonneg _ _) h.radius_pos' htol hd, hmin]
  tauto

/-- Every common point of two circles is near both of them if there are two; if there is one, this is a
matter of the half chord alone.  It holds of all circles that cross or touch but for a small second circle
beside a first that is a million times larger, and of circles one inside the other but for those with
almost one centre. -/
theorem near_rims_iff {p : Coord ℝ} (hp : p ∈ c.meet d) :
    (c.NearRim p ∧ d.NearRim p ↔
      (c.meet d).length = 2 ∨
        -(tolerance * (2 * min c.radius d.radius + tolerance)) < c.chordSquare d ∧
          (d.radius < tolerance ∨ c.chordSquare d < tolerance * (2 * d.radius - tolerance))) ∧
    (|c.radius - d.radius| ≤ c.gap d ∨ c.radius + d.radius ≤ 10 ^ 6 * c.gap d →
      c.radius ≤ 1 ∨ c.radius < 10 ^ 6 * d.radius → c.NearRim p ∧ d.NearRim p) := by
  have h := withinReach_of_mem hp
  -- A tangency: the one root is the foot of the chord.
  by_cases ht : c.Touches d
  · rw [meet_eq_touch h ht, List.mem_singleton] at hp
    have hone : (c.meet d).length ≠ 2 := by rw [meet_eq_touch h ht]; exact (Nat.succ_ne_self 1).symm
    rw [hp, or_iff_right hone, nearRim_foot_iff h ht]
    refine ⟨Iff.rfl, fun hshape hscale => ?_⟩
    rw [Scalar.tolerance_real]
    exact ⟨chordSquare_gt h hshape,
      or_iff_not_imp_left.mpr fun hs => lt_of_touches (not_lt.mp hs) hscale ht⟩
  · -- Two roots lie on both circles up to the tolerance in any case.
    have hnear := nearRim_of_cross h ht hp
    have htwo : (c.meet d).length = 2 := by rw [meet_eq_cross h ht]; rfl
    exact ⟨iff_of_true hnear (.inl htwo), fun _ _ => hnear⟩

/-- Unit circles that touch from outside. -/
theorem near_rims_tangent :
    (⟨1, 0⟩ : Coord ℝ) ∈ meet ⟨⟨0, 0⟩, 1⟩ ⟨⟨2, 0⟩, 1⟩ ∧
      NearRim ⟨⟨0, 0⟩, 1⟩ ⟨1, 0⟩ ∧ NearRim ⟨⟨2, 0⟩, 1⟩ ⟨1, 0⟩ := by
  have hmem : (⟨1, 0⟩ : Coord ℝ) ∈ meet ⟨⟨0, 0⟩, 1⟩ ⟨⟨2, 0⟩, 1⟩ := by
    apply mem_meet_axis <;> norm_num
  have hcross : |(1 : ℝ) - 1| ≤ gap ⟨⟨0, 0⟩, 1⟩ ⟨⟨2, 0⟩, 1⟩ := by
    rw [gap_axis two_pos]; norm_num
  exact ⟨hmem, (near_rims_iff hmem).2 (.inl hcross) (.inl le_rfl)⟩

/-- The unit circle and one inside it, with centres almost the same: the foot of their radical line is
given for a common point, two fifths of the radius away from both. -/
theorem far_root_of_nested :
    (⟨1.39999999904, 0⟩ : Coord ℝ) ∈ meet ⟨⟨0, 0⟩, 1⟩ ⟨⟨2e-9, 0⟩, 0.9999999972⟩ ∧
      ¬ NearRim ⟨⟨0, 0⟩, 1⟩ ⟨1.39999999904, 0⟩ ∧
      ¬ NearRim ⟨⟨2e-9, 0⟩, 0.9999999972⟩ ⟨1.39999999904, 0⟩ := by
  refine ⟨?_, ?_, ?_⟩
  · apply mem_meet_axis <;> norm_num [abs_of_pos]
  · rw [NearRim, Coord.distance_axis, Scalar.tolerance_real]
    norm_num [abs_of_pos, abs_of_neg]
  · rw [NearRim, Coord.distance_axis, Scalar.tolerance_real]
    norm_num [abs_of_pos, abs_of_neg]

end Disc

end RulerCompass
