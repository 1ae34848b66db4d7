import Mathlib.Algebra.QuadraticDiscriminant
import RulerCompass.Proofs.Plane.Circles

/-!
# Two common points

Where two circles, or a circle and a line, have two common points, these are the ends of a chord.  Read at
the real numbers they are exact: they lie on both figures, no other point does, and they come in the order
that is promised, first left and then right of the line of centres, or along the line.

The tests before each construction leave only positive numbers to divide by and to take a root of, so in a
computation that gives two points neither step can fail.
-/

namespace RulerCompass

open Scalar (epsilon)

theorem mul_div_eq_of_mul_eq {a b c k : ℝ} (hk : k ≠ 0) (h : a * b = c * k) : a * (b / k) = c := by
  rw [← mul_div_assoc, h, mul_div_cancel_right₀ c hk]

namespace Coord

/-- The point lies strictly to the left of the way from `a` to `b`. -/
def LeftOf (p a b : Coord ℝ) : Prop := 0 < (b - a).cross (p - a)

/-- The point lies strictly to the right of the way from `a` to `b`. -/
def RightOf (p a b : Coord ℝ) : Prop := (b - a).cross (p - a) < 0

theorem cross_sub (a b p : Coord ℝ) : (b - a).cross (p - a) =
    (b.x - a.x) * (p.y - a.y) - (b.y - a.y) * (p.x - a.x) := rfl

end Coord

/-! ### Points of a line -/

namespace Span

variable {l : Span ℝ} {p : Coord ℝ}

/-- The point lies on the whole line through both ends. -/
def Carries (l : Span ℝ) (p : Coord ℝ) : Prop := (l.stop - l.start).cross (p - l.start) = 0

/-- The square of the distance of the ends. -/
noncomputable def square (l : Span ℝ) : ℝ := (l.stop - l.start).dot (l.stop - l.start)

theorem square_eq (l : Span ℝ) : l.square =
    (l.stop.x - l.start.x) * (l.stop.x - l.start.x) +
      (l.stop.y - l.start.y) * (l.stop.y - l.start.y) := rfl

@[simp] theorem pointAt_x (l : Span ℝ) (t : ℝ) :
    (l.pointAt t).x = l.start.x + (l.stop.x - l.start.x) * t := rfl

@[simp] theorem pointAt_y (l : Span ℝ) (t : ℝ) :
    (l.pointAt t).y = l.start.y + (l.stop.y - l.start.y) * t := rfl

theorem carries_pointAt (l : Span ℝ) (t : ℝ) : l.Carries (l.pointAt t) := by
  rw [Carries, Coord.cross_sub, pointAt_x, pointAt_y]
  ring

/-- Between distinct ends every point of the line has its ratio. -/
theorem exists_pointAt (hl : 0 < l.square) (hp : l.Carries p) : ∃ t, l.pointAt t = p := by
  -- The parameter is the projection of the point on the direction of the line.
  rw [Carries, Coord.cross_sub] at hp
  have hx : (l.stop.x - l.start.x) * ((l.stop.x - l.start.x) * (p.x - l.start.x) +
      (l.stop.y - l.start.y) * (p.y - l.start.y)) = (p.x - l.start.x) * l.square := by
    rw [square_eq]
    linear_combination (l.stop.y - l.start.y) * hp
  have hy : (l.stop.y - l.start.y) * ((l.stop.x - l.start.x) * (p.x - l.start.x) +
      (l.stop.y - l.start.y) * (p.y - l.start.y)) = (p.y - l.start.y) * l.square := by
    rw [square_eq]
    linear_combination -(l.stop.x - l.start.x) * hp
  refine ⟨((l.stop.x - l.start.x) * (p.x - l.start.x) +
    (l.stop.y - l.start.y) * (p.y - l.start.y)) / l.square, congrArg₂ Coord.mk ?_ ?_⟩
  · exact (congrArg (l.start.x + ·) (mul_div_eq_of_mul_eq hl.ne' hx)).trans (add_sub_cancel _ _)
  · exact (congrArg (l.start.y + ·) (mul_div_eq_of_mul_eq hl.ne' hy)).trans (add_sub_cancel _ _)

end Span

namespace Disc

/-- The equation of the circle holds of the point. -/
def Carries (c : Disc ℝ) (p : Coord ℝ) : Prop :=
  (p.x - c.center.x) ^ 2 + (p.y - c.center.y) ^ 2 = c.radius ^ 2

/-! ### Two circles -/

section Circles

variable {c d : Disc ℝ} {p q : Coord ℝ}

theorem carries_iff_distance_sq : c.Carries p ↔ p.distance c.center ^ 2 = c.radius ^ 2 := by
  rw [Coord.distance_sq, Carries, sub_sq_comm p.x, sub_sq_comm p.y]

theorem cross_placeAt (hgap : 0 < c.gap d) (x y : ℝ) :
    (d.center - c.center).cross (c.placeAt d x y - c.center) = c.gap d * y := by
  have hgap' : c.gap d ^ 2 * (y / c.gap d) = c.gap d * y := by
    rw [sq, mul_assoc, mul_div_cancel₀ y hgap.ne']
  rw [Coord.cross_sub, placeAt_x, placeAt_y, ← hgap', gap_sq]
  ring

/-- Every point lies somewhere along the line of centres and somewhere to the left or right of it. -/
theorem exists_placeAt (hgap : 0 < c.gap d) (p : Coord ℝ) : ∃ x y, c.placeAt d x y = p := by
  -- The two coordinates are projections too, on the line of centres and across it.
  have hsq : c.gap d * c.gap d =
      (d.center.x - c.center.x) ^ 2 + (d.center.y - c.center.y) ^ 2 := by rw [← sq, gap_sq]
  have hne : c.gap d * c.gap d ≠ 0 := (mul_pos hgap hgap).ne'
  refine ⟨((d.center.x - c.center.x) * (p.x - c.center.x) +
      (d.center.y - c.center.y) * (p.y - c.center.y)) / c.gap d,
    ((d.center.x - c.center.x) * (p.y - c.center.y) -
      (d.center.y - c.center.y) * (p.x - c.center.x)) / c.gap d, congrArg₂ Coord.mk ?_ ?_⟩
  · show c.center.x + (d.center.x - c.center.x) * (_ / c.gap d / c.gap d) +
      -(d.center.y - c.center.y) * (_ / c.gap d / c.gap d) = p.x
    rw [div_div, div_div, add_assoc, ← eq_sub_iff_add_eq', ← mul_div_assoc, ← mul_div_assoc,
      ← add_div, div_eq_iff hne, hsq]
    ring
  · show c.center.y + (d.center.y - c.center.y) * (_ / c.gap d / c.gap d) +
      (d.center.x - c.center.x) * (_ / c.gap d / c.gap d) = p.y
    rw [div_div, div_div, add_assoc, ← eq_sub_iff_add_eq', ← mul_div_assoc, ← mul_div_assoc,
      ← add_div, div_eq_iff hne, hsq]
    ring

/-- On both circles are the ends of the common chord, and nothing else. -/
theorem carries_placeAt_iff (hgap : 0 < c.gap d) (x y : ℝ) :
    c.Carries (c.placeAt d x y) ∧ d.Carries (c.placeAt d x y) ↔
      x = c.foot d ∧ y ^ 2 = c.chordSquare d := by
  rw [carries_iff_distance_sq, carries_iff_distance_sq, distance_center_sq hgap,
    distance_center_sq' hgap]
  have hfoot := foot_mul hgap
  constructor
  · rintro ⟨hc, hd⟩
    -- The difference of the two equations has no square of `x` any more.
    have hx : x * (2 * c.gap d) = c.foot d * (2 * c.gap d) := by linarith
    obtain rfl := mul_right_cancel₀ (mul_pos two_pos hgap).ne' hx
    refine ⟨rfl, ?_⟩
    rw [chordSquare]
    linarith
  · rintro ⟨rfl, hy⟩
    rw [hy, foot_sub_gap_sq hgap, chordSquare]
    exact ⟨by ring, by ring⟩

theorem carries_both_iff (hgap : 0 < c.gap d) (hchord : 0 ≤ c.chordSquare d) (r : Coord ℝ) :
    c.Carries r ∧ d.Carries r ↔ r = c.placeAt d (c.foot d) √(c.chordSquare d) ∨
      r = c.placeAt d (c.foot d) (-√(c.chordSquare d)) := by
  have hroot : √(c.chordSquare d) ^ 2 = c.chordSquare d := Real.sq_sqrt hchord
  constructor
  · intro hr
    obtain ⟨x, y, rfl⟩ := exists_placeAt hgap r
    obtain ⟨rfl, hy⟩ := (carries_placeAt_iff hgap x y).mp hr
    rw [← hroot] at hy
    rcases sq_eq_sq_iff_eq_or_eq_neg.mp hy with rfl | rfl
    · exact Or.inl rfl
    · exact Or.inr rfl
  · rintro (rfl | rfl)
    · exact (carries_placeAt_iff hgap _ _).mpr ⟨rfl, hroot⟩
    · exact (carries_placeAt_iff hgap _ _).mpr ⟨rfl, (neg_sq _).trans hroot⟩

theorem cross_of_meet_eq_pair (h : c.meet d = [p, q]) : (c.WithinReach d ∧ ¬ c.Touches d) ∧
    p = c.placeAt d (c.foot d) √(c.chordSquare d) ∧
      q = c.placeAt d (c.foot d) (-√(c.chordSquare d)) := by
  have hreach : c.WithinReach d := withinReach_of_mem (h ▸ List.mem_cons_self)
  by_cases ht : c.Touches d
  · rw [meet_eq_touch hreach ht] at h
    cases h
  · rw [meet_eq_cross hreach ht] at h
    obtain ⟨rfl, hrest⟩ := List.cons.inj h
    obtain ⟨rfl, -⟩ := List.cons.inj hrest
    exact ⟨⟨hreach, ht⟩, rfl, rfl⟩

end Circles

/-! ### A circle and a line -/

section Line

variable (c : Disc ℝ) (l : Span ℝ)

/-- The ratios at which the line cuts the circle solve an equation with this linear coefficient. -/
noncomputable def linear : ℝ := 2.0 * (l.stop - l.start).dot (l.start - c.center)

/-- The constant coefficient of that equation. -/
noncomputable def constant : ℝ :=
  (l.start - c.center).dot (l.start - c.center) - c.radius * c.radius

/-- The discriminant of that equation. -/
noncomputable def discriminant : ℝ := discrim l.square (c.linear l) (c.constant l)

theorem cuts_eq : c.cuts l =
    if l.square ≤ epsilon * epsilon ∨ c.radius ≤ 0 then []
    else if c.discriminant l < -epsilon * l.square then []
    else if c.discriminant l ≤ epsilon * l.square then [-c.linear l / (2 * l.square)]
    else [(-c.linear l - √(c.discriminant l)) / (2 * l.square),
      (-c.linear l + √(c.discriminant l)) / (2 * l.square)] := by
  rw [discriminant, discrim, linear, sq]
  simp only [cuts, Scalar.zero_real, Scalar.two_real, Scalar.four_real]
  rfl

variable {c l} {p q : Coord ℝ}

theorem carries_pointAt_iff (t : ℝ) : c.Carries (l.pointAt t) ↔
    l.square * (t * t) + c.linear l * t + c.constant l = 0 := by
  have hsides : l.square * (t * t) + c.linear l * t + c.constant l =
      ((l.pointAt t).x - c.center.x) ^ 2 + ((l.pointAt t).y - c.center.y) ^ 2 - c.radius ^ 2 := by
    rw [Span.square_eq, Span.pointAt_x, Span.pointAt_y, linear, Scalar.two_real]
    show _ + 2 * ((l.stop.x - l.start.x) * (l.start.x - c.center.x) +
      (l.stop.y - l.start.y) * (l.start.y - c.center.y)) * t +
      ((l.start.x - c.center.x) * (l.start.x - c.center.x) +
        (l.start.y - c.center.y) * (l.start.y - c.center.y) - c.radius * c.radius) = _
    ring
  rw [hsides, sub_eq_zero, Carries]

theorem carries_line_iff (hsquare : 0 < l.square) (hdisc : 0 ≤ c.discriminant l) (r : Coord ℝ) :
    c.Carries r ∧ l.Carries r ↔
      r = l.pointAt ((-c.linear l - √(c.discriminant l)) / (2 * l.square)) ∨
        r = l.pointAt ((-c.linear l + √(c.discriminant l)) / (2 * l.square)) := by
  have hroot : discrim l.square (c.linear l) (c.constant l) =
      √(c.discriminant l) * √(c.discriminant l) := (Real.mul_self_sqrt hdisc).symm
  -- On the line the circle is a quadratic equation for the parameter.
  have hcuts : ∀ t, c.Carries (l.pointAt t) ↔
      t = (-c.linear l + √(c.discriminant l)) / (2 * l.square) ∨
        t = (-c.linear l - √(c.discriminant l)) / (2 * l.square) := fun t =>
    (carries_pointAt_iff t).trans (quadratic_eq_zero_iff hsquare.ne' hroot t)
  constructor
  · rintro ⟨hc, hl⟩
    obtain ⟨t, rfl⟩ := Span.exists_pointAt hsquare hl
    rcases (hcuts t).mp hc with rfl | rfl
    · exact Or.inr rfl
    · exact Or.inl rfl
  · rintro (rfl | rfl)
    · exact ⟨(hcuts _).mpr (Or.inr rfl), Span.carries_pointAt l _⟩
    · exact ⟨(hcuts _).mpr (Or.inl rfl), Span.carries_pointAt l _⟩

theorem cuts_of_meetLine_eq_pair (h : c.meetLine l = [p, q]) : (0 < l.square ∧ 0 < c.discriminant l) ∧
    p = l.pointAt ((-c.linear l - √(c.discriminant l)) / (2 * l.square)) ∧
      q = l.pointAt ((-c.linear l + √(c.discriminant l)) / (2 * l.square)) := by
  have heps : (0 : ℝ) < epsilon := by
    rw [Scalar.epsilon_real]
    norm_num
  rw [meetLine] at h
  split at h
  · cases h
  · rw [cuts_eq] at h
    split at h
    next => cases h
    next hguard =>
      -- The guard has been passed, so the line has a direction.
      have hsquare : 0 < l.square := (mul_pos heps heps).trans (not_le.mp (not_or.mp hguard).1)
      split at h
      next => cases h
      next =>
        split at h
        next => cases h
        next hdisc =>
          obtain ⟨rfl, hrest⟩ := List.cons.inj h
          obtain ⟨rfl, -⟩ := List.cons.inj hrest
          exact ⟨⟨hsquare, (mul_pos heps hsquare).trans (not_le.mp hdisc)⟩, rfl, rfl⟩

end Line

/-! ### Both -/

/-- **Two common points are exact.**  If two circles have two common points, the first one lies to the left
and the second one to the right of the way from centre to centre, and these are all points on both circles.
If a circle and a line have two common points, these come in the direction of the line, and they are all
points on both.  What was divided by, and what a root was taken of, was positive. -/
theorem common_points_exact :
    (∀ (c d : Disc ℝ) (p q : Coord ℝ), c.meet d = [p, q] →
      (0 < c.gap d ∧ 0 < c.chordSquare d) ∧
      (∀ r, c.Carries r ∧ d.Carries r ↔ r = p ∨ r = q) ∧
      p.LeftOf c.center d.center ∧ q.RightOf c.center d.center) ∧
    ∀ (c : Disc ℝ) (l : Span ℝ) (p q : Coord ℝ), c.meetLine l = [p, q] →
      (0 < l.square ∧ 0 < c.discriminant l) ∧
      (∀ r, c.Carries r ∧ l.Carries r ↔ r = p ∨ r = q) ∧
      ∃ s t, s < t ∧ p = l.pointAt s ∧ q = l.pointAt t := by
  refine ⟨fun c d p q h => ?_, fun c l p q h => ?_⟩
  · -- Left and right are told by the sign of the cross product.
    obtain ⟨⟨hreach, ht⟩, rfl, rfl⟩ := cross_of_meet_eq_pair h
    have hgap := hreach.gap_pos
    have hchord := chordSquare_pos ht
    have hroot := Real.sqrt_pos.mpr hchord
    refine ⟨⟨hgap, hchord⟩, carries_both_iff hgap hchord.le, ?_, ?_⟩
    · rw [Coord.LeftOf, cross_placeAt hgap]
      exact mul_pos hgap hroot
    · rw [Coord.RightOf, cross_placeAt hgap]
      exact mul_neg_of_pos_of_neg hgap (neg_neg_of_pos hroot)
  · -- Along the line the smaller parameter comes first.
    obtain ⟨⟨hsquare, hdisc⟩, rfl, rfl⟩ := cuts_of_meetLine_eq_pair h
    have hroot := Real.sqrt_pos.mpr hdisc
    refine ⟨⟨hsquare, hdisc⟩, carries_line_iff hsquare hdisc.le, _, _, ?_, rfl, rfl⟩
    exact div_lt_div_of_pos_right (by linarith) (mul_pos two_pos hsquare)

theorem meet_three_four_five :
    meet ⟨⟨0, 0⟩, 5⟩ ⟨⟨6, 0⟩, 5⟩ = [(⟨3, 4⟩ : Coord ℝ), ⟨3, -4⟩] := by
  have hgap : gap ⟨⟨0, 0⟩, 5⟩ ⟨⟨6, 0⟩, 5⟩ = 6 := gap_axis (by norm_num)
  have hfoot : foot ⟨⟨0, 0⟩, 5⟩ ⟨⟨6, 0⟩, 5⟩ = 3 := by rw [foot, hgap]; norm_num
  have hchord : chordSquare ⟨⟨0, 0⟩, 5⟩ ⟨⟨6, 0⟩, 5⟩ = 4 ^ 2 := by rw [chordSquare, hfoot]; norm_num
  have hreach : WithinReach ⟨⟨0, 0⟩, 5⟩ ⟨⟨6, 0⟩, 5⟩ := by apply withinReach_axis <;> norm_num
  have hcross : ¬ Touches ⟨⟨0, 0⟩, 5⟩ ⟨⟨6, 0⟩, 5⟩ := by rw [Touches, hchord]; norm_num
  rw [meet_eq_cross hreach hcross, hfoot, hchord, Real.sqrt_sq (by norm_num),
    placeAt_axis (by norm_num), placeAt_axis (by norm_num)]

theorem meetLine_unit_axis :
    meetLine ⟨⟨0, 0⟩, 1⟩ ⟨⟨2, 0⟩, ⟨3, 0⟩⟩ = [(⟨-1, 0⟩ : Coord ℝ), ⟨1, 0⟩] := by
  have hfar : ¬ Coord.Near (⟨2, 0⟩ : Coord ℝ) ⟨3, 0⟩ := fun hnear => by
    have hx : |(2 : ℝ) - 3| < Scalar.tolerance := hnear.1
    rw [Scalar.tolerance_real] at hx
    norm_num at hx
  have hsquare : Span.square ⟨⟨2, 0⟩, ⟨3, 0⟩⟩ = 1 := by rw [Span.square_eq]; norm_num
  have hlinear : linear ⟨⟨0, 0⟩, 1⟩ ⟨⟨2, 0⟩, ⟨3, 0⟩⟩ = 4 := by
    rw [linear, Scalar.two_real]
    show 2 * (((3 : ℝ) - 2) * (2 - 0) + (0 - 0) * (0 - 0)) = 4
    norm_num
  have hdisc : discriminant ⟨⟨0, 0⟩, 1⟩ ⟨⟨2, 0⟩, ⟨3, 0⟩⟩ = 2 ^ 2 := by
    rw [discriminant, hsquare, hlinear]
    show (4 : ℝ) ^ 2 - 4 * 1 * ((2 - 0) * (2 - 0) + (0 - 0) * (0 - 0) - 1 * 1) = 2 ^ 2
    norm_num
  have haxis : ∀ t : ℝ, Span.pointAt ⟨⟨2, 0⟩, ⟨3, 0⟩⟩ t = ⟨2 + t, 0⟩ := fun t => by
    show Coord.mk (2 + (3 - 2) * t) (0 + (0 - 0) * t) = ⟨2 + t, 0⟩
    norm_num
  rw [meetLine, if_neg hfar, cuts_eq, hsquare, hlinear, hdisc, Real.sqrt_sq (by norm_num),
    Scalar.epsilon_real, if_neg (by norm_num), if_neg (by norm_num), if_neg (by norm_num),
    List.map_cons, List.map_cons, List.map_nil, haxis, haxis]
  norm_num

/-- Two circles of radius five with six between their centres, and the unit circle with the first axis. -/
theorem common_points_exact_three_four_five :
    (∀ r, Carries ⟨⟨0, 0⟩, 5⟩ r ∧ Carries ⟨⟨6, 0⟩, 5⟩ r ↔ r = ⟨3, 4⟩ ∨ r = ⟨3, -4⟩) ∧
      ∀ r, Carries ⟨⟨0, 0⟩, 1⟩ r ∧ Span.Carries ⟨⟨2, 0⟩, ⟨3, 0⟩⟩ r ↔ r = ⟨-1, 0⟩ ∨ r = ⟨1, 0⟩ :=
  ⟨(common_points_exact.1 _ _ _ _ meet_three_four_five).2.1,
    (common_points_exact.2 _ _ _ _ meetLine_unit_axis).2.1⟩

end Disc

end RulerCompass
