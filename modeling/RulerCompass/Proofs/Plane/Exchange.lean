import RulerCompass.Proofs.Plane.Circles

/-!
# Which circle is named first

Two circles have one radical line, with one foot on the line of their centres and one half chord.  When the
circles change places, so do left and right, and nothing else; and all that is asked of them before the
construction is the same, but for one thing: which half chord counts as zero is measured on the scale of
the first circle.

`meet_exchanged_iff` says that this alone decides whether the common points are the same in reverse order.
-/

namespace RulerCompass.Disc

variable {c d : Disc ℝ}

/-! ### One radical line -/

theorem gap_comm (c d : Disc ℝ) : c.gap d = d.gap c := Coord.distance_comm _ _

/-- The ways from both centres to the foot make up the way between the centres. -/
theorem foot_exchange (hgap : 0 < c.gap d) : d.foot c = c.gap d - c.foot d := by
  have hc := foot_mul hgap
  have hd := foot_mul (gap_comm c d ▸ hgap)
  rw [gap_comm d c] at hd
  have hsum : d.foot c * (2 * c.gap d) = (c.gap d - c.foot d) * (2 * c.gap d) := by linarith
  exact mul_right_cancel₀ (mul_pos two_pos hgap).ne' hsum

/-- Heron's formula does not tell the sides of a triangle apart. -/
theorem chordSquare_comm (hgap : 0 < c.gap d) : d.chordSquare c = c.chordSquare d := by
  have hc := chordSquare_mul hgap
  have hd := chordSquare_mul (gap_comm c d ▸ hgap)
  rw [gap_comm d c] at hd
  have hsquare : d.chordSquare c * (4 * c.gap d ^ 2) = c.chordSquare d * (4 * c.gap d ^ 2) := by
    rw [hc, hd]
    ring
  exact mul_right_cancel₀ (mul_pos four_pos (pow_pos hgap 2)).ne' hsquare

/-- Seen from the other centre a point lies so much less far along the line, and on the other side. -/
theorem placeAt_exchange (hgap : 0 < c.gap d) (x y : ℝ) :
    d.placeAt c (c.gap d - x) (-y) = c.placeAt d x y := by
  have hrest : (c.gap d - x) / c.gap d = 1 - x / c.gap d := by rw [sub_div, div_self hgap.ne']
  have hx : (d.placeAt c (c.gap d - x) (-y)).x = (c.placeAt d x y).x := by
    rw [placeAt_x, placeAt_x, gap_comm d c, hrest]
    ring
  have hy : (d.placeAt c (c.gap d - x) (-y)).y = (c.placeAt d x y).y := by
    rw [placeAt_y, placeAt_y, gap_comm d c, hrest]
    ring
  exact congrArg₂ Coord.mk hx hy

theorem WithinReach.symm (h : c.WithinReach d) : d.WithinReach c where
  gap_gt := gap_comm c d ▸ h.gap_gt
  radius_pos := h.radius_pos'
  radius_pos' := h.radius_pos
  gap_le := by
    rw [gap_comm d c, add_comm d.radius]
    exact h.gap_le
  le_gap := by
    rw [gap_comm d c, abs_sub_comm]
    exact h.le_gap

/-! ### Common points in the other order -/

/-- Whenever both circles agree whether they touch, they have the same common points in both orders. -/
theorem meet_reverse (h : c.WithinReach d → (c.Touches d ↔ d.Touches c)) :
    d.meet c = (c.meet d).reverse := by
  by_cases hreach : c.WithinReach d
  · have hgap := hreach.gap_pos
    by_cases ht : c.Touches d
    · rw [meet_eq_touch hreach.symm ((h hreach).mp ht), meet_eq_touch hreach ht, foot_exchange hgap,
        List.reverse_singleton, ← placeAt_exchange hgap (c.foot d) 0, neg_zero]
    · rw [meet_eq_cross hreach.symm (mt (h hreach).mpr ht), meet_eq_cross hreach ht,
        foot_exchange hgap, chordSquare_comm hgap, ← placeAt_exchange hgap _ √(c.chordSquare d),
        ← placeAt_exchange hgap _ (-√(c.chordSquare d)), neg_neg]
      rfl
  · rw [meet_eq_nil (mt WithinReach.symm hreach), meet_eq_nil hreach]
    rfl

/-- The half chord counts as zero on the scale of the larger circle, and not on that of the smaller one. -/
structure Disputed (c d : Disc ℝ) : Prop where
  reach : c.WithinReach d
  large : 1 / 10 ^ 9 * max (min c.radius d.radius) 1 < c.chordSquare d
  small : c.chordSquare d ≤ 1 / 10 ^ 9 * max (max c.radius d.radius) 1

namespace Disputed

theorem symm (h : c.Disputed d) : d.Disputed c where
  reach := h.reach.symm
  large := by
    rw [chordSquare_comm h.reach.gap_pos, min_comm]
    exact h.large
  small := by
    rw [chordSquare_comm h.reach.gap_pos, max_comm d.radius]
    exact h.small

/-- From the larger circle only the foot is found, from the smaller one both ends of the chord. -/
theorem meet_eq (h : c.Disputed d) (hlt : d.radius ≤ c.radius) :
    c.meet d = [c.placeAt d (c.foot d) 0] ∧
      d.meet c = [c.placeAt d (c.foot d) (-√(c.chordSquare d)),
        c.placeAt d (c.foot d) √(c.chordSquare d)] := by
  have hgap := h.reach.gap_pos
  -- The larger circle takes the chord for nought.
  have htouch : c.Touches d := by
    have hsmall := h.small
    rwa [max_eq_left hlt] at hsmall
  -- The smaller one has a finer bound, above which the chord counts.
  have hcross : ¬ d.Touches c := by
    have hlarge := h.large
    rw [min_eq_right hlt, ← chordSquare_comm hgap] at hlarge
    exact not_le.mpr hlarge
  refine ⟨meet_eq_touch h.reach htouch, ?_⟩
  rw [meet_eq_cross h.reach.symm hcross, foot_exchange hgap, chordSquare_comm hgap,
    ← placeAt_exchange hgap _ √(c.chordSquare d), ← placeAt_exchange hgap _ (-√(c.chordSquare d)),
    neg_neg]

theorem length_ne (h : c.Disputed d) : (d.meet c).length ≠ (c.meet d).length := by
  rcases le_total d.radius c.radius with hle | hle
  · obtain ⟨hone, htwo⟩ := h.meet_eq hle
    rw [hone, htwo]
    exact Nat.succ_ne_self 1
  · obtain ⟨hone, htwo⟩ := h.symm.meet_eq hle
    rw [hone, htwo]
    exact (Nat.succ_ne_self 1).symm

end Disputed

/-- What is not disputed looks alike on both scales. -/
theorem touches_iff_of_not_disputed (h : ¬ c.Disputed d) (hreach : c.WithinReach d) :
    c.Touches d ↔ d.Touches c := by
  rw [Touches, Touches, chordSquare_comm hreach.gap_pos]
  have hscale : ∀ {r s : ℝ}, r ≤ s → 1 / 10 ^ 9 * max r 1 ≤ 1 / 10 ^ 9 * max s 1 := fun hle =>
    mul_le_mul_of_nonneg_left (max_le_max_right 1 hle) (by norm_num)
  have hone : c.chordSquare d ≤ 1 / 10 ^ 9 * max (max c.radius d.radius) 1 →
      c.chordSquare d ≤ 1 / 10 ^ 9 * max (min c.radius d.radius) 1 := fun hsmall =>
    not_lt.mp fun hlarge => h ⟨hreach, hlarge, hsmall⟩
  exact ⟨fun hc => (hone (hc.trans (hscale (le_max_left _ _)))).trans (hscale (min_le_right _ _)),
    fun hd => (hone (hd.trans (hscale (le_max_right _ _)))).trans (hscale (min_le_left _ _))⟩

theorem meet_reverse_of_not_disputed (h : ¬ c.Disputed d) : d.meet c = (c.meet d).reverse :=
  meet_reverse (touches_iff_of_not_disputed h)

/-- One scale leaves nothing to dispute: that of equal circles, or of circles with radii of at most one. -/
theorem not_disputed_of_scale (h : c.radius = d.radius ∨ max c.radius d.radius ≤ 1) :
    ¬ c.Disputed d := by
  rintro ⟨-, hlarge, hsmall⟩
  rcases h with heq | hle
  · rw [heq, min_self] at hlarge
    rw [heq, max_self] at hsmall
    exact not_le.mpr hlarge hsmall
  · rw [max_eq_right (min_le_max.trans hle)] at hlarge
    rw [max_eq_right hle] at hsmall
    exact not_le.mpr hlarge hsmall

/-- **Exchanging two circles** gives the same common points in reverse order, and as many of them, unless
the half chord counts as zero on the scale of the larger circle and not on that of the smaller one.  Then
the larger circle finds only the foot, and the smaller one both ends of the chord.  This never happens to
circles of equal radius or with radii of at most one. -/
theorem meet_exchanged_iff (c d : Disc ℝ) :
    (d.meet c = (c.meet d).reverse ↔ ¬ c.Disputed d) ∧
    ((d.meet c).length = (c.meet d).length ↔ ¬ c.Disputed d) ∧
    (c.Disputed d → d.radius < c.radius →
      c.meet d = [c.placeAt d (c.foot d) 0] ∧
        d.meet c = [c.placeAt d (c.foot d) (-√(c.chordSquare d)),
          c.placeAt d (c.foot d) √(c.chordSquare d)]) ∧
    (c.radius = d.radius ∨ max c.radius d.radius ≤ 1 → d.meet c = (c.meet d).reverse) := by
  have hlength : d.meet c = (c.meet d).reverse → (d.meet c).length = (c.meet d).length := fun h => by
    rw [h, List.length_reverse]
  have hsame : ¬ c.Disputed d → d.meet c = (c.meet d).reverse := meet_reverse_of_not_disputed
  exact ⟨⟨fun h hdis => hdis.length_ne (hlength h), hsame⟩,
    ⟨fun h hdis => hdis.length_ne h, fun h => hlength (hsame h)⟩,
    fun hdis hlt => hdis.meet_eq hlt.le, fun h => hsame (not_disputed_of_scale h)⟩

/-- A small circle with its centre on a large one: they cross at two points, and only the small circle
finds both. -/
theorem roots_depend_on_order :
    meet ⟨⟨10000, 0⟩, 0.003⟩ ⟨⟨0, 0⟩, 10000⟩ ≠
        (meet ⟨⟨0, 0⟩, 10000⟩ ⟨⟨10000, 0⟩, 0.003⟩ : List (Coord ℝ)).reverse ∧
      (meet ⟨⟨10000, 0⟩, 0.003⟩ ⟨⟨0, 0⟩, 10000⟩ : List (Coord ℝ)).length ≠
        (meet ⟨⟨0, 0⟩, 10000⟩ ⟨⟨10000, 0⟩, 0.003⟩ : List (Coord ℝ)).length := by
  have hgap : gap ⟨⟨0, 0⟩, 10000⟩ ⟨⟨10000, 0⟩, 0.003⟩ = 10000 := gap_axis (by norm_num)
  have hchord : chordSquare ⟨⟨0, 0⟩, 10000⟩ ⟨⟨10000, 0⟩, 0.003⟩ =
      0.003 ^ 2 - (0.003 ^ 2 / 20000) ^ 2 := by
    rw [chordSquare, foot, hgap]
    norm_num
  -- The tiny circle stands on the rim of the large one.
  have hreach : WithinReach ⟨⟨0, 0⟩, 10000⟩ ⟨⟨10000, 0⟩, 0.003⟩ := by
    apply withinReach_axis <;> norm_num [abs_of_pos]
  have hdisputed : Disputed ⟨⟨0, 0⟩, 10000⟩ ⟨⟨10000, 0⟩, 0.003⟩ := by
    refine ⟨hreach, ?_, ?_⟩ <;> rw [hchord] <;> norm_num
  have hne := hdisputed.length_ne
  exact ⟨fun h => hne (by rw [h, List.length_reverse]), hne⟩

end RulerCompass.Disc
