import Mathlib.Data.List.Nodup
import RulerCompass.Proofs.Crossing.Search
import RulerCompass.Proofs.Figure.Growth

/-!
# Crossings that are up to date

A crossing is searched once and kept while more is drawn, so it could fall behind the figure.  It
does not: what a figure finds and measures it still finds and measures later, and the common points
on prolonged segments are numbered after those on the segments themselves.
-/

namespace RulerCompass

variable {K : Type}

namespace Figure

variable {f g : Figure K} {a b : Element K}

/-! ### Circles and segments -/

/-- All that is drawn but the points. -/
def curves (f : Figure K) : List (Element K) := f.elements.filter fun e => e.point?.isNone

theorem circle_mem_curves {c : Circle} : .circle c ∈ f.curves ↔ c ∈ f.circles := by
  simp [curves, mem_circles, Element.point?]

theorem segment_mem_curves {s : Segment} : .segment s ∈ f.curves ↔ s ∈ f.segments := by
  simp [curves, mem_segments, Element.point?]

theorem GrowsTo.curves_subset (hfg : f.GrowsTo g) : f.curves ⊆ g.curves :=
  (List.IsPrefix.filter _ hfg).subset

/-- An element is compared with other circles and segments. -/
theorem mem_curves_of_mem_partners (h : b ∈ f.partners a) : b ∈ f.curves ∧ a ≠ b := by
  have hcircle : ∀ c ∈ f.circles, .circle c ∈ f.curves := fun c => circle_mem_curves.mpr
  have hsegment : ∀ s ∈ f.segments, .segment s ∈ f.curves := fun s => segment_mem_curves.mpr
  -- Partners of a circle are all other circles and the segments, those of a segment
  -- the circles and all other segments.
  cases a with
  | point p => cases h
  | circle c =>
    rcases List.mem_append.mp h with h | h
    · obtain ⟨d, hd, rfl⟩ := List.mem_map.mp h
      obtain ⟨hd, hne⟩ := List.mem_filter.mp hd
      exact ⟨hcircle d hd, by rintro ⟨⟩; simp at hne⟩
    · obtain ⟨s, hs, rfl⟩ := List.mem_map.mp h
      exact ⟨hsegment s hs, nofun⟩
  | segment s =>
    rcases List.mem_append.mp h with h | h
    · obtain ⟨c, hc, rfl⟩ := List.mem_map.mp h
      exact ⟨hcircle c hc, nofun⟩
    · obtain ⟨t, ht, rfl⟩ := List.mem_map.mp h
      obtain ⟨ht, hne⟩ := List.mem_filter.mp ht
      exact ⟨hsegment t ht, by rintro ⟨⟩; simp at hne⟩

/-! ### Common points of two elements -/

variable [Scalar K] {extend : Bool} {points : List (Coord K)} {i : Nat} {place : Coord K}

/-- The common points of two elements as the figure has them, where a circle comes with its size.  A
segment that may be prolonged from the centre of a circle is prolonged. -/
inductive Meet (f : Figure K) : Element K → Element K → List (Coord K) → Prop
  | circles {c d : Circle} {x y : Disc K} (hx : f.disc? c = some x) (hy : f.disc? d = some y) :
      Meet f (.circle c) (.circle d) (x.meet y)
  | circleSegment {c : Circle} {s : Segment} {x : Disc K} {l : Span K} (hx : f.disc? c = some x)
      (hl : f.span? s = some l) : Meet f (.circle c) (.segment s) (discMeetings true x s l)
  | segmentCircle {c : Circle} {s : Segment} {x : Disc K} {l : Span K} (hx : f.disc? c = some x)
      (hl : f.span? s = some l) : Meet f (.segment s) (.circle c) (discMeetings true x s l)
  | segments {s t : Segment} {l m : Span K} (hl : f.span? s = some l) (hm : f.span? t = some m) :
      Meet f (.segment s) (.segment t) (l.meet m)

/-- Two elements of a figure keep their common points when it goes on. -/
theorem Meet.growsTo (h : f.Meet a b points) (hfg : f.GrowsTo g) (hzero : (0.0 : K) ≤ 0.0)
    (ha : a ∈ f.curves) (hb : b ∈ f.curves) : g.Meet a b points := by
  cases h with
  | circles hx hy =>
    exact .circles (hfg.disc? hzero (circle_mem_curves.mp ha) hx)
      (hfg.disc? hzero (circle_mem_curves.mp hb) hy)
  | circleSegment hx hl =>
    exact .circleSegment (hfg.disc? hzero (circle_mem_curves.mp ha) hx) (hfg.span? hl)
  | segmentCircle hx hl =>
    exact .segmentCircle (hfg.disc? hzero (circle_mem_curves.mp hb) hx) (hfg.span? hl)
  | segments hl hm => exact .segments (hfg.span? hl) (hfg.span? hm)

/-- Prolonging a segment adds common points after those there are, so these keep their numbers. -/
theorem getElem?_discMeetings_true {d : Disc K} {s : Segment} {l : Span K}
    (h : (discMeetings extend d s l)[i]? = some place) :
    (discMeetings true d s l)[i]? = some place := by
  cases extend with
  | true => exact h
  | false =>
    rw [discMeetings, if_neg fun h => Bool.false_ne_true h.1] at h
    rw [discMeetings]
    split
    · rw [List.getElem?_append_left (List.getElem?_eq_some_iff.mp h).1, h]
    · exact h

/-- What a search counts as a common point is one, whether or not it has prolonged segments. -/
theorem exists_meet (h : (f.meetings extend a b)[i]? = some place) :
    ∃ points, f.Meet a b points ∧ points[i]? = some place := by
  unfold meetings at h
  -- The branches of the search: two circles, a circle and a segment either way round, two segments.
  split at h
  · split at h
    · rename_i hx hy
      exact ⟨_, .circles hx hy, h⟩
    · cases h
  · split at h
    · rename_i hx hl
      exact ⟨_, .circleSegment hx hl, getElem?_discMeetings_true h⟩
    · cases h
  · split at h
    · rename_i hx hl
      exact ⟨_, .segmentCircle hx hl, getElem?_discMeetings_true h⟩
    · cases h
  · split at h
    · rename_i hl hm
      exact ⟨_, .segments hl hm, h⟩
    · cases h
  · cases h

end Figure

/-! ### Being up to date -/

namespace Crossing

variable [Scalar K] {f g : Figure K} {c : Crossing K}

/-- The crossing belongs to two elements of the figure, and it is the one among their common points
that has its number. -/
def Current (f : Figure K) (c : Crossing K) : Prop :=
  ∃ a ∈ f.curves, ∃ b ∈ f.curves, a ≠ b ∧ c.ofA = a.id ∧ c.ofB = b.id ∧
    ∃ points, f.Meet a b points ∧ ∃ i : Nat, c.which = i ∧ points[i]? = some c.position

theorem Current.growsTo (h : c.Current f) (hfg : f.GrowsTo g) (hzero : (0.0 : K) ≤ 0.0) :
    c.Current g := by
  obtain ⟨a, ha, b, hb, hab, hofA, hofB, points, hmeet, hplace⟩ := h
  exact ⟨a, hfg.curves_subset ha, b, hfg.curves_subset hb, hab, hofA, hofB, points,
    hmeet.growsTo hfg hzero ha hb, hplace⟩

/-- What a search finds is up to date. -/
theorem current_of_mem_newCrossings {extend : Bool} {e : Element K} {known : List (Crossing K)}
    (he : e ∈ f.elements) (h : c ∈ f.newCrossings e known extend) : c.Current f := by
  have hall := f.newCrossings_subset e known extend h
  obtain ⟨other, hother, i, place, hplace, rfl⟩ := Figure.mem_allCrossings_iff.mp hall
  obtain ⟨hother, hne⟩ := Figure.mem_curves_of_mem_partners hother
  have hcurve : e ∈ f.curves := by
    cases e with
    | point p => cases hplace
    | circle d => exact Figure.circle_mem_curves.mpr (Figure.mem_circles.mpr he)
    | segment s => exact Figure.segment_mem_curves.mpr (Figure.mem_segments.mpr he)
  obtain ⟨points, hmeet, hplace⟩ := Figure.exists_meet hplace
  exact ⟨e, hcurve, other, hother, hne, rfl, rfl, points, hmeet, i, rfl, hplace⟩

/-- When no two circles or segments share an id, the ids of the two elements differ. -/
theorem Current.ofA_ne_ofB (h : c.Current f) (hids : (f.curves.map Element.id).Nodup) :
    c.ofA ≠ c.ofB := by
  obtain ⟨a, ha, b, hb, hab, hofA, hofB, -⟩ := h
  rw [hofA, hofB]
  exact fun hid => hab (List.inj_on_of_nodup_map hids ha hb hid)

end Crossing

end RulerCompass
