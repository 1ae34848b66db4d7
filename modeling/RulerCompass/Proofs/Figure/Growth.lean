import RulerCompass.Figure.Draw

/-!
# Growing figures

Drawing appends, and a look-up takes the first element with its id.  So what has been found in a
figure is found in every figure that goes on from it, and so is all that is measured there.  What has
not been found may still turn up: a measure that falls back on a default is not kept.
-/

namespace RulerCompass.Figure

variable {K : Type} {f g h : Figure K} {id : String}

/-- The second figure goes on from the first: what has been drawn stays as it is. -/
def GrowsTo (f g : Figure K) : Prop := f.elements <+: g.elements

/-- The figure with one more element. -/
def add (f : Figure K) (e : Element K) : Figure K := { f with elements := f.elements ++ [e] }

theorem point?_congr (hfg : f.elements = g.elements) (id : String) : f.point? id = g.point? id := by
  rw [point?, point?, points, points, hfg]

theorem isSome_point?_iff : (f.point? id).isSome ↔ ∃ p ∈ f.points, p.id = id := by
  simp [point?, List.find?_isSome]

theorem mem_points {p : Point K} : p ∈ f.points ↔ .point p ∈ f.elements := by
  refine List.mem_filterMap.trans ⟨?_, fun h => ⟨_, h, rfl⟩⟩
  rintro ⟨e, he, hp⟩
  cases e <;> cases hp
  exact he

theorem mem_circles {c : Circle} : c ∈ f.circles ↔ .circle c ∈ f.elements := by
  refine List.mem_filterMap.trans ⟨?_, fun h => ⟨_, h, rfl⟩⟩
  rintro ⟨e, he, hc⟩
  cases e <;> cases hc
  exact he

theorem mem_segments {s : Segment} : s ∈ f.segments ↔ .segment s ∈ f.elements := by
  refine List.mem_filterMap.trans ⟨?_, fun h => ⟨_, h, rfl⟩⟩
  rintro ⟨e, he, hs⟩
  cases e <;> cases hs
  exact he

theorem circle?_eq_some {c : Circle} (hc : c ∈ f.circles)
    (honly : ∀ d ∈ f.circles, d.id = c.id → d = c) : f.circle? c.id = some c := by
  have hsome : (f.circle? c.id).isSome := List.find?_isSome.mpr ⟨c, hc, decide_eq_true rfl⟩
  obtain ⟨d, hd⟩ := Option.isSome_iff_exists.mp hsome
  have hid : d.id = c.id := by simpa using List.find?_some hd
  rw [hd, honly d (List.mem_of_find?_eq_some hd) hid]

namespace GrowsTo

theorem refl (f : Figure K) : f.GrowsTo f := List.prefix_refl _

theorem trans (hfg : f.GrowsTo g) (hgh : g.GrowsTo h) : f.GrowsTo h := List.IsPrefix.trans hfg hgh

theorem of_append {es : List (Element K)} (hg : g.elements = f.elements ++ es) : f.GrowsTo g :=
  ⟨es, hg.symm⟩

variable (hfg : f.GrowsTo g)
include hfg

theorem circles_prefix : f.circles <+: g.circles := List.IsPrefix.filterMap _ hfg

/-! ### Look-ups -/

theorem point? {p : Point K} (hp : f.point? id = some p) : g.point? id = some p :=
  List.IsPrefix.find?_eq_some (List.IsPrefix.filterMap _ hfg) hp

theorem isSome_point? (hp : (f.point? id).isSome) : (g.point? id).isSome := by
  obtain ⟨p, hp⟩ := Option.isSome_iff_exists.mp hp
  rw [hfg.point? hp, Option.isSome_some]

theorem point?_eq (hp : (f.point? id).isSome) : g.point? id = f.point? id := by
  obtain ⟨p, hp⟩ := Option.isSome_iff_exists.mp hp
  rw [hfg.point? hp, hp]

/-- A circle of the figure finds the same circle under its id, be it itself or an earlier one. -/
theorem circle?_eq {c : Circle} (hc : c ∈ f.circles) :
    ∃ d ∈ f.circles, f.circle? c.id = some d ∧ g.circle? c.id = some d := by
  have hsome : (f.circle? c.id).isSome := List.find?_isSome.mpr ⟨c, hc, decide_eq_true rfl⟩
  obtain ⟨d, hd⟩ := Option.isSome_iff_exists.mp hsome
  exact ⟨d, List.mem_of_find?_eq_some hd, hd, List.IsPrefix.find?_eq_some hfg.circles_prefix hd⟩

/-! ### Measures -/

theorem span? {s : Segment} {l : Span K} (hl : f.span? s = some l) : g.span? s = some l := by
  simp only [Figure.span?, Option.bind_eq_bind, Option.bind_eq_some_iff] at hl ⊢
  obtain ⟨a, ha, b, hb, hl⟩ := hl
  exact ⟨a, hfg.point? ha, b, hfg.point? hb, hl⟩

variable [Scalar K]

theorem distance? {p q : String} {r : K} (hr : f.distance? p q = some r) :
    g.distance? p q = some r := by
  simp only [Figure.distance?, Option.bind_eq_bind, Option.bind_eq_some_iff] at hr ⊢
  obtain ⟨a, ha, b, hb, hr⟩ := hr
  exact ⟨a, hfg.point? ha, b, hfg.point? hb, hr⟩

/-- A circle that has a size keeps it.  The radius zero stands for a point that is not there, so it
must count as no size. -/
theorem disc? (hzero : (0.0 : K) ≤ 0.0) {c : Circle} (hc : c ∈ f.circles) {d : Disc K}
    (hd : f.disc? c = some d) : g.disc? c = some d := by
  obtain ⟨e, -, hf, hg⟩ := hfg.circle?_eq hc
  simp only [Figure.disc?, Option.bind_eq_bind, Option.bind_eq_some_iff] at hd ⊢
  obtain ⟨p, hp, hd⟩ := hd
  refine ⟨p, hfg.point? hp, ?_⟩
  -- A circle without its radius point has radius nought, hence no disc; so both points are there.
  have hradius : g.radius c.id = f.radius c.id := by
    simp only [Figure.radius, hf, hg] at hd ⊢
    cases hr : f.distance? e.centerId e.radiusPointId with
    | none =>
      rw [hr, Option.getD_none, if_pos hzero] at hd
      cases hd
    | some r => rw [hfg.distance? hr]
  rw [hradius]
  exact hd

end GrowsTo

/-! ### Points that elements stand on -/

/-- The ends of a segment, or the centre of a circle, are points of the figure. -/
def Anchors (f : Figure K) : Element K → Prop
  | .point _ => True
  | .segment s => (f.point? s.fromId).isSome ∧ (f.point? s.toId).isSome
  | .circle c => (f.point? c.centerId).isSome

instance (f : Figure K) : DecidablePred f.Anchors
  | .point _ => isTrue trivial
  | .segment _ => inferInstanceAs (Decidable (_ ∧ _))
  | .circle _ => inferInstanceAs (Decidable (_ = true))

theorem anchors_congr (hfg : f.elements = g.elements) {e : Element K} :
    f.Anchors e ↔ g.Anchors e := by
  cases e <;> simp only [Anchors, point?_congr hfg]

theorem GrowsTo.anchors (hfg : f.GrowsTo g) {e : Element K} (he : f.Anchors e) : g.Anchors e := by
  cases e with
  | point p => trivial
  | segment s => exact ⟨hfg.isSome_point? he.1, hfg.isSome_point? he.2⟩
  | circle c => exact hfg.isSome_point? he

/-- A segment on points that are there stays where it is. -/
theorem GrowsTo.span?_eq (hfg : f.GrowsTo g) {s : Segment} (hs : f.Anchors (.segment s)) :
    g.span? s = f.span? s := by
  rw [Figure.span?, Figure.span?, hfg.point?_eq hs.1, hfg.point?_eq hs.2]

/-- Each of these elements, drawn in turn, has its points when it is drawn. -/
def AnchorsAll : Figure K → List (Element K) → Prop
  | _, [] => True
  | f, e :: es => f.Anchors e ∧ AnchorsAll (f.add e) es

theorem anchorsAll_concat {es : List (Element K)} (hf : f.AnchorsAll es) {e : Element K}
    (hg : g.elements = f.elements ++ es) (he : g.Anchors e) : f.AnchorsAll (es ++ [e]) := by
  induction es generalizing f with
  | nil => exact ⟨(anchors_congr (hg.trans (List.append_nil _))).mp he, trivial⟩
  | cons d es ih => exact ⟨hf.1, ih hf.2 (by simp [hg, add])⟩

/-- What was drawn on points that were there still has them. -/
theorem AnchorsAll.anchors_of_mem {es : List (Element K)} (hf : f.AnchorsAll es)
    (hg : g.elements = f.elements ++ es) {e : Element K} (he : e ∈ es) : g.Anchors e := by
  induction es generalizing f with
  | nil => cases he
  | cons d es ih =>
    rcases List.mem_cons.mp he with rfl | he
    · exact (GrowsTo.of_append hg).anchors hf.1
    · exact ih hf.2 (by simp [hg, add]) he

end RulerCompass.Figure
