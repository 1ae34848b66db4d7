import RulerCompass.Proofs.Figure.Names
import RulerCompass.Proofs.Scene.Moves

/-!
# Figures abreast

Two figures are abreast when their counters agree and they have the same circles and segments: one may
have points that the other lacks, and points may lie elsewhere.  Drawing keeps them abreast, and so
does a point that is marked in one figure and passed over in the other.  What both draw next has the
same names, since ids, labels and colours come from the counters and from the number of circles or
segments.
-/

namespace RulerCompass.Figure

variable {K : Type} {style : Style}

/-- The counters agree, and the circles and segments are the same. -/
structure Abreast (f g : Figure K) : Prop where
  nextLabel : f.nextLabel = g.nextLabel
  nextColor : f.nextColor = g.nextColor
  curves : f.curves = g.curves

/-- From `f` to `f'` and from `g` to `g'` the figures come abreast, and what is drawn in both is the same
apart from its place. -/
structure InStep (f g f' g' : Figure K) : Prop where
  abreast : f'.Abreast g'
  names : ∀ es es', f'.elements = f.elements ++ es → g'.elements = g.elements ++ es' →
    ∀ e ∈ es, ∀ e' ∈ es', e.unplaced = e'.unplaced

/-- A point is marked, or passed over. -/
inductive MarksOrSkips (style : Style) (label? : Option String) (f : Figure K) : Figure K → Prop
  | marks {place : Coord K} {r : Figure K × Point K}
      (h : f.addPoint style place .intersection label? = .ok r) : MarksOrSkips style label? f r.1
  | skips : MarksOrSkips style label? f (f.skipped label?)

variable {f g h : Figure K}

/-! ### Curves -/

theorem circles_eq_curves (f : Figure K) : f.circles = f.curves.filterMap Element.circle? := by
  rw [circles, curves, List.filterMap_filter]
  congr 1
  funext e
  cases e <;> rfl

theorem segments_eq_curves (f : Figure K) : f.segments = f.curves.filterMap Element.segment? := by
  rw [segments, curves, List.filterMap_filter]
  congr 1
  funext e
  cases e <;> rfl

theorem curves_append {es : List (Element K)} (h : g.elements = f.elements ++ es) :
    g.curves = f.curves ++ es.filter fun e => e.point?.isNone := by
  rw [curves, h, List.filter_append, curves]

theorem curves_addCircle (f : Figure K) (centerId radiusPointId : String) :
    (f.addCircle style centerId radiusPointId).1.curves =
      f.curves ++ [.circle (f.addCircle style centerId radiusPointId).2] := by
  have helements : (f.addCircle style centerId radiusPointId).1.elements =
      f.elements ++ [.circle (f.addCircle style centerId radiusPointId).2] := rfl
  exact curves_append helements

theorem curves_addSegment (f : Figure K) (fromId toId : String) :
    (f.addSegment style fromId toId).1.curves =
      f.curves ++ [.segment (f.addSegment style fromId toId).2] := by
  have helements : (f.addSegment style fromId toId).1.elements =
      f.elements ++ [.segment (f.addSegment style fromId toId).2] := rfl
  exact curves_append helements

namespace Abreast

theorem refl (f : Figure K) : f.Abreast f := ⟨rfl, rfl, rfl⟩

theorem symm (hfg : f.Abreast g) : g.Abreast f :=
  ⟨hfg.nextLabel.symm, hfg.nextColor.symm, hfg.curves.symm⟩

theorem trans (hfg : f.Abreast g) (hgh : g.Abreast h) : f.Abreast h :=
  ⟨hfg.nextLabel.trans hgh.nextLabel, hfg.nextColor.trans hgh.nextColor, hfg.curves.trans hgh.curves⟩

theorem circles (hfg : f.Abreast g) : f.circles = g.circles := by
  rw [circles_eq_curves, circles_eq_curves, hfg.curves]

theorem segments (hfg : f.Abreast g) : f.segments = g.segments := by
  rw [segments_eq_curves, segments_eq_curves, hfg.curves]

end Abreast

theorem abreast_ofGiven {given given' : List (Element K)} (h : SameNames given given') :
    (ofGiven given).Abreast (ofGiven given') where
  nextLabel := nextLabel_ofGiven_of_sameNames h
  nextColor := rfl
  curves := curves_of_sameNames h

/-! ### Drawing side by side -/

/-- The one element that has been drawn is what has been drawn. -/
theorem eq_of_mem_of_elements_append {e d : Element K} {es : List (Element K)}
    (he : e ∈ es) (h : g.elements = f.elements ++ es) (hd : g.elements = f.elements ++ [d]) :
    e = d := by
  obtain rfl : es = [d] := List.append_cancel_left (h.symm.trans hd)
  exact List.mem_singleton.mp he

variable (hfg : f.Abreast g)
include hfg

theorem Abreast.addCircle (centerId radiusPointId : String) :
    InStep f g (f.addCircle style centerId radiusPointId).1
      (g.addCircle style centerId radiusPointId).1 := by
  have hcircle : (f.addCircle style centerId radiusPointId).2 =
      (g.addCircle style centerId radiusPointId).2 := by
    simp only [Figure.addCircle, hfg.circles, hfg.nextColor]
  refine ⟨⟨hfg.nextLabel, ?_, ?_⟩, fun es es' hes hes' e he e' he' => ?_⟩
  · simp only [Figure.addCircle, hfg.nextColor]
  · rw [curves_addCircle, curves_addCircle, hfg.curves, hcircle]
  · rw [eq_of_mem_of_elements_append he hes rfl, eq_of_mem_of_elements_append he' hes' rfl]
    exact congrArg Element.circle hcircle

theorem Abreast.segment_eq (fromId toId : String) :
    (f.addSegment style fromId toId).2 = (g.addSegment style fromId toId).2 := by
  simp only [Figure.addSegment, hfg.segments, hfg.nextColor]

theorem Abreast.addSegment (fromId toId : String) :
    InStep f g (f.addSegment style fromId toId).1 (g.addSegment style fromId toId).1 := by
  have hsegment : (f.addSegment style fromId toId).2 = (g.addSegment style fromId toId).2 :=
    hfg.segment_eq fromId toId
  refine ⟨⟨hfg.nextLabel, ?_, ?_⟩, fun es es' hes hes' e he e' he' => ?_⟩
  · simp only [Figure.addSegment, hfg.nextColor]
  · rw [curves_addSegment, curves_addSegment, hfg.curves, hsegment]
  · rw [eq_of_mem_of_elements_append he hes rfl, eq_of_mem_of_elements_append he' hes' rfl]
    exact congrArg Element.segment hsegment

theorem Abreast.skipped (label? : Option String) :
    (f.skipped label?).Abreast (g.skipped label?) where
  nextLabel := congrArg (Label.advanced · label?) hfg.nextLabel
  nextColor := congrArg (· + 1) hfg.nextColor
  curves := hfg.curves

theorem Abreast.getsLabel {label? : Option String} {label : String} (h : f.GetsLabel label? label) :
    g.GetsLabel label? label := by
  cases label? with
  | none => exact (congrArg Label.ofIndex hfg.nextLabel).symm.trans h
  | some asked => exact h

/-- Points that are marked under one label request have the same names. -/
theorem Abreast.unplaced_eq {place place' : Coord K} {label? : Option String}
    {r r' : Figure K × Point K} (hr : f.addPoint style place .intersection label? = .ok r)
    (hr' : g.addPoint style place' .intersection label? = .ok r') :
    (Element.point r.2).unplaced = (Element.point r'.2).unplaced := by
  obtain ⟨label, hlabel, rfl⟩ := f.exists_label_of_addPoint style hr
  obtain ⟨label', hlabel', rfl⟩ := g.exists_label_of_addPoint style hr'
  have hsame : label = label' := (hfg.getsLabel hlabel).unique hlabel'
  simp only [Element.unplaced, labelled, pointColor, hfg.nextColor, hsame]

omit hfg in
/-- A point that is marked moves the counters as one that is passed over. -/
theorem abreast_skipped {place : Coord K} {label? : Option String} {r : Figure K × Point K}
    (hr : f.addPoint style place .intersection label? = .ok r) :
    r.1.Abreast (f.skipped label?) := by
  have hcurves : r.1.curves = f.curves := by
    rw [curves_append (f.addPoint_elements style hr)]
    exact List.append_nil _
  obtain ⟨label, -, rfl⟩ := f.exists_label_of_addPoint style hr
  exact ⟨rfl, rfl, hcurves⟩

omit hfg in
theorem MarksOrSkips.abreast_skipped {label? : Option String}
    (hf : MarksOrSkips style label? f g) : g.Abreast (f.skipped label?) := by
  cases hf with
  | marks hr => exact Figure.abreast_skipped hr
  | skips => exact .refl _

/-- **Marked or passed over**, a point keeps the figures abreast, and where both have it they call it
the same. -/
theorem Abreast.marksOrSkips {f' g' : Figure K} {label? : Option String}
    (hf : MarksOrSkips style label? f f') (hg : MarksOrSkips style label? g g') :
    InStep f g f' g' := by
  -- Marked or passed over, each figure stands abreast of the one that has passed it over.
  have habreast : f'.Abreast g' :=
    hf.abreast_skipped.trans ((hfg.skipped label?).trans hg.abreast_skipped.symm)
  refine ⟨habreast, fun es es' hes hes' e he e' he' => ?_⟩
  -- Only where both are marked is there something to compare.
  cases hf with
  | skips =>
    obtain rfl : es = [] := List.self_eq_append_right.mp hes
    cases he
  | marks hr =>
    cases hg with
    | skips =>
      obtain rfl : es' = [] := List.self_eq_append_right.mp hes'
      cases he'
    | marks hr' =>
      rw [eq_of_mem_of_elements_append he hes (f.addPoint_elements style hr),
        eq_of_mem_of_elements_append he' hes' (g.addPoint_elements style hr')]
      exact hfg.unplaced_eq hr hr'

end RulerCompass.Figure
