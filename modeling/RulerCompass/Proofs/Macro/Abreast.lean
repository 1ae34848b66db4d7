import RulerCompass.Proofs.Figure.Abreast
import RulerCompass.Proofs.Macro.Build

/-!
# Macros on figures abreast

Where the points of a macro lie has no influence on their names: labels, colours and ids come from the
counters.  But how many points there are does depend on places, as a macro may refuse its inputs and a
cut may keep the inner transfer or not.  On figures abreast, the same macro with as many points leaves
figures abreast and adds the same elements apart from places.
-/

namespace RulerCompass

variable {K : Type} {style : Style} {f g f' g' : Figure K}

/-- Points that are marked under one label request keep the figures abreast. -/
theorem Figure.Abreast.addPoint (hfg : f.Abreast g) {place place' : Coord K} {label? : Option String}
    {r r' : Figure K × Point K} (hr : f.addPoint style place .intersection label? = .ok r)
    (hr' : g.addPoint style place' .intersection label? = .ok r') : r.1.Abreast r'.1 :=
  (hfg.marksOrSkips (.marks hr) (.marks hr')).abreast

namespace Macro

variable {labels : OutputLabels} {m : Macro} {inputs : List String} {es es' : List (Element K)}

theorem innerLabels_of_nextLabel_eq (h : f.nextLabel = g.nextLabel) (labels : OutputLabels) :
    innerLabels f labels = innerLabels g labels := by
  unfold innerLabels
  rw [h]

/-- **As many points, the same names.** -/
theorem Builds.abreast (h : Builds style labels f m inputs es f')
    (h' : Builds style labels g m inputs es' g') (hfg : f.Abreast g)
    (hcount : pointCount es = pointCount es') : f'.Abreast g' ∧ SameNames es es' := by
  -- Equal counts rule out that one run is refused or cut where the other carries.
  cases h with
  | refused =>
    cases h' with
    | refused => exact ⟨hfg, rfl⟩
    | _ => cases hcount
  | @triangle aId bId _ _ r hr =>
    cases h' with
    | refused => cases hcount
    | @triangle _ _ _ _ r' hr' =>
      have hpoint := hfg.unplaced_eq hr hr'
      have hid : r.2.id = r'.2.id := congrArg Element.id hpoint
      have hfirst := hfg.addPoint hr hr'
      have hsecond : (r.1.addSegment style r.2.id aId).1.Abreast (r'.1.addSegment style r.2.id aId).1 :=
        (hfirst.addSegment r.2.id aId).abreast
      rw [← hid]
      refine ⟨(hsecond.addSegment r.2.id bId).abreast, ?_⟩
      simp only [SameNames, List.map_cons, List.map_nil, hpoint, hfirst.segment_eq, hsecond.segment_eq]
  | @transfer targetId _ _ _ _ r hr =>
    cases h' with
    | refused => cases hcount
    | @transfer _ _ _ _ _ r' hr' =>
      have hpoint := hfg.unplaced_eq hr hr'
      have hid : r.2.id = r'.2.id := congrArg Element.id hpoint
      have hfirst := hfg.addPoint hr hr'
      rw [← hid]
      refine ⟨(hfirst.addSegment targetId r.2.id).abreast, ?_⟩
      simp only [SameNames, List.map_cons, List.map_nil, hpoint, hfirst.segment_eq]
  | cut hr =>
    cases h' with
    | cut hr' =>
      refine ⟨hfg.addPoint hr hr', ?_⟩
      simp only [SameNames, List.map_cons, List.map_nil, hfg.unplaced_eq hr hr']
    | _ => cases hcount
  | @carried cutId _ _ _ _ inner _ _ q r hinner hq hr =>
    cases h' with
    | @carried _ _ _ _ _ inner' _ _ q' r' hinner' hq' hr' =>
      rw [innerLabels_of_nextLabel_eq hfg.nextLabel] at hinner
      -- The ids agree, so both runs go on with the same one.
      obtain rfl : inner = inner' := Except.ok.inj (hinner.symm.trans hinner')
      have hpoint := hfg.unplaced_eq hq hq'
      have hid : q.2.id = q'.2.id := congrArg Element.id hpoint
      have hfirst := hfg.addPoint hq hq'
      rw [← hid] at hr' ⊢
      have hsecond : (q.1.addSegment style cutId q.2.id).1.Abreast
          (q'.1.addSegment style cutId q.2.id).1 := (hfirst.addSegment cutId q.2.id).abreast
      refine ⟨hsecond.addPoint hr hr', ?_⟩
      simp only [SameNames, List.map_cons, List.map_nil, hpoint, hfirst.segment_eq,
        hsecond.unplaced_eq hr hr']
    | _ => cases hcount

variable [Scalar K]

/-- The number of points that a macro makes when it runs.  A cut makes one where it begins at the start
of the less segment, and else the one of the inner transfer too. -/
def pointsMade (m : Macro) (f : Figure K) (inputs : List String) : Nat :=
  match m, inputs with
  | .cutOff, cutId :: _ :: startId :: _ =>
    match f.point? cutId, f.point? startId with
    | some cut, some start =>
      if start.position.distance cut.position < Scalar.epsilon then 1 else 2
    | _, _ => 1
  | _, _ => 1

theorem pointCount_of_execute {s : Scene K} {extend : Bool} {o : Outcome K}
    (ho : (m.execute style s extend labels inputs).result = .ok o) (hadded : o.added ≠ []) :
    pointCount o.added = m.pointsMade s.figure inputs := by
  rcases eq_unchanged_or_runs ho with rfl | hruns
  · exact absurd rfl hadded
  · cases hruns with
    | triangle ha hb ho =>
      rcases exists_of_triangleOn ho with rfl | ⟨place, r, -, -, hdrawn, -⟩
      · exact absurd rfl hadded
      · rw [hdrawn]
        rfl
    | transfer ht hs hp ho =>
      obtain ⟨place, r, -, -, hdrawn, -⟩ := exists_of_transferOn ho
      rw [hdrawn]
      rfl
    | cutOff hc ht hs hp ho =>
      obtain ⟨inner, moved, kept, place, r, -, hmoved, hkept, -, -, hdrawn, -⟩ := exists_of_cutOffOn ho
      obtain ⟨place', q, -, -, hinner, -⟩ := exists_of_transferOn hmoved
      simp only [pointsMade, hc, hs]
      rw [hdrawn]
      -- The cut point is the start of the segment, so nothing of the inner run is kept.
      split at hkept
      · rw [if_pos ‹_›, hkept]
        rfl
      · -- The inner run has made one point already.
        rw [if_neg ‹_›, hkept, hinner]
        rfl

end Macro

end RulerCompass
