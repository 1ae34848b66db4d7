import RulerCompass.Ghost.Basic
import RulerCompass.Proofs.Figure.Growth

/-!
# Drawings of a figure

A figure as a bare drawing, element by element.  What was drawn on points that were not there has no
place in it, even if such points have turned up since.
-/

namespace RulerCompass

variable {K : Type}

/-- Whether the ghost is a prolongation past the end of a segment. -/
def Ghost.isProduction : Ghost K → Bool
  | .segment _ _ _ isProduction => isProduction
  | _ => false

variable [Scalar K]

/-- An element by its place, as it stands in a figure. -/
def Element.ghost? (f : Figure K) : Element K → Option (Ghost K)
  | .point p => some (.ofPoint p p.color)
  | .segment s => Ghost.ofSegment? f s s.color
  | .circle c => Ghost.ofCircle? f c c.color

namespace Figure

variable {f g finished : Figure K} {e : Element K} {es : List (Element K)}

/-- The drawing of the elements that follow in a finished figure, without those whose points were
not there when they were drawn. -/
def drawings (finished : Figure K) : Figure K → List (Element K) → List (Ghost K)
  | _, [] => []
  | f, e :: es =>
    (if f.Anchors e then (e.ghost? finished).toList else []) ++ drawings finished (f.add e) es

theorem drawings_singleton :
    drawings finished f [e] = if f.Anchors e then (e.ghost? finished).toList else [] :=
  List.append_nil _

theorem drawings_congr (h : f.elements = g.elements) (es : List (Element K)) :
    drawings finished f es = drawings finished g es := by
  induction es generalizing f g with
  | nil => rfl
  | cons e es ih =>
    have hadd : (f.add e).elements = (g.add e).elements := congrArg (· ++ [e]) h
    rw [drawings, drawings, ih hadd]
    simp only [anchors_congr h]

theorem drawings_append (hg : g.elements = f.elements ++ es) (es' : List (Element K)) :
    drawings finished f (es ++ es') = drawings finished f es ++ drawings finished g es' := by
  induction es generalizing f with
  | nil => exact drawings_congr (by simp [hg]) es'
  | cons e es ih =>
    have hadd : g.elements = (f.add e).elements ++ es := by simp [hg, add]
    rw [List.cons_append, drawings, drawings, ih hadd, List.append_assoc]

/-! ### Elements on points that are there -/

/-- A drawing is no prolongation. -/
theorem isProduction_of_ghost? {d : Ghost K} (h : e.ghost? f = some d) : d.isProduction = false := by
  cases e with
  | point p =>
    cases h
    rfl
  | segment s =>
    obtain ⟨l, -, rfl⟩ := Option.map_eq_some_iff.mp h
    rfl
  | circle c =>
    obtain ⟨p, -, rfl⟩ := Option.map_eq_some_iff.mp h
    rfl

theorem filter_drawings :
    (drawings finished f es).filter (fun d => !d.isProduction) = drawings finished f es := by
  refine List.filter_eq_self.mpr fun d hd => ?_
  induction es generalizing f with
  | nil => cases hd
  | cons e es ih =>
    rcases List.mem_append.mp hd with hd | hd
    · split at hd
      · rw [isProduction_of_ghost? (Option.mem_toList.mp hd)]
        rfl
      · cases hd
    · exact ih hd

theorem isSome_ghost?_iff : (e.ghost? f).isSome ↔ f.Anchors e := by
  cases e with
  | point p => exact ⟨fun _ => trivial, fun _ => rfl⟩
  | segment s =>
    simp only [Element.ghost?, Ghost.ofSegment?, Option.isSome_map, span?, Anchors]
    cases f.point? s.fromId <;> cases f.point? s.toId <;> simp
  | circle c => simp only [Element.ghost?, Ghost.ofCircle?, Option.isSome_map, Anchors]

/-- What stands on points that are there stays where it is, and a circle has to keep its radius. -/
theorem GrowsTo.ghost?_eq (hfg : f.GrowsTo g) (he : f.Anchors e)
    (hradius : ∀ c, e = .circle c → g.radius c.id = f.radius c.id) : e.ghost? g = e.ghost? f := by
  cases e with
  | point p => rfl
  | segment s => simp only [Element.ghost?, Ghost.ofSegment?, hfg.span?_eq he]
  | circle c => simp only [Element.ghost?, Ghost.ofCircle?, hfg.point?_eq he, hradius c rfl]

/-- The drawing of what has just been drawn, when its points are looked up afterwards. -/
theorem toList_ghost?_eq_drawings (hg : g.elements = f.elements ++ [e]) (hgrows : g.GrowsTo finished)
    (hradius : ∀ c ∈ g.circles, finished.radius c.id = g.radius c.id) :
    (e.ghost? g).toList = drawings finished f [e] := by
  -- What is drawn is no end point of itself, so its end points were in the figure before.
  have hanchors : g.Anchors e ↔ f.Anchors e := by
    cases e with
    | point p => exact Iff.rfl
    | segment s => simp [Anchors, point?, points, hg, Element.point?]
    | circle c => simp [Anchors, point?, points, hg, Element.point?]
  rw [drawings_singleton]
  split
  · rename_i he
    rw [hgrows.ghost?_eq (hanchors.mpr he)]
    rintro c rfl
    exact hradius c (mem_circles.mpr (by simp [hg]))
  · rename_i he
    rw [Option.not_isSome_iff_eq_none.mp fun h => he (hanchors.mp (isSome_ghost?_iff.mp h))]
    rfl

theorem drawings_of_anchorsAll (h : f.AnchorsAll es) :
    drawings finished f es = es.filterMap (Element.ghost? finished) := by
  induction es generalizing f with
  | nil => rfl
  | cons e es ih =>
    rw [drawings, if_pos h.1, ih h.2]
    cases he : e.ghost? finished <;> simp [he]

/-- Something that is drawn on points that are there shows. -/
theorem drawings_cons_ne_nil (hf : f.GrowsTo finished) (he : f.Anchors e) :
    drawings finished f (e :: es) ≠ [] := by
  obtain ⟨d, hd⟩ := Option.isSome_iff_exists.mp (isSome_ghost?_iff.mpr (hf.anchors he))
  rw [drawings, if_pos he, hd]
  exact List.cons_ne_nil d _

end Figure

end RulerCompass
