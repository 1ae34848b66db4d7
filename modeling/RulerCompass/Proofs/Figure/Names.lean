import RulerCompass.Proofs.Crossing.Current
import RulerCompass.Proofs.Figure.Tidy

/-!
# Figures with the same names

Moving a point changes its place and nothing else.  Two lists of elements have the same names when
they are equal apart from the places of points.  All that does not measure reads them alike: circles
and segments, the ids of points, and the label that comes next.
-/

namespace RulerCompass

variable {K : Type}

/-! ### Elements without their places -/

/-- The element without its place. -/
def Element.unplaced : Element K → Element Unit
  | .point p => .point ⟨p.id, (), (), p.label, p.color, p.origin⟩
  | .segment s => .segment s
  | .circle c => .circle c

/-- The circle or segment that this is, of any figure; a point is none without its place. -/
def Element.curve? : Element Unit → Option (Element K)
  | .point _ => none
  | .segment s => some (.segment s)
  | .circle c => some (.circle c)

/-- The same elements apart from the places of points. -/
def SameNames (es es' : List (Element K)) : Prop := es.map Element.unplaced = es'.map Element.unplaced

namespace Figure

variable {f g : Figure K}

theorem segments_eq_unplaced (f : Figure K) :
    f.segments = (f.elements.map Element.unplaced).filterMap Element.segment? := by
  rw [segments, List.filterMap_map]
  congr 1
  funext e
  cases e <;> rfl

theorem circles_eq_unplaced (f : Figure K) :
    f.circles = (f.elements.map Element.unplaced).filterMap Element.circle? := by
  rw [circles, List.filterMap_map]
  congr 1
  funext e
  cases e <;> rfl

/-- The ids of the points that a figure has. -/
def pointIds (f : Figure K) : List String := f.points.map Point.id

theorem pointIds_eq_unplaced (f : Figure K) : f.pointIds =
    ((f.elements.map Element.unplaced).filterMap Element.point?).map Point.id := by
  rw [pointIds, points, List.filterMap_map, List.map_filterMap, List.map_filterMap]
  congr 1
  funext e
  cases e <;> rfl

section Drawing

variable {style : Style} {place : Coord K} {origin : Origin} {label? : Option String}
  {r : Figure K × Point K}

theorem points_of_addPoint (h : f.addPoint style place origin label? = .ok r) :
    r.1.points = f.points ++ [r.2] := by
  rw [points, f.addPoint_elements style h, List.filterMap_append]
  rfl

theorem pointIds_of_addPoint (h : f.addPoint style place origin label? = .ok r) :
    r.1.pointIds = f.pointIds ++ [r.2.id] := by
  rw [pointIds, points_of_addPoint h, List.map_append]
  rfl

theorem points_addSegment (f : Figure K) (fromId toId : String) :
    (f.addSegment style fromId toId).1.points = f.points := by
  simp [points, addSegment, Element.point?]

theorem pointIds_addSegment (f : Figure K) (fromId toId : String) :
    (f.addSegment style fromId toId).1.pointIds = f.pointIds := by
  rw [pointIds, points_addSegment, pointIds]

end Drawing

theorem isSome_point?_iff_mem {id : String} : (f.point? id).isSome ↔ id ∈ f.pointIds := by
  rw [isSome_point?_iff, pointIds, List.mem_map]

theorem Tidy.of_sameNames (hg : g.Tidy) (h : SameNames f.elements g.elements) : f.Tidy := by
  refine hg.congr ?_ ?_
  · rw [circles_eq_unplaced, circles_eq_unplaced, h]
  · rw [segments_eq_unplaced, segments_eq_unplaced, h]

theorem pointIds_of_sameNames (h : SameNames f.elements g.elements) : f.pointIds = g.pointIds := by
  rw [pointIds_eq_unplaced, pointIds_eq_unplaced, h]

/-! ### Figures side by side -/

theorem curves_eq_unplaced (f : Figure K) :
    f.curves = (f.elements.map Element.unplaced).filterMap Element.curve? := by
  rw [curves, List.filterMap_map, ← List.filterMap_eq_filter]
  congr 1
  funext e
  cases e <;> rfl

theorem curves_of_sameNames (h : SameNames f.elements g.elements) : f.curves = g.curves := by
  rw [curves_eq_unplaced, curves_eq_unplaced, h]

theorem nextLabel_ofGiven_unplaced (given : List (Element K)) :
    (ofGiven given).nextLabel = (ofGiven (given.map Element.unplaced)).nextLabel := by
  simp only [ofGiven, List.foldl_map]
  congr 1
  funext next e
  cases e <;> rfl

theorem legible_ofGiven_unplaced (given : List (Element K)) :
    (ofGiven given).Legible ↔ (ofGiven (given.map Element.unplaced)).Legible := by
  show (∀ p ∈ given.filterMap Element.point?, Label.Readable p.label) ↔
    ∀ p ∈ (given.map Element.unplaced).filterMap Element.point?, Label.Readable p.label
  induction given with
  | nil => exact iff_of_true (fun _ h => nomatch h) fun _ h => nomatch h
  | cons e es ih =>
    cases e with
    -- Only points have labels, and these stay when the coordinates go.
    | point p =>
      show (∀ q ∈ p :: es.filterMap Element.point?, _) ↔
        ∀ q ∈ _ :: (es.map Element.unplaced).filterMap Element.point?, _
      rw [List.forall_mem_cons, List.forall_mem_cons, ih]
    | segment s => exact ih
    | circle c => exact ih

theorem nextLabel_ofGiven_of_sameNames {given given' : List (Element K)}
    (h : SameNames given given') : (ofGiven given).nextLabel = (ofGiven given').nextLabel := by
  rw [nextLabel_ofGiven_unplaced, nextLabel_ofGiven_unplaced given', h]

theorem legible_ofGiven_of_sameNames {given given' : List (Element K)}
    (h : SameNames given given') : (ofGiven given).Legible ↔ (ofGiven given').Legible := by
  rw [legible_ofGiven_unplaced, legible_ofGiven_unplaced given', h]

end Figure

theorem LabelsReach.of_sameNames {given given' : List (Element K)} {requests : List Request} {more : Nat}
    (hlabels : LabelsReach given requests more) (h : SameNames given given') :
    LabelsReach given' requests more where
  legible := (Figure.legible_ofGiven_of_sameNames h).mp hlabels.legible
  suffice := by
    rw [← Figure.nextLabel_ofGiven_of_sameNames h]
    exact hlabels.suffice

end RulerCompass
