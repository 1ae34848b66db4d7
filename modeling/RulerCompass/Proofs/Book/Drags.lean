import Mathlib.Data.List.Nodup
import RulerCompass.Book.Catalogue

/-!
# Dragging the points of a given figure

A drag moves some points of a given figure: the positions that the figure shows are replaced by the new
ones, and the figure is laid out again.  A layout has handles, the points that may be dragged.  It shows
each handle where it was told to put it, or at home if it was not told, and nothing but the handles has
an influence on it.  So drags compose, however they are split up.
-/

namespace RulerCompass

variable {K : Type}

namespace Positions

variable {q m m' : Positions K} {moves moves' : List (String × Coord K)}

theorem update_update (q m m' : Positions K) : (q.update m).update m' = q.update (m.update m') := by
  funext id
  exact Option.or_assoc.symm

theorem ofMoves_cons (move : String × Coord K) (moves : List (String × Coord K)) :
    ofMoves (move :: moves) = (ofMoves [move]).update (ofMoves moves) := by
  funext id
  rw [ofMoves, List.reverse_cons, List.lookup_append]
  rfl

theorem ofMoves_eq_some_iff (hmoves : (moves.map Prod.fst).Nodup) {id : String} {c : Coord K} :
    ofMoves moves id = some c ↔ (id, c) ∈ moves := by
  rw [ofMoves, List.lookup_eq_some_iff]
  constructor
  · -- What is looked up is found at its last place in the list.
    rintro ⟨before, after, hsplit, -⟩
    rw [← List.mem_reverse, hsplit]
    exact List.mem_append_right _ List.mem_cons_self
  · intro hmem
    obtain ⟨before, after, hsplit⟩ := List.append_of_mem (List.mem_reverse.mpr hmem)
    refine ⟨before, after, hsplit, fun other hother => ?_⟩
    -- No other move of the same point stands in front of it, since each point is moved once.
    have hids : (moves.reverse.map Prod.fst).Nodup := by
      rw [List.map_reverse]
      exact List.nodup_reverse.mpr hmoves
    rw [hsplit, List.map_append, List.nodup_append] at hids
    have hne := hids.2.2 other.1 (List.mem_map_of_mem hother) id (by simp)
    exact bne_iff_ne.mpr hne.symm

theorem ofMoves_perm (hmoves : (moves.map Prod.fst).Nodup) (hperm : moves'.Perm moves) :
    ofMoves moves' = ofMoves moves := by
  have hmoves' : (moves'.map Prod.fst).Nodup := (hperm.map Prod.fst).nodup_iff.mpr hmoves
  funext id
  apply Option.ext
  intro c
  rw [ofMoves_eq_some_iff hmoves', ofMoves_eq_some_iff hmoves, hperm.mem_iff]

/-! ### What a given figure shows -/

@[simp] theorem ofElements_nil (id : String) : ofElements ([] : List (Element K)) id = none := rfl

@[simp] theorem ofElements_segment_cons (a b : String) (es : List (Element K)) (id : String) :
    ofElements (Segment.given a b :: es) id = ofElements es id := rfl

/-- A point is where it stands, unless it stands somewhere else later on. -/
@[simp] theorem ofElements_point_cons (label : String) (c : Coord K) (es : List (Element K))
    (id : String) :
    ofElements (Point.given label c :: es) id =
      (ofElements es id).or (if pointId label = id then some c else none) := by
  have hpoints : (Point.given label c :: es).filterMap Element.point? =
      ⟨pointId label, c.x, c.y, label, Byrne.given, .given⟩ :: es.filterMap Element.point? := rfl
  rw [ofElements, ofElements, hpoints, List.reverse_cons, List.find?_append, Option.map_or]
  congr 1
  by_cases hid : pointId label = id
  · rw [if_pos hid, List.find?_cons_of_pos (by simpa using hid)]
    rfl
  · rw [if_neg hid, List.find?_cons_of_neg (by simpa using hid)]
    rfl

end Positions

/-! ### Handles -/

/-- A figure after a drag: its points stay where they are unless they are moved. -/
def dragged (layout : Positions K → List (Element K)) (figure : List (Element K))
    (moves : Positions K) : List (Element K) :=
  layout ((Positions.ofElements figure).update moves)

/-- The layout shows the points with these ids where it is told to put them, and at home otherwise, and
it draws the same figure whenever it puts them at the same places. -/
structure Handles (layout : Positions K → List (Element K)) (ids : List String)
    (home : Positions K) : Prop where
  shows : ∀ q : Positions K, ∀ id ∈ ids, Positions.ofElements (layout q) id = (q id).or (home id)
  reads : ∀ q q' : Positions K, (∀ id ∈ ids, (q id).or (home id) = (q' id).or (home id)) →
    layout q = layout q'

namespace Handles

variable {layout : Positions K → List (Element K)} {ids : List String} {home : Positions K}
  (h : Handles layout ids home)
include h

/-- **Two drags are one.** -/
theorem dragged_layout (q m : Positions K) : dragged layout (layout q) m = layout (q.update m) := by
  apply h.reads
  intro id hid
  have hshown := h.shows q id hid
  calc ((m id).or (Positions.ofElements (layout q) id)).or (home id)
      = ((m id).or ((q id).or (home id))).or (home id) := by rw [hshown]
    _ = ((m id).or (q id)).or (home id) := by
        rw [Option.or_assoc, Option.or_assoc, Option.or_self, Option.or_assoc]

/-- A drag that moves nothing changes nothing. -/
theorem layout_ofElements (q : Positions K) : layout (Positions.ofElements (layout q)) = layout q :=
  h.dragged_layout q fun _ => none

theorem layout_congr {q q' : Positions K} (hq : ∀ id ∈ ids, q id = q' id) : layout q = layout q' := by
  apply h.reads
  intro id hid
  rw [hq id hid]

/-- Moving one point after the other is moving them together. -/
theorem foldl_dragged (q : Positions K) (moves : List (String × Coord K)) :
    moves.foldl (fun figure move => dragged layout figure (.ofMoves [move])) (layout q) =
      layout (q.update (.ofMoves moves)) := by
  induction moves generalizing q with
  | nil => rfl
  | cons move moves ih =>
    rw [List.foldl_cons, h.dragged_layout, ih, Positions.update_update, ← Positions.ofMoves_cons]

end Handles

namespace Book

variable [Scalar K]

/-- What may be dragged in a given figure of the book are its handles, and their home is where the book
has them. -/
theorem handles_layout {p : Proposition K} (hp : p ∈ propositions)
    {layout : Positions K → List (Element K)} (hlayout : p.layout? = some layout) :
    Handles layout p.draggable (Positions.ofElements p.given) := by
  simp only [propositions, List.mem_cons, List.not_mem_nil, or_false] at hp
  rcases hp with rfl | rfl | rfl | rfl | rfl | rfl | rfl <;> cases hlayout <;> constructor <;>
    simp [Triangle.proposition, Triangle.layout, Transfer.proposition, Transfer.layout,
      CutOff.proposition, CutOff.layout, SideAngleSide.proposition, SideAngleSide.layout,
      BaseAngles.proposition, BaseAngles.layout, EqualSides.proposition, EqualSides.layout,
      Uniqueness.proposition, Uniqueness.layout, pointId]
  -- Each layout is written in terms of the places of its handles, which are the same in both figures.
  all_goals
    intros
    simp only [*, and_self]

/-- **Drags compose.**  Every given figure of the book can be laid out, and a drag of a figure that
comes from some positions and moves leads to the figure that comes from these and the new moves at once.
In particular a figure is laid out again as it is from what it shows; different points may be moved
together or one after the other in any order; and positions of points that may not be dragged never
matter. -/
theorem drags_compose {p : Proposition K} (hp : p ∈ propositions) :
    ∃ layout : Positions K → List (Element K), p.layout? = some layout ∧
      (∀ q m m' : Positions K,
        layout ((Positions.ofElements (layout (q.update m))).update m') =
          layout ((q.update m).update m')) ∧
      (∀ q : Positions K, layout (Positions.ofElements (layout q)) = layout q) ∧
      (∀ (q : Positions K) (moves order : List (String × Coord K)), (moves.map Prod.fst).Nodup →
        order.Perm moves →
          order.foldl (fun figure move => dragged layout figure (.ofMoves [move])) (layout q) =
            layout (q.update (.ofMoves moves))) ∧
      ∀ q q' : Positions K, (∀ id ∈ p.draggable, q id = q' id) → layout q = layout q' := by
  obtain ⟨layout, hlayout⟩ : ∃ layout, p.layout? = some layout := by
    simp only [propositions, List.mem_cons, List.not_mem_nil, or_false] at hp
    rcases hp with rfl | rfl | rfl | rfl | rfl | rfl | rfl <;> exact ⟨_, rfl⟩
  have h := handles_layout hp hlayout
  refine ⟨layout, hlayout, ?_, h.layout_ofElements, ?_, fun q q' hq => h.layout_congr hq⟩
  · -- Points the layout places itself are placed again, so only the moves of the others count.
    intro q m m'
    exact h.dragged_layout (q.update m) m'
  · intro q moves order hmoves horder
    rw [h.foldl_dragged, Positions.ofMoves_perm hmoves horder]

/-- In the figure of I.5 the point B is moved, and then A, from where the book has them.  C turns with
them, wherever somebody would like to have it. -/
theorem drags_compose_isosceles :
    let layout := BaseAngles.layout (K := Float)
    let moves : List (String × Coord Float) := [("pt-A", ⟨1.0, 3.0⟩), ("pt-B", ⟨0.0, 1.0⟩)]
    let given := (BaseAngles.proposition (K := Float)).given
    BaseAngles.proposition (K := Float) ∈ propositions ∧ (moves.map Prod.fst).Nodup ∧
      moves.reverse.Perm moves ∧
      dragged layout (dragged layout given (.ofMoves [("pt-B", ⟨0.0, 1.0⟩)]))
          (.ofMoves [("pt-A", ⟨1.0, 3.0⟩)]) =
        layout (.ofMoves moves) ∧
      layout ((Positions.ofMoves moves).update (.ofMoves [("pt-C", ⟨5.0, 5.0⟩)])) =
        layout (.ofMoves moves) := by
  intro layout moves given
  have hp : BaseAngles.proposition (K := Float) ∈ propositions := by simp [propositions]
  have hmoves : (moves.map Prod.fst).Nodup := by decide
  have hperm : moves.reverse.Perm moves := List.reverse_perm moves
  obtain ⟨layout', hlayout, -, -, horder, hdependent⟩ := drags_compose hp
  obtain rfl : layout = layout' := Option.some.inj hlayout
  have htogether : Positions.update (fun _ => none) (.ofMoves moves) = Positions.ofMoves moves := by
    funext id
    exact Option.or_none
  refine ⟨hp, hmoves, hperm, ?_, hdependent _ _ fun id hid => ?_⟩
  · have hfold := horder (fun _ => none) moves moves.reverse hmoves hperm
    rw [htogether] at hfold
    exact hfold
  · have hid : id = "pt-A" ∨ id = "pt-B" := by simpa [BaseAngles.proposition] using hid
    rcases hid with rfl | rfl <;> rfl

end Book

end RulerCompass
