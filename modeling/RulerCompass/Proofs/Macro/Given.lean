import Mathlib.Data.List.Basic
import Mathlib.Tactic.SplitIfs
import RulerCompass.Proofs.Figure.Names
import RulerCompass.Proofs.Macro.Shape
import RulerCompass.Proofs.Scene.Spares

/-!
# The propositions that are macros

A macro stands for a proposition of the book, whose given points are moved to the inputs.  They are
there wherever they are moved to, so the first step always has what it needs, and no step makes a
point of a circle that was drawn before.
-/

namespace RulerCompass

variable {K : Type} [Scalar K] {style : Style} {extend : Bool}

namespace Macro

/-- The proposition that a macro performs. -/
def proposition : Macro → Proposition K
  | triangle => Book.Triangle.proposition
  | transfer => Book.Transfer.proposition
  | cutOff => Book.CutOff.proposition

theorem book_proposition? (m : Macro) :
    Book.proposition? (K := K) m.number = some m.proposition := by
  cases m <;> rfl

theorem ofProp?_eq_some {propId : Int} {m : Macro} (h : ofProp? propId = some m) :
    propId = m.number := by
  unfold ofProp? at h
  split_ifs at h <;> cases h <;> assumption

/-- No step makes a point of a circle that has been drawn before. -/
theorem steps_sparesCircle (m : Macro) : (m.proposition (K := K)).steps.Pairwise fun s t =>
    t.action.SparesCircle s.action := by
  have hsteps : ∀ steps ∈ [Book.Triangle.steps, Book.Transfer.steps, Book.CutOff.steps],
      steps.Pairwise fun s t => t.action.SparesCircle s.action := by decide
  cases m with
  | triangle => exact hsteps _ (.head _)
  | transfer => exact hsteps _ (.tail _ (.head _))
  | cutOff => exact hsteps _ (.tail _ (.tail _ (.head _)))

/-! ### Moving the given points -/

/-- The given elements of a proposition, each point that has an input moved to where that lies. -/
def placed (m : Macro) (p : Proposition K) (inputs : List String) (parent : Figure K) :
    List (Element K) :=
  p.given.map fun
    | .point g => .point ((((m.givenIds.zip inputs).lookup g.id).bind parent.point?).elim g fun q =>
        { g with x := q.x, y := q.y })
    | e => e

omit [Scalar K] in
/-- The places of the inputs are looked up by way of the inputs. -/
theorem lookup_places {parent : Figure K} {pairs : List (String × String)}
    {places : List (String × Point K)}
    (h : pairs.mapM (fun (givenId, inputId) => do
      let q ← parent.point? inputId
      return (givenId, q)) = some places) (id : String) :
    places.lookup id = (pairs.lookup id).bind parent.point? := by
  induction pairs generalizing places with
  | nil =>
    cases h
    rfl
  | cons pair pairs ih =>
    rw [List.mapM_cons] at h
    obtain ⟨first, hfirst, h⟩ := Option.bind_eq_some_iff.mp h
    obtain ⟨rest, hrest, h⟩ := Option.bind_eq_some_iff.mp h
    obtain ⟨q, hq, hfirst⟩ := Option.bind_eq_some_iff.mp hfirst
    cases hfirst
    cases h
    rw [List.lookup_cons, List.lookup_cons]
    split
    · exact hq.symm
    · exact ih hrest

/-- All entries of a list have a result just when each has one. -/
theorem isSome_mapM_iff {α β : Type} {f : α → Option β} {l : List α} :
    (l.mapM f).isSome ↔ ∀ a ∈ l, (f a).isSome := by
  induction l with
  | nil => simp
  | cons a l ih =>
    rw [List.mapM_cons, List.forall_mem_cons, ← ih]
    cases f a with
    | none => simp
    | some b => cases l.mapM f <;> simp

section Placed

variable (m : Macro) (inputs : List String) (parent : Figure K)

omit [Scalar K] in
variable {m inputs parent} in
theorem eq_placed_of_givenFor? {p : Proposition K} {given : List (Element K)}
    (h : m.givenFor? p inputs parent = some given) : given = m.placed p inputs parent := by
  obtain ⟨places, hplaces, h⟩ := Option.bind_eq_some_iff.mp h
  cases h
  refine List.map_congr_left fun e _ => ?_
  cases e with
  | point g =>
    simp only [← lookup_places hplaces g.id]
    cases places.lookup g.id <;> rfl
  | _ => rfl

omit [Scalar K] in
/-- The given points are moved just when all inputs are there. -/
theorem givenFor?_eq (p : Proposition K) :
    m.givenFor? p inputs parent =
      if m.Finds inputs parent then some (m.placed p inputs parent) else none := by
  -- Looking up all inputs gives a list of places exactly when each input is a point.
  have hplaces : ((m.givenIds.zip inputs).mapM fun ((givenId, inputId) : String × String) => do
      let q ← parent.point? inputId
      return (givenId, q)).isSome ↔ m.Finds inputs parent := by
    rw [isSome_mapM_iff]
    refine forall₂_congr fun pair _ => ?_
    cases hq : parent.point? pair.2 <;> simp [hq]
  cases hgiven : m.givenFor? p inputs parent with
  | none =>
    rw [if_neg]
    intro hfinds
    obtain ⟨places, h⟩ := Option.isSome_iff_exists.mp (hplaces.mpr hfinds)
    rw [givenFor?, h] at hgiven
    cases hgiven
  | some given =>
    obtain ⟨places, h, -⟩ := Option.bind_eq_some_iff.mp hgiven
    have hfinds : m.Finds inputs parent := hplaces.mp (by rw [h, Option.isSome_some])
    rw [if_pos hfinds, eq_placed_of_givenFor? hgiven]

omit [Scalar K] in
/-- Moving the given points to the inputs changes no name. -/
theorem sameNames_placed (p : Proposition K) : SameNames (m.placed p inputs parent) p.given := by
  rw [SameNames, placed, List.map_map]
  refine List.map_congr_left fun e _ => ?_
  cases e with
  | point g =>
    show Element.unplaced (.point (Option.elim _ g _)) = _
    cases ((m.givenIds.zip inputs).lookup g.id).bind parent.point? <;> rfl
  | segment s => rfl
  | circle c => rfl

/-- The points of the given figure are still there, wherever they have been moved. -/
theorem ids_placed :
    (Figure.ofGiven (m.placed m.proposition inputs parent)).points.map Point.id = m.givenIds := by
  have hgiven : (m.proposition (K := K)).given.filterMap (fun e => e.point?.map Point.id) =
      m.givenIds := by cases m <;> rfl
  rw [← hgiven, Figure.points, Figure.ofGiven, placed, List.filterMap_map, List.map_filterMap]
  refine List.filterMap_congr fun e _ => ?_
  cases e with
  | point g =>
    cases h : ((m.givenIds.zip inputs).lookup g.id).bind parent.point? <;> simp [h, Element.point?]
  | _ => rfl

theorem isSome_point?_placed : ∀ id ∈ m.givenIds,
    ((Figure.ofGiven (m.placed m.proposition inputs parent)).point? id).isSome := by
  intro id hid
  rw [← m.ids_placed inputs parent] at hid
  exact Figure.isSome_point?_iff.mpr (List.mem_map.mp hid)

theorem circles_placed : (Figure.ofGiven (m.placed m.proposition inputs parent)).circles = [] := by
  have hgiven : (m.proposition (K := K)).given.filterMap Element.circle? = [] := by cases m <;> rfl
  rw [← hgiven, Figure.circles, Figure.ofGiven, placed, List.filterMap_map]
  refine List.filterMap_congr fun e _ => ?_
  cases e <;> rfl

variable {m inputs parent}

/-- The first step of every macro draws something on given points. -/
theorem exists_first_anchored {t : Scene K} (ht : Scene.actAll style extend
      { figure := Figure.ofGiven (m.placed m.proposition inputs parent) }
      (m.proposition (K := K)).steps = .ok t) :
    ∃ e es, t.figure.elements = m.placed m.proposition inputs parent ++ e :: es ∧
      (Figure.ofGiven (m.placed m.proposition inputs parent)).Anchors e := by
  have hgiven := m.isSome_point?_placed inputs parent
  cases m with
  -- The first steps draw a circle, a segment, and a transfer with at least its point.
  | triangle =>
    refine Scene.exists_first_of_actAll ht fun u hu => ?_
    cases hu
    exact ⟨_, [], rfl, hgiven "pt-A" (by decide)⟩
  | transfer =>
    refine Scene.exists_first_of_actAll ht fun u hu => ?_
    cases hu
    exact ⟨_, [], rfl, hgiven "pt-A" (by decide), hgiven "pt-B" (by decide)⟩
  | cutOff =>
    refine Scene.exists_first_of_actAll ht fun u hu => ?_
    obtain ⟨o, ho, hu⟩ := exists_of_bind_eq_ok hu
    cases hu
    have hdraws := ((transfer.execute_meets style _ extend _ _).2 o ho).draws
    have hadded := added_ne_nil_of_drawTransfer style _ extend _ (hgiven "pt-A" (by decide))
      (hgiven "pt-C" (by decide)) (hgiven "pt-D" (by decide)) ho
    have helements := hdraws.elements_eq
    have hanchored := hdraws.anchored
    cases hes : o.added with
    | nil => exact absurd hes hadded
    | cons e es =>
      rw [hes] at helements hanchored
      exact ⟨e, es, helements, hanchored.1⟩

end Placed

end Macro

end RulerCompass
