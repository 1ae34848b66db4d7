import RulerCompass.Crossing.Choice

/-!
# What a search finds

A search goes through the common points of an element with its partners and keeps those that stand
apart from all that is known.  So what it finds are common points, and no two of them are one place.
-/

namespace RulerCompass

variable {K : Type} [Scalar K]

namespace Crossing

/-- No crossing of the list is near an earlier one. -/
def Separated (cs : List (Crossing K)) : Prop :=
  cs.Pairwise fun earlier later => ¬ later.position.Near earlier.position

/-- No crossing of the list is near a known one. -/
def Apart (known cs : List (Crossing K)) : Prop :=
  ∀ c ∈ cs, ∀ k ∈ known, ¬ c.position.Near k.position

theorem separated_nil : Separated ([] : List (Crossing K)) := List.Pairwise.nil

theorem apart_nil (known : List (Crossing K)) : Apart known [] := fun _ hc => nomatch hc

theorem apart_append {known cs ds : List (Crossing K)} :
    Apart known (cs ++ ds) ↔ Apart known cs ∧ Apart known ds := List.forall_mem_append

theorem Separated.append {known cs : List (Crossing K)} (hknown : Separated known)
    (hcs : Separated cs) (hapart : Apart known cs) : Separated (known ++ cs) :=
  List.pairwise_append.mpr ⟨hknown, hcs, fun k hk c hc => hapart c hc k hk⟩

theorem Separated.sublist {cs ds : List (Crossing K)} (h : Separated ds) (hcs : cs.Sublist ds) :
    Separated cs := List.Pairwise.sublist hcs h

end Crossing

namespace Figure

open Crossing

variable (f : Figure K) (e : Element K) (known : List (Crossing K)) (extend : Bool)

variable {f known} in
theorem admits_iff {found : List (Crossing K)} {c : Crossing K} : f.admits known found c = true ↔
    (∀ k ∈ known ++ found, ¬ c.position.Near k.position) ∧
      ∀ p ∈ f.points, ¬ c.position.Near p.position := by
  simp only [admits, Bool.and_eq_true, Bool.not_eq_true', List.any_eq_false, decide_eq_true_eq]

/-- No crossing of the list is near a point. -/
def ClearOf (f : Figure K) (cs : List (Crossing K)) : Prop :=
  ∀ c ∈ cs, ∀ p ∈ f.points, ¬ c.position.Near p.position

/-- **What the loop of a search keeps.**  All that it has found is common to both elements, apart
from what is known, apart from each other and clear of the points. -/
theorem newCrossings_spec : f.newCrossings e known extend ⊆ f.allCrossings extend e ∧
    Apart known (f.newCrossings e known extend) ∧ Separated (f.newCrossings e known extend) ∧
      f.ClearOf (f.newCrossings e known extend) := by
  refine List.foldlRecOn (motive := fun found => found ⊆ f.allCrossings extend e ∧
    Apart known found ∧ Separated found ∧ f.ClearOf found) (f.allCrossings extend e) _
    ⟨List.nil_subset _, apart_nil known, separated_nil, nofun⟩ ?_
  -- A crossing that is let in is apart from all known and found so far, and from all points.
  intro found ⟨hsubset, hapart, hseparated, hclear⟩ c hc
  split
  · rename_i hadmits
    have hnear : Apart (known ++ found) [c] := fun d hd k hk => by
      obtain rfl := List.mem_singleton.mp hd
      exact (admits_iff.mp hadmits).1 k hk
    have hknown : Apart known [c] := fun d hd k hk => hnear d hd k (List.mem_append_left _ hk)
    have hfound : Apart found [c] := fun d hd k hk => hnear d hd k (List.mem_append_right _ hk)
    exact ⟨List.append_subset.mpr ⟨hsubset, List.cons_subset.mpr ⟨hc, List.nil_subset _⟩⟩,
      apart_append.mpr ⟨hapart, hknown⟩, hseparated.append (List.pairwise_singleton _ c) hfound,
      List.forall_mem_append.mpr ⟨hclear, List.forall_mem_singleton.mpr (admits_iff.mp hadmits).2⟩⟩
  · exact ⟨hsubset, hapart, hseparated, hclear⟩

theorem newCrossings_subset : f.newCrossings e known extend ⊆ f.allCrossings extend e :=
  (f.newCrossings_spec e known extend).1

theorem newCrossings_apart : Apart known (f.newCrossings e known extend) :=
  (f.newCrossings_spec e known extend).2.1

theorem newCrossings_separated : Separated (f.newCrossings e known extend) :=
  (f.newCrossings_spec e known extend).2.2.1

theorem newCrossings_clear : f.ClearOf (f.newCrossings e known extend) :=
  (f.newCrossings_spec e known extend).2.2.2

/-! ### Numbered common points -/

/-- A common point as a crossing of the two elements. -/
def crossingAt (e other : Element K) (which : Nat) (place : Coord K) : Crossing K :=
  ⟨place.x, place.y, e.id, other.id, which⟩

variable {f e extend} in
/-- A search comes upon the numbered common points of the element with its partners. -/
theorem mem_allCrossings_iff {c : Crossing K} :
    c ∈ f.allCrossings extend e ↔ ∃ other ∈ f.partners e, ∃ (which : Nat) (place : Coord K),
      (f.meetings extend e other)[which]? = some place ∧ c = crossingAt e other which place := by
  refine List.mem_flatMap.trans (exists_congr fun other => and_congr_right fun _ => ?_)
  refine List.mem_mapIdx.trans ⟨?_, ?_⟩
  · rintro ⟨i, hi, rfl⟩
    exact ⟨i, _, List.getElem?_eq_getElem hi, rfl⟩
  · rintro ⟨which, place, hplace, rfl⟩
    obtain ⟨hwhich, rfl⟩ := List.getElem?_eq_some_iff.mp hplace
    exact ⟨which, hwhich, rfl⟩

end Figure

end RulerCompass
