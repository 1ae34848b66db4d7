import RulerCompass.Proofs.Ledger.Classes

/-!
# Listings of classes

A listing of the relations that are equal to one goes through all nodes of the forest and finds the root
of each, which shortens the ways as it goes.  It shows the whole class all the same: nothing but the
class, nothing twice, and in the order of registration.  Distances and angles share one forest but no
class, so no member is lost where a listing keeps relations of one kind.
-/

namespace RulerCompass.Ledger

variable {l : Ledger} {r q : Relation}

/-- The relations show the class of `r`: in the order of registration, each key once, that of `r` among
them, and of all registered keys those of the relations that are known to be equal to `r`. -/
structure Lists (l : Ledger) (r : Relation) (rs : List Relation) : Prop where
  ordered : (rs.map Relation.key).Sublist l.registered
  nodup : (rs.map Relation.key).Nodup
  own : r.key ∈ rs.map Relation.key
  exact : ∀ q : Relation, l.forest.Holds q.key →
    (q.key ∈ rs.map Relation.key ↔ (l.equal r q).1 = true)

/-! ### Members -/

/-- The members have the registered keys with the root of their class. -/
theorem keys_members (hl : l.forest.WellFormed) (hr : l.forest.Holds r.key) :
    (l.members r).1.map Relation.key =
      l.forest.keys.filter fun k => l.forest.root k = l.forest.root r.key := by
  have hmembers : (l.members r).1 =
      (l.forest.filter fun n => l.forest.root n.key = l.forest.root r.key).map Node.relation := by
    rw [members, Forest.members_fst hl, if_pos hr]
  rw [hmembers, List.map_map, Forest.keys, List.filter_map]
  rfl

theorem mem_keys_members (hl : l.forest.WellFormed) (hr : l.forest.Holds r.key) {k : String} :
    k ∈ (l.members r).1.map Relation.key ↔
      l.forest.Holds k ∧ l.forest.root k = l.forest.root r.key := by
  rw [keys_members hl hr, List.mem_filter, decide_eq_true_iff, Forest.Holds]

theorem Reached.lists_members (h : l.Reached) (hr : l.forest.Holds r.key) :
    l.Lists r (l.members r).1 where
  ordered := by
    rw [keys_members h.coherent.wellFormed hr, ← h.keys_eq]
    exact List.filter_sublist
  nodup := by
    rw [keys_members h.coherent.wellFormed hr]
    exact h.coherent.wellFormed.nodup.filter _
  own := (mem_keys_members h.coherent.wellFormed hr).mpr ⟨hr, rfl⟩
  exact q hq := by
    have hl := h.coherent.wellFormed
    rw [mem_keys_members hl hr, equal_fst hl, decide_eq_true_iff]
    exact ⟨fun hk => hk.2.symm, fun hroot => ⟨hq, hroot.symm⟩⟩

/-- Members are chained to what they are members with. -/
theorem Reached.chained_of_mem_members (h : l.Reached) (hr : l.forest.Holds r.key)
    (hq : q ∈ (l.members r).1) : Chained l.equations r.key q.key := by
  have hkey := List.mem_map_of_mem (f := Relation.key) hq
  obtain ⟨-, hroot⟩ := (mem_keys_members h.coherent.wellFormed hr).mp hkey
  exact h.coherent.root_eq_iff.mp hroot.symm

theorem members_of_not_holds (hr : ¬ l.forest.Holds r.key) : (l.members r).1 = [] := by
  rw [members, Forest.members, if_neg hr]

theorem Reached.members_ne_nil (h : l.Reached) (hr : l.forest.Holds r.key) :
    (l.members r).1 ≠ [] := by
  intro hnil
  have hown := (h.lists_members hr).own
  rw [hnil] at hown
  cases hown

/-! ### Listings -/

theorem equalDistances_fst (l : Ledger) (d : Distance) : (l.equalDistances d).1 =
    if (l.members (.distance d)).1.isEmpty then [d]
    else (l.members (.distance d)).1.filterMap Relation.distance? := rfl

theorem equalAngles_fst (l : Ledger) (a : Angle) : (l.equalAngles a).1 =
    if (l.members (.angle a)).1.isEmpty then [a]
    else (l.members (.angle a)).1.filterMap Relation.angle? := rfl

/-- To keep one kind loses nothing where all are of that kind. -/
theorem map_filterMap_of_kind {α : Type} {kind? : Relation → Option α} {of : α → Relation}
    {rs : List Relation} (h : ∀ q ∈ rs, (kind? q).map of = some q) :
    (rs.filterMap kind?).map of = rs := by
  rw [List.map_filterMap, List.filterMap_congr h, List.filterMap_some]

/-- A distance is a member with distances only. -/
theorem Reached.map_equalDistances (h : l.Reached) {d : Distance}
    (hd : l.forest.Holds (Relation.distance d).key) :
    (l.equalDistances d).1.map Relation.distance = (l.members (.distance d)).1 := by
  rw [equalDistances_fst, if_neg (mt List.isEmpty_iff.mp (h.members_ne_nil hd))]
  refine map_filterMap_of_kind fun q hq => ?_
  have hchain := h.chained_of_mem_members hd hq
  cases q with
  | distance e => rfl
  | angle a => exact absurd hchain (not_chained_distance_angle d a)

/-- An angle is a member with angles only. -/
theorem Reached.map_equalAngles (h : l.Reached) {a : Angle}
    (ha : l.forest.Holds (Relation.angle a).key) :
    (l.equalAngles a).1.map Relation.angle = (l.members (.angle a)).1 := by
  rw [equalAngles_fst, if_neg (mt List.isEmpty_iff.mp (h.members_ne_nil ha))]
  refine map_filterMap_of_kind fun q hq => ?_
  have hchain := h.chained_of_mem_members ha hq
  cases q with
  | distance d => exact absurd hchain.symm (not_chained_distance_angle d a)
  | angle b => rfl

/-- **Listings match the questions.**  After any calls, the listing of a registered distance shows its
class: distances with different keys in the order in which these were first registered, one with its own
key, and one with the key of a registered distance exactly when that is known to be equal.  A distance
that has not been registered is listed alone.  The same holds of angles. -/
theorem listings_match_questions (calls : List Call) :
    let l := after {} calls
    (∀ d : Distance,
      (l.forest.Holds (Relation.distance d).key →
        l.Lists (.distance d) ((l.equalDistances d).1.map .distance) ∧
          (l.equalDistances d).1.map .distance = (l.members (.distance d)).1) ∧
      (¬ l.forest.Holds (Relation.distance d).key → (l.equalDistances d).1 = [d])) ∧
    ∀ a : Angle,
      (l.forest.Holds (Relation.angle a).key →
        l.Lists (.angle a) ((l.equalAngles a).1.map .angle) ∧
          (l.equalAngles a).1.map .angle = (l.members (.angle a)).1) ∧
      (¬ l.forest.Holds (Relation.angle a).key → (l.equalAngles a).1 = [a]) := by
  intro l
  have h : l.Reached := ⟨calls, rfl⟩
  refine ⟨fun d => ⟨fun hd => ?_, fun hd => ?_⟩, fun a => ⟨fun ha => ?_, fun ha => ?_⟩⟩
  · rw [h.map_equalDistances hd]
    exact ⟨h.lists_members hd, rfl⟩
  · rw [equalDistances_fst, members_of_not_holds hd]
    rfl
  · rw [h.map_equalAngles ha]
    exact ⟨h.lists_members ha, rfl⟩
  · rw [equalAngles_fst, members_of_not_holds ha]
    rfl

/-- Three equal distances, with the equation of two angles in between: the listing of the second one. -/
theorem listings_match_questions_three_distances :
    let ab : Distance := .between "A" "B"
    let cd : Distance := .between "C" "D"
    let ef : Distance := .between "E" "F"
    let angles : Equation := .angles (.between "A" "B" "C") (.between "D" "E" "F")
    let calls := [.record ⟨.distances cd ab, .given, "", ""⟩ 0, .record ⟨angles, .given, "", ""⟩ 0,
      .record ⟨.distances ef cd, .given, "", ""⟩ 1]
    let l := after {} calls
    l.forest.Holds (Relation.distance ab).key ∧ (l.equalDistances ab).1 = [cd, ab, ef] ∧
      l.Lists (.distance ab) [.distance cd, .distance ab, .distance ef] := by
  intro ab cd ef angles calls l
  have hheld : l.forest.Holds (Relation.distance ab).key := by decide +kernel
  have hlisted : (l.equalDistances ab).1 = [cd, ab, ef] := by decide +kernel
  obtain ⟨hlists, -⟩ := ((listings_match_questions calls).1 ab).1 hheld
  rw [hlisted] at hlists
  exact ⟨hheld, hlisted, hlists⟩

end RulerCompass.Ledger
