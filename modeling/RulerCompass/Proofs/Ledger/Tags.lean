import Mathlib.Order.Bounds.Basic
import RulerCompass.Proofs.Ledger.Classes
import RulerCompass.Proofs.Ledger.Known

/-!
# Tags of classes

A fact that joins two classes writes its number on the root that stays and wipes the number off the root
that goes.  `tagOf_join` says all that a new fact does to the tags, and nothing else touches them: a
question moves parents only.  So the tagged keys are the roots, and the tag of a root is the number of the
last fact in its class.
-/

namespace RulerCompass

namespace Forest

variable {f g : Forest} {k : String}

/-- The tag that the node with this key carries. -/
def tagOf (f : Forest) (k : String) : Option Int := (f.node? k).bind Node.tag

/-- All tags, each with the key of the node that carries it. -/
def tags (f : Forest) : List (String × Int) := f.filterMap fun n => n.tag.map fun i => (n.key, i)

theorem tagOf_of_not_holds (hk : ¬ f.Holds k) : f.tagOf k = none := by
  rw [tagOf, node?_eq_none_iff.mpr hk, Option.bind_none]

theorem Alike.tagOf_eq (h : Alike f g) (k : String) : f.tagOf k = g.tagOf k := h.tag_eq k

/-- The listing shows what each node carries. -/
theorem mem_tags (hf : f.WellFormed) {i : Int} : (k, i) ∈ f.tags ↔ f.tagOf k = some i := by
  simp only [tags, List.mem_filterMap, Option.map_eq_some_iff, Prod.mk.injEq]
  constructor
  · rintro ⟨n, hn, _, htag, rfl, rfl⟩
    rw [tagOf, node?_key_of_mem hf.nodup hn]
    exact htag
  · intro h
    obtain ⟨n, hn, htag⟩ := Option.bind_eq_some_iff.mp h
    exact ⟨n, List.mem_of_find?_eq_some hn, i, htag, key_of_node? hn, rfl⟩

theorem mem_keys_tags (hf : f.WellFormed) :
    k ∈ f.tags.map Prod.fst ↔ ∃ i, f.tagOf k = some i := by
  rw [List.mem_map]
  constructor
  · rintro ⟨⟨_, i⟩, hmem, rfl⟩
    exact ⟨i, (mem_tags hf).mp hmem⟩
  · rintro ⟨i, hi⟩
    exact ⟨(k, i), (mem_tags hf).mpr hi, rfl⟩

/-- No key is listed twice. -/
theorem nodup_keys_tags (hf : f.WellFormed) : (f.tags.map Prod.fst).Nodup := by
  rw [tags, List.map_filterMap, List.Nodup, List.pairwise_filterMap]
  refine (List.pairwise_map.mp hf.nodup).imp ?_
  intro m n hne key hm key' hn
  simp only [Option.map_map, Option.map_eq_some_iff, Function.comp_apply] at hm hn
  obtain ⟨-, -, rfl⟩ := hm
  obtain ⟨-, -, rfl⟩ := hn
  exact hne

/-! ### Entering and attaching -/

/-- A new node carries no tag. -/
theorem tagOf_enter (r : Relation) : (f.enter r).tagOf k = f.tagOf k := by
  rw [enter]
  by_cases hr : f.Holds r.key
  · rw [if_pos hr]
  · rw [if_neg hr, tagOf, tagOf, node?, List.find?_append]
    show ((f.node? k).or _).bind Node.tag = (f.node? k).bind Node.tag
    cases f.node? k with
    | some n => rfl
    | none =>
      rw [Option.none_or, List.find?_singleton]
      split <;> rfl

/-- The tag is handed over. -/
theorem tagOf_attach {upper lower : String} {tag : Int} (hu : f.Holds upper) :
    (f.attach upper lower tag).tagOf k =
      if k = lower then none else if k = upper then some tag else f.tagOf k := by
  have hnode : (f.attach upper lower tag).node? k = (f.node? k).map _ := node?_map (attach_key _ _ _)
  rw [tagOf, hnode]
  cases h : f.node? k with
  -- The root that gets the tag is in the forest, so a missing key is another one.
  | none =>
    have hk : ¬ f.Holds k := node?_eq_none_iff.mp h
    have hne : k ≠ upper := fun he => hk (he ▸ hu)
    rw [if_neg hne, tagOf_of_not_holds hk, ite_self]
    rfl
  | some n =>
    simp only [Option.map_some, Option.bind_some, tagOf, h, key_of_node? h]
    split
    · rfl
    · split <;> rfl

/-! ### Joining -/

/-- **What a union of two classes does to the tags.** -/
theorem tagOf_union (hf : f.WellFormed) {left right : String} (hl : f.Holds left) (hr : f.Holds right)
    (hne : f.root left ≠ f.root right) (tag : Int) :
    (f.union left right tag).tagOf k =
      if k = f.lostRoot left right then none
      else if k = f.keptRoot left right then some tag
      else f.tagOf k := by
  have halike := (compress_alike (hf.compress left) right).trans (compress_alike hf left)
  obtain ⟨hkept, -⟩ := kept_lost_of_roots (hf.holds_root_iff.mpr hl) (hf.holds_root_iff.mpr hr)
  rw [union_eq hf, if_neg hne, tagOf_attach (halike.holds_iff.mpr hkept), halike.tagOf_eq]

/-- Entering both sides writes no tags. -/
theorem tagOf_join (hf : f.WellFormed) {e : Equation} (hne : f.root e.left.key ≠ f.root e.right.key)
    (tag : Int) :
    (f.join e tag).tagOf k =
      if k = f.lostRoot e.left.key e.right.key then none
      else if k = f.keptRoot e.left.key e.right.key then some tag
      else f.tagOf k := by
  obtain ⟨hc, ha⟩ := connected_snd hf e.left.key e.right.key
  have he := (hc.enter e.left).enter e.right
  obtain ⟨hl, hr⟩ := holds_both_enter (f.connected e.left.key e.right.key).2 e
  have hroot := root_entered hf e
  rw [join, tagOf_union he hl hr (by rwa [hroot, hroot]), tagOf_enter, tagOf_enter, ha.tagOf_eq]
  rw [lostRoot, keptRoot, hroot, hroot]
  rfl

end Forest

namespace Ledger

variable {l m : Ledger} {k : String}

/-- The numbers of the facts whose left sides have the root of this key. -/
def classFacts (l : Ledger) (k : String) : Set Int :=
  {i | ∃ f ∈ l.facts, l.forest.root f.equation.left.key = l.forest.root k ∧ f.id = i}

/-- The roots are tagged and no other keys, each with the number of the last fact of its class. -/
structure Tagged (l : Ledger) : Prop where
  none_of_ne : ∀ k, l.forest.root k ≠ k → l.forest.tagOf k = none
  exists_of_holds : ∀ k, l.forest.Holds k → ∃ i, l.forest.tagOf (l.forest.root k) = some i
  greatest : ∀ k i, l.forest.tagOf k = some i → IsGreatest (l.classFacts k) i

theorem Coherent.id_lt (h : l.Coherent) {f : Fact} (hf : f ∈ l.facts) : f.id < l.nextId := by
  obtain ⟨i, hi, rfl⟩ := List.mem_iff_getElem.mp hf
  rw [h.numbered i hi, h.nextId_eq]
  omega

namespace Tagged

theorem empty : Tagged {} where
  none_of_ne _ _ := rfl
  exists_of_holds _ hk := nomatch hk
  greatest _ _ hi := nomatch hi

theorem of_alike (h : l.Tagged) (ha : Alike m l) : m.Tagged := by
  have htag := ha.forest.tagOf_eq
  have hfacts : ∀ k, m.classFacts k = l.classFacts k := by
    intro k
    simp only [classFacts, ha.facts_eq, ha.forest.root]
  refine ⟨fun k hk => ?_, fun k hk => ?_, fun k i hi => ?_⟩
  · rw [htag]
    rw [ha.forest.root] at hk
    exact h.none_of_ne k hk
  · rw [ha.forest.root, htag]
    exact h.exists_of_holds k (ha.forest.holds_iff.mp hk)
  · rw [htag] at hi
    rw [hfacts]
    exact h.greatest k i hi

section Record

variable (h : l.Tagged) (hl : l.Coherent) {a : Assertion} (atStep : Int)
  (hne : l.forest.root a.equation.left.key ≠ l.forest.root a.equation.right.key)
include hl hne

theorem forest_record :
    (l.record a atStep).2.forest = l.forest.join a.equation l.nextId := by
  rw [record_of_root_ne hl.wellFormed atStep hne]

/-- The tag of the root that goes is wiped off, and the root that stays gets the number of the fact. -/
theorem tagOf_record : (l.record a atStep).2.forest.tagOf k =
    if k = l.forest.lostRoot a.equation.left.key a.equation.right.key then none
    else if k = l.forest.keptRoot a.equation.left.key a.equation.right.key then some l.nextId
    else l.forest.tagOf k := by
  rw [forest_record hl atStep hne]
  exact Forest.tagOf_join hl.wellFormed hne l.nextId

/-- The new fact is the last one of the class that it makes. -/
theorem greatest_record_kept : IsGreatest ((l.record a atStep).2.classFacts
    (l.forest.keptRoot a.equation.left.key a.equation.right.key)) l.nextId := by
  have hrec := record_of_root_ne hl.wellFormed atStep hne
  have hkept : l.forest.root (l.forest.keptRoot a.equation.left.key a.equation.right.key) = _ :=
    Forest.root_keptRoot hl.wellFormed
  have hlost := (Forest.keptRoot_lt_lostRoot hne).ne
  constructor
  · refine ⟨l.factOf a atStep, ?_, ?_, rfl⟩
    · rw [hrec]
      exact List.mem_append_right _ List.mem_cons_self
    · rw [record_root hl.wellFormed, record_root hl.wellFormed, factOf,
        Forest.mergedRoot_side (Or.inl rfl), Forest.mergedRoot_of_ne_lost (by rwa [hkept]), hkept]
  · -- Ids are counted up, so that of the new fact is above all others.
    rintro _ ⟨f, hf, -, rfl⟩
    rw [hrec] at hf
    rcases List.mem_append.mp hf with hf | hf
    · exact (hl.id_lt hf).le
    · rw [List.mem_singleton.mp hf]
      exact le_rfl

/-- Each other class has the facts that it had. -/
theorem classFacts_record (hroot : l.forest.root k = k)
    (hlost : k ≠ l.forest.lostRoot a.equation.left.key a.equation.right.key)
    (hkept : k ≠ l.forest.keptRoot a.equation.left.key a.equation.right.key) :
    (l.record a atStep).2.classFacts k = l.classFacts k := by
  have hrec := record_of_root_ne hl.wellFormed atStep hne
  have hsame : ∀ j, (l.record a atStep).2.forest.root j = k ↔ l.forest.root j = k := by
    intro j
    rw [record_root hl.wellFormed]
    exact Forest.mergedRoot_eq_iff hlost hkept
  ext i
  unfold classFacts
  rw [(hsame k).mpr hroot, hroot]
  constructor
  · rintro ⟨f, hf, hside, hi⟩
    rw [hrec] at hf
    rcases List.mem_append.mp hf with hf | hf
    · exact ⟨f, hf, (hsame _).mp hside, hi⟩
    · -- The left side of the new fact lies in the class that it makes.
      rw [List.mem_singleton.mp hf, record_root hl.wellFormed, factOf,
        Forest.mergedRoot_side (Or.inl rfl)] at hside
      exact absurd hside.symm hkept
  · rintro ⟨f, hf, hside, hi⟩
    refine ⟨f, ?_, (hsame _).mpr hside, hi⟩
    rw [hrec]
    exact List.mem_append_left _ hf

include h

theorem none_of_ne_record (hk : (l.record a atStep).2.forest.root k ≠ k) :
    (l.record a atStep).2.forest.tagOf k = none := by
  rw [record_root hl.wellFormed] at hk
  rw [tagOf_record hl atStep hne]
  by_cases hlost : k = l.forest.lostRoot a.equation.left.key a.equation.right.key
  · rw [if_pos hlost]
  · -- Another key that is no root now was none before, and it is not the kept root.
    have hroot : l.forest.root k ≠ k := by
      intro hroot
      rw [Forest.mergedRoot_of_ne_lost (by rwa [hroot])] at hk
      exact hk hroot
    have hkept : k ≠ l.forest.keptRoot a.equation.left.key a.equation.right.key := by
      rintro rfl
      exact hroot (Forest.root_keptRoot hl.wellFormed)
    rw [if_neg hlost, if_neg hkept]
    exact h.none_of_ne k hroot

theorem exists_of_holds_record (hk : (l.record a atStep).2.forest.Holds k) :
    ∃ i, (l.record a atStep).2.forest.tagOf ((l.record a atStep).2.forest.root k) = some i := by
  rw [record_root hl.wellFormed, tagOf_record hl atStep hne]
  -- The lost class now has the kept root, which bears the tag of the new fact.
  by_cases hlost : l.forest.root k = l.forest.lostRoot a.equation.left.key a.equation.right.key
  · rw [Forest.mergedRoot_of_lost hlost, if_neg (Forest.keptRoot_lt_lostRoot hne).ne, if_pos rfl]
    exact ⟨_, rfl⟩
  · rw [Forest.mergedRoot_of_ne_lost hlost, if_neg hlost]
    by_cases hkept : l.forest.root k = l.forest.keptRoot a.equation.left.key a.equation.right.key
    · rw [if_pos hkept]
      exact ⟨_, rfl⟩
    · -- The sides of the new fact have one of the two roots, so this key was there before.
      rw [if_neg hkept]
      rw [forest_record hl atStep hne, Forest.holds_join hl.wellFormed] at hk
      apply h.exists_of_holds k
      exact hk.resolve_right fun hside => (Forest.root_side hside).elim hkept hlost

theorem greatest_record {i : Int} (hi : (l.record a atStep).2.forest.tagOf k = some i) :
    IsGreatest ((l.record a atStep).2.classFacts k) i := by
  rw [tagOf_record hl atStep hne] at hi
  by_cases hlost : k = l.forest.lostRoot a.equation.left.key a.equation.right.key
  · rw [if_pos hlost] at hi
    cases hi
  · rw [if_neg hlost] at hi
    by_cases hkept : k = l.forest.keptRoot a.equation.left.key a.equation.right.key
    · rw [if_pos hkept] at hi
      cases hi
      rw [hkept]
      exact greatest_record_kept hl atStep hne
    · rw [if_neg hkept] at hi
      -- Only roots bear tags.
      have hroot : l.forest.root k = k := by
        by_contra hroot
        rw [h.none_of_ne k hroot] at hi
        cases hi
      rw [classFacts_record hl atStep hne hroot hlost hkept]
      exact h.greatest k i hi

theorem record : (l.record a atStep).2.Tagged where
  none_of_ne _ := h.none_of_ne_record hl atStep hne
  exists_of_holds _ := h.exists_of_holds_record hl atStep hne
  greatest _ _ := h.greatest_record hl atStep hne

end Record

end Tagged

theorem Reached.tagged (h : l.Reached) : l.Tagged :=
  Reached.induction .empty (fun _ _ ih ha => ih.of_alike ha)
    (fun _ _ atStep hl ih hne => ih.record hl atStep hne) h

/-! ### Answers -/

/-- Only a key that no fact has written down has no tag at its root. -/
theorem Reached.tagOf_root_eq_none_iff (h : l.Reached) :
    l.forest.tagOf (l.forest.root k) = none ↔ ¬ l.forest.Holds k := by
  constructor
  · intro hnone hk
    obtain ⟨i, hi⟩ := h.tagged.exists_of_holds k hk
    rw [hnone] at hi
    cases hi
  · intro hk
    rw [Forest.root_of_not_holds hk]
    exact Forest.tagOf_of_not_holds hk

theorem Reached.tagOf_root_eq_some_iff (h : l.Reached) {i : Int} :
    l.forest.tagOf (l.forest.root k) = some i ↔ IsGreatest (l.classFacts k) i := by
  have hclass : l.classFacts (l.forest.root k) = l.classFacts k := by
    unfold classFacts
    rw [h.coherent.wellFormed.root_root]
  constructor
  · intro hi
    rw [← hclass]
    exact h.tagged.greatest _ i hi
  · intro hi
    -- The class has a fact, so its root has a tag, and that is the greatest id already.
    obtain ⟨f, hf, hside, -⟩ := hi.1
    have hleft := h.holds_iff_exists_fact.mpr ⟨f, hf, Or.inl rfl⟩
    obtain ⟨j, hj⟩ := h.tagged.exists_of_holds _ hleft
    rw [hside] at hj
    have hgreatest := h.tagged.greatest _ j hj
    rw [hclass] at hgreatest
    rw [hj, hgreatest.unique hi]

/-- The tagged keys are the roots. -/
theorem Reached.mem_keys_tags_iff (h : l.Reached) :
    k ∈ l.forest.tags.map Prod.fst ↔ k ∈ l.forest.roots := by
  rw [Forest.mem_keys_tags h.coherent.wellFormed, Forest.mem_roots]
  constructor
  · rintro ⟨i, hi⟩
    have hroot : l.forest.root k = k := by
      by_contra hroot
      rw [h.tagged.none_of_ne k hroot] at hi
      cases hi
    have hk : l.forest.Holds k := by
      by_contra hk
      rw [Forest.tagOf_of_not_holds hk] at hi
      cases hi
    exact ⟨hk, hroot⟩
  · rintro ⟨hk, hroot⟩
    have htag := h.tagged.exists_of_holds k hk
    rwa [hroot] at htag

/-- **Tags are exact.**  After any calls, a relation has no number exactly when its key occurs in no fact,
and otherwise its number is the greatest one among the facts whose left side is known to be equal to it.
The keys that carry a tag are listed once each, they are the roots, and each class has exactly one of
them. -/
theorem rootFact_eq_last_joining (calls : List Call) :
    let l := after {} calls
    (∀ r : Relation,
      ((l.rootFact r).1 = none ↔
        ∀ f ∈ l.facts, f.equation.left.key ≠ r.key ∧ f.equation.right.key ≠ r.key) ∧
      ∀ i, (l.rootFact r).1 = some i ↔
        IsGreatest {i | ∃ f ∈ l.facts, l.Equates f.equation.left r ∧ f.id = i} i) ∧
    (l.forest.tags.map Prod.fst).Nodup ∧
    (∀ k, k ∈ l.forest.tags.map Prod.fst ↔ k ∈ l.forest.roots) ∧
    ∀ c ∈ l.forest.classes, ∃! k, k ∈ c ∧ k ∈ l.forest.tags.map Prod.fst := by
  intro l
  have h : l.Reached := ⟨calls, rfl⟩
  have hw := h.coherent.wellFormed
  refine ⟨fun r => ⟨?_, fun i => ?_⟩, Forest.nodup_keys_tags hw, fun k => h.mem_keys_tags_iff, ?_⟩
  · rw [rootFact_fst hw]
    refine h.tagOf_root_eq_none_iff.trans ?_
    rw [h.holds_iff_exists_fact]
    simp only [not_exists, not_and, not_or, Ne]
  · rw [rootFact_fst hw]
    refine h.tagOf_root_eq_some_iff.trans ?_
    simp only [classFacts, Equates, equal_fst hw, decide_eq_true_iff]
  · -- The root of a class is the one key in it that bears a tag.
    intro c hc
    obtain ⟨j, hj, rfl⟩ := Finset.mem_image.mp hc
    have hroot := Forest.root_mem_roots hw (Forest.mem_keySet.mp hj)
    refine ⟨l.forest.root j, ⟨?_, h.mem_keys_tags_iff.mpr hroot⟩, ?_⟩
    · rw [Forest.mem_classOf]
      exact ⟨(Forest.mem_roots.mp hroot).1, hw.root_root j⟩
    · rintro k ⟨hk, htagged⟩
      have hself := (Forest.mem_roots.mp (h.mem_keys_tags_iff.mp htagged)).2
      exact hself.symm.trans (Forest.mem_classOf.mp hk).2

/-- Two pairs of equal distances, equated in the end through a distance of each: the tag of one root is
gone, and the other one has the number of the last fact, which all four distances have. -/
theorem rootFact_eq_last_joining_two_pairs :
    let equate (p q r s : String) : Call :=
      .record ⟨.distances (.between p q) (.between r s), .given, "", ""⟩ 0
    let ef : Relation := .distance (.between "E" "F")
    let calls := [equate "C" "D" "A" "B", equate "E" "F" "G" "H", equate "G" "H" "C" "D"]
    let l := after {} calls
    l.forest.tags = [("d:A|B", 3)] ∧ (l.rootFact ef).1 = some 3 ∧
      IsGreatest {i | ∃ f ∈ l.facts, l.Equates f.equation.left ef ∧ f.id = i} 3 ∧
      (l.rootFact (.distance (.between "A" "C"))).1 = none := by
  intro equate ef calls l
  have htag : (l.rootFact ef).1 = some 3 := by decide +kernel
  obtain ⟨hanswers, -⟩ := rootFact_eq_last_joining calls
  exact ⟨by decide +kernel, htag, ((hanswers ef).2 3).mp htag, by decide +kernel⟩

end Ledger

end RulerCompass
