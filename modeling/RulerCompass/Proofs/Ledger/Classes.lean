import RulerCompass.Proofs.Ledger.Coherent

/-!
# Registered keys and their classes

The forest of a ledger holds the keys of the sides of its facts, each where it occurs first, and no
others.  A class is the set of all keys with one root, so there are as many classes as roots.  A new
fact enters the sides that are new, each as a root, and takes one root away: facts and classes together
are as many as the keys.
-/

namespace RulerCompass

namespace Forest

variable {f g : Forest} {k : String}

/-! ### Keys -/

theorem keys_enter (f : Forest) (r : Relation) :
    (f.enter r).keys = if f.Holds r.key then f.keys else f.keys ++ [r.key] := by
  rw [enter]
  split
  · rfl
  · rw [keys, keys, List.map_append]
    rfl

theorem keys_union (hf : f.WellFormed) (left right : String) (tag : Int) :
    (f.union left right tag).keys = f.keys := by
  rw [union_eq hf]
  split
  · rw [keys_compress, keys_compress]
  · rw [keys_attach, keys_compress, keys_compress]

/-- A key is entered where it occurs first. -/
theorem keys_enter_eq_eraseDups {ks : List String} (h : f.keys = ks.eraseDups) (r : Relation) :
    (f.enter r).keys = (ks ++ [r.key]).eraseDups := by
  have hholds : f.Holds r.key ↔ r.key ∈ ks := by rw [Holds, h, List.mem_eraseDups]
  rw [keys_enter, h, List.eraseDups_append]
  by_cases hr : r.key ∈ ks
  · rw [if_pos (hholds.mpr hr)]
    simp [List.removeAll, hr]
  · rw [if_neg (mt hholds.mp hr)]
    simp [List.removeAll, hr, List.eraseDups_cons]

theorem keys_join_eq_eraseDups (hf : f.WellFormed) {ks : List String} (h : f.keys = ks.eraseDups)
    (e : Equation) (tag : Int) :
    (f.join e tag).keys = (ks ++ [e.left.key, e.right.key]).eraseDups := by
  obtain ⟨hc, ha⟩ := connected_snd hf e.left.key e.right.key
  have hleft := keys_enter_eq_eraseDups (ha.keys_eq.trans h) e.left
  have hright := keys_enter_eq_eraseDups hleft e.right
  rw [join, keys_union ((hc.enter e.left).enter e.right), hright, List.append_assoc]
  rfl

/-! ### Classes -/

/-- All keys that have been entered. -/
def keySet (f : Forest) : Finset String := f.keys.toFinset

/-- The keys that are their own roots. -/
def roots (f : Forest) : Finset String := f.keySet.filter fun k => f.root k = k

/-- All keys with the root of this one. -/
def classOf (f : Forest) (k : String) : Finset String := f.keySet.filter fun j => f.root j = f.root k

/-- The classes of equal keys. -/
def classes (f : Forest) : Finset (Finset String) := f.keySet.image f.classOf

theorem mem_keySet : k ∈ f.keySet ↔ f.Holds k := List.mem_toFinset

theorem mem_roots : k ∈ f.roots ↔ f.Holds k ∧ f.root k = k := by
  rw [roots, Finset.mem_filter, mem_keySet]

theorem mem_classOf {j : String} : j ∈ f.classOf k ↔ f.Holds j ∧ f.root j = f.root k := by
  rw [classOf, Finset.mem_filter, mem_keySet]

theorem card_keySet (hf : f.WellFormed) : f.keySet.card = f.keys.length :=
  List.toFinset_card_of_nodup hf.nodup

theorem root_mem_roots (hf : f.WellFormed) (hk : f.Holds k) : f.root k ∈ f.roots :=
  mem_roots.mpr ⟨hf.holds_root_iff.mpr hk, hf.root_root k⟩

/-- Keys and roots make the classes. -/
theorem classes_congr (hkeys : ∀ k, f.Holds k ↔ g.Holds k) (hroot : ∀ k, f.root k = g.root k) :
    f.classes = g.classes := by
  have hset : f.keySet = g.keySet := by
    ext k
    rw [mem_keySet, mem_keySet, hkeys]
  have hclass : f.classOf = g.classOf := by
    funext k
    ext j
    rw [mem_classOf, mem_classOf, hkeys, hroot, hroot]
  rw [classes, classes, hset, hclass]

/-- Each class has one root. -/
theorem card_classes (hf : f.WellFormed) : f.classes.card = f.roots.card := by
  have himage : f.classes = f.roots.image f.classOf := by
    ext c
    rw [classes, Finset.mem_image, Finset.mem_image]
    constructor
    · rintro ⟨k, hk, rfl⟩
      refine ⟨f.root k, root_mem_roots hf (mem_keySet.mp hk), ?_⟩
      rw [classOf, classOf, hf.root_root]
    · rintro ⟨k, hk, rfl⟩
      exact ⟨k, mem_keySet.mpr (mem_roots.mp hk).1, rfl⟩
  rw [himage]
  -- Roots of one class are the same root.
  refine Finset.card_image_of_injOn fun j hj k hk hsame => ?_
  obtain ⟨hheld, hjroot⟩ := mem_roots.mp hj
  obtain ⟨-, hkroot⟩ := mem_roots.mp hk
  have hmem : j ∈ f.classOf k := hsame ▸ mem_classOf.mpr ⟨hheld, rfl⟩
  exact hjroot.symm.trans ((mem_classOf.mp hmem).2.trans hkroot)

/-- The keys that stay roots when two classes are joined: all but the one that goes. -/
theorem mergedRoot_eq_self_iff (hf : f.WellFormed) {left right : String}
    (hne : f.root left ≠ f.root right) :
    f.mergedRoot left right k = k ↔ f.root k = k ∧ k ≠ f.lostRoot left right := by
  by_cases hk : f.root k = f.lostRoot left right
  · rw [mergedRoot_of_lost hk]
    constructor
    · -- Then `k` would be the kept root, and the lost one its own root.
      intro hkept
      have hroot : f.root k = k := by rw [← hkept, root_keptRoot hf]
      exact absurd (hkept.trans (hroot.symm.trans hk)) (keptRoot_lt_lostRoot hne).ne
    · rintro ⟨hroot, hlost⟩
      exact absurd (hroot.symm.trans hk) hlost
  · rw [mergedRoot_of_ne_lost hk]
    constructor
    · intro hroot
      exact ⟨hroot, fun hlost => hk (hroot.trans hlost)⟩
    · exact And.left

section Join

variable (hf : f.WellFormed) (e : Equation) (tag : Int)
include hf

theorem holds_join : (f.join e tag).Holds k ↔ f.Holds k ∨ k = e.left.key ∨ k = e.right.key := by
  obtain ⟨hc, ha⟩ := connected_snd hf e.left.key e.right.key
  rw [Holds, join, keys_union ((hc.enter e.left).enter e.right)]
  show Forest.Holds _ k ↔ _
  rw [holds_enter, holds_enter, ha.holds_iff, or_assoc]

theorem keySet_subset_join : f.keySet ⊆ (f.join e tag).keySet := by
  intro k hk
  exact mem_keySet.mpr ((holds_join hf e tag).mpr (Or.inl (mem_keySet.mp hk)))

/-- Before two classes are joined each new key is a root. -/
theorem root_mem_roots_union (hk : (f.join e tag).Holds k) :
    f.root k ∈ f.roots ∪ ((f.join e tag).keySet \ f.keySet) := by
  by_cases hold : f.Holds k
  · exact Finset.mem_union_left _ (root_mem_roots hf hold)
  · rw [root_of_not_holds hold]
    refine Finset.mem_union_right _ (Finset.mem_sdiff.mpr ⟨mem_keySet.mpr hk, ?_⟩)
    exact mt mem_keySet.mp hold

/-- Of the roots, new keys included, one of the two that are joined is lost. -/
theorem roots_join (hne : f.root e.left.key ≠ f.root e.right.key) :
    (f.join e tag).roots = (f.roots ∪ ((f.join e tag).keySet \ f.keySet)).erase
      (f.lostRoot e.left.key e.right.key) := by
  ext k
  rw [mem_roots, (join_spec hf e tag).2, mergedRoot_eq_self_iff hf hne, Finset.mem_erase,
    Finset.mem_union, Finset.mem_sdiff, mem_roots, mem_keySet, mem_keySet]
  constructor
  · rintro ⟨hk, hroot, hlost⟩
    -- An old key keeps its root unless it is the lost one, and a new key is its own root.
    by_cases hold : f.Holds k
    · exact ⟨hlost, Or.inl ⟨hold, hroot⟩⟩
    · exact ⟨hlost, Or.inr ⟨hk, hold⟩⟩
  · rintro ⟨hlost, ⟨hold, hroot⟩ | ⟨hk, hnew⟩⟩
    · exact ⟨(holds_join hf e tag).mpr (Or.inl hold), hroot, hlost⟩
    · exact ⟨hk, root_of_not_holds hnew, hlost⟩

/-- There is one root more for each new key, and one less for the classes that are joined. -/
theorem card_roots_join (hne : f.root e.left.key ≠ f.root e.right.key) :
    (f.join e tag).roots.card + f.keySet.card + 1 =
      f.roots.card + (f.join e tag).keySet.card := by
  obtain ⟨-, hlost⟩ := kept_lost_of_roots
    (root_mem_roots_union hf e tag ((holds_join hf e tag).mpr (Or.inr (Or.inl rfl))))
    (root_mem_roots_union hf e tag ((holds_join hf e tag).mpr (Or.inr (Or.inr rfl))))
  have hdisjoint : Disjoint f.roots ((f.join e tag).keySet \ f.keySet) :=
    Finset.disjoint_of_subset_left (Finset.filter_subset _ _) Finset.disjoint_sdiff
  have herase := Finset.card_erase_add_one hlost
  have hunion := Finset.card_union_of_disjoint hdisjoint
  have hnew := Finset.card_sdiff_add_card_eq_card (keySet_subset_join hf e tag)
  rw [← roots_join hf e tag hne] at herase
  omega

end Join

end Forest

namespace Ledger

variable {l : Ledger}

/-- The keys of the sides of all facts, with the left side of each before the right one. -/
def sideKeys (facts : List Fact) : List String :=
  facts.flatMap fun f => [f.equation.left.key, f.equation.right.key]

/-- The keys that the facts have registered, in the order in which each was registered first. -/
def registered (l : Ledger) : List String := (sideKeys l.facts).eraseDups

/-- **The registered keys** are those of the forest, in its order. -/
theorem Reached.keys_eq (h : l.Reached) : l.forest.keys = l.registered := by
  refine Reached.induction (P := fun l => l.forest.keys = l.registered) rfl
    (fun l m ih ha => ?_) (fun l a atStep hl ih hne => ?_) h
  · rw [ha.forest.keys_eq, registered, ha.facts_eq]
    exact ih
  · rw [record_of_root_ne hl.wellFormed atStep hne]
    dsimp only [registered]
    rw [Forest.keys_join_eq_eraseDups hl.wellFormed ih, sideKeys, sideKeys, List.flatMap_append]
    rfl

/-- **Facts and classes** together are as many as the registered keys. -/
theorem Reached.card_classes (h : l.Reached) :
    l.facts.length + l.forest.classes.card = l.forest.keys.length := by
  have hcount : l.facts.length + l.forest.roots.card = l.forest.keySet.card := by
    refine Reached.induction
      (P := fun l => l.facts.length + l.forest.roots.card = l.forest.keySet.card) rfl
      (fun l m ih ha => ?_) (fun l a atStep hl ih hne => ?_) h
    · -- Queries change neither facts nor roots.
      have hroots : m.forest.roots = l.forest.roots := by
        ext k
        rw [Forest.mem_roots, Forest.mem_roots, ha.forest.holds_iff, ha.forest.root]
      rw [hroots, Forest.keySet, ha.forest.keys_eq, ha.facts_eq]
      exact ih
    · -- A new fact joins two classes, so there is one root less.
      have hjoin := Forest.card_roots_join hl.wellFormed a.equation l.nextId hne
      rw [record_of_root_ne hl.wellFormed atStep hne]
      dsimp only
      rw [List.length_append, List.length_singleton]
      omega
  have hw := h.coherent.wellFormed
  rw [Forest.card_classes hw, hcount, Forest.card_keySet hw]

/-- A key is registered exactly when it is that of a side of a fact. -/
theorem Reached.holds_iff_exists_fact (h : l.Reached) {k : String} : l.forest.Holds k ↔
    ∃ f ∈ l.facts, f.equation.left.key = k ∨ f.equation.right.key = k := by
  rw [Forest.Holds, h.keys_eq, registered, List.mem_eraseDups, sideKeys, List.mem_flatMap]
  simp only [List.mem_cons, List.not_mem_nil, or_false, eq_comm (a := k)]

/-- A key is registered exactly when some chain leads to another one from it. -/
theorem Reached.holds_iff (h : l.Reached) {k : String} :
    l.forest.Holds k ↔ ∃ j, j ≠ k ∧ Chained l.equations k j := by
  constructor
  · intro hk
    obtain ⟨f, hf, hside⟩ := h.holds_iff_exists_fact.mp hk
    have hmem : f.equation ∈ l.equations := List.mem_map_of_mem hf
    -- No fact equates a key with itself, since none is entailed by the others.
    have hsides : f.equation.left.key ≠ f.equation.right.key := by
      intro hsame
      obtain ⟨i, hi, hget⟩ := List.mem_iff_getElem.mp hmem
      refine h.coherent.irredundant i hi ?_
      rw [hget, hsame]
      exact .refl _
    rcases hside with rfl | rfl
    · exact ⟨_, hsides.symm, .of_mem hmem⟩
    · exact ⟨_, hsides, Chained.symm (.of_mem hmem)⟩
  · rintro ⟨j, hne, hchain⟩
    by_contra hk
    have hroot := h.coherent.root_eq_iff.mpr hchain
    -- Whoever is chained to a key outside the forest is outside too, and then both are one key.
    have hj : ¬ l.forest.Holds j := by
      rw [← h.coherent.wellFormed.holds_root_iff, ← hroot, h.coherent.wellFormed.holds_root_iff]
      exact hk
    rw [Forest.root_of_not_holds hk, Forest.root_of_not_holds hj] at hroot
    exact hne hroot.symm

end Ledger

end RulerCompass
