import RulerCompass.Proofs.Forest.Roots

/-!
# What the operations do to a forest

Compressing and entering leave every root where it is, and a union moves the keys below the greater
of two roots to the smaller one.  All operations keep a forest well-formed.
-/

namespace RulerCompass.Forest

variable {f : Forest} {k : String}

/-! ### Changing nodes in place -/

section Map

variable {h : Node → Node} (hkey : ∀ n, (h n).key = n.key)
include hkey

theorem keys_map : Forest.keys (f.map h) = f.keys := by
  simp [keys, hkey]

theorem holds_map : Forest.Holds (f.map h) k ↔ f.Holds k := by
  rw [Holds, Holds, keys_map hkey]

theorem node?_map : Forest.node? (f.map h) k = (f.node? k).map h := by
  rw [node?, node?, List.find?_map]
  congr 2
  funext n
  simp [hkey]

end Map

/-! ### Redirection -/

section Redirect

variable {ks : List String} {r : String}

theorem redirect_key (ks : List String) (r : String) (n : Node) :
    (if n.key ∈ ks then { n with parent := r } else n).key = n.key := by
  split <;> rfl

theorem keys_redirect : (f.redirect ks r).keys = f.keys := keys_map (redirect_key ks r)

theorem holds_redirect : (f.redirect ks r).Holds k ↔ f.Holds k := holds_map (redirect_key ks r)

theorem parentOf_redirect :
    (f.redirect ks r).parentOf k = if k ∈ ks ∧ f.Holds k then r else f.parentOf k := by
  have hnode : (f.redirect ks r).node? k = (f.node? k).map _ := node?_map (redirect_key ks r)
  cases h : f.node? k with
  | none =>
    have hk : ¬ f.Holds k := node?_eq_none_iff.mp h
    rw [h, Option.map_none] at hnode
    rw [if_neg fun hmem => hk hmem.2, parentOf, parentOf, hnode, h]
  | some n =>
    have hk : f.Holds k := not_not.mp (mt node?_eq_none_iff.mpr (by rw [h]; exact Option.some_ne_none n))
    rw [h, Option.map_some] at hnode
    rw [parentOf_of_node? hnode, parentOf_of_node? h, key_of_node? h]
    simp only [hk, and_true]
    split <;> rfl

/-- Keys with the right parent are left as they are. -/
theorem redirect_eq_self (hf : f.keys.Nodup) (hks : ∀ k ∈ ks, f.parentOf k = r) :
    f.redirect ks r = f := by
  refine (List.map_congr_left fun n hn => ?_).trans (List.map_id f)
  split
  · rename_i hmem
    have hparent := parentOf_of_node? (node?_key_of_mem hf hn)
    rw [hks _ hmem] at hparent
    rw [hparent]
    rfl
  · rfl

theorem redirect_cons : (f.redirect [k] r).redirect ks r = f.redirect (k :: ks) r := by
  rw [redirect, redirect, redirect, List.map_map]
  refine List.map_congr_left fun n _ => ?_
  rw [Function.comp_apply, redirect_key]
  by_cases hk : n.key = k
  · rw [if_pos (List.mem_singleton.mpr hk), if_pos (List.mem_cons.mpr (Or.inl hk))]
    split <;> rfl
  · rw [if_neg (mt List.mem_singleton.mp hk)]
    simp only [List.mem_cons, hk, false_or]

end Redirect

/-! ### Compression -/

theorem keys_compress (j : String) : (f.compress j).keys = f.keys := keys_redirect

theorem holds_compress {j : String} : (f.compress j).Holds k ↔ f.Holds k := holds_redirect

section Compress

variable (hf : f.WellFormed) (j : String)
include hf

theorem parentOf_compress :
    (f.compress j).parentOf k = if k ∈ f.path j then f.root j else f.parentOf k := by
  rw [compress, parentOf_redirect]
  by_cases hj : k ∈ f.path j
  · rw [if_pos hj]
    by_cases hk : f.Holds k
    · rw [if_pos ⟨hj, hk⟩]
    · rw [if_neg fun hmem => hk hmem.2, parentOf_of_not_holds hk, ← hf.root_of_mem_path hj,
        root_of_not_holds hk]
  · rw [if_neg hj, if_neg fun hmem => hj hmem.1]

theorem WellFormed.compress : (f.compress j).WellFormed where
  nodup := by rw [keys_compress]; exact hf.nodup
  holds_parentOf k hk := by
    rw [holds_compress] at hk ⊢
    rw [parentOf_compress hf]
    split
    · rename_i hj
      rw [← hf.root_of_mem_path hj, hf.holds_root_iff]
      exact hk
    · exact hf.holds_parentOf k hk
  parentOf_le k := by
    rw [parentOf_compress hf]
    split
    · rename_i hj
      rw [← hf.root_of_mem_path hj]
      exact hf.root_le k
    · exact hf.parentOf_le k

/-- Shortening the way up does not change where it ends. -/
theorem root_compress (k : String) : (f.compress j).root k = f.root k := by
  refine (hf.compress j).root_unique (fun k => ?_) (fun k hk => ?_) k
  · rw [parentOf_compress hf]
    split
    · rename_i hj
      rw [hf.root_root, hf.root_of_mem_path hj]
    · exact hf.root_parentOf k
  · rw [parentOf_compress hf] at hk
    split at hk
    · rename_i hj
      rw [hf.root_of_mem_path hj, hk]
    · exact root_of_parentOf_eq hk

end Compress

/-! ### Entering a relation -/

theorem holds_enter {r : Relation} : (f.enter r).Holds k ↔ f.Holds k ∨ k = r.key := by
  rw [enter]
  split
  · rename_i hr
    exact ⟨Or.inl, fun h => h.elim id fun hk => hk ▸ hr⟩
  · simp [Holds, keys, Node.key]

/-- A new node is its own parent, as a key without a node is. -/
@[simp] theorem parentOf_enter (r : Relation) : (f.enter r).parentOf k = f.parentOf k := by
  rw [enter]
  split
  · rfl
  · rename_i hr
    -- The entry is put at the end, so what was found before is found again.
    cases h : f.node? k with
    | some n =>
      have hn : Forest.node? (f ++ [⟨r, r.key, none⟩]) k = some n := by
        simp only [node?, List.find?_append] at h ⊢
        rw [h, Option.some_or]
      rw [parentOf_of_node? h, parentOf_of_node? hn]
    | none =>
      rw [parentOf_of_not_holds (node?_eq_none_iff.mp h), parentOf]
      simp only [node?, List.find?_append] at h ⊢
      rw [h, Option.none_or]
      -- A node that is entered is its own parent, like a key the forest does not hold.
      by_cases hk : r.key = k <;> simp [Node.key, hk]

section Enter

variable (hf : f.WellFormed) (r : Relation)
include hf

theorem WellFormed.enter : (f.enter r).WellFormed where
  nodup := by
    rw [Forest.enter]
    split
    · exact hf.nodup
    · -- The key is entered only where it is missing, so it is no duplicate.
      rename_i hr
      simp only [keys, List.map_append, List.map_cons, List.map_nil]
      refine List.nodup_append.mpr ⟨hf.nodup, List.nodup_singleton _, ?_⟩
      rintro a ha _ hb rfl
      rw [List.mem_singleton.mp hb] at ha
      exact hr ha
  holds_parentOf k hk := by
    rw [parentOf_enter, holds_enter]
    by_cases h : f.parentOf k = k
    · rw [h]
      exact holds_enter.mp hk
    · exact Or.inl (hf.holds_parentOf k (holds_of_parentOf_ne h))
  parentOf_le k := by
    rw [parentOf_enter]
    exact hf.parentOf_le k

theorem root_enter (k : String) : (f.enter r).root k = f.root k := by
  refine (hf.enter r).root_unique (fun k => ?_) (fun k hk => ?_) k
  · rw [parentOf_enter, hf.root_parentOf]
  · rw [parentOf_enter] at hk
    exact root_of_parentOf_eq hk

end Enter

/-! ### Attaching a root to another -/

theorem attach_key (upper lower : String) (tag : Int) (n : Node) :
    (if n.key = lower then { n with parent := upper, tag := none }
      else if n.key = upper then { n with tag := some tag } else n).key = n.key := by
  split
  · rfl
  · split <;> rfl

section Attach

variable {upper lower : String} {tag : Int}

theorem keys_attach : (f.attach upper lower tag).keys = f.keys := keys_map (attach_key _ _ _)

theorem holds_attach : (f.attach upper lower tag).Holds k ↔ f.Holds k := holds_map (attach_key _ _ _)

theorem parentOf_attach (hl : f.Holds lower) :
    (f.attach upper lower tag).parentOf k = if k = lower then upper else f.parentOf k := by
  have hnode : (f.attach upper lower tag).node? k = (f.node? k).map _ :=
    node?_map (attach_key _ _ _)
  cases h : f.node? k with
  | none =>
    have hk : ¬ f.Holds k := node?_eq_none_iff.mp h
    have hne : k ≠ lower := fun he => hk (he ▸ hl)
    rw [h, Option.map_none] at hnode
    rw [if_neg hne, parentOf, hnode, parentOf_of_not_holds hk, Option.elim_none]
  | some n =>
    rw [h, Option.map_some] at hnode
    rw [parentOf_of_node? hnode, parentOf_of_node? h, key_of_node? h]
    split
    · rfl
    · split <;> rfl

variable (hf : f.WellFormed) (hu : f.Holds upper) (hl : f.Holds lower)
  (hur : f.root upper = upper) (hlr : f.root lower = lower) (hlt : upper < lower)
include hf hu hl hlt

theorem WellFormed.attach : (f.attach upper lower tag).WellFormed where
  nodup := by rw [keys_attach]; exact hf.nodup
  holds_parentOf k hk := by
    rw [holds_attach] at hk ⊢
    rw [parentOf_attach hl]
    split
    · exact hu
    · exact hf.holds_parentOf k hk
  parentOf_le k := by
    rw [parentOf_attach hl]
    split
    · rename_i hk
      exact hk ▸ hlt.le
    · exact hf.parentOf_le k

include hur hlr

/-- The keys below the attached root get the other root, and no others move. -/
theorem root_attach (k : String) :
    (f.attach upper lower tag).root k = if f.root k = lower then upper else f.root k := by
  -- The map that sends the lost class to the kept root is constant along parents
  -- and the identity on roots, which only the root map is.
  refine (hf.attach hu hl hlt).root_unique
    (g := fun k => if f.root k = lower then upper else f.root k) (fun k => ?_) (fun k hk => ?_) k
  · rw [parentOf_attach hl]
    by_cases hk : k = lower
    · rw [if_pos hk, hk, hur, hlr, if_neg hlt.ne, if_pos rfl]
    · rw [if_neg hk, hf.root_parentOf]
  · rw [parentOf_attach hl] at hk
    by_cases hkl : k = lower
    · rw [if_pos hkl, hkl] at hk
      exact absurd hk hlt.ne
    · rw [if_neg hkl] at hk
      rw [root_of_parentOf_eq hk, if_neg hkl]

end Attach

/-! ### The two roots of a union -/

section JoinedRoots

/-- Of the roots of two keys, the one that stays a root when their classes are joined. -/
def keptRoot (f : Forest) (left right : String) : String := min (f.root left) (f.root right)

/-- The root that is attached to the other one. -/
def lostRoot (f : Forest) (left right : String) : String := max (f.root left) (f.root right)

variable {left right k : String}

/-- What holds of the roots of both keys holds of the one that stays and of the one that goes. -/
theorem kept_lost_of_roots {P : String → Prop} (hl : P (f.root left)) (hr : P (f.root right)) :
    P (f.keptRoot left right) ∧ P (f.lostRoot left right) := ⟨min_rec' P hl hr, max_rec' P hl hr⟩

theorem root_keptRoot (hf : f.WellFormed) : f.root (f.keptRoot left right) = f.keptRoot left right :=
  (kept_lost_of_roots (P := fun r => f.root r = r) (hf.root_root left) (hf.root_root right)).1

theorem root_lostRoot (hf : f.WellFormed) : f.root (f.lostRoot left right) = f.lostRoot left right :=
  (kept_lost_of_roots (P := fun r => f.root r = r) (hf.root_root left) (hf.root_root right)).2

theorem keptRoot_lt_lostRoot (hne : f.root left ≠ f.root right) :
    f.keptRoot left right < f.lostRoot left right := min_lt_max.mpr hne

/-- Each of the keys has one of the two roots. -/
theorem root_side (hk : k = left ∨ k = right) :
    f.root k = f.keptRoot left right ∨ f.root k = f.lostRoot left right := by
  unfold keptRoot lostRoot
  rcases le_total (f.root left) (f.root right) with hle | hle
  · rw [min_eq_left hle, max_eq_right hle]
    exact hk.imp (congrArg f.root) (congrArg f.root)
  · rw [min_eq_right hle, max_eq_left hle]
    exact hk.symm.imp (congrArg f.root) (congrArg f.root)

end JoinedRoots

/-! ### Union -/

/-- Both ways are shortened before the greater root is attached to the smaller one. -/
theorem union_eq (hf : f.WellFormed) (left right : String) (tag : Int) :
    f.union left right tag =
      if f.root left = f.root right then (f.compress left).compress right
      else ((f.compress left).compress right).attach (f.keptRoot left right)
        (f.lostRoot left right) tag := by
  simp only [union, find, root_compress hf, keptRoot, lostRoot]
  split
  · rfl
  · split
    · rename_i hlt
      rw [min_eq_right hlt.le, max_eq_left hlt.le]
    · rename_i hlt
      rw [min_eq_left (not_lt.mp hlt), max_eq_right (not_lt.mp hlt)]

/-- The root of a key when the classes of `left` and `right` are joined: the smaller of the two
roots takes the place of the greater one. -/
def mergedRoot (f : Forest) (left right k : String) : String :=
  if f.root k = max (f.root left) (f.root right) then min (f.root left) (f.root right)
  else f.root k

section MergedRoot

variable {left right k : String}

theorem mergedRoot_of_lost (h : f.root k = f.lostRoot left right) :
    f.mergedRoot left right k = f.keptRoot left right := if_pos h

theorem mergedRoot_of_ne_lost (h : f.root k ≠ f.lostRoot left right) :
    f.mergedRoot left right k = f.root k := if_neg h

theorem mergedRoot_side (hk : k = left ∨ k = right) :
    f.mergedRoot left right k = f.keptRoot left right := by
  by_cases h : f.root k = f.lostRoot left right
  · exact mergedRoot_of_lost h
  · rw [mergedRoot_of_ne_lost h]
    exact (root_side hk).resolve_right h

theorem mergedRoot_sides (f : Forest) (left right : String) :
    f.mergedRoot left right left = f.mergedRoot left right right :=
  (mergedRoot_side (Or.inl rfl)).trans (mergedRoot_side (Or.inr rfl)).symm

/-- A root that is neither of the two keeps its class. -/
theorem mergedRoot_eq_iff {r : String} (hlost : r ≠ f.lostRoot left right)
    (hkept : r ≠ f.keptRoot left right) : f.mergedRoot left right k = r ↔ f.root k = r := by
  by_cases h : f.root k = f.lostRoot left right
  · rw [mergedRoot_of_lost h, h]
    exact ⟨fun he => absurd he.symm hkept, fun he => absurd he.symm hlost⟩
  · rw [mergedRoot_of_ne_lost h]

end MergedRoot

theorem mergedRoot_of_root_eq {left right : String} (h : f.root left = f.root right) (k : String) :
    f.mergedRoot left right k = f.root k := by
  rw [mergedRoot, h, max_self, min_self]
  split
  · rename_i hk
    exact hk.symm
  · rfl

section Union

variable {left right : String} (hf : f.WellFormed) (hl : f.Holds left) (hr : f.Holds right)
  (tag : Int)
include hf hl hr

/-- A union keeps the forest well-formed and joins the classes of both keys. -/
theorem union_spec : (f.union left right tag).WellFormed ∧
    ∀ k, (f.union left right tag).root k = f.mergedRoot left right k := by
  -- Finding both roots compresses two paths, which changes neither classes nor roots.
  have hc : ((f.compress left).compress right).WellFormed := (hf.compress left).compress right
  have hroot : ∀ k, ((f.compress left).compress right).root k = f.root k := fun k => by
    rw [root_compress (hf.compress left), root_compress hf]
  have hholds : ∀ k, f.Holds k → ((f.compress left).compress right).Holds (f.root k) := fun k hk =>
    holds_compress.mpr (holds_compress.mpr (hf.holds_root_iff.mpr hk))
  rw [union_eq hf]
  by_cases h : f.root left = f.root right
  · rw [if_pos h]
    exact ⟨hc, fun k => (hroot k).trans (mergedRoot_of_root_eq h k).symm⟩
  · -- The lost root is attached below the kept one, which is the smaller of the two.
    rw [if_neg h]
    have hlt := keptRoot_lt_lostRoot h
    obtain ⟨hu, hm⟩ := kept_lost_of_roots (hholds left hl) (hholds right hr)
    refine ⟨hc.attach hu hm hlt, fun k => ?_⟩
    rw [root_attach hc hu hm ?_ ?_ hlt, hroot]
    · rfl
    · rw [hroot, root_keptRoot hf]
    · rw [hroot, root_lostRoot hf]

end Union

/-! ### Questions -/

section Questions

variable (hf : f.WellFormed)
include hf

/-- A key that has not been entered is its own root, so a comparison of the roots answers for all
keys. -/
theorem connected_fst (left right : String) :
    (f.connected left right).1 = decide (f.root left = f.root right) := by
  rw [connected]
  by_cases heq : left = right
  · rw [if_pos heq, heq]
    simp
  · rw [if_neg heq]
    by_cases hh : f.Holds left ∧ f.Holds right
    · rw [if_pos hh]
      simp only [find, root_compress hf]
    · rw [if_neg hh]
      refine (decide_eq_false fun hroot => heq ?_).symm
      -- Of two keys with one root the forest holds both or none, and a missing key is its own root.
      have hiff : f.Holds left ↔ f.Holds right := by
        rw [← hf.holds_root_iff, hroot, hf.holds_root_iff]
      have hl : ¬ f.Holds left := fun hl => hh ⟨hl, hiff.mp hl⟩
      have hr : ¬ f.Holds right := fun hr => hl (hiff.mpr hr)
      rwa [root_of_not_holds hl, root_of_not_holds hr] at hroot

end Questions

end RulerCompass.Forest
