import Mathlib.Data.Finset.Card
import Mathlib.Data.String.Basic
import RulerCompass.Ledger.Forest

/-!
# Roots of a forest

A forest is seen through the function `parentOf`, by which a key without a node is its own parent.
In a well-formed forest no parent is greater than its child, so the way up from a key ends at a root
before the fuel does.  `root_unique` then says that the roots are the only function that the parents
leave alone and that fixes the roots; all that later modules know about roots comes from there.
-/

namespace RulerCompass.Forest

variable {f : Forest} {k : String}

/-- The parent of a key; a key that has not been entered is its own parent. -/
def parentOf (f : Forest) (k : String) : String := (f.node? k).elim k Node.parent

/-- Each key has one node, parents are nodes, and they are not greater than their children. -/
structure WellFormed (f : Forest) : Prop where
  nodup : f.keys.Nodup
  holds_parentOf : ∀ k, f.Holds k → f.Holds (f.parentOf k)
  parentOf_le : ∀ k, f.parentOf k ≤ k

/-! ### Nodes -/

theorem node?_eq_none_iff : f.node? k = none ↔ ¬ f.Holds k := by
  simp [node?, Holds, keys]

theorem key_of_node? {n : Node} (h : f.node? k = some n) : n.key = k := by
  simpa using List.find?_some h

/-- Without repeated keys, looking up the key of a node gives this node. -/
theorem node?_key_of_mem (hf : f.keys.Nodup) {n : Node} (hn : n ∈ f) : f.node? n.key = some n := by
  induction f with
  | nil => simp at hn
  | cons m f ih =>
    obtain ⟨hm, hf⟩ := List.nodup_cons.mp hf
    rcases List.mem_cons.mp hn with rfl | hn
    · simp [node?]
    · have hne : m.key ≠ n.key := fun he => hm (he ▸ List.mem_map_of_mem hn)
      have := ih hf hn
      simpa [node?, hne] using this

theorem parentOf_of_not_holds (h : ¬ f.Holds k) : f.parentOf k = k := by
  rw [parentOf, node?_eq_none_iff.mpr h, Option.elim_none]

theorem parentOf_of_node? {n : Node} (h : f.node? k = some n) : f.parentOf k = n.parent := by
  rw [parentOf, h, Option.elim_some]

theorem holds_of_parentOf_ne (h : f.parentOf k ≠ k) : f.Holds k :=
  not_not.mp fun hk => h (parentOf_of_not_holds hk)

/-! ### The way up -/

/-- The last key of a way of at most `fuel` steps. -/
def rootFrom (f : Forest) (k : String) (fuel : Nat) : String := (f.pathFrom k fuel).getLastD k

theorem root_eq_rootFrom : f.root k = f.rootFrom k f.length := rfl

theorem pathFrom_succ (fuel : Nat) :
    f.pathFrom k (fuel + 1) =
      if f.parentOf k = k then [k] else k :: f.pathFrom (f.parentOf k) fuel := by
  cases h : f.node? k with
  | none => simp [pathFrom, parentOf, h]
  | some n => simp [pathFrom, parentOf, h]

/-- A way begins with its key. -/
theorem pathFrom_eq_cons (fuel : Nat) : ∃ rest, f.pathFrom k fuel = k :: rest := by
  cases fuel with
  | zero => exact ⟨[], rfl⟩
  | succ fuel =>
    rw [pathFrom_succ]
    split
    · exact ⟨[], rfl⟩
    · exact ⟨_, rfl⟩

@[simp] theorem rootFrom_zero : f.rootFrom k 0 = k := rfl

theorem rootFrom_succ (fuel : Nat) :
    f.rootFrom k (fuel + 1) =
      if f.parentOf k = k then k else f.rootFrom (f.parentOf k) fuel := by
  rw [rootFrom, pathFrom_succ]
  by_cases h : f.parentOf k = k
  · simp [h]
  · obtain ⟨rest, hrest⟩ := pathFrom_eq_cons (f := f) (k := f.parentOf k) fuel
    rw [if_neg h, if_neg h, rootFrom, hrest]
    simp only [List.getLastD_cons]

/-- What the parents leave alone is the same all the way up. -/
theorem eq_rootFrom_of_parentOf {α : Type} {g : String → α} (hg : ∀ k, g (f.parentOf k) = g k)
    (fuel : Nat) : g (f.rootFrom k fuel) = g k := by
  induction fuel generalizing k with
  | zero => rfl
  | succ fuel ih =>
    rw [rootFrom_succ]
    split
    · rfl
    · rw [ih, hg]

/-- What the parents leave alone is the same for all keys on the way. -/
theorem eq_of_mem_pathFrom {α : Type} {g : String → α} (hg : ∀ k, g (f.parentOf k) = g k)
    {fuel : Nat} {j : String} (hj : j ∈ f.pathFrom k fuel) : g j = g k := by
  induction fuel generalizing k with
  | zero => rw [List.mem_singleton.mp hj]
  | succ fuel ih =>
    rw [pathFrom_succ] at hj
    split at hj
    · rw [List.mem_singleton.mp hj]
    · rcases List.mem_cons.mp hj with rfl | hj
      · rfl
      · rw [ih hj, hg]

theorem root_of_parentOf_eq (h : f.parentOf k = k) : f.root k = k := by
  rw [root_eq_rootFrom]
  cases f.length with
  | zero => rfl
  | succ fuel => rw [rootFrom_succ, if_pos h]

theorem root_of_not_holds (h : ¬ f.Holds k) : f.root k = k :=
  root_of_parentOf_eq (parentOf_of_not_holds h)

namespace WellFormed

/-- The number of keys up to `k`, which bounds the length of the way up. -/
def rank (f : Forest) (k : String) : Nat := (f.keys.toFinset.filter (· ≤ k)).card

theorem rank_le_length : rank f k ≤ f.length :=
  calc rank f k ≤ f.keys.toFinset.card := Finset.card_filter_le _ _
    _ ≤ f.keys.length := List.toFinset_card_le _
    _ = f.length := List.length_map _

variable (hf : f.WellFormed)
include hf

theorem rank_parentOf_lt (h : f.parentOf k ≠ k) : rank f (f.parentOf k) < rank f k := by
  have hle := hf.parentOf_le k
  have hlt : f.parentOf k < k := lt_of_le_of_ne hle h
  refine Finset.card_lt_card ⟨fun j hj => ?_, fun hsub => ?_⟩
  · obtain ⟨hj, hjk⟩ := Finset.mem_filter.mp hj
    exact Finset.mem_filter.mpr ⟨hj, hjk.trans hle⟩
  · have hk : k ∈ f.keys.toFinset.filter (· ≤ k) :=
      Finset.mem_filter.mpr ⟨List.mem_toFinset.mpr (holds_of_parentOf_ne h), le_rfl⟩
    exact absurd (Finset.mem_filter.mp (hsub hk)).2 (not_le.mpr hlt)

/-- With enough fuel the way up ends at a root. -/
theorem parentOf_rootFrom {fuel : Nat} (h : rank f k ≤ fuel) :
    f.parentOf (f.rootFrom k fuel) = f.rootFrom k fuel := by
  induction fuel generalizing k with
  -- Without fuel left the rank is nought, and a parent of lower rank is impossible.
  | zero =>
    by_contra hne
    have := hf.rank_parentOf_lt hne
    rw [rootFrom_zero] at this
    omega
  | succ fuel ih =>
    rw [rootFrom_succ]
    split
    · assumption
    · rename_i hne
      have := hf.rank_parentOf_lt hne
      exact ih (by omega)

theorem parentOf_root (k : String) : f.parentOf (f.root k) = f.root k :=
  hf.parentOf_rootFrom rank_le_length

theorem root_unique {g : String → String} (hparent : ∀ k, g (f.parentOf k) = g k)
    (hfix : ∀ k, f.parentOf k = k → g k = k) (k : String) : f.root k = g k := by
  have h1 : g (f.root k) = g k := eq_rootFrom_of_parentOf hparent f.length
  have h2 : g (f.root k) = f.root k := hfix _ (hf.parentOf_root k)
  exact h2.symm.trans h1

/-- More fuel than enough does not change the end of the way. -/
theorem rootFrom_succ_of_rank_le {fuel : Nat} (h : rank f k ≤ fuel) :
    f.rootFrom k (fuel + 1) = f.rootFrom k fuel := by
  induction fuel generalizing k with
  | zero =>
    have hk : f.parentOf k = k := hf.parentOf_rootFrom h
    rw [rootFrom_succ, if_pos hk, rootFrom_zero]
  | succ fuel ih =>
    rw [rootFrom_succ (k := k) (fuel + 1), rootFrom_succ (k := k) fuel]
    by_cases hk : f.parentOf k = k
    · rw [if_pos hk, if_pos hk]
    · have := hf.rank_parentOf_lt hk
      rw [if_neg hk, if_neg hk, ih (by omega)]

@[simp] theorem root_parentOf (k : String) : f.root (f.parentOf k) = f.root k := by
  by_cases h : f.parentOf k = k
  · rw [h]
  · rw [root_eq_rootFrom, root_eq_rootFrom, ← hf.rootFrom_succ_of_rank_le rank_le_length (k := k),
      rootFrom_succ, if_neg h]

@[simp] theorem root_root (k : String) : f.root (f.root k) = f.root k :=
  root_of_parentOf_eq (hf.parentOf_root k)

theorem root_of_mem_path {j : String} (h : j ∈ f.path k) : f.root j = f.root k :=
  eq_of_mem_pathFrom hf.root_parentOf h

/-- The root is not greater than any key below it. -/
theorem root_le (k : String) : f.root k ≤ k := by
  suffices ∀ fuel k, f.rootFrom k fuel ≤ k from this f.length k
  intro fuel
  induction fuel with
  | zero => exact fun k => le_rfl
  | succ fuel ih =>
    intro k
    rw [rootFrom_succ]
    split
    · exact le_rfl
    · exact (ih _).trans (hf.parentOf_le k)

theorem holds_root_iff : f.Holds (f.root k) ↔ f.Holds k := by
  have hup : ∀ k, f.Holds (f.parentOf k) = f.Holds k := fun k => by
    by_cases h : f.parentOf k = k
    · rw [h]
    · exact propext ⟨fun _ => holds_of_parentOf_ne h, hf.holds_parentOf k⟩
  exact iff_of_eq (eq_rootFrom_of_parentOf hup f.length)

end WellFormed

end RulerCompass.Forest
