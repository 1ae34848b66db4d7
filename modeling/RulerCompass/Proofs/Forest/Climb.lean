import RulerCompass.Proofs.Forest.Operations

/-!
# Climbing to a root

A root is found in two loops.  The first one climbs from a key along the parents until it comes to a key
that is its own parent.  The second one climbs again and points every key that it leaves to this root, where
the next key is read before the parent is written.

Both loops are given by their runs.  A run is a finite derivation, so there is none for a loop that does not
end or that asks for the parent of a key that has not been entered; no number bounds its steps in advance.
In a well-formed forest both loops have one run from each key that has been entered, and the two together
do what `find` does (`runs_iff_find`).
-/

namespace RulerCompass.Forest

variable {f g : Forest} {k r : String} {ks : List String}

/-! ### Runs -/

/-- The first loop starts at a key, visits the keys of the list and ends at its last one. -/
inductive Climbs (f : Forest) : String → List String → String → Prop
  | stop {k : String} (hk : f.Holds k) (hroot : f.parentOf k = k) : Climbs f k [k] k
  | up {k r : String} {ks : List String} (hk : f.Holds k) (hup : f.parentOf k ≠ k)
      (hrest : Climbs f (f.parentOf k) ks r) : Climbs f k (k :: ks) r

/-- The second loop, with the root `r` in hand, starts in a forest at a key and ends in another forest. -/
inductive Shortens (r : String) : Forest → String → Forest → Prop
  | stop {f : Forest} {k : String} (hk : f.Holds k) (hparent : f.parentOf k = r) : Shortens r f k f
  | up {f g : Forest} {k : String} (hk : f.Holds k) (hparent : f.parentOf k ≠ r)
      (hrest : Shortens r (f.redirect [k] r) (f.parentOf k) g) : Shortens r f k g

namespace Climbs

theorem root_fixed (h : f.Climbs k ks r) : f.parentOf r = r := by
  induction h with
  | stop _ hroot => exact hroot
  | up _ _ _ ih => exact ih

/-- From a root the first loop goes nowhere. -/
theorem eq_of_fixed (h : f.Climbs k ks r) (hk : f.parentOf k = k) : ks = [k] ∧ r = k := by
  cases h with
  | stop => exact ⟨rfl, rfl⟩
  | up _ hup _ => exact absurd hk hup

/-- The first loop has no choice. -/
theorem unique {ks' : List String} {r' : String} (h : f.Climbs k ks r) (h' : f.Climbs k ks' r') :
    ks = ks' ∧ r = r' := by
  induction h generalizing ks' with
  | stop _ hroot =>
    obtain ⟨rfl, rfl⟩ := h'.eq_of_fixed hroot
    exact ⟨rfl, rfl⟩
  | up _ hup _ ih =>
    cases h' with
    | stop _ hroot => exact absurd hroot hup
    | up _ _ hrest =>
      obtain ⟨rfl, rfl⟩ := ih hrest
      exact ⟨rfl, rfl⟩

theorem le_of_mem (hf : f.WellFormed) (h : f.Climbs k ks r) {j : String} (hj : j ∈ ks) : j ≤ k := by
  induction h with
  | stop => exact (List.mem_singleton.mp hj).le
  | up _ _ _ ih =>
    rcases List.mem_cons.mp hj with rfl | hj
    · exact le_rfl
    · exact (ih hj).trans (hf.parentOf_le _)

/-- No key is visited twice, since each one is smaller than the one before. -/
theorem nodup (hf : f.WellFormed) (h : f.Climbs k ks r) : ks.Nodup := by
  induction h with
  | stop => exact List.nodup_singleton _
  | up _ hup hrest ih =>
    refine List.nodup_cons.mpr ⟨fun hmem => ?_, ih⟩
    exact absurd (hrest.le_of_mem hf hmem) (not_le.mpr (lt_of_le_of_ne (hf.parentOf_le _) hup))

end Climbs

/-- The second loop has no choice. -/
theorem Shortens.unique {g' : Forest} (h : Shortens r f k g) (h' : Shortens r f k g') : g = g' := by
  induction h with
  | stop _ hparent =>
    cases h' with
    | stop => rfl
    | up _ hne _ => exact absurd hparent hne
  | up _ hne _ ih =>
    cases h' with
    | stop _ hparent => exact absurd hparent hne
    | up _ _ hrest => exact ih hrest

/-! ### The first loop ends -/

/-- With enough fuel a way is what the first loop visits. -/
theorem climbs_pathFrom (hf : f.WellFormed) {fuel : Nat} (hk : f.Holds k)
    (hfuel : WellFormed.rank f k ≤ fuel) : f.Climbs k (f.pathFrom k fuel) (f.rootFrom k fuel) := by
  induction fuel generalizing k with
  | zero => exact .stop hk (hf.parentOf_rootFrom hfuel)
  | succ fuel ih =>
    rw [pathFrom_succ, rootFrom_succ]
    by_cases hroot : f.parentOf k = k
    · rw [if_pos hroot, if_pos hroot]
      exact .stop hk hroot
    · rw [if_neg hroot, if_neg hroot]
      have hlt := hf.rank_parentOf_lt hroot
      exact .up hk hroot (ih (hf.holds_parentOf k hk) (by omega))

/-- **The first loop ends** at the root of the key. -/
theorem climbs_path (hf : f.WellFormed) (hk : f.Holds k) : f.Climbs k (f.path k) (f.root k) :=
  climbs_pathFrom hf hk WellFormed.rank_le_length

/-! ### The second loop ends -/

/-- A climb does not notice what happens to a key that it does not visit. -/
theorem Climbs.redirect {j s : String} (h : f.Climbs j ks r) (hk : k ∉ ks) :
    (f.redirect [k] s).Climbs j ks r := by
  have hparent : ∀ j, j ≠ k → (f.redirect [k] s).parentOf j = f.parentOf j := fun j hne => by
    rw [parentOf_redirect, if_neg fun hmem => hne (List.mem_singleton.mp hmem.1)]
  -- No node on the path is the one redirected, so every step up is the same as before.
  induction h with
  | @stop j hj hroot =>
    have hne : j ≠ k := fun he => hk (he ▸ List.mem_singleton_self j)
    refine .stop (holds_redirect.mpr hj) ?_
    rw [hparent j hne, hroot]
  | @up j r ks hj hup _ ih =>
    have hne : j ≠ k := fun he => hk (he ▸ List.mem_cons_self)
    have hrest := ih fun hmem => hk (List.mem_cons_of_mem j hmem)
    rw [← hparent j hne] at hrest hup
    exact .up (holds_redirect.mpr hj) hup hrest

/-- The second loop points to the root what the first one visited.  The induction is on the way, for the
forest changes under the loop: the keys still ahead are not those that it has left. -/
theorem shortens_redirect (hf : f.keys.Nodup) (hks : ks.Nodup) (h : f.Climbs k ks r) :
    Shortens r f k (f.redirect ks r) := by
  induction ks generalizing f k with
  | nil => cases h
  | cons j ks ih =>
    obtain ⟨hj, hks⟩ := List.nodup_cons.mp hks
    cases h with
    -- The path of a root is the root, whose parent is itself already.
    | stop hk hroot =>
      have hself : f.redirect [r] r = f :=
        redirect_eq_self hf fun i hi => by rw [List.mem_singleton.mp hi, hroot]
      rw [hself]
      exact .stop hk hroot
    | up hk hup hrest =>
      -- One step below the root the path has the root and this node, and nothing changes.
      by_cases hparent : f.parentOf j = r
      · have hlast : ks = [r] := by
          rw [hparent] at hrest
          exact (hrest.eq_of_fixed hrest.root_fixed).1
        have hself : f.redirect (j :: ks) r = f := by
          refine redirect_eq_self hf fun i hi => ?_
          rw [hlast] at hi
          rcases List.mem_pair.mp hi with rfl | rfl
          · exact hparent
          · exact hrest.root_fixed
        rw [hself]
        exact .stop hk hparent
      · -- Higher up the rest of the path is shortened first, and the node is redirected after it.
        rw [← redirect_cons]
        exact .up hk hparent (ih (keys_redirect.symm ▸ hf) hks (hrest.redirect hj))

/-- **The second loop ends** with the way to the root shortened. -/
theorem shortens_compress (hf : f.WellFormed) (hk : f.Holds k) :
    Shortens (f.root k) f k (f.compress k) :=
  shortens_redirect hf.nodup ((climbs_path hf hk).nodup hf) (climbs_path hf hk)

/-- The runs of both loops are what `find` computes. -/
theorem runs_iff_find (hf : f.WellFormed) (hk : f.Holds k) :
    f.Climbs k ks r ∧ Shortens r f k g ↔ ks = f.path k ∧ f.find k = (r, g) := by
  constructor
  · rintro ⟨hclimb, hshorten⟩
    obtain ⟨rfl, rfl⟩ := hclimb.unique (climbs_path hf hk)
    exact ⟨rfl, congrArg (Prod.mk _) ((shortens_compress hf hk).unique hshorten)⟩
  · rintro ⟨rfl, hfind⟩
    obtain ⟨rfl, rfl⟩ := Prod.mk.inj hfind
    exact ⟨climbs_path hf hk, shortens_compress hf hk⟩

end RulerCompass.Forest
