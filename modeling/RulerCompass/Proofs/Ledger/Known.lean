import RulerCompass.Proofs.Ledger.Batch
import RulerCompass.Proofs.Ledger.Entailment

/-!
# What is known to be equal

A ledger equates two relations when it answers that they are equal.  It equates the sides of all that
has been asserted and goes on to equate them while more is entered, and what it equates is an
equivalence.  An assertion becomes a fact exactly when its sides are not yet equated.
-/

namespace RulerCompass

/-- A distance does not depend on the order of its ends. -/
theorem Distance.between_comm (p q : String) : between p q = between q p := by
  unfold between
  by_cases hqp : q < p
  · have hpq : ¬ p < q := String.lt_asymm hqp
    rw [if_pos hqp, if_neg hpq]
  · by_cases hpq : p < q
    · rw [if_neg hqp, if_pos hpq]
    · have hsame : p = q := String.le_antisymm (String.not_lt.mp hqp) (String.not_lt.mp hpq)
      rw [hsame]

namespace Ledger

variable {l m : Ledger} {r s t : Relation} {as : List Assertion}

/-- The ledger answers that the relations are equal. -/
def Equates (l : Ledger) (r s : Relation) : Prop := (l.equal r s).1 = true

instance (l : Ledger) (r s : Relation) : Decidable (l.Equates r s) :=
  inferInstanceAs (Decidable (_ = true))

theorem Reached.equates_iff (h : l.Reached) :
    l.Equates r s ↔ Chained l.equations r.key s.key := h.coherent.equal_iff r s

theorem Equates.mono (h : l.Equates r s) (hl : l.Reached) (hm : m.Reached)
    (hsub : l.equations ⊆ m.equations) : m.Equates r s := by
  rw [hl.equates_iff] at h
  rw [hm.equates_iff]
  exact h.mono hsub

theorem Equates.symm (h : l.Equates r s) (hl : l.Reached) : l.Equates s r := by
  rw [hl.equates_iff] at h ⊢
  exact Chained.symm h

theorem Equates.trans (h : l.Equates r s) (h' : l.Equates s t) (hl : l.Reached) : l.Equates r t := by
  rw [hl.equates_iff] at h h' ⊢
  exact Chained.trans h h'

/-- The distance of `p` and `q` is known to be that of `p'` and `q'`. -/
def SameLength (l : Ledger) (p q p' q' : String) : Prop :=
  l.Equates (.distance (.between p q)) (.distance (.between p' q'))

instance (l : Ledger) (p q p' q' : String) : Decidable (l.SameLength p q p' q') :=
  inferInstanceAs (Decidable (l.Equates _ _))

theorem sameLength_comm_left {p q p' q' : String} :
    l.SameLength p q p' q' ↔ l.SameLength q p p' q' := by
  rw [SameLength, SameLength, Distance.between_comm p q]

theorem sameLength_comm_right {p q p' q' : String} :
    l.SameLength p q p' q' ↔ l.SameLength p q q' p' := by
  rw [SameLength, SameLength, Distance.between_comm p' q']

/-! ### Entering -/

theorem Reached.record_eq_none_iff (h : l.Reached) (a : Assertion) (atStep : Int) :
    (l.record a atStep).1 = none ↔ l.Equates a.equation.left a.equation.right := by
  have hroot := Ledger.record_eq_none_iff h.coherent.wellFormed (a := a) atStep
  rw [hroot, h.coherent.root_eq_iff, h.equates_iff]

theorem equations_subset_recordAll (l : Ledger) (as : List Assertion) (atStep : Int) :
    l.equations ⊆ (l.recordAll as atStep).2.equations := by
  rw [equations, equations, recordAll_facts, List.map_append]
  exact List.subset_append_left _ _

/-- All that has been asserted is known. -/
theorem Reached.equates_recordAll (h : l.Reached) (atStep : Int) {a : Assertion} (ha : a ∈ as) :
    (l.recordAll as atStep).2.Equates a.equation.left a.equation.right := by
  have hafter := h.recordAll as atStep
  rw [hafter.equates_iff]
  obtain ⟨calls, rfl⟩ := h
  rw [recordAll_eq_after, ← after_append]
  refine chained_of_mem_asserted ?_
  refine List.mem_filterMap.mpr ⟨.record a atStep, ?_, rfl⟩
  exact List.mem_append_right _ (List.mem_map_of_mem ha)

/-- Each new fact is one of the assertions. -/
theorem assertion_mem_of_mem_recordAll {atStep : Int} {f : Fact}
    (hf : f ∈ (l.recordAll as atStep).1) : f.assertion ∈ as := by
  induction as using List.reverseRecOn with
  | nil => cases hf
  | append_singleton as a ih =>
    rw [recordAll_concat] at hf
    rcases List.mem_append.mp hf with hf | hf
    · exact List.mem_append_left _ (ih hf)
    · rw [Ledger.record] at hf
      split at hf
      · cases hf
      · obtain rfl := List.mem_singleton.mp hf
        exact List.mem_append_right _ (List.mem_singleton_self a)

/-- What is known by then gives no fact. -/
theorem Reached.recordAll_concat_eq (h : l.Reached) (as : List Assertion) {a : Assertion} {atStep : Int}
    (ha : (l.recordAll as atStep).2.Equates a.equation.left a.equation.right) :
    (l.recordAll (as ++ [a]) atStep).1 = (l.recordAll as atStep).1 := by
  have hnone := ((h.recordAll as atStep).record_eq_none_iff a atStep).mpr ha
  rw [recordAll_concat, hnone]
  exact List.append_nil _

end Ledger

end RulerCompass
