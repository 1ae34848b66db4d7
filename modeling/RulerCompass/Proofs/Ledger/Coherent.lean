import Mathlib.Data.List.Induction
import RulerCompass.Proofs.Forest.Partition
import RulerCompass.Proofs.Ledger.Calls

/-!
# What a ledger knows

`Coherent` is what all calls keep: the facts are numbered in order, each of them is a bridge between
two classes, and two keys have one root exactly when the facts chain them.  A refused equation was
chained before, so the chains of all asserted equations are those of the facts.
-/

namespace RulerCompass.Ledger

variable {l m : Ledger} {calls : List Call}

/-- The equations of the facts, in order. -/
def equations (l : Ledger) : List Equation := l.facts.map Fact.equation

/-- A new fact is one more equation. -/
theorem equations_record_of_root_ne (hl : l.forest.WellFormed) {a : Assertion} (atStep : Int)
    (hne : l.forest.root a.equation.left.key ≠ l.forest.root a.equation.right.key) :
    (l.record a atStep).2.equations = l.equations ++ [a.equation] := by
  rw [record_of_root_ne hl atStep hne, equations, List.map_append]
  rfl

/-- The facts are numbered in order and irredundant, and the forest has their classes. -/
structure Coherent (l : Ledger) : Prop where
  wellFormed : l.forest.WellFormed
  joined : ∀ e ∈ l.equations, l.forest.root e.left.key = l.forest.root e.right.key
  chained : ∀ k, Chained l.equations k (l.forest.root k)
  nextId_eq : l.nextId = l.facts.length + 1
  numbered : ∀ i (h : i < l.facts.length), l.facts[i].id = i + 1
  irredundant : Irredundant l.equations

theorem coherent_empty : Coherent {} where
  wellFormed := ⟨List.nodup_nil, fun _ hk => absurd hk (by simp [Forest.Holds, Forest.keys]),
    fun _ => le_rfl⟩
  joined _ he := nomatch he
  chained k := .refl k
  nextId_eq := rfl
  numbered _ h := nomatch h
  irredundant := irredundant_nil

namespace Coherent

theorem partitions (h : l.Coherent) : l.forest.Partitions l.equations := ⟨h.joined, h.chained⟩

theorem root_eq_iff (h : l.Coherent) {x y : String} :
    l.forest.root x = l.forest.root y ↔ Chained l.equations x y := h.partitions.root_eq_iff

theorem of_alike (h : l.Coherent) (hm : m.forest.WellFormed) (ha : Alike m l) : m.Coherent where
  wellFormed := hm
  joined := by
    rw [equations, ha.facts_eq]
    exact (h.partitions.of_root_eq ha.forest.root).joined
  chained := by
    rw [equations, ha.facts_eq]
    exact (h.partitions.of_root_eq ha.forest.root).chained
  nextId_eq := by rw [ha.nextId_eq, ha.facts_eq, h.nextId_eq]
  numbered := by
    simp only [ha.facts_eq]
    exact h.numbered
  irredundant := by
    rw [equations, ha.facts_eq]
    exact h.irredundant

section Record

variable (h : l.Coherent) {a : Assertion} (atStep : Int)
include h

/-- A new fact joins two classes that no chain of facts had joined. -/
theorem record_of_root_ne
    (hne : l.forest.root a.equation.left.key ≠ l.forest.root a.equation.right.key) :
    (l.record a atStep).2.Coherent := by
  have hrec := Ledger.record_of_root_ne h.wellFormed atStep hne
  have heqs := equations_record_of_root_ne h.wellFormed atStep hne
  have hparts : (l.record a atStep).2.forest.Partitions (l.record a atStep).2.equations := by
    rw [heqs]
    exact h.partitions.merged (record_root h.wellFormed atStep)
  refine ⟨record_wellFormed h.wellFormed atStep, hparts.joined, hparts.chained, ?_, ?_, ?_⟩
  · rw [hrec]
    simp [h.nextId_eq]
  · rw [hrec]
    intro i hi
    rw [List.length_append, List.length_singleton] at hi
    -- An earlier fact keeps its number, and the new one gets the next.
    rcases Nat.lt_succ_iff_lt_or_eq.mp hi with hlt | rfl
    · rw [List.getElem_append_left hlt, h.numbered i hlt]
    · rw [List.getElem_concat_length rfl, factOf, h.nextId_eq]
  · rw [heqs]
    exact h.irredundant.concat fun hc => hne (h.root_eq_iff.mpr hc)

theorem record : (l.record a atStep).2.Coherent := by
  by_cases hroot : l.forest.root a.equation.left.key = l.forest.root a.equation.right.key
  · have hnone := (record_eq_none_iff h.wellFormed atStep).mpr hroot
    exact h.of_alike (record_wellFormed h.wellFormed atStep)
      (record_alike_self h.wellFormed atStep hnone)
  · exact h.record_of_root_ne atStep hroot

end Record

theorem answer (h : l.Coherent) (c : Call) : (l.answer c).2.Coherent := by
  cases hc : c.equation? with
  | none =>
    obtain ⟨hw, ha⟩ := answer_alike_self h.wellFormed hc
    exact h.of_alike hw ha
  | some e =>
    cases c with
    | record a atStep => exact h.record atStep
    | _ => cases hc

theorem after (h : l.Coherent) (calls : List Call) : (after l calls).Coherent := by
  induction calls using List.reverseRecOn with
  | nil => exact h
  | append_singleton calls c ih =>
    rw [after_concat]
    exact ih.answer c

end Coherent

theorem Reached.coherent (h : l.Reached) : l.Coherent := by
  obtain ⟨calls, rfl⟩ := h
  exact coherent_empty.after calls

/-- **Induction over calls.**  A call that does not enter an equation between two classes leaves the
ledger looking alike. -/
theorem Reached.induction {P : Ledger → Prop} (hempty : P {})
    (halike : ∀ l m : Ledger, P l → Alike m l → P m)
    (hrecord : ∀ (l : Ledger) (a : Assertion) (atStep : Int), l.Coherent → P l →
      l.forest.root a.equation.left.key ≠ l.forest.root a.equation.right.key →
      P (l.record a atStep).2) (h : l.Reached) : P l := by
  obtain ⟨calls, rfl⟩ := h
  induction calls using List.reverseRecOn with
  | nil => exact hempty
  | append_singleton calls c ih =>
    have hl := coherent_empty.after calls
    have hw := hl.wellFormed
    rw [after_concat]
    cases hc : c.equation? with
    -- Everything but an accepted assertion leaves a ledger that is alike.
    | none => exact halike _ _ ih (answer_alike_self hw hc).2
    | some e =>
      cases c with
      | record a atStep =>
        by_cases hr : (Ledger.after {} calls).forest.root a.equation.left.key =
            (Ledger.after {} calls).forest.root a.equation.right.key
        · -- Known already, so refused.
          have hnone := (record_eq_none_iff hw atStep).mpr hr
          exact halike _ _ ih (record_alike_self hw atStep hnone)
        · exact hrecord _ a atStep hl ih hr
      | _ => cases hc

end RulerCompass.Ledger
