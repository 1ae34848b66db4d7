import Mathlib.Data.List.Induction
import RulerCompass.Proofs.Ledger.Calls

/-!
# Entering several assertions

`recordAll` is a sequence of calls.  The facts that it gives back are those that it has appended to
the ledger, all of them at the one step, and the facts before a step are a prefix of facts in the
order of their steps.
-/

namespace RulerCompass

/-- Facts in the order of their steps: those before any step come first. -/
theorem Fact.before_prefix (k : Int) :
    ∀ {facts : List Fact}, (facts.Pairwise fun f g => f.atStep ≤ g.atStep) →
      before k facts <+: facts
  | [], _ => List.nil_prefix
  | f :: facts, h => by
    obtain ⟨hf, h⟩ := List.pairwise_cons.mp h
    by_cases hk : f.atStep < k
    · rw [before, List.filter_cons_of_pos (by simpa using hk)]
      exact List.cons_prefix_cons.mpr ⟨rfl, before_prefix k h⟩
    · -- The first fact is too late, and so are all that follow.
      have hnil : before k (f :: facts) = [] := by
        refine List.filter_eq_nil_iff.mpr fun g hg hlt => ?_
        have hlt := of_decide_eq_true hlt
        rcases List.mem_cons.mp hg with rfl | hg
        · exact hk hlt
        · have := hf g hg
          omega
      rw [hnil]
      exact List.nil_prefix

namespace Ledger

variable (l : Ledger) (a : Assertion) (as : List Assertion) (atStep : Int)

theorem record_facts :
    (l.record a atStep).2.facts = l.facts ++ (l.record a atStep).1.toList := by
  rw [record]
  split
  · exact (List.append_nil _).symm
  · rfl

theorem record_atStep {f : Fact} (hf : f ∈ (l.record a atStep).1.toList) : f.atStep = atStep := by
  rw [record] at hf
  split at hf
  · cases hf
  · obtain rfl := List.mem_singleton.mp hf
    rfl

theorem recordAll_concat : l.recordAll (as ++ [a]) atStep =
    ((l.recordAll as atStep).1 ++ ((l.recordAll as atStep).2.record a atStep).1.toList,
      ((l.recordAll as atStep).2.record a atStep).2) := by
  rw [recordAll, List.foldl_append]
  rfl

theorem recordAll_eq_after :
    (l.recordAll as atStep).2 = l.after (as.map fun a => .record a atStep) := by
  induction as using List.reverseRecOn with
  | nil => rfl
  | append_singleton as a ih =>
    rw [recordAll_concat, List.map_append, List.map_singleton, after_concat, ← ih]
    rfl

theorem recordAll_facts :
    (l.recordAll as atStep).2.facts = l.facts ++ (l.recordAll as atStep).1 := by
  induction as using List.reverseRecOn with
  | nil => exact (List.append_nil _).symm
  | append_singleton as a ih =>
    rw [recordAll_concat]
    dsimp only
    rw [record_facts, ih, List.append_assoc]

theorem recordAll_atStep : ∀ f ∈ (l.recordAll as atStep).1, f.atStep = atStep := by
  induction as using List.reverseRecOn with
  | nil => exact fun f hf => nomatch hf
  | append_singleton as a ih =>
    intro f hf
    rw [recordAll_concat] at hf
    rcases List.mem_append.mp hf with hf | hf
    · exact ih f hf
    · exact record_atStep _ a atStep hf

variable {l} in
theorem Reached.recordAll (h : l.Reached) : (l.recordAll as atStep).2.Reached := by
  rw [recordAll_eq_after]
  exact h.after _

end Ledger

end RulerCompass
