import RulerCompass.Book.Transfer
import RulerCompass.Crossing.Definition15
import RulerCompass.Proofs.Ledger.Known

/-!
# Deriving again

Undoing, dragging and replaying derive the same equations time and again.  A batch of assertions is settled
in a ledger that equates the sides of each of them.  Entering a batch settles it, all calls keep it settled,
and a settled batch gives no fact when it is entered: the ledger looks as it did before.  So it does not
matter which of the assertions were known at the first time, or what has been entered since.
-/

namespace RulerCompass

namespace Ledger

variable {l : Ledger} {as : List Assertion}

/-- The ledger knows all that is asserted. -/
def Settled (l : Ledger) (as : List Assertion) : Prop :=
  ∀ a ∈ as, l.Equates a.equation.left a.equation.right

theorem Reached.equations_subset_after (h : l.Reached) (calls : List Call) :
    l.equations ⊆ (l.after calls).equations := by
  induction calls generalizing l with
  | nil => exact List.Subset.refl _
  | cons c calls ih =>
    have hanswer := equations_subset_answer h.coherent.wellFormed c
    exact List.Subset.trans hanswer (ih (h.after [c]))

theorem Reached.settled_recordAll (h : l.Reached) (as : List Assertion) (atStep : Int) :
    (l.recordAll as atStep).2.Settled as := fun _ ha => h.equates_recordAll atStep ha

/-- **What is settled stays settled**, whatever is entered or asked. -/
theorem Settled.after (h : l.Settled as) (hl : l.Reached) (calls : List Call) :
    (l.after calls).Settled as := fun a ha =>
  (h a ha).mono hl (hl.after calls) (hl.equations_subset_after calls)

/-- **What is settled is refused.** -/
theorem Settled.recordAll (h : l.Settled as) (hl : l.Reached) (atStep : Int) :
    (l.recordAll as atStep).1 = [] ∧ Alike (l.recordAll as atStep).2 l := by
  induction as using List.reverseRecOn with
  | nil => exact ⟨rfl, .refl l⟩
  | append_singleton as a ih =>
    obtain ⟨hnone, halike⟩ := ih fun b hb => h b (List.mem_append_left _ hb)
    have hmid := hl.recordAll as atStep
    have hknown : (l.recordAll as atStep).2.Equates a.equation.left a.equation.right :=
      (h a (by simp)).mono hl hmid (l.equations_subset_recordAll as atStep)
    have hrefused := (hmid.record_eq_none_iff a atStep).mpr hknown
    rw [recordAll_concat, hnone, hrefused]
    exact ⟨rfl, (record_alike_self hmid.coherent.wellFormed atStep hrefused).trans halike⟩

end Ledger

/-! ### Derivations -/

/-- What is derived beside the drawing. -/
inductive Derivation (K : Type) where
  /-- What Definition 15 says about a point that is marked at a crossing. -/
  | radius (c : Crossing K) (marked : String) (f : Figure K)
  /-- What follows at the end of a proposition; the figure does not matter. -/
  | conclusion (p : Proposition K)

/-- The equations that are derived, with their reasons. -/
def Derivation.assertions {K : Type} : Derivation K → List Assertion
  | radius c marked f => c.radiusAssertions marked f
  | conclusion p => p.conclusion

/-- **Derivations are idempotent.**  Let a derivation be entered into any ledger that calls have made, and
let any calls follow.  Then all that it asserts is known.  Entered again, at any step, it gives no fact, and
it leaves facts and numbers and the replies to all further calls as they are. -/
theorem Ledger.recordAll_derivation_again {K : Type} (calls : List Call) (d : Derivation K)
    (atStep : Int) (later : List Call) :
    let l := (((after {} calls).recordAll d.assertions atStep).2).after later
    (∀ a ∈ d.assertions, l.Equates a.equation.left a.equation.right) ∧
      ∀ again : Int, (l.recordAll d.assertions again).1 = [] ∧
        (l.recordAll d.assertions again).2.facts = l.facts ∧
        (l.recordAll d.assertions again).2.nextId = l.nextId ∧
        ∀ more, (l.recordAll d.assertions again).2.answers more = l.answers more := by
  intro l
  have hstart : (after {} calls).Reached := ⟨calls, rfl⟩
  have hfirst := hstart.recordAll d.assertions atStep
  have hl : l.Reached := hfirst.after later
  have hsettled : l.Settled d.assertions :=
    (hstart.settled_recordAll d.assertions atStep).after hfirst later
  refine ⟨hsettled, fun again => ?_⟩
  obtain ⟨hnone, halike⟩ := hsettled.recordAll hl again
  have hw := hl.coherent.wellFormed
  have hw' := (hl.recordAll d.assertions again).coherent.wellFormed
  exact ⟨hnone, halike.facts_eq, halike.nextId_eq, answers_eq hw' hw halike⟩

example : let first := ({} : Ledger).recordAll Book.Transfer.conclusion 6
    first.1.length = 2 ∧ (first.2.recordAll Book.Transfer.conclusion 7).1.length = 0 := by
  decide +kernel

end RulerCompass
