import RulerCompass.Proofs.Ledger.Coherent

/-!
# Copies of a ledger

A copy is made by entering the facts again.  Its ways to the roots differ from those of the
original, where questions have shortened them and refused assertions were looked up, but both look
alike, and so no calls tell them apart.
-/

namespace RulerCompass.Ledger

variable {l : Ledger}

/-- A copy is the ledger after entering each fact in order. -/
theorem ofFacts_eq_after (facts : List Fact) :
    ofFacts facts = after {} (facts.map fun f => .record f.assertion f.atStep) := by
  rw [ofFacts, after, List.foldl_map]
  rfl

theorem reached_ofFacts (facts : List Fact) : (ofFacts facts).Reached :=
  ⟨_, (ofFacts_eq_after facts).symm⟩

theorem ofFacts_concat (facts : List Fact) (f : Fact) :
    ofFacts (facts ++ [f]) = ((ofFacts facts).record f.assertion f.atStep).2 := by
  rw [ofFacts, List.foldl_append]
  rfl

/-- The copy enters each new fact in the same way. -/
theorem Reached.ofFacts_alike (h : l.Reached) : Alike (ofFacts l.facts) l := by
  refine Reached.induction (P := fun l => Alike (ofFacts l.facts) l) (.refl _)
    (fun l m ih ha => ?_) (fun l a atStep hl ih hr => ?_) h
  · rw [ha.facts_eq]
    exact ih.trans ha.symm
  · have hw := hl.wellFormed
    have hfacts : (l.record a atStep).2.facts = l.facts ++ [l.factOf a atStep] := by
      rw [record_of_root_ne hw atStep hr]
    rw [hfacts, ofFacts_concat]
    exact (record_alike (reached_ofFacts l.facts).coherent.wellFormed atStep hw ih).2

/-- **A copy is faithful.**  After any calls, the ledger built anew from the facts has the same
facts and the same next number, gives the same replies to all further calls, and has the same facts
after them. -/
theorem ofFacts_faithful (calls : List Call) :
    let l := after {} calls
    (ofFacts l.facts).facts = l.facts ∧ (ofFacts l.facts).nextId = l.nextId ∧
      ∀ more, (ofFacts l.facts).answers more = l.answers more ∧
        ((ofFacts l.facts).after more).facts = (l.after more).facts := by
  intro l
  have hreached : l.Reached := ⟨calls, rfl⟩
  have ha : Alike (ofFacts l.facts) l := hreached.ofFacts_alike
  have hw := hreached.coherent.wellFormed
  have hw' := (reached_ofFacts l.facts).coherent.wellFormed
  exact ⟨ha.facts_eq, ha.nextId_eq, fun more =>
    ⟨answers_eq hw' hw ha more, (after_alike hw' hw ha more).facts_eq⟩⟩

end RulerCompass.Ledger
