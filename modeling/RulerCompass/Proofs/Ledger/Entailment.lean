import RulerCompass.Proofs.Ledger.Coherent

/-!
# Entailment

A question whether two relations are equal is answered by chains: by those of all equations that
were ever asserted, entered or refused, and as well by those of the facts alone.  The facts are
irredundant at all times, also with regard to facts that were entered later, and a refused assertion
leaves no trace.
-/

namespace RulerCompass.Ledger

variable {l : Ledger} {calls : List Call}

/-! ### Chains of asserted equations -/

/-- A call adds at most the equation that it asserts. -/
theorem equations_answer (hl : l.forest.WellFormed) (c : Call) :
    (l.answer c).2.equations = l.equations ∨
      ∃ e, c.equation? = some e ∧ (l.answer c).2.equations = l.equations ++ [e] := by
  cases hc : c.equation? with
  | none => exact Or.inl (congrArg (List.map Fact.equation) (answer_alike_self hl hc).2.facts_eq)
  | some e =>
    cases c with
    | record a atStep =>
      cases hc
      by_cases h : l.forest.root a.equation.left.key = l.forest.root a.equation.right.key
      · -- A refused assertion adds no equation.
        have hnone := (record_eq_none_iff hl atStep).mpr h
        exact Or.inl (congrArg (List.map Fact.equation) (record_alike_self hl atStep hnone).facts_eq)
      · refine Or.inr ⟨_, rfl, ?_⟩
        rw [answer, record_of_root_ne hl atStep h, equations, List.map_append]
        rfl
    | _ => cases hc

theorem equations_subset_answer (hl : l.forest.WellFormed) (c : Call) :
    l.equations ⊆ (l.answer c).2.equations := by
  rcases equations_answer hl c with h | ⟨e, -, h⟩
  · rw [h]
    exact List.Subset.refl _
  · rw [h]
    exact List.subset_append_left _ _

/-- The facts chain the sides of what has just been asserted, entered or refused. -/
theorem Coherent.chained_equation (h : l.Coherent) {c : Call} {e : Equation}
    (hc : c.equation? = some e) : Chained (l.answer c).2.equations e.left.key e.right.key := by
  refine (h.answer c).root_eq_iff.mp ?_
  cases c with
  | record a atStep =>
    cases hc
    rw [Ledger.answer, record_root h.wellFormed, record_root h.wellFormed]
    exact Forest.mergedRoot_sides _ _ _
  | _ => cases hc

theorem asserted_concat (c : Call) :
    asserted (calls ++ [c]) = asserted calls ++ c.equation?.toList := by
  rw [asserted, asserted, List.filterMap_append]
  cases h : c.equation? <;> simp [h]

/-- The facts are among the asserted equations. -/
theorem equations_subset_asserted (calls : List Call) :
    (after {} calls).equations ⊆ asserted calls := by
  induction calls using List.reverseRecOn with
  | nil => exact List.nil_subset _
  | append_singleton calls c ih =>
    rw [after_concat, asserted_concat]
    have hw := (coherent_empty.after calls).wellFormed
    rcases equations_answer hw c with h | ⟨e, he, h⟩
    · rw [h]
      exact List.subset_append_of_subset_left _ ih
    · rw [h, he, Option.toList_some]
      exact List.append_subset.mpr ⟨List.subset_append_of_subset_left _ ih,
        List.subset_append_right _ _⟩

/-- All that was asserted is chained by the facts. -/
theorem chained_of_mem_asserted {e : Equation} (he : e ∈ asserted calls) :
    Chained (after {} calls).equations e.left.key e.right.key := by
  induction calls using List.reverseRecOn with
  | nil => cases he
  | append_singleton calls c ih =>
    have hl := coherent_empty.after calls
    rw [after_concat]
    rw [asserted_concat] at he
    rcases List.mem_append.mp he with he | he
    · exact (ih he).mono (equations_subset_answer hl.wellFormed c)
    · exact hl.chained_equation (Option.mem_toList.mp he)

theorem chained_asserted_iff {x y : String} :
    Chained (asserted calls) x y ↔ Chained (after {} calls).equations x y :=
  ⟨fun h => h.of_sides fun _ => chained_of_mem_asserted,
    fun h => h.mono (equations_subset_asserted calls)⟩

theorem Coherent.equal_iff (h : l.Coherent) (r s : Relation) :
    (l.equal r s).1 = true ↔ Chained l.equations r.key s.key := by
  rw [equal_fst h.wellFormed, decide_eq_true_iff, h.root_eq_iff]

/-- **Entailment is chaining.**  After any calls two relations are known to be equal exactly when a
chain of asserted equations, or of facts, leads from one to the other.  No distance is in a class
with an angle. -/
theorem equal_iff_chained (calls : List Call) (r s : Relation) :
    let l := after {} calls
    ((l.equal r s).1 = true ↔ Chained (asserted calls) r.key s.key) ∧
      ((l.equal r s).1 = true ↔ Chained (l.facts.map Fact.equation) r.key s.key) ∧
      ∀ (d : Distance) (a : Angle),
        l.forest.root (Relation.distance d).key ≠ l.forest.root (Relation.angle a).key := by
  have h := coherent_empty.after calls
  refine ⟨?_, h.equal_iff r s, fun d a hroot => ?_⟩
  · rw [chained_asserted_iff]
    exact h.equal_iff r s
  · exact not_chained_distance_angle d a (h.root_eq_iff.mp hroot)

/-! ### Irredundance -/

/-- **The ledger is irredundant.**  After any calls the facts are numbered from one on, no fact is
entailed by the others, and an assertion that gives no fact leaves the facts, the relations and the
replies to all further calls as they were. -/
theorem facts_irredundant (calls : List Call) :
    let l := after {} calls
    (∀ i (h : i < l.facts.length), l.facts[i].id = i + 1) ∧ l.nextId = l.facts.length + 1 ∧
      (∀ i (h : i < l.facts.length), ¬ Chained ((l.facts.eraseIdx i).map Fact.equation)
        l.facts[i].equation.left.key l.facts[i].equation.right.key) ∧
      ∀ (a : Assertion) (atStep : Int), (l.record a atStep).1 = none →
        (l.record a atStep).2.facts = l.facts ∧ (l.record a atStep).2.nextId = l.nextId ∧
          (l.record a atStep).2.forest.map Node.relation = l.forest.map Node.relation ∧
          ∀ more, (l.record a atStep).2.answers more = l.answers more := by
  intro l
  have h : l.Coherent := coherent_empty.after calls
  refine ⟨h.numbered, h.nextId_eq, fun i hi hc => ?_, fun a atStep hnone => ?_⟩
  · have hlen : i < l.equations.length := by rwa [equations, List.length_map]
    refine h.irredundant i hlen ?_
    simpa only [equations, List.eraseIdx_map, List.getElem_map] using hc
  · have hw := h.wellFormed
    -- Refusing only compresses paths, which no later answer shows.
    have ha := record_alike_self hw atStep hnone
    exact ⟨ha.facts_eq, ha.nextId_eq, ha.forest.relations_eq,
      answers_eq (record_wellFormed hw atStep) hw ha⟩

/-- Of three equal distances the third equation is refused, and the first one is not redundant. -/
theorem facts_irredundant_three_distances :
    let equate (p q r s : String) : Assertion :=
      ⟨.distances (.between p q) (.between r s), .given, "", ""⟩
    let calls := [.record (equate "A" "B" "C" "D") 0, .record (equate "C" "D" "E" "F") 1]
    let third := equate "E" "F" "A" "B"
    (∃ h : 0 < (after {} calls).facts.length,
      ¬ Chained (((after {} calls).facts.eraseIdx 0).map Fact.equation)
        (after {} calls).facts[0].equation.left.key (after {} calls).facts[0].equation.right.key) ∧
    ((after {} calls).record third 2).1 = none ∧
    ((after {} calls).record third 2).2.facts = (after {} calls).facts := by
  intro equate calls third
  obtain ⟨-, -, hbridge, hrefused⟩ := facts_irredundant calls
  have hpos : 0 < (after {} calls).facts.length := by decide +kernel
  have hnone : ((after {} calls).record third 2).1 = none := by
    have h : ((after {} calls).record third 2).1.isNone = true := by decide +kernel
    exact Option.isNone_iff_eq_none.mp h
  exact ⟨⟨hpos, hbridge 0 hpos⟩, hnone, (hrefused third 2 hnone).1⟩

end RulerCompass.Ledger
