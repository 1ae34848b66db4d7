import RulerCompass.Ledger.Basic
import RulerCompass.Proofs.Forest.Alike

/-!
# Entering into ledgers that look alike

`record_of_root_eq` and `record_of_root_ne` say all that entering an assertion can do: what is known
leaves the ledger looking alike, and anything else becomes the next fact and joins two classes.
Ledgers that look alike answer every question alike, enter alike, and look alike afterwards.
-/

namespace RulerCompass

namespace Forest

/-- A forest after the question whether an equation is known, entering both sides and joining
them. -/
def join (f : Forest) (e : Equation) (tag : Int) : Forest :=
  (((f.connected e.left.key e.right.key).2.enter e.left).enter e.right).union
    e.left.key e.right.key tag

theorem holds_both_enter (f : Forest) (e : Equation) :
    ((f.enter e.left).enter e.right).Holds e.left.key ∧
      ((f.enter e.left).enter e.right).Holds e.right.key :=
  ⟨holds_enter.mpr (Or.inl (holds_enter.mpr (Or.inr rfl))), holds_enter.mpr (Or.inr rfl)⟩

variable {f g : Forest} (hf : f.WellFormed) (e : Equation) (tag : Int)
include hf

/-- Nothing of this moves a root before the two are joined. -/
theorem root_entered (k : String) :
    (((f.connected e.left.key e.right.key).2.enter e.left).enter e.right).root k = f.root k := by
  obtain ⟨hc, ha⟩ := connected_snd hf e.left.key e.right.key
  rw [root_enter (hc.enter e.left), root_enter hc, ha.root]

theorem join_spec : (f.join e tag).WellFormed ∧
    ∀ k, (f.join e tag).root k = f.mergedRoot e.left.key e.right.key k := by
  obtain ⟨hc, -⟩ := connected_snd hf e.left.key e.right.key
  have he := (hc.enter e.left).enter e.right
  obtain ⟨hl, hr⟩ := holds_both_enter (f.connected e.left.key e.right.key).2 e
  obtain ⟨hw, hu⟩ := union_spec he hl hr tag
  refine ⟨hw, fun k => (hu k).trans ?_⟩
  rw [mergedRoot, mergedRoot, root_entered hf, root_entered hf, root_entered hf]

theorem join_alike (hg : g.WellFormed) (h : Alike f g) : Alike (f.join e tag) (g.join e tag) := by
  obtain ⟨hf', haf⟩ := connected_snd hf e.left.key e.right.key
  obtain ⟨hg', hag⟩ := connected_snd hg e.left.key e.right.key
  have h' := (haf.trans h).trans hag.symm
  have h1 := enter_alike hf' hg' h' e.left
  have h2 := enter_alike (hf'.enter e.left) (hg'.enter e.left) h1 e.right
  obtain ⟨hl, hr⟩ := holds_both_enter (f.connected e.left.key e.right.key).2 e
  exact union_alike ((hf'.enter e.left).enter e.right) ((hg'.enter e.left).enter e.right) h2 hl hr tag

end Forest

namespace Ledger

variable {l m : Ledger}

/-- The same facts and the same next number, over forests that look alike. -/
structure Alike (l m : Ledger) : Prop where
  facts_eq : l.facts = m.facts
  nextId_eq : l.nextId = m.nextId
  forest : Forest.Alike l.forest m.forest

namespace Alike

theorem refl (l : Ledger) : Alike l l := ⟨rfl, rfl, .refl _⟩

theorem symm (h : Alike l m) : Alike m l := ⟨h.1.symm, h.2.symm, h.3.symm⟩

theorem trans {n : Ledger} (h : Alike l m) (h' : Alike m n) : Alike l n :=
  ⟨h.1.trans h'.1, h.2.trans h'.2, h.3.trans h'.3⟩

end Alike

/-! ### Entering -/

/-- The fact that an assertion becomes. -/
def factOf (l : Ledger) (a : Assertion) (atStep : Int) : Fact :=
  ⟨l.nextId, a.equation, a.citation, a.statement, a.justification, atStep⟩

section Record

variable (hl : l.forest.WellFormed) {a : Assertion} (atStep : Int)
include hl

/-- What is known already is not entered. -/
theorem record_of_root_eq
    (h : l.forest.root a.equation.left.key = l.forest.root a.equation.right.key) :
    l.record a atStep = (none, { l with
      forest := (l.forest.connected a.equation.left.key a.equation.right.key).2 }) := by
  have hc := Forest.connected_fst hl a.equation.left.key a.equation.right.key
  rw [decide_eq_true h] at hc
  rw [record]
  split
  · rename_i heq
    rw [heq]
  · rename_i heq
    rw [heq] at hc
    cases hc

/-- What is not known yet becomes the next fact. -/
theorem record_of_root_ne
    (h : l.forest.root a.equation.left.key ≠ l.forest.root a.equation.right.key) :
    l.record a atStep = (some (l.factOf a atStep),
      { facts := l.facts ++ [l.factOf a atStep]
        nextId := l.nextId + 1
        forest := l.forest.join a.equation l.nextId }) := by
  have hc := Forest.connected_fst hl a.equation.left.key a.equation.right.key
  -- The two roots differ, so the query says no and the fact is written down.
  rw [decide_eq_false h] at hc
  rw [record]
  split
  · rename_i heq
    rw [heq] at hc
    cases hc
  · rename_i heq
    rw [Forest.join, heq]
    rfl

theorem record_wellFormed : (l.record a atStep).2.forest.WellFormed := by
  by_cases h : l.forest.root a.equation.left.key = l.forest.root a.equation.right.key
  · rw [record_of_root_eq hl atStep h]
    exact (Forest.connected_snd hl _ _).1
  · rw [record_of_root_ne hl atStep h]
    dsimp only
    exact (Forest.join_spec hl a.equation l.nextId).1

/-- Whether or not it was known, an equation holds once it has been entered. -/
theorem record_root (k : String) : (l.record a atStep).2.forest.root k =
    l.forest.mergedRoot a.equation.left.key a.equation.right.key k := by
  by_cases h : l.forest.root a.equation.left.key = l.forest.root a.equation.right.key
  · rw [record_of_root_eq hl atStep h, Forest.mergedRoot_of_root_eq h]
    exact (Forest.connected_snd hl _ _).2.root k
  · rw [record_of_root_ne hl atStep h]
    dsimp only
    exact (Forest.join_spec hl a.equation l.nextId).2 k

theorem record_eq_none_iff : (l.record a atStep).1 = none ↔
    l.forest.root a.equation.left.key = l.forest.root a.equation.right.key := by
  by_cases h : l.forest.root a.equation.left.key = l.forest.root a.equation.right.key
  · rw [record_of_root_eq hl atStep h]
    exact ⟨fun _ => h, fun _ => rfl⟩
  · rw [record_of_root_ne hl atStep h]
    exact ⟨fun hn => absurd hn (by simp), fun he => absurd he h⟩

/-- What is known already only shortens ways. -/
theorem record_alike_self (h : (l.record a atStep).1 = none) :
    Alike (l.record a atStep).2 l := by
  rw [record_of_root_eq hl atStep ((record_eq_none_iff hl atStep).mp h)]
  exact ⟨rfl, rfl, (Forest.connected_snd hl _ _).2⟩

theorem record_alike (hm : m.forest.WellFormed) (h : Alike l m) :
    (l.record a atStep).1 = (m.record a atStep).1 ∧
      Alike (l.record a atStep).2 (m.record a atStep).2 := by
  have hfact : l.factOf a atStep = m.factOf a atStep := by
    rw [factOf, factOf, h.nextId_eq]
  -- Both refuse, or both record the same fact under the same number.
  by_cases hr : l.forest.root a.equation.left.key = l.forest.root a.equation.right.key
  · have hr' := hr
    rw [h.forest.root, h.forest.root] at hr'
    have h1 := (record_eq_none_iff hl atStep).mpr hr
    have h2 := (record_eq_none_iff hm atStep).mpr hr'
    exact ⟨h1.trans h2.symm,
      ((record_alike_self hl atStep h1).trans h).trans (record_alike_self hm atStep h2).symm⟩
  · have hr' := hr
    rw [h.forest.root, h.forest.root] at hr'
    rw [record_of_root_ne hl atStep hr, record_of_root_ne hm atStep hr', hfact, h.facts_eq,
      h.nextId_eq]
    refine ⟨rfl, rfl, rfl, ?_⟩
    dsimp only
    exact Forest.join_alike hl a.equation m.nextId hm h.forest

end Record

end Ledger

end RulerCompass
