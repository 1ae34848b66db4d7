import RulerCompass.Proofs.Ledger.Classes
import RulerCompass.Proofs.Ledger.Copies
import RulerCompass.Proofs.Ledger.Entailment

/-!
# The order of facts

Facts may be entered in another order and with their sides exchanged.  Which of them are refused then
may change.  But the chains between keys do not, and chains determine the answers, the registered keys,
the roots, which are the least keys of their classes, and so the classes and the number of facts.
-/

namespace RulerCompass

/-! ### Rearranged facts -/

/-- The equation with its sides exchanged. -/
def Equation.flip : Equation → Equation
  | distances l r => .distances r l
  | angles l r => .angles r l

@[simp] theorem Equation.left_flip (e : Equation) : e.flip.left = e.right := by cases e <;> rfl

@[simp] theorem Equation.right_flip (e : Equation) : e.flip.right = e.left := by cases e <;> rfl

namespace Fact

/-- The fact with its sides exchanged. -/
def flip (f : Fact) : Fact := { f with equation := f.equation.flip }

/-- Some facts with their sides exchanged, all facts in any order. -/
def Rearranged (facts facts' : List Fact) : Prop :=
  ∃ turned, List.Forall₂ (fun f g => g = f ∨ g = f.flip) facts turned ∧ turned.Perm facts'

/-- To exchange the sides of an equation changes no chains. -/
theorem chained_of_eq_or_flip {es : List Equation} {f g : Fact} (hg : g = f ∨ g = f.flip) :
    Chained es g.equation.left.key g.equation.right.key ↔
      Chained es f.equation.left.key f.equation.right.key := by
  rcases hg with rfl | rfl
  · exact Iff.rfl
  · rw [flip, Equation.left_flip, Equation.right_flip]
    exact ⟨Chained.symm, Chained.symm⟩

/-- Facts that are what others are, or their sides exchanged, are chained by them. -/
theorem chained_of_forall_exists {facts facts' : List Fact}
    (h : ∀ f ∈ facts, ∃ g ∈ facts', f = g ∨ f = g.flip) {x y : String}
    (hchain : Chained (facts.map equation) x y) : Chained (facts'.map equation) x y := by
  refine hchain.of_sides fun e he => ?_
  obtain ⟨f, hf, rfl⟩ := List.mem_map.mp he
  obtain ⟨g, hg, hflip⟩ := h f hf
  exact (chained_of_eq_or_flip hflip).mpr (.of_mem (List.mem_map_of_mem hg))

theorem exists_of_mem_of_forall₂ {α β : Type} {R : α → β → Prop} {as : List α} {bs : List β}
    (h : List.Forall₂ R as bs) {a : α} (ha : a ∈ as) : ∃ b ∈ bs, R a b := by
  induction h with
  | nil => cases ha
  | cons hab _ ih =>
    rcases List.mem_cons.mp ha with rfl | ha
    · exact ⟨_, List.mem_cons_self, hab⟩
    · obtain ⟨b, hb, hr⟩ := ih ha
      exact ⟨b, List.mem_cons_of_mem _ hb, hr⟩

theorem flip_flip (f : Fact) : f.flip.flip = f := by
  have hequation : f.equation.flip.flip = f.equation := by cases f.equation <;> rfl
  rw [flip, flip, hequation]

/-- Rearranged facts make the same chains. -/
theorem Rearranged.chained_iff {facts facts' : List Fact} (h : Rearranged facts facts')
    {x y : String} :
    Chained (facts'.map equation) x y ↔ Chained (facts.map equation) x y := by
  obtain ⟨turned, hturned, hperm⟩ := h
  constructor
  · refine chained_of_forall_exists fun g hg => ?_
    exact exists_of_mem_of_forall₂ hturned.flip (hperm.mem_iff.mpr hg)
  · refine chained_of_forall_exists fun f hf => ?_
    obtain ⟨g, hg, hflip⟩ := exists_of_mem_of_forall₂ hturned hf
    refine ⟨g, hperm.mem_iff.mp hg, ?_⟩
    rcases hflip with rfl | rfl
    · exact Or.inl rfl
    · exact Or.inr f.flip_flip.symm

end Fact

namespace Ledger

variable {l m : Ledger}

/-! ### What chains determine -/

section Chains

variable (hl : l.Reached) (hm : m.Reached)
  (hchains : ∀ x y, Chained l.equations x y ↔ Chained m.equations x y)
include hl hm hchains

theorem holds_iff_of_chains (k : String) : l.forest.Holds k ↔ m.forest.Holds k := by
  rw [hl.holds_iff, hm.holds_iff]
  simp only [hchains]

theorem root_le_of_chains (k : String) : l.forest.root k ≤ m.forest.root k := by
  have hchain : Chained l.equations k (m.forest.root k) :=
    (hchains _ _).mpr (hm.coherent.chained k)
  rw [hl.coherent.root_eq_iff.mpr hchain]
  exact hl.coherent.wellFormed.root_le _

/-- A root is the least key of its class. -/
theorem root_eq_of_chains (k : String) : l.forest.root k = m.forest.root k :=
  le_antisymm (root_le_of_chains hl hm hchains k)
    (root_le_of_chains hm hl (fun x y => (hchains x y).symm) k)

theorem classes_eq_of_chains : l.forest.classes = m.forest.classes :=
  Forest.classes_congr (holds_iff_of_chains hl hm hchains) (root_eq_of_chains hl hm hchains)

theorem keys_perm_of_chains : l.forest.keys.Perm m.forest.keys :=
  (List.perm_ext_iff_of_nodup hl.coherent.wellFormed.nodup hm.coherent.wellFormed.nodup).mpr
    (holds_iff_of_chains hl hm hchains)

/-- As many facts, because there are as many keys and as many classes. -/
theorem length_facts_eq_of_chains : l.facts.length = m.facts.length := by
  have hkeys := (keys_perm_of_chains hl hm hchains).length_eq
  have hl' := hl.card_classes
  have hm' := hm.card_classes
  rw [classes_eq_of_chains hl hm hchains] at hl'
  omega

theorem equal_fst_of_chains (r s : Relation) : (l.equal r s).1 = (m.equal r s).1 := by
  rw [Bool.eq_iff_iff, hl.coherent.equal_iff, hm.coherent.equal_iff, hchains]

end Chains

theorem chained_ofFacts_iff (facts : List Fact) {x y : String} :
    Chained (ofFacts facts).equations x y ↔ Chained (facts.map Fact.equation) x y := by
  have hasserted : asserted (facts.map fun f => .record f.assertion f.atStep) =
      facts.map Fact.equation := by
    rw [asserted, List.filterMap_map]
    exact congrFun (List.filterMap_eq_map' (f := Fact.equation)) facts
  rw [ofFacts_eq_after, ← chained_asserted_iff, hasserted]

/-- **What is known does not depend on the order of facts.**  A ledger built from facts has as many facts
as it has registered keys less classes, and is built again from its own facts unchanged.  The same facts
in another order, some with their sides exchanged, give a ledger with the same answers, registered keys,
roots, classes and number of facts. -/
theorem ofFacts_order_irrelevant (facts : List Fact) :
    let l := ofFacts facts
    l.facts.length + l.forest.classes.card = l.forest.keys.length ∧
      (ofFacts l.facts).facts = l.facts ∧
      ∀ facts', Fact.Rearranged facts facts' →
        let l' := ofFacts facts'
        (∀ r s, (l'.equal r s).1 = (l.equal r s).1) ∧ l'.forest.keys.Perm l.forest.keys ∧
          l'.forest.classes = l.forest.classes ∧ (∀ k, l'.forest.root k = l.forest.root k) ∧
          l'.facts.length = l.facts.length := by
  intro l
  have hl : l.Reached := reached_ofFacts facts
  refine ⟨hl.card_classes, hl.ofFacts_alike.facts_eq, fun facts' hfacts' => ?_⟩
  intro l'
  have hl' : l'.Reached := reached_ofFacts facts'
  -- Order and sides of the facts do not matter to chains, and chains decide everything else.
  have hchains : ∀ x y, Chained l'.equations x y ↔ Chained l.equations x y := by
    intro x y
    rw [chained_ofFacts_iff, chained_ofFacts_iff, hfacts'.chained_iff]
  exact ⟨equal_fst_of_chains hl' hl hchains, keys_perm_of_chains hl' hl hchains,
    classes_eq_of_chains hl' hl hchains, root_eq_of_chains hl' hl hchains,
    length_facts_eq_of_chains hl' hl hchains⟩

/-- Of three equal distances any two equations are accepted, in either order: other facts, and as many of
them. -/
theorem ofFacts_order_irrelevant_three_distances :
    let fact (id : Int) (d e : Distance) : Fact := ⟨id, .distances d e, .given, "", "", 0⟩
    let ab : Distance := .between "A" "B"
    let cd : Distance := .between "C" "D"
    let ef : Distance := .between "E" "F"
    let facts := [fact 1 ab cd, fact 2 cd ef, fact 3 ef ab]
    let facts' := [fact 3 ab ef, fact 2 ef cd, fact 1 ab cd]
    Fact.Rearranged facts facts' ∧
      (ofFacts facts).facts.map Fact.equation = [.distances ab cd, .distances cd ef] ∧
      (ofFacts facts').facts.map Fact.equation = [.distances ab ef, .distances ef cd] ∧
      (ofFacts facts').facts.length = (ofFacts facts).facts.length ∧
      (ofFacts facts').forest.classes = (ofFacts facts).forest.classes := by
  intro fact ab cd ef facts facts'
  have hrearranged : Fact.Rearranged facts facts' := by
    refine ⟨[fact 1 ab cd, fact 2 ef cd, fact 3 ab ef], ?_, (List.reverse_perm _).symm⟩
    exact .cons (Or.inl rfl) (.cons (Or.inr rfl) (.cons (Or.inr rfl) .nil))
  obtain ⟨-, -, hsame⟩ := ofFacts_order_irrelevant facts
  obtain ⟨-, -, hclasses, -, hlength⟩ := hsame facts' hrearranged
  exact ⟨hrearranged, by decide +kernel, by decide +kernel, hlength, hclasses⟩

end Ledger

end RulerCompass
