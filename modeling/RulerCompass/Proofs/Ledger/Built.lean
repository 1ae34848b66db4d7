import Mathlib.Order.Bounds.Basic
import RulerCompass.Proofs.Forest.Climb
import RulerCompass.Proofs.Ledger.Classes

/-!
# The least key of a class

A forest is built from the empty one by entering relations, by finding roots and by joining trees, in any
order.  Among the built forests are those of all reached ledgers, and also those that come up in the middle
of a call, where roots are found between one change and the next.

In a built forest the parent of a key is smaller but for roots, so that both loops of a search end
(`find_least`): the first at the least key of the class, and the second in a forest with the same classes
where all keys that were visited have this root for their parent.
-/

namespace RulerCompass

namespace Forest

variable {f : Forest} {es : List Equation} {k : String}

/-- The forest comes about from the empty one, and the equations are those whose sides have been joined on
the way.  Roots are found only of keys that have been entered. -/
inductive Built : List Equation → Forest → Prop
  | empty : Built [] []
  | enter {es : List Equation} {f : Forest} (h : Built es f) (r : Relation) : Built es (f.enter r)
  | find {es : List Equation} {f : Forest} (h : Built es f) {k : String} (hk : f.Holds k) :
      Built es (f.find k).2
  | union {es : List Equation} {f : Forest} (h : Built es f) (e : Equation) (tag : Int)
      (hl : f.Holds e.left.key) (hr : f.Holds e.right.key) :
      Built (es ++ [e]) (f.union e.left.key e.right.key tag)

namespace Built

/-- **What each operation keeps.**  Parents are not greater than their children, and the trees are the
classes of the joined equations. -/
theorem spec (h : Built es f) : f.WellFormed ∧ f.Partitions es := by
  induction h with
  | empty => exact ⟨Ledger.coherent_empty.wellFormed, Ledger.coherent_empty.partitions⟩
  | enter _ r ih => exact ⟨ih.1.enter r, ih.2.of_root_eq (root_enter ih.1 r)⟩
  | find _ _ ih => exact ⟨ih.1.compress _, ih.2.of_root_eq (root_compress ih.1 _)⟩
  | union _ e tag hl hr ih =>
    obtain ⟨hw, hroot⟩ := union_spec ih.1 hl hr tag
    exact ⟨hw, ih.2.merged hroot⟩

/-! ### Questions find roots -/

theorem connected (h : Built es f) (left right : String) : Built es (f.connected left right).2 := by
  rw [Forest.connected]
  split
  · exact h
  · split
    · rename_i hheld
      exact (h.find hheld.1).find (holds_compress.mpr hheld.2)
    · exact h

theorem membersAmong (h : Built es f) (root : String) {keys : List String}
    (hkeys : ∀ k ∈ keys, f.Holds k) : Built es (Forest.membersAmong root f keys).2 := by
  induction keys generalizing f with
  | nil => exact h
  | cons k rest ih =>
    obtain ⟨hk, hrest⟩ := List.forall_mem_cons.mp hkeys
    exact ih (h.find hk) fun j hj => holds_compress.mpr (hrest j hj)

theorem members (h : Built es f) (key : String) : Built es (f.members key).2 := by
  rw [Forest.members]
  split
  · rename_i hkey
    exact (h.find hkey).membersAmong _ fun k hk => hk
  · exact h

end Built

end Forest

namespace Ledger

open Forest (Built)

variable {l : Ledger}

theorem built_record (hl : l.forest.WellFormed) (h : Built l.equations l.forest) (a : Assertion)
    (atStep : Int) : Built (l.record a atStep).2.equations (l.record a atStep).2.forest := by
  have hasked := h.connected a.equation.left.key a.equation.right.key
  -- Recording asks first; two keys of one root are left at that.
  by_cases hroot : l.forest.root a.equation.left.key = l.forest.root a.equation.right.key
  · rw [record_of_root_eq hl atStep hroot]
    exact hasked
  · -- Both keys are entered after the query, and then their classes are joined.
    obtain ⟨hleft, hright⟩ :=
      Forest.holds_both_enter (l.forest.connected a.equation.left.key a.equation.right.key).2 a.equation
    have hjoined := ((hasked.enter a.equation.left).enter a.equation.right).union a.equation l.nextId
      hleft hright
    rw [equations_record_of_root_ne hl atStep hroot, record_of_root_ne hl atStep hroot]
    dsimp only
    rw [Forest.join]
    exact hjoined

theorem built_answer (hl : l.forest.WellFormed) (h : Built l.equations l.forest) (c : Call) :
    Built (l.answer c).2.equations (l.answer c).2.forest := by
  cases c with
  | record a atStep => exact built_record hl h a atStep
  | equal r s =>
    rw [answer, equal]
    split
    · exact h
    · exact h.connected r.key s.key
  | equalDistances d => exact h.members (Relation.distance d).key
  | equalAngles a => exact h.members (Relation.angle a).key
  | rootFact r =>
    rw [answer, rootFact]
    split
    · rename_i hr
      exact h.find hr
    · exact h

/-- The forest of a reached ledger is built, and its facts are the equations that have been joined. -/
theorem Reached.built (h : l.Reached) : Built l.equations l.forest := by
  obtain ⟨calls, rfl⟩ := h
  induction calls using List.reverseRecOn with
  | nil => exact .empty
  | append_singleton calls c ih =>
    rw [after_concat]
    exact built_answer (coherent_empty.after calls).wellFormed ih c

end Ledger

namespace Forest

open Ledger (Call after)

variable {f : Forest} {es : List Equation} {k : String}

/-- The root is the least key that is chained to the key. -/
theorem Built.isLeast_root (h : Built es f) (hk : f.Holds k) :
    IsLeast {j | f.Holds j ∧ Chained es k j} (f.root k) := by
  obtain ⟨hf, hparts⟩ := h.spec
  refine ⟨⟨hf.holds_root_iff.mpr hk, hparts.chained k⟩, ?_⟩
  rintro j ⟨-, hchain⟩
  rw [hparts.root_eq_iff.mpr hchain]
  exact hf.root_le j

/-- **Both loops of a search end.**  The forest of a ledger after any calls is built; and in every built
forest the parent of an entered key has been entered and is smaller, or the same for a root.  So from each
entered key both loops run to their ends: the first one finds the least key of the class, and the second
one leaves all classes and all roots in place and every visited key right below the root. -/
theorem find_least :
    (∀ calls, Built (after {} calls).equations (after {} calls).forest) ∧
    ∀ es f, Built es f →
      (∀ k, f.Holds k → f.Holds (f.parentOf k) ∧
        (f.parentOf k < k ∨ f.parentOf k = k ∧ k ∈ f.roots)) ∧
      ∀ k, f.Holds k → ∃ ks r g,
        (f.Climbs k ks r ∧ Shortens r f k g) ∧ f.find k = (r, g) ∧
        IsLeast {j | f.Holds j ∧ Chained es k j} r ∧
        g.keys = f.keys ∧ g.classes = f.classes ∧ (∀ j, g.root j = f.root j) ∧
        ∀ j ∈ ks, g.parentOf j = r := by
  refine ⟨fun calls => Ledger.Reached.built ⟨calls, rfl⟩, fun es f h => ?_⟩
  obtain ⟨hf, -⟩ := h.spec
  refine ⟨fun k hk => ⟨hf.holds_parentOf k hk, ?_⟩, fun k hk => ?_⟩
  · -- A parent is smaller, or the node itself, which then is a root.
    rcases (hf.parentOf_le k).lt_or_eq with hlt | heq
    · exact Or.inl hlt
    · exact Or.inr ⟨heq, mem_roots.mpr ⟨hk, root_of_parentOf_eq heq⟩⟩
  · refine ⟨f.path k, f.root k, f.compress k, (runs_iff_find hf hk).mpr ⟨rfl, rfl⟩, rfl,
      h.isLeast_root hk, keys_compress k, ?_, root_compress hf k, fun j hj => ?_⟩
    · exact classes_congr (fun _ => holds_compress) (root_compress hf k)
    · rw [parentOf_compress hf, if_pos hj]

/-- Four distances, each joined to a smaller one: the greatest is three steps below the least. -/
theorem find_least_three_steps :
    let gh : Distance := .between "G" "H"
    let calls : List Call :=
      [.record ⟨.distances (.between "E" "F") gh, .given, "", ""⟩ 0,
        .record ⟨.distances (.between "C" "D") (.between "E" "F"), .given, "", ""⟩ 0,
        .record ⟨.distances (.between "A" "B") (.between "C" "D"), .given, "", ""⟩ 0]
    let f := (after {} calls).forest
    f.Holds (Relation.distance gh).key ∧ f.parentOf (Relation.distance gh).key = "d:E|F" ∧
      ∃ (ks : List String) (g : Forest), f.Climbs (Relation.distance gh).key ks "d:A|B" ∧
        g.classes = f.classes ∧ ∀ j ∈ ks, g.parentOf j = "d:A|B" := by
  intro gh calls f
  have hheld : f.Holds (Relation.distance gh).key := by decide +kernel
  have hparent : f.parentOf (Relation.distance gh).key = "d:E|F" := by decide +kernel
  have hroot : (f.find (Relation.distance gh).key).1 = "d:A|B" := by decide +kernel
  obtain ⟨-, hfind⟩ := find_least.2 _ f (find_least.1 calls)
  obtain ⟨ks, r, g, ⟨hclimb, -⟩, heq, -, -, hclasses, -, hvisited⟩ := hfind _ hheld
  rw [heq] at hroot
  obtain rfl : r = "d:A|B" := hroot
  exact ⟨hheld, hparent, ks, g, hclimb, hclasses, hvisited⟩

end Forest

end RulerCompass
