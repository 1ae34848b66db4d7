import RulerCompass.Proofs.Forest.Operations
import RulerCompass.Proofs.Ledger.Chain

/-!
# Trees as classes of chained keys

The trees of a forest are the classes of some equations when each equation has its sides in one tree and a
chain leads from each key to its root.  To join the trees of two sides is to add an equation
(`Partitions.merged`), and whatever leaves the roots in place leaves the classes (`Partitions.of_root_eq`).
-/

namespace RulerCompass.Forest

/-- Two keys are in one tree when a chain of the equations leads from one to the other. -/
structure Partitions (f : Forest) (es : List Equation) : Prop where
  joined : ∀ e ∈ es, f.root e.left.key = f.root e.right.key
  chained : ∀ k, Chained es k (f.root k)

namespace Partitions

variable {f g : Forest} {es : List Equation} {e : Equation}

theorem root_eq_iff (h : f.Partitions es) {x y : String} : f.root x = f.root y ↔ Chained es x y := by
  refine ⟨fun he => ?_, fun hc => hc.apply_eq h.joined⟩
  have hx := h.chained x
  rw [he] at hx
  exact hx.trans (h.chained y).symm

theorem of_root_eq (h : f.Partitions es) (hroot : ∀ k, g.root k = f.root k) : g.Partitions es where
  joined e he := by rw [hroot, hroot, h.joined e he]
  chained k := by
    rw [hroot]
    exact h.chained k

/-- One more equation chains the two roots that become one. -/
theorem chained_mergedRoot (h : f.Partitions es) (k : String) :
    Chained (es ++ [e]) k (f.mergedRoot e.left.key e.right.key k) := by
  have hroot : ∀ k, Chained (es ++ [e]) k (f.root k) := fun k =>
    (h.chained k).mono (List.subset_append_left _ _)
  have hsides : Chained (es ++ [e]) (f.root e.left.key) (f.root e.right.key) :=
    ((hroot _).symm.trans (.of_mem (by simp))).trans (hroot _)
  obtain ⟨hkept, hlost⟩ := kept_lost_of_roots
    (P := Chained (es ++ [e]) (f.root e.left.key)) (.refl _) hsides
  -- A key of the lost class comes to the kept root through both sides of the equation;
  -- any other keeps its root.
  by_cases hk : f.root k = f.lostRoot e.left.key e.right.key
  · have hstart := hroot k
    rw [hk] at hstart
    rw [mergedRoot_of_lost hk]
    exact (hstart.trans hlost.symm).trans hkept
  · rw [mergedRoot_of_ne_lost hk]
    exact hroot k

/-- Joining the trees of both sides adds the equation. -/
theorem merged (h : f.Partitions es)
    (hroot : ∀ k, g.root k = f.mergedRoot e.left.key e.right.key k) : g.Partitions (es ++ [e]) where
  joined d hd := by
    rw [hroot, hroot]
    rcases List.mem_append.mp hd with hd | hd
    · rw [mergedRoot, mergedRoot, h.joined d hd]
    · obtain rfl := List.mem_singleton.mp hd
      exact mergedRoot_sides f d.left.key d.right.key
  chained k := by
    rw [hroot]
    exact h.chained_mergedRoot k

end Partitions

end RulerCompass.Forest
