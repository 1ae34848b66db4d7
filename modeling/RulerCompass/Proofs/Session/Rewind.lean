import RulerCompass.Proofs.Session.Undo

/-!
# Going back again and again

Undoing and rewinding cut a history, and the cut never leaves less than the first snapshot.  A cut of a
cut is the shorter of the two, wherever their bounds are, so rewinds compose by the lesser step, and some
undos in a row are one rewind.
-/

namespace RulerCompass

variable {K : Type}

namespace History

variable {h : History K}

/-- **A cut of a cut is the shorter one.** -/
theorem cut_take (h : History K) (count count' : Nat) (fault : Fault) :
    cut (h.take (max 1 count)) count' fault = h.cut (min count count') fault := by
  have hbounds : min (max 1 count') (max 1 count) = max 1 (min count count') := by omega
  rw [cut, cut, List.take_take, hbounds]

/-- With snapshots there is nothing to complain about. -/
theorem cut_congr_fault (hh : h ≠ []) (count : Nat) (fault fault' : Fault) :
    h.cut count fault = h.cut count fault' := by
  obtain ⟨t, ht, hcut⟩ := exists_cut hh count fault
  obtain ⟨t', ht', hcut'⟩ := exists_cut hh count fault'
  rw [hcut, hcut', Option.some.inj (ht.symm.trans ht')]

theorem cut_eq_error_iff {count : Nat} {fault : Fault} : h.cut count fault = .error fault ↔ h = [] := by
  constructor
  · intro herror
    by_contra hh
    obtain ⟨t, -, hcut⟩ := exists_cut hh count fault
    rw [hcut] at herror
    cases herror
  · rintro rfl
    rw [cut, List.take_nil]
    rfl

/-! ### Rewinds -/

theorem exists_rewind (hh : h ≠ []) (step : Int) :
    ∃ t, h.rewind step = .ok (h.take (max 1 (step + 1).toNat), t) := by
  obtain ⟨t, -, hcut⟩ := exists_cut hh (step + 1).toNat .nothingToRewind
  exact ⟨t, hcut⟩

/-- **Rewinds compose.** -/
theorem rewind_take (h : History K) (i j : Int) :
    rewind (h.take (max 1 (i + 1).toNat)) j = h.rewind (min i j) := by
  have hcount : min (i + 1).toNat (j + 1).toNat = (min i j + 1).toNat := by omega
  rw [rewind, rewind, cut_take, hcount]

/-! ### Undos -/

/-- The history after some undos. -/
def undoTimes (h : History K) : Nat → Except Fault (History K)
  | 0 => .ok h
  | n + 1 => do
    let g ← h.undoTimes n
    let (g, _) ← g.undo
    return g

theorem undo_eq_rewind (hh : h ≠ []) : h.undo = h.rewind (h.length - 2) := by
  have hcount : h.length - 1 = ((h.length : Int) - 2 + 1).toNat := by omega
  rw [undo, rewind, hcount]
  exact cut_congr_fault hh _ _ _

/-- What is left after `n` undos. -/
theorem undo_take (hh : h ≠ []) (n : Nat) :
    undo (h.take (max 1 (h.length - n))) = h.rewind (h.length - 1 - (n + 1 : Nat)) := by
  have hlength : 0 < h.length := List.length_pos_iff.mpr hh
  have hcount : max 1 (h.length - n) = max 1 (((h.length : Int) - 1 - n + 1).toNat) := by omega
  rw [undo_eq_rewind (take_max_one_ne_nil hh _), List.length_take, hcount, rewind_take, rewind, rewind]
  congr 1
  omega

/-- **Some undos are one rewind.** -/
theorem undoTimes_eq (hh : h ≠ []) (n : Nat) :
    h.undoTimes n = .ok (h.take (max 1 (h.length - n))) := by
  induction n with
  | zero =>
    rw [undoTimes, Nat.sub_zero, List.take_of_length_le (Nat.le_max_right 1 _)]
  | succ n ih =>
    obtain ⟨t, ht⟩ := exists_rewind hh (h.length - 1 - (n + 1 : Nat))
    have hcount : ((h.length : Int) - 1 - (n + 1 : Nat) + 1).toNat = h.length - (n + 1) := by omega
    rw [hcount] at ht
    rw [undoTimes, ih]
    show (undo (h.take (max 1 (h.length - n))) >>= _) = _
    rw [undo_take hh, ht]
    rfl

end History

/-! ### Sessions -/

/-- To go back leaves a beginning of the history, and the session is what its last snapshot says, with a
ledger that is built anew from the facts of the snapshot. -/
theorem Session.goBack_spec {s : Session K} (hs : s.history ≠ []) (b : Return) :
    ∃ t u, s.goBack b = .ok (t, u) ∧ u.history ≠ [] ∧ u.history <+: s.history ∧
      u.history.getLast? = some t ∧ u.scene = t.scene ∧ u.facts = t.facts ∧ u.ghosts = t.ghosts ∧
      u.ledger = Ledger.ofFacts t.facts := by
  obtain ⟨n, t, hn, hlast, hback⟩ := exists_goBack hs b
  refine ⟨t, _, hback, ?_, List.take_prefix n _, hlast, rfl, rfl, rfl, rfl⟩
  intro hnil
  rw [show s.history.take n = [] from hnil] at hlast
  cases hlast

/-- **Rewinds compose.**  Undo and rewind fail just on the empty history.  On any other, a rewind after a
rewind is the rewind to the lesser of the two steps, whatever these are; `n` undos leave what a rewind to
the step `n` before the last one leaves, and the next undo is the rewind to the step before that.  Each
way back leaves a beginning of the history that is not empty and restores its last snapshot, with a
ledger that is built anew from the facts of the snapshot. -/
theorem History.rewinds_compose (h : History K) :
    (h.undo = .error .nothingToUndo ↔ h = []) ∧
    (∀ i, h.rewind i = .error .nothingToRewind ↔ h = []) ∧
    (h ≠ [] →
      (∀ i j, ∃ g t r, h.rewind i = .ok (g, t) ∧ g.rewind j = .ok r ∧ h.rewind (min i j) = .ok r) ∧
      (∀ n : Nat, ∃ g t, h.undoTimes n = .ok g ∧ h.rewind (h.length - 1 - n) = .ok (g, t) ∧
        g.undo = h.rewind (h.length - 1 - (n + 1 : Nat))) ∧
      ∀ (s : Session K) (b : Return), s.history = h →
        ∃ t u, s.goBack b = .ok (t, u) ∧ u.history ≠ [] ∧ u.history <+: h ∧
          u.history.getLast? = some t ∧ u.scene = t.scene ∧ u.facts = t.facts ∧
          u.ghosts = t.ghosts ∧ u.ledger = Ledger.ofFacts t.facts) := by
  refine ⟨cut_eq_error_iff, fun i => cut_eq_error_iff, fun hh => ⟨?_, ?_, ?_⟩⟩
  · -- Rewinding twice cuts off as much as the shorter of the two.
    intro i j
    obtain ⟨t, ht⟩ := exists_rewind hh i
    obtain ⟨u, hu⟩ := exists_rewind hh (min i j)
    exact ⟨_, t, _, ht, (rewind_take h i j).trans hu, hu⟩
  · -- Undoing `n` times leaves all but `n` snapshots, and undoing once more is one step further.
    intro n
    obtain ⟨t, ht⟩ := exists_rewind hh (h.length - 1 - n)
    have hcount : ((h.length : Int) - 1 - n + 1).toNat = h.length - n := by omega
    rw [hcount] at ht
    exact ⟨_, t, undoTimes_eq hh n, ht, undo_take hh n⟩
  · rintro s b rfl
    exact Session.goBack_spec hh b

/-- Of three snapshots a rewind past the end keeps all, and one before the first step keeps the first, as
two undos do. -/
theorem History.rewinds_compose_three_snapshots :
    let taken (k : Int) : Snapshot Float := ⟨⟨Figure.ofGiven [], []⟩, [], [], k⟩
    let h : History Float := [taken 0, taken 1, taken 2]
    h ≠ [] ∧ (∃ g t, h.rewind 7 = .ok (g, t) ∧ g.rewind (-3) = .ok ([taken 0], taken 0)) ∧
      (∃ g t, h.undoTimes 2 = .ok g ∧ h.rewind 0 = .ok (g, t) ∧ g.undo = .ok ([taken 0], taken 0)) ∧
      ∃ t u, ({ history := h } : Session Float).goBack .undo = .ok (t, u) ∧
        u.history = [taken 0, taken 1] ∧ u.ledger = Ledger.ofFacts t.facts := by
  intro taken h
  have hh : h ≠ [] := List.cons_ne_nil _ _
  obtain ⟨-, -, hrest⟩ := History.rewinds_compose h
  obtain ⟨hrewinds, hundos, hback⟩ := hrest hh
  refine ⟨hh, ?_, ?_, ?_⟩
  · obtain ⟨g, t, r, hg, hr, hmin⟩ := hrewinds 7 (-3)
    cases hmin
    exact ⟨g, t, hg, hr⟩
  · obtain ⟨g, t, hg, ht, hundo⟩ := hundos 2
    exact ⟨g, t, hg, ht, hundo⟩
  · obtain ⟨t, u, hu, -, -, -, -, -, -, hledger⟩ := hback { history := h } .undo rfl
    cases hu
    exact ⟨_, _, rfl, rfl, hledger⟩

end RulerCompass
