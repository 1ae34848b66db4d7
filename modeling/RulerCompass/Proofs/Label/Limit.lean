import Mathlib.Algebra.Group.Nat.Defs
import RulerCompass.Label
import RulerCompass.Proofs.Meets

/-!
# How far labels reach

The number of a round is written and read as long as it has no more than a fixed number of digits.  So
there are `Label.capacity` labels to write, and a counter that stays below always gets one.  Reading fails
for too many digits only, whatever their value is, and apart from that it gives the number of the text.
-/

namespace RulerCompass

/-- The fault says that the number of a round has too many digits, read or written. -/
inductive Fault.OfLength : Fault → Prop
  | read (digits : Nat) : OfLength (.roundTooLong digits)
  | write : OfLength .noLabelLeft

namespace Label

/-- How many labels can be written. -/
def capacity : Nat := 26 * (10 ^ Text.digitLimit - 1)

theorem alphabet_le_capacity : 26 ≤ capacity :=
  Nat.le_mul_of_pos_right 26 (Nat.sub_pos_of_lt (Nat.one_lt_pow (by decide) (by decide)))

/-! ### Writing -/

theorem writable_iff {n : Nat} : Writable n ↔ n < capacity := by
  have hlength : Writable n ↔ n / 26 + 1 < 10 ^ Text.digitLimit :=
    Nat.length_repr_le_iff (Nat.succ_pos _)
  rw [hlength, ← Nat.lt_sub_iff_add_lt, Nat.div_lt_iff_lt_mul (by decide), Nat.mul_comm, capacity]

theorem ofNat_eq_ok_iff {n : Nat} {label : String} :
    ofNat n = .ok label ↔ n < capacity ∧ text n = label := by
  rw [ofNat, ← writable_iff]
  split
  next h => simp [h]
  next h => simp [h]

theorem ofIndex_of_nonneg {i : Int} (h : 0 ≤ i) : ofIndex i = ofNat i.toNat := if_pos h

theorem ofIndex_eq_ok_iff {i : Int} (h : 0 ≤ i) {label : String} :
    ofIndex i = .ok label ↔ i < capacity ∧ text i.toNat = label := by
  rw [ofIndex_of_nonneg h, ofNat_eq_ok_iff, Int.toNat_lt h]

theorem ofIndex_of_capacity_le {n : Nat} (h : capacity ≤ n) : ofIndex n = .error .noLabelLeft := by
  rw [ofIndex_of_nonneg (Int.natCast_nonneg n), Int.toNat_natCast, ofNat, if_neg]
  rw [writable_iff]
  exact Nat.not_lt.mpr h

theorem ofIndex_meets {i : Int} {p : Prop} (h : p → 0 ≤ i ∧ i < capacity) :
    Meets p (ofIndex i) fun _ => True :=
  ⟨fun hp => ⟨_, (ofIndex_eq_ok_iff (h hp).1).mpr ⟨(h hp).2, rfl⟩⟩, fun _ _ => trivial⟩

theorem ofIndex_failsBy {i : Int} (h : 0 ≤ i) : FailsBy Fault.OfLength (ofIndex i) := by
  rw [ofIndex_of_nonneg h, ofNat]
  rintro fault hfault
  split at hfault
  · cases hfault
  · cases hfault
    exact .write

/-! ### Reading -/

theorem index?_eq_ok_iff {label : String} {n? : Option Nat} :
    index? label = .ok n? ↔ Readable label ∧ number? label = n? := by
  rw [index?]
  split
  next h => simp [h]
  next h => simp [h]

theorem number?_of_index? {label : String} {n : Nat} (h : index? label = .ok (some n)) :
    number? label = some n := (index?_eq_ok_iff.mp h).2

theorem index?_of_not_readable {label : String} (h : ¬ Readable label) :
    index? label = .error (.roundTooLong (digitCount label)) := if_neg h

theorem index?_failsBy (label : String) : FailsBy Fault.OfLength (index? label) := by
  rintro fault hfault
  rw [index?] at hfault
  split at hfault
  · cases hfault
  · cases hfault
    exact .read _

/-! ### The counter -/

/-- Where the counter comes to stand behind a label that has been read. -/
def advanced (current : Int) : Option String → Int
  | none => current + 1
  | some label => match number? label with
    | none => current
    | some i => max current (i + 1)

theorem advance_eq_ok_iff {i j : Int} {label? : Option String} :
    advance i label? = .ok j ↔ (∀ label ∈ label?, Readable label) ∧ advanced i label? = j := by
  cases label? with
  | none => simp [advance, advanced]
  | some label =>
    by_cases h : Readable label
    · rw [advance, index?_eq_ok_iff.mpr ⟨h, rfl⟩, advanced]
      show (match number? label with
        | none => .ok i
        | some n => .ok (max i (n + 1))) = Except.ok j ↔ _
      cases number? label <;> simp [h]
    · rw [advance, index?_of_not_readable h]
      refine ⟨fun hj => ?_, fun hj => absurd (hj.1 label rfl) h⟩
      cases hj

theorem advance_meets (i : Int) (label? : Option String) :
    Meets (∀ label ∈ label?, Readable label) (advance i label?) fun j => advanced i label? = j :=
  ⟨fun h => ⟨_, advance_eq_ok_iff.mpr ⟨h, rfl⟩⟩, fun _ hj => (advance_eq_ok_iff.mp hj).2⟩

theorem advance_failsBy (i : Int) (label? : Option String) :
    FailsBy Fault.OfLength (advance i label?) := by
  cases label? with
  | none => exact .of_ok ⟨_, rfl⟩
  | some label =>
    refine (index?_failsBy label).bind fun n? _ => ?_
    cases n? <;> exact .of_ok ⟨_, rfl⟩

/-- A point never puts the counter back. -/
theorem le_advanced (i : Int) (label? : Option String) : i ≤ advanced i label? := by
  cases label? with
  | none =>
    rw [advanced]
    omega
  | some label =>
    rw [advanced]
    cases number? label with
    | none => exact Int.le_refl i
    | some n => exact Int.le_max_left i _

/-- The number of the label that is asked for, if it has one. -/
def requested (label? : Option String) : Nat := (label?.bind number?).getD 0

/-- The counter moves by one at most, or to stand behind the label that has been given. -/
theorem advanced_le (i : Int) (label? : Option String) :
    advanced i label? ≤ max i (requested label?) + 1 := by
  cases label? with
  | none =>
    rw [advanced]
    omega
  | some label =>
    rw [advanced, requested, Option.bind_some]
    cases number? label with
    | none => exact Int.le_trans (Int.le_max_left i _) (Int.le_add_one (Int.le_refl _))
    | some n =>
      show max i (n + 1) ≤ max i n + 1
      omega

theorem lt_advanced {i : Int} {label : String} {n : Nat} (h : number? label = some n) :
    (n : Int) < advanced i (some label) := by
  simp only [advanced, h]
  omega

theorem advanced_of_number? {i : Int} {label : String} {n : Nat} (h : number? label = some n) :
    advanced i (some label) = max i (n + 1) := by
  simp only [advanced, h]

end Label

end RulerCompass
