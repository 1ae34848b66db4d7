import RulerCompass.Proofs.Label.Limit

/-!
# The numbers of labels

A label that is written for a number is read back as that number, so labels of different numbers
differ.  What can be written can also be read.
-/

namespace RulerCompass.Label

theorem decimalValue_toDigits (n : Nat) : decimalValue (Nat.toDigits 10 n) = n :=
  show Nat.ofDigitChars 10 (Nat.toDigits 10 n) 0 = n from Nat.ofDigitChars_ten_toDigits

theorem toNat_letter (n : Nat) : (letter n).toNat = 65 + n % 26 := by
  have hvalid : (65 + n % 26).isValidChar := Or.inl (by omega)
  show (Char.ofNat (65 + n % 26)).toNat = 65 + n % 26
  rw [Char.ofNat, dif_pos hvalid]
  rfl

theorem isLetter_letter (n : Nat) : isLetter (letter n) = true := by
  have hvalue := toNat_letter n
  have hlower : 'A' ≤ letter n := by
    show 65 ≤ (letter n).toNat
    omega
  have hupper : letter n ≤ 'Z' := by
    show (letter n).toNat ≤ 90
    omega
  simp [isLetter, hlower, hupper]

/-! ### The round -/

/-- What follows the letter of a number: nothing in the first round, the number of a later one. -/
def roundDigits (n : Nat) : List Char := if n < 26 then [] else Nat.toDigits 10 (n / 26 + 1)

theorem all_isDigit_roundDigits (n : Nat) : (roundDigits n).all Char.isDigit = true := by
  rw [List.all_eq_true, roundDigits]
  intro c hc
  split at hc
  · cases hc
  · exact Nat.isDigit_of_mem_toDigits (by omega) (by omega) hc

theorem toList_text (n : Nat) : (text n).toList = letter n :: roundDigits n := by
  by_cases h : n < 26
  · simp [text, roundDigits, h]
  · simp [text, roundDigits, h, Nat.toString_eq_repr, Nat.toList_repr]

theorem withoutBreak_of_digits {cs : List Char} (h : cs.all Char.isDigit = true) :
    withoutBreak cs = cs := by
  rw [withoutBreak, if_neg]
  intro hlast
  exact absurd (List.all_eq_true.mp h _ (List.mem_of_getLast? hlast)) (by decide)

theorem parts?_of_toList {label : String} {c : Char} {digits : List Char}
    (h : label.toList = c :: digits) (hc : isLetter c = true) (hdigits : digits.all Char.isDigit = true) :
    parts? label = some (c, digits) := by
  simp only [parts?, h, withoutBreak_of_digits hdigits, hc, hdigits, Bool.and_self, if_true]

theorem parts?_text (n : Nat) : parts? (text n) = some (letter n, roundDigits n) :=
  parts?_of_toList (toList_text n) (isLetter_letter n) (all_isDigit_roundDigits n)

theorem digitCount_of_toList {label : String} {c : Char} {digits : List Char}
    (h : label.toList = c :: digits) (hc : isLetter c = true) (hdigits : digits.all Char.isDigit = true) :
    digitCount label = digits.length := by
  rw [digitCount, parts?_of_toList h hc hdigits, Option.map_some, Option.getD_some]

/-! ### Reading back -/

/-- **A label is read back** as the number for which it was written. -/
theorem number?_text (n : Nat) : number? (text n) = some n := by
  have hvalue := toNat_letter n
  rw [number?, parts?_text, Option.bind_some, roundDigits]
  by_cases h : n < 26
  · simp [h, hvalue, Nat.mod_eq_of_lt h]
  · have hround : ¬ n / 26 + 1 < 2 := by omega
    simp only [h, if_false, decimalValue_toDigits, hround]
    simp [Nat.toDigits_ne_nil, hvalue]
    omega

/-- What can be read is what can be written. -/
theorem readable_text_iff {n : Nat} : Readable (text n) ↔ n < capacity := by
  have hcount : digitCount (text n) = (roundDigits n).length :=
    digitCount_of_toList (toList_text n) (isLetter_letter n) (all_isDigit_roundDigits n)
  rw [Readable, hcount, ← writable_iff, Writable, roundDigits]
  split
  next h =>
    -- The first round has the number one, which is not written.
    rw [Nat.div_eq_of_lt h]
    exact iff_of_true (Nat.zero_le _) (by decide)
  next h => rw [Nat.toString_eq_repr, ← String.length_toList, Nat.toList_repr]

theorem index?_text {n : Nat} (h : n < capacity) : index? (text n) = .ok (some n) :=
  index?_eq_ok_iff.mpr ⟨readable_text_iff.mpr h, number?_text n⟩

theorem index?_of_ofIndex {i : Int} {label : String} (hi : 0 ≤ i) (h : ofIndex i = .ok label) :
    index? label = .ok (some i.toNat) := by
  obtain ⟨hcapacity, rfl⟩ := (ofIndex_eq_ok_iff hi).mp h
  exact index?_text ((Int.toNat_lt hi).mpr hcapacity)

/-- **Labels go both ways, as far as they reach.**  A number below the capacity has a label, which is read
back as that number, whatever the round; from the capacity on there is none.  So no two numbers share a
label. -/
theorem labels_read_back :
    (∀ n : Nat, n < capacity ↔ ∃ label, ofIndex n = .ok label ∧ index? label = .ok (some n)) ∧
    (∀ n : Nat, capacity ≤ n → ofIndex n = .error .noLabelLeft) ∧
    ∀ (m n : Nat) (label : String), ofIndex m = .ok label → ofIndex n = .ok label → m = n := by
  refine ⟨fun n => ⟨fun hn => ?_, fun ⟨label, hlabel, _⟩ => ?_⟩, fun n => ofIndex_of_capacity_le,
    fun m n label hm hn => ?_⟩
  · have hlt : (n : Int) < capacity := Int.ofNat_lt.mpr hn
    exact ⟨text n, (ofIndex_eq_ok_iff (Int.natCast_nonneg n)).mpr ⟨hlt, rfl⟩, index?_text hn⟩
  · exact Int.ofNat_lt.mp ((ofIndex_eq_ok_iff (Int.natCast_nonneg n)).mp hlabel).1
  · have hread := index?_of_ofIndex (Int.natCast_nonneg m) hm
    rw [index?_of_ofIndex (Int.natCast_nonneg n) hn] at hread
    exact (Option.some.inj (Except.ok.inj hread)).symm

/-- The first number without a label is the one after the last letter of the last round. -/
theorem no_label_after_last_round :
    ofIndex capacity = .error .noLabelLeft ∧
      ¬ ∃ label, ofIndex capacity = .ok label ∧ index? label = .ok (some capacity) := by
  have hnone : ofIndex capacity = .error .noLabelLeft := ofIndex_of_capacity_le (Nat.le_refl _)
  refine ⟨hnone, fun ⟨label, hlabel, _⟩ => ?_⟩
  rw [hnone] at hlabel
  cases hlabel

example : (ofNat 701).toOption = some "Z27" ∧ (index? "Z27").toOption = some (some 701) := by
  decide +kernel

end RulerCompass.Label
