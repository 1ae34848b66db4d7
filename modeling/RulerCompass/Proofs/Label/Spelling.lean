import RulerCompass.Proofs.Label.Index

/-!
# Spellings of a label

Reading is more generous than writing: zeros in front of the round and a line break at the end do no
harm.  So a number has one label but many spellings (`Spells`), and a text is read as a number just when
it is one of its spellings.  Only plain texts are what would have been written.
-/

namespace RulerCompass.Label

/-! ### Spellings -/

/-- A text that is a letter, zeros, the number of the round and perhaps a line break.  The first round,
which has no number, has no zeros either. -/
def Spells (label : String) (n : Nat) : Prop :=
  ∃ (zeros : Nat) (ending : List Char), (n < 26 → zeros = 0) ∧ (ending = [] ∨ ending = ['\n']) ∧
    label.toList = letter n :: (List.replicate zeros '0' ++ roundDigits n ++ ending)

/-- No zero stands behind the letter and no line break at the end. -/
def Plain (label : String) : Prop :=
  label.toList[1]? ≠ some '0' ∧ label.toList.getLast? ≠ some '\n'

/-! ### The line break -/

/-- At most a line break is taken off. -/
theorem exists_ending (cs : List Char) :
    ∃ ending, (ending = [] ∨ ending = ['\n']) ∧ cs = withoutBreak cs ++ ending := by
  by_cases h : cs.getLast? = some '\n'
  · obtain ⟨front, rfl⟩ := List.getLast?_eq_some_iff.mp h
    refine ⟨['\n'], Or.inr rfl, ?_⟩
    rw [withoutBreak, if_pos h, List.dropLast_concat]
  · refine ⟨[], Or.inl rfl, ?_⟩
    rw [withoutBreak, if_neg h, List.append_nil]

theorem withoutBreak_append {cs ending : List Char} (hcs : cs.all Char.isDigit = true)
    (h : ending = [] ∨ ending = ['\n']) : withoutBreak (cs ++ ending) = cs := by
  rcases h with rfl | rfl
  · rw [List.append_nil, withoutBreak_of_digits hcs]
  · rw [withoutBreak, if_pos List.getLast?_concat, List.dropLast_concat]

/-! ### Digits -/

theorem decimalValue_zeros (zeros : Nat) (cs : List Char) :
    decimalValue (List.replicate zeros '0' ++ cs) = decimalValue cs := by
  show Nat.ofDigitChars 10 (List.replicate zeros '0' ++ cs) 0 = Nat.ofDigitChars 10 cs 0
  rw [Nat.ofDigitChars_append, Nat.ofDigitChars_replicate_zero, Nat.mul_zero]

theorem digitChar_of_isDigit {c : Char} (h : c.isDigit = true) :
    c.toNat - '0'.toNat < 10 ∧ Nat.digitChar (c.toNat - '0'.toNat) = c := by
  have hbounds : 48 ≤ c.toNat ∧ c.toNat ≤ 57 := by
    simpa [Char.isDigit, UInt32.le_iff_toNat_le] using h
  have hvalue : c.toNat - '0'.toNat = c.toNat - 48 := rfl
  refine ⟨by omega, Char.toNat_inj.mp ?_⟩
  rw [Nat.toNat_digitChar_of_lt_ten (by omega)]
  omega

/-- Digits behind those of a positive number make one number with them. -/
theorem toDigits_append {cs : List Char} (hcs : cs.all Char.isDigit = true) {n : Nat} (hn : 0 < n) :
    Nat.toDigits 10 n ++ cs = Nat.toDigits 10 (Nat.ofDigitChars 10 cs n) := by
  induction cs generalizing n with
  | nil => rw [List.append_nil, Nat.ofDigitChars_nil]
  | cons c cs ih =>
    rw [List.all_cons, Bool.and_eq_true] at hcs
    obtain ⟨hlt, hc⟩ := digitChar_of_isDigit hcs.1
    have hdigit : Nat.toDigits 10 n ++ [c] = Nat.toDigits 10 (10 * n + (c.toNat - '0'.toNat)) := by
      rw [← Nat.toDigits_append_toDigits (by omega) hn hlt, Nat.toDigits_of_lt_base hlt, hc]
    rw [Nat.ofDigitChars_cons, ← ih hcs.2 (by omega), ← hdigit, List.append_assoc]
    rfl

/-- Digits are the number that they stand for, with zeros in front. -/
theorem exists_zeros {cs : List Char} (hcs : cs.all Char.isDigit = true) (h : decimalValue cs ≠ 0) :
    ∃ zeros, cs = List.replicate zeros '0' ++ Nat.toDigits 10 (decimalValue cs) := by
  induction cs with
  | nil => exact absurd rfl h
  | cons c cs ih =>
    rw [List.all_cons, Bool.and_eq_true] at hcs
    by_cases hzero : c = '0'
    · -- The zero in front does not change the value, so the zeros are those of the rest and this one.
      subst hzero
      have hvalue : decimalValue ('0' :: cs) = decimalValue cs := decimalValue_zeros 1 cs
      rw [hvalue] at h ⊢
      obtain ⟨zeros, hzeros⟩ := ih hcs.2 h
      refine ⟨zeros + 1, ?_⟩
      rw [List.replicate_succ, List.cons_append, ← hzeros]
    · -- The first digit is no zero, so the digits are those of the value and no zeros are left.
      obtain ⟨hlt, hc⟩ := digitChar_of_isDigit hcs.1
      have hpos : 0 < c.toNat - '0'.toNat := by
        refine Nat.pos_of_ne_zero fun hnone => hzero ?_
        rw [← hc, hnone]
        rfl
      have hvalue : decimalValue (c :: cs) = Nat.ofDigitChars 10 cs (c.toNat - '0'.toNat) := by
        show Nat.ofDigitChars 10 (c :: cs) 0 = _
        rw [Nat.ofDigitChars_cons, Nat.mul_zero, Nat.zero_add]
      refine ⟨0, ?_⟩
      rw [hvalue, ← toDigits_append hcs.2 hpos, Nat.toDigits_of_lt_base hlt, hc]
      rfl

/-- A positive number does not begin with a zero. -/
theorem head?_toDigits {n : Nat} (hn : 0 < n) : (Nat.toDigits 10 n).head? ≠ some '0' := by
  induction n using Nat.strongRecOn with
  | ind n ih =>
    by_cases hlt : n < 10
    · -- One digit: it is the number itself, which is positive.
      rw [Nat.toDigits_of_lt_base hlt]
      intro hzero
      have hvalue := congrArg Char.toNat (Option.some.inj hzero)
      rw [Nat.toNat_digitChar_of_lt_ten hlt] at hvalue
      have : '0'.toNat = 48 := rfl
      omega
    · -- More digits: the first one is that of a tenth of the number.
      have hfront := ih (n / 10) (by omega) (by omega)
      obtain ⟨d, ds, hdigits⟩ := List.exists_cons_of_ne_nil (Nat.toDigits_ne_nil (n := n / 10) (b := 10))
      rw [hdigits] at hfront
      rw [Nat.toDigits_of_base_le (by omega) (by omega), hdigits]
      exact hfront

/-! ### Reading -/

theorem toNat_of_isLetter {c : Char} (h : isLetter c = true) : 65 ≤ c.toNat ∧ c.toNat ≤ 90 := by
  simpa [isLetter, Char.le_def, UInt32.le_iff_toNat_le] using h

theorem letter_eq_of_isLetter {c : Char} (h : isLetter c = true) (rounds : Nat) :
    letter (rounds * 26 + (c.toNat - 'A'.toNat)) = c := by
  obtain ⟨hlower, hupper⟩ := toNat_of_isLetter h
  have hplace : c.toNat - 'A'.toNat = c.toNat - 65 := rfl
  apply Char.toNat_inj.mp
  rw [toNat_letter]
  omega

/-- A text that stands for a number is a letter and digits, perhaps with a line break. -/
theorem exists_of_number? {label : String} {n : Nat} (h : number? label = some n) :
    ∃ c digits ending, isLetter c = true ∧ digits.all Char.isDigit = true ∧
      (ending = [] ∨ ending = ['\n']) ∧ label.toList = c :: (digits ++ ending) := by
  obtain ⟨⟨c, digits⟩, hparts, -⟩ := Option.bind_eq_some_iff.mp h
  rw [parts?] at hparts
  split at hparts
  · -- The empty text has no letter.
    cases hparts
  · rename_i first rest hlabel
    obtain ⟨ending, hending, hrest⟩ := exists_ending rest
    by_cases hform : (isLetter first && (withoutBreak rest).all Char.isDigit) = true
    · rw [if_pos hform] at hparts
      cases hparts
      rw [Bool.and_eq_true] at hform
      exact ⟨c, withoutBreak rest, ending, hform.1, hform.2, hending, hrest ▸ hlabel⟩
    · rw [if_neg hform] at hparts
      cases hparts

/-- Which number a letter with digits stands for. -/
theorem number?_of_toList {label : String} {c : Char} {digits ending : List Char}
    (hc : isLetter c = true) (hdigits : digits.all Char.isDigit = true)
    (hending : ending = [] ∨ ending = ['\n']) (h : label.toList = c :: (digits ++ ending)) :
    number? label = if digits = [] then some (c.toNat - 'A'.toNat)
      else if decimalValue digits < 2 then none
      else some ((decimalValue digits - 1) * 26 + (c.toNat - 'A'.toNat)) := by
  have hparts : parts? label = some (c, digits) := by
    simp only [parts?, h, withoutBreak_append hdigits hending, hc, hdigits, Bool.and_self, if_true]
  simp only [number?, hparts, Option.bind_some, List.isEmpty_iff]

theorem spells_of_number? {label : String} {n : Nat} (h : number? label = some n) :
    Spells label n := by
  obtain ⟨c, digits, ending, hc, hdigits, hending, hlabel⟩ := exists_of_number? h
  obtain ⟨hlower, hupper⟩ := toNat_of_isLetter hc
  have hplace : c.toNat - 'A'.toNat = c.toNat - 65 := rfl
  rw [number?_of_toList hc hdigits hending hlabel] at h
  by_cases hnone : digits = []
  · -- Without digits the letter is in the first round.
    rw [if_pos hnone] at h
    obtain rfl := Option.some.inj h
    have hletter := letter_eq_of_isLetter hc 0
    rw [Nat.zero_mul, Nat.zero_add] at hletter
    refine ⟨0, ending, fun _ => rfl, hending, ?_⟩
    rw [hlabel, hnone, hletter, roundDigits, if_pos (by omega)]
    rfl
  · rw [if_neg hnone] at h
    by_cases hround : decimalValue digits < 2
    · -- The rounds zero and one are not counted.
      rw [if_pos hround] at h
      cases h
    · -- A later round: its digits are those of its number, behind some zeros.
      rw [if_neg hround] at h
      obtain rfl := Option.some.inj h
      obtain ⟨zeros, hzeros⟩ := exists_zeros hdigits (by omega)
      have hvalue : ((decimalValue digits - 1) * 26 + (c.toNat - 'A'.toNat)) / 26 + 1 =
          decimalValue digits := by omega
      refine ⟨zeros, ending, fun _ => by omega, hending, ?_⟩
      rw [letter_eq_of_isLetter hc, roundDigits, if_neg (by omega), hvalue, ← hzeros, hlabel]

/-- Every spelling of a number stands for it. -/
theorem Spells.number?_eq {label : String} {n : Nat} (h : Spells label n) :
    number? label = some n := by
  obtain ⟨zeros, ending, hzeros, hending, hlabel⟩ := h
  have hdigits : (List.replicate zeros '0' ++ roundDigits n).all Char.isDigit = true := by
    rw [List.all_append, all_isDigit_roundDigits, Bool.and_true, List.all_replicate]
    simp
  have hplace : (letter n).toNat - 'A'.toNat = n % 26 := by
    rw [toNat_letter]
    exact Nat.add_sub_cancel_left 65 (n % 26)
  rw [number?_of_toList (isLetter_letter n) hdigits hending hlabel, hplace, decimalValue_zeros,
    roundDigits]
  by_cases hfirst : n < 26
  · -- The first round, without zeros: there are no digits.
    rw [hzeros hfirst, if_pos hfirst, Nat.mod_eq_of_lt hfirst]
    rfl
  · -- A later round: the zeros do not change its value.
    rw [if_neg hfirst, decimalValue_toDigits, if_neg, if_neg (by omega)]
    · congr 1
      omega
    · simp [Nat.toDigits_ne_nil]

/-! ### Plain texts -/

theorem plain_text (n : Nat) : Plain (text n) := by
  have hlabel := toList_text n
  refine ⟨fun hzero => ?_, fun hbreak => ?_⟩
  · rw [hlabel, List.getElem?_cons_succ, ← List.head?_eq_getElem?, roundDigits] at hzero
    split at hzero
    · cases hzero
    · exact head?_toDigits (Nat.succ_pos _) hzero
  · have hmem : '\n' ∈ letter n :: roundDigits n := hlabel ▸ List.mem_of_getLast? hbreak
    rcases List.mem_cons.mp hmem with hletter | hdigit
    · have hread := isLetter_letter n
      rw [← hletter] at hread
      exact absurd hread (by decide)
    · exact absurd (List.all_eq_true.mp (all_isDigit_roundDigits n) _ hdigit) (by decide)

/-- A plain spelling is the label itself. -/
theorem Spells.eq_text {label : String} {n : Nat} (h : Spells label n) (hplain : Plain label) :
    label = text n := by
  obtain ⟨zeros, ending, -, hending, hlabel⟩ := h
  -- A zero would be the first digit, which a plain label does not have.
  have hnozeros : zeros = 0 := by
    refine Nat.eq_zero_of_not_pos fun hpos => hplain.1 ?_
    obtain ⟨z, rfl⟩ := Nat.exists_eq_add_of_le' hpos
    rw [hlabel, List.replicate_succ]
    rfl
  have hnobreak : ending = [] := by
    refine hending.resolve_right fun hbreak => hplain.2 ?_
    rw [hlabel, hbreak, ← List.cons_append, List.getLast?_concat]
  apply String.toList_inj.mp
  rw [hlabel, hnozeros, hnobreak, List.append_nil, toList_text]
  rfl

/-- **What is read as a number.**  A text is read as a number just when it is one of its spellings and has
no more digits than are read, and it is the label written for that number just when it is plain besides.
So for plain texts reading is the exact inverse of writing, and all else that is read has zeros in front of
its round or a line break at its end. -/
theorem written_iff_read_and_plain (label : String) (n : Nat) :
    (ofIndex n = .ok label ↔ index? label = .ok (some n) ∧ Plain label) ∧
      (index? label = .ok (some n) ↔ Spells label n ∧ Readable label) := by
  rw [ofIndex_eq_ok_iff (Int.natCast_nonneg n), Int.toNat_natCast, Int.ofNat_lt, index?_eq_ok_iff]
  refine ⟨⟨fun ⟨hn, hlabel⟩ => ?_, fun ⟨⟨hreadable, hnumber⟩, hplain⟩ => ?_⟩,
    fun h => ⟨spells_of_number? h.2, h.1⟩, fun h => ⟨h.2, h.1.number?_eq⟩⟩
  · subst hlabel
    exact ⟨⟨readable_text_iff.mpr hn, number?_text n⟩, plain_text n⟩
  · obtain rfl := (spells_of_number? hnumber).eq_text hplain
    exact ⟨readable_text_iff.mp hreadable, rfl⟩

/-- A zero in front of the round and a line break at the end are passed over: these texts are read as
numbers whose labels are others. -/
theorem read_without_being_written :
    (index? "A02" = .ok (some 26) ∧ ofIndex 26 = .ok "A2" ∧ ofIndex 26 ≠ .ok "A02") ∧
      index? "A\n" = .ok (some 0) ∧ ofIndex 0 = .ok "A" ∧ ofIndex 0 ≠ .ok "A\n" := by
  have hsecond : ofIndex 26 = .ok "A2" :=
    (ofIndex_eq_ok_iff (by decide)).mpr ⟨by decide +kernel, by decide +kernel⟩
  have hfirst : ofIndex 0 = .ok "A" :=
    (ofIndex_eq_ok_iff (by decide)).mpr ⟨by decide +kernel, by decide +kernel⟩
  have hzero : index? "A02" = .ok (some 26) :=
    index?_eq_ok_iff.mpr ⟨by decide +kernel, by decide +kernel⟩
  have hbreak : index? "A\n" = .ok (some 0) :=
    index?_eq_ok_iff.mpr ⟨by decide +kernel, by decide +kernel⟩
  refine ⟨⟨hzero, hsecond, fun h => ?_⟩, hbreak, hfirst, fun h => ?_⟩
  · rw [hsecond] at h
    exact absurd (Except.ok.inj h) (by decide)
  · rw [hfirst] at h
    exact absurd (Except.ok.inj h) (by decide)

end RulerCompass.Label
