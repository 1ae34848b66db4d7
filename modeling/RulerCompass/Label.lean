import RulerCompass.Fault

/-!
# Labels of points

Automatic labels run through the alphabet again and again: `A` to `Z`, then `A2`, `B2` and so on.
`Label.ofIndex` gives the label of a counter and `Label.index?` reads it back.  The number of a round can
be neither written nor read when it has too many digits.
-/

namespace RulerCompass.Label

/-! ### Writing -/

/-- The capital letter with this number, counted modulo the alphabet. -/
def letter (n : Nat) : Char := Char.ofNat ('A'.toNat + n % 26)

/-- The text for this number; the rounds through the alphabet are numbered from the second on. -/
def text (n : Nat) : String :=
  if n < 26 then String.singleton (letter n)
  else String.singleton (letter n) ++ toString (n / 26 + 1)

/-- The number of the round can be written. -/
def Writable (n : Nat) : Prop := (toString (n / 26 + 1)).length ≤ Text.digitLimit

instance : DecidablePred Writable := fun _ => inferInstanceAs (Decidable (_ ≤ _))

/-- The label with this number. -/
def ofNat (n : Nat) : Except Fault String :=
  if Writable n then .ok (text n) else .error .noLabelLeft

/-- The label of a counter.  Small negative counters count from the end of the alphabet. -/
def ofIndex (i : Int) : Except Fault String :=
  if 0 ≤ i then ofNat i.toNat
  else if -26 ≤ i then ofNat (i + 26).toNat
  else .error .labelOutOfRange

/-! ### Reading -/

/-- The letters that labels begin with. -/
def isLetter (c : Char) : Bool := 'A' ≤ c && c ≤ 'Z'

/-- The value of a sequence of decimal digits. -/
def decimalValue (cs : List Char) : Nat :=
  cs.foldl (fun n c => 10 * n + (c.toNat - '0'.toNat)) 0

/-- A label may end in one line break. -/
def withoutBreak (cs : List Char) : List Char :=
  if cs.getLast? = some '\n' then cs.dropLast else cs

/-- The letter and the digits of a text that has the form of a label. -/
def parts? (label : String) : Option (Char × List Char) :=
  match label.toList with
  | [] => none
  | c :: rest =>
    let digits := withoutBreak rest
    if isLetter c && digits.all Char.isDigit then some (c, digits) else none

/-- The number that a text stands for: a letter, and from the second round on the number of the round.
Zeros in front of the round do not matter; the first round has no number. -/
def number? (label : String) : Option Nat :=
  (parts? label).bind fun (c, digits) =>
    let base := c.toNat - 'A'.toNat
    if digits.isEmpty then some base
    else
      let round := decimalValue digits
      if round < 2 then none else some ((round - 1) * 26 + base)

/-- How many digits stand behind the letter. -/
def digitCount (label : String) : Nat := ((parts? label).map fun (_, digits) => digits.length).getD 0

/-- The number of the round can be read. -/
def Readable (label : String) : Prop := digitCount label ≤ Text.digitLimit

instance : DecidablePred Readable := fun _ => inferInstanceAs (Decidable (_ ≤ _))

/-- Reads the number of a label. -/
def index? (label : String) : Except Fault (Option Nat) :=
  if Readable label then .ok (number? label) else .error (.roundTooLong (digitCount label))

/-- The counter after a point got its label: past an explicit label that has a number, one further
for an automatic one. -/
def advance (current : Int) : Option String → Except Fault Int
  | none => .ok (current + 1)
  | some label => do
    match ← index? label with
    | none => return current
    | some i => return max current (i + 1)

end RulerCompass.Label
