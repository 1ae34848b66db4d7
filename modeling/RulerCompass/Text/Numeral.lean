import RulerCompass.Text.Characters
import RulerCompass.Text.Decimal

/-!
# Numerals

Readers for whole numbers and decimal fractions as people type them: blanks around the numeral,
digits of any script, single underscores between digits, and the words for the special values.
-/

namespace RulerCompass.Text

/-- Whole numbers with more digits than this are neither read nor written. -/
def digitLimit : Nat := 4300

/-- The blanks that may surround a numeral once foreign blanks have become spaces. -/
def isAsciiBlank (c : Char) : Bool := c == ' ' || ('\t' ≤ c && c ≤ '\r')

/-- Digits of other scripts become ASCII digits, blanks beyond ASCII become spaces. -/
def plain (c : Char) : Char :=
  if c.toNat < 127 then c
  else if isBlank c then ' '
  else match digitValue? c with
    | some d => Char.ofNat ('0'.toNat + d)
    | none => c

/-- The numeral inside its blanks. -/
def numeralChars (s : String) : List Char := trimBy isAsciiBlank (s.toList.map plain)

/-- Splits off a sign; the flag says whether it is a minus. -/
def splitSign : List Char → Bool × List Char
  | '-' :: rest => (true, rest)
  | '+' :: rest => (false, rest)
  | cs => (false, cs)

/-- Reads digits with single underscores between them, continuing a value with `count` digits so
far; gives the value, the number of digits and what follows. -/
def digitsFrom (value count : Nat) : List Char → Nat × Nat × List Char
  | '_' :: c :: rest =>
    if c.isDigit && 0 < count then
      digitsFrom (10 * value + (c.toNat - '0'.toNat)) (count + 1) rest
    else (value, count, '_' :: c :: rest)
  | c :: rest =>
    if c.isDigit then digitsFrom (10 * value + (c.toNat - '0'.toNat)) (count + 1) rest
    else (value, count, c :: rest)
  | [] => (value, count, [])

/-- A whole number that is not too long. -/
def readInt? (s : String) : Option Int :=
  let (negative, cs) := splitSign (numeralChars s)
  match digitsFrom 0 0 cs with
  | (value, count, []) =>
    if count = 0 || digitLimit < count then none
    else some (if negative then -(value : Int) else value)
  | _ => none

/-- An exponent, or nothing at all; `none` when something else follows the numeral. -/
def readExponent? : List Char → Option Int
  | [] => some 0
  | c :: rest =>
    if c = 'e' || c = 'E' then
      let (negative, cs) := splitSign rest
      match digitsFrom 0 0 cs with
      | (value, count, []) =>
        if count = 0 then none else some (if negative then -(value : Int) else value)
      | _ => none
    else none

/-- A decimal fraction without its sign: digits, digits after a point, an exponent. -/
def readUnsigned? (negative : Bool) (cs : List Char) : Option Float :=
  let word := String.ofList (cs.map Char.toLower)
  if word == "inf" || word == "infinity" then
    some (if negative then -1.0 / 0.0 else 1.0 / 0.0)
  else if word == "nan" then some (0.0 / 0.0)
  else
    let (whole, wholeCount, rest) := digitsFrom 0 0 cs
    let (digits, places, rest) := match rest with
      | '.' :: more =>
        let (part, count, rest) := digitsFrom 0 0 more
        (whole * Nat.pow 10 count + part, count, rest)
      | _ => (whole, 0, rest)
    if wholeCount + places = 0 then none
    else (readExponent? rest).map fun e => Decimal.toFloat negative digits (e - places)

/-- A decimal fraction, `inf`, `infinity` or `nan` in any case. -/
def readFloat? (s : String) : Option Float :=
  let (negative, cs) := splitSign (numeralChars s)
  readUnsigned? negative cs

end RulerCompass.Text
