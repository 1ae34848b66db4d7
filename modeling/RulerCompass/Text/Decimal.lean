/-!
# Decimal text of binary floating-point numbers

A finite double is a sign, a natural number `m` and an exponent `q` with value `m * 2 ^ q`.  All
text is computed from `m` and `q` in exact arithmetic: a fixed number of places, a fixed number of
significant digits (a half goes to the even neighbour), and the fewest digits that read back.
-/

namespace RulerCompass.Decimal

/-- What the bits of a double say. -/
inductive Reading where
  | nan
  | infinite (negative : Bool)
  | finite (negative : Bool) (m : Nat) (q : Int)

/-- Splits the bits into sign, exponent and fraction. -/
def Reading.ofFloat (x : Float) : Reading :=
  let bits : Nat := x.toBits.toNat
  let negative := decide (Nat.pow 2 63 ≤ bits)
  let exponent : Nat := bits / Nat.pow 2 52 % Nat.pow 2 11
  let fraction : Nat := bits % Nat.pow 2 52
  if exponent = 2047 then
    if fraction = 0 then .infinite negative else .nan
  else if exponent = 0 then .finite negative fraction (-1074)
  else .finite negative (Nat.pow 2 52 + fraction) ((exponent : Int) - 1075)

/-! ### Rounding of quotients -/

/-- `num / den` rounded to the nearest natural number, a half to the even one. -/
def roundHalfEven (num den : Nat) : Nat :=
  let quotient := num / den
  let rest := num % den
  if 2 * rest < den then quotient
  else if den < 2 * rest then quotient + 1
  else if quotient % 2 = 0 then quotient else quotient + 1

/-- `m * 2 ^ q * 10 ^ k` as a quotient of natural numbers. -/
def scaled (m : Nat) (q k : Int) : Nat × Nat :=
  (m * Nat.pow 2 q.toNat * Nat.pow 10 k.toNat, Nat.pow 2 (-q).toNat * Nat.pow 10 (-k).toNat)

/-- The number of decimal digits of `n`. -/
def digitCount (n : Nat) : Nat := (Nat.toDigits 10 n).length

/-- The exponent `e` with `10 ^ e ≤ m * 2 ^ q < 10 ^ (e + 1)`, for positive `m`. -/
def leadingExponent (m : Nat) (q : Int) : Int :=
  let (num, den) := scaled m q 0
  let guess : Int := (digitCount num : Int) - digitCount den
  let (num, den) := scaled m q (-guess)
  if den ≤ num then guess else guess - 1

/-- The `count` significant digits of a positive value, and the exponent of the first one. -/
def significant (count m : Nat) (q : Int) : Nat × Int :=
  let e := leadingExponent m q
  let (num, den) := scaled m q ((count : Int) - 1 - e)
  let digits := roundHalfEven num den
  if digits = Nat.pow 10 count then (Nat.pow 10 (count - 1), e + 1) else (digits, e)

/-! ### The fewest digits that read back -/

/-- Whether `c * 10 ^ e` rounds to the double `m * 2 ^ q`: it lies between the midpoints to the two
neighbours, ends included when `m` is even. -/
def readsBack (m : Nat) (q : Int) (c : Nat) (e : Int) : Bool :=
  let below := if m = Nat.pow 2 52 ∧ -1074 < q then 4 * m - 1 else 4 * m - 2
  let (lowNum, lowDen) := scaled below (q - 2) (-e)
  let (highNum, highDen) := scaled (4 * m + 2) (q - 2) (-e)
  if m % 2 = 0 then decide (lowNum ≤ c * lowDen) && decide (c * highDen ≤ highNum)
  else decide (lowNum < c * lowDen) && decide (c * highDen < highNum)

/-- The decimal with `count` digits that reads back, the nearer one if both neighbours do. -/
def shortestWith? (count m : Nat) (q : Int) : Option (Nat × Int) :=
  let e := leadingExponent m q - ((count : Int) - 1)
  let (num, den) := scaled m q (-e)
  let low := num / den
  let nearest := roundHalfEven num den
  let other := if nearest = low then low + 1 else low
  if readsBack m q nearest e then some (nearest, e)
  else if readsBack m q other e then some (other, e)
  else none

/-- The fewest digits `c` and the exponent `e` with `c * 10 ^ e` reading back as `m * 2 ^ q`. -/
def shortest (m : Nat) (q : Int) : Nat × Int :=
  ((List.range 17).findSome? fun i => shortestWith? (i + 1) m q).getD (significant 17 m q)

/-! ### Layout -/

/-- The decimal digits of `n`, with zeros in front up to `width`. -/
def padded (width n : Nat) : List Char :=
  let digits := Nat.toDigits 10 n
  List.replicate (width - digits.length) '0' ++ digits

/-- A text with its sign in front. -/
def signed (negative : Bool) (cs : List Char) : String :=
  String.ofList (if negative then '-' :: cs else cs)

/-- An exponent has its sign and at least two digits. -/
def exponentText (e : Int) : List Char :=
  'e' :: (if e < 0 then '-' else '+') :: padded 2 e.natAbs

/-- A point after the first digit, none when nothing follows it. -/
def pointed : List Char → List Char
  | [] => []
  | [d] => [d]
  | d :: rest => d :: '.' :: rest

/-- Digits up to the last one that is not zero. -/
def withoutTrailingZeros (cs : List Char) : List Char :=
  (cs.reverse.dropWhile (· == '0')).reverse

/-- Digits whose first one has the exponent `e`, written without an exponent and with at least
`places` digits after the point. -/
def positional (cs : List Char) (e : Int) (places : Nat) : List Char :=
  let cs := List.replicate (-e).toNat '0' ++ cs
  let whole := e.toNat + 1
  let front := cs.take whole
  let front := front ++ List.replicate (whole - front.length) '0'
  let back := cs.drop whole
  let back := back ++ List.replicate (places - back.length) '0'
  if back.isEmpty then front else front ++ '.' :: back

/-- Text of the special values, which all layouts share. -/
def special (render : Bool → Nat → Int → String) : Reading → String
  | .nan => "nan"
  | .infinite negative => if negative then "-inf" else "inf"
  | .finite negative m q => render negative m q

/-- `places + 1` significant digits with an exponent, as in `1.50000000e+00`. -/
def scientific (places : Nat) (x : Float) : String :=
  special (fun negative m q =>
    let (digits, e) := if m = 0 then (0, 0) else significant (places + 1) m q
    signed negative (pointed (padded (places + 1) digits) ++ exponentText e)) (.ofFloat x)

/-- A fixed number of places after the point, as in `1.5000`. -/
def fixed (places : Nat) (x : Float) : String :=
  special (fun negative m q =>
    let (num, den) := scaled m q places
    let digits := padded (places + 1) (roundHalfEven num den)
    let whole := digits.length - places
    signed negative (if places = 0 then digits
      else digits.take whole ++ '.' :: digits.drop whole)) (.ofFloat x)

/-- At most `count` significant digits without trailing zeros, positional for exponents from `-4`
up to `count`. -/
def general (count : Nat) (x : Float) : String :=
  special (fun negative m q =>
    if m = 0 then signed negative ['0'] else
    let (digits, e) := significant count m q
    let cs := withoutTrailingZeros (padded count digits)
    signed negative (if -4 ≤ e && e < count then positional cs e 0
      else pointed cs ++ exponentText e)) (.ofFloat x)

/-- The shortest text that reads back: positional from `1e-4` to below `1e16` and then with at least
one place, otherwise with an exponent. -/
def exact (x : Float) : String :=
  special (fun negative m q =>
    if m = 0 then signed negative ['0', '.', '0'] else
    let (c, k) := shortest m q
    let all := Nat.toDigits 10 c
    let e := k + (all.length : Int) - 1
    let cs := withoutTrailingZeros all
    signed negative (if -4 ≤ e && e < 16 then positional cs e 1
      else pointed cs ++ exponentText e)) (.ofFloat x)

/-- Nine significant digits; values closer to zero than `1e-9` all read `0`. -/
def measured (x : Float) : String :=
  if x.abs < 1e-9 then "0" else scientific 8 x

/-! ### Reading -/

/-- The double nearest to `± digits * 10 ^ e`.  Exponents far outside the range of doubles are
settled without computing the power. -/
def toFloat (negative : Bool) (digits : Nat) (e : Int) : Float :=
  let size : Int := (digitCount digits : Int) + e
  let magnitude : Float :=
    if digits = 0 || size < -400 then 0.0
    else if 400 < size then 1.0 / 0.0
    else if e < 0 then Float.ofScientific digits true (-e).toNat
    else Float.ofScientific digits false e.toNat
  if negative then -magnitude else magnitude

end RulerCompass.Decimal
