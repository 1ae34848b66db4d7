import RulerCompass.Datum
import RulerCompass.Fault

/-!
# Bounded text of values

Traces show values, however large, in a bounded text.  At the top a collection shows its first items
and says how many there are.  Inside a record the text of a field is cut by kind: texts and numbers
in the middle, collections after ten items, nesting after six levels.
-/

namespace RulerCompass

/-- A value that a trace can show. -/
inductive Exhibit where
  | null
  | bool (b : Bool)
  | int (i : Int)
  | float (x : Float)
  | text (s : String)
  | list (items : List Exhibit)
  | tuple (items : List Exhibit)
  | set (items : List Exhibit)
  | table (entries : List (String × Exhibit))
  /-- A block of numbers, row by row. -/
  | array (shape : List Nat) (cells : List Float)
  | record (name : String) (fields : List (String × Exhibit))
  deriving Inhabited

namespace Exhibit

/-! ### Full text -/

/-- Parts between two marks, parted by commas. -/
def bracket (left right : String) (parts : List String) : String :=
  left ++ ", ".intercalate parts ++ right

/-- A tuple of one item is told from a bracket by a comma. -/
def tupleText (parts : List String) : String :=
  match parts with
  | [one] => "(" ++ one ++ ",)"
  | parts => bracket "(" ")" parts

mutual

/-- The text of a value, whatever its length. -/
def full : Exhibit → String
  | null => "None"
  | bool b => if b then "True" else "False"
  | int i => toString i
  | float x => Decimal.exact x
  | text s => Text.quote s
  | list items => bracket "[" "]" (fullItems items)
  | tuple items => tupleText (fullItems items)
  | set items => if items.isEmpty then "set()" else bracket "\x7b" "\x7d" (fullItems items)
  | table entries => bracket "\x7b" "\x7d" (fullEntries entries)
  | array _ cells => bracket "[" "]" (cells.map Decimal.exact)
  | record name fields => bracket (name ++ "(") ")" (fullFields fields)

def fullItems : List Exhibit → List String
  | [] => []
  | e :: rest => e.full :: fullItems rest

def fullEntries : List (String × Exhibit) → List String
  | [] => []
  | (key, e) :: rest => (Text.quote key ++ ": " ++ e.full) :: fullEntries rest

def fullFields : List (String × Exhibit) → List String
  | [] => []
  | (name, e) :: rest => (name ++ "=" ++ e.full) :: fullFields rest

end

/-! ### Text of fields -/

/-- The first and last characters of a long text, `limit` in all, with dots between them. -/
def cutMiddle (limit : Nat) (cs : List Char) : List Char :=
  if cs.length ≤ limit then cs
  else
    let front := (limit - 3) / 2
    let back := limit - 3 - front
    cs.take front ++ "...".toList ++ cs.drop (cs.length - back)

/-- The last `count` characters.  Of a text of fewer characters it takes as many from the end as the
text is short of `count`, counted back from the end. -/
def tailOf (count : Nat) (cs : List Char) : List Char :=
  if count ≤ cs.length then cs.drop (cs.length - count)
  else cs.drop (cs.length - (count - cs.length))

/-- A quoted text of at most thirty characters. -/
def boundedText (s : String) : String :=
  let cs := s.toList
  let short := Text.quoteChars (cs.take 30)
  if short.length ≤ 30 then String.ofList short
  else
    let quoted := Text.quoteChars (cs.take 13 ++ tailOf 14 cs)
    String.ofList (quoted.take 13 ++ "...".toList ++ quoted.drop (quoted.length - 14))

/-- At most this many items of a collection are shown inside a record. -/
def maxItems : Nat := 10

/-- The parts that are shown of `count` parts. -/
def shownParts (count : Nat) (parts : List String) : List String :=
  if maxItems < count then parts ++ ["..."] else parts

mutual

/-- The text of a value inside a record, with `level` levels of nesting left. -/
def bounded (level : Nat) : Exhibit → String
  | int i => String.ofList (cutMiddle 40 (toString i).toList)
  | text s => boundedText s
  | list items => boundedItems level "[" "]" "" items
  | tuple items => boundedItems level "(" ")" "," items
  | set items => if items.isEmpty then "set()" else boundedItems level "\x7b" "\x7d" "" items
  | table entries =>
    match entries, level with
    | [], _ => "\x7b\x7d"
    | _ :: _, 0 => "\x7b...\x7d"
    | entries@(_ :: _), level + 1 =>
      bracket "\x7b" "\x7d" (shownParts entries.length (boundedEntries level maxItems entries))
  | other => String.ofList (cutMiddle 160 other.full.toList)

/-- Items in brackets; a single one that is shown is followed by `trail`. -/
def boundedItems (level : Nat) (left right trail : String) (items : List Exhibit) : String :=
  match items, level with
  | [], _ => left ++ right
  | _ :: _, 0 => left ++ "..." ++ right
  | items@(_ :: rest), level + 1 =>
    let right := if rest.isEmpty then trail ++ right else right
    bracket left right (shownParts items.length (boundedList level maxItems items))

/-- The texts of the first `count` items. -/
def boundedList (level count : Nat) (items : List Exhibit) : List String :=
  match count, items with
  | 0, _ | _, [] => []
  | count + 1, e :: rest => e.bounded level :: boundedList level count rest

/-- The texts of the first `count` entries. -/
def boundedEntries (level count : Nat) (entries : List (String × Exhibit)) : List String :=
  match count, entries with
  | 0, _ | _, [] => []
  | count + 1, (key, e) :: rest =>
    (boundedText key ++ ": " ++ e.bounded level) :: boundedEntries level count rest

end

end Exhibit

end RulerCompass
