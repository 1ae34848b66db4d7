import RulerCompass.Summary.Exhibit

/-!
# Brief text of values

How a trace shows a value: collections by their first items and their size, blocks of numbers by
shape and range, records by their id, by their counters or by their first fields.
-/

namespace RulerCompass.Exhibit

/-- The text of a record.  A figure shows its counters, anything with an id shows that, other
records show their first four fields. -/
def briefRecord (name : String) (fields : List (String × Exhibit)) : String :=
  match fields.lookup "elements", fields.lookup "next_label_index", fields.lookup "id" with
  | some (tuple elements), some (int nextLabel), _ =>
    let nextColor := match fields.lookup "next_color_index" with
      | some (int i) => i
      | _ => 0
    name ++ "(elements=" ++ toString elements.length ++ ", next_label_index=" ++
      toString nextLabel ++ ", next_color_index=" ++ toString nextColor ++ ")"
  | _, _, some (text id) => name ++ "(" ++ id ++ ")"
  | _, _, some (int id) => name ++ "(" ++ toString id ++ ")"
  | _, _, _ => bracket (name ++ "(") ")"
    ((fields.take 4).map fun (field, e) => field ++ "=" ++ e.bounded 6)

/-! ### Blocks of numbers -/

/-- Cuts cells into consecutive groups of one size. -/
def groups (size : Nat) : Nat → List Float → List (List Float)
  | 0, _ => []
  | count + 1, cells => cells.take size :: groups size count (cells.drop size)

/-- The cells as nested lists of the given shape. -/
def nest : List Nat → List Float → Exhibit
  | [], cells => float (cells.headD 0.0)
  | [_], cells => list (cells.map float)
  | count :: shape, cells =>
    list ((groups (shape.foldl (· * ·) 1) count cells).map (nest shape))

/-- The extreme cell in one direction; a cell that is no number is extreme. -/
def extreme (better : Float → Float → Bool) : List Float → Float
  | [] => 0.0
  | x :: rest => rest.foldl (fun best y =>
      if best.isNaN then best else if y.isNaN || better y best then y else best) x

/-- A block shows its cells when there are few, otherwise the least and the greatest. -/
def briefArray (maxItems : Int) (shape : List Nat) (cells : List Float) : String :=
  let size : Int := cells.length
  let shapeText := tupleText (shape.map toString)
  let values :=
    if 0 < size ∧ size ≤ maxItems then [", values=", (nest shape cells).bounded 6]
    else if maxItems < size then
      [", min=", Decimal.general 6 (extreme (· < ·) cells),
        ", max=", Decimal.general 6 (extreme (· > ·) cells)]
    else []
  "ndarray(shape=" ++ shapeText ++ ", dtype=float64), size=" ++ toString size ++
    String.join values

/-! ### All values -/

/-- The first `limit` of `count` parts, then what stands for the others, if there are any. -/
def firstParts (limit : Int) (count : Nat) (more : String) (parts : List String) : List String :=
  if limit < count ∧ 0 < count then parts.take limit.toNat ++ [more] else parts

/-- What stands for the items that are not shown. -/
def totalNote (count : Nat) : String := "... (" ++ toString count ++ " total)"

/-- The first characters of a text that is longer than the limit, which may count from the end. -/
def truncated (limit : Int) (s : String) : String :=
  let cs := s.toList
  if limit < cs.length then
    let kept := if 0 ≤ limit then cs.take limit.toNat else cs.take (cs.length - limit.natAbs)
    String.ofList kept ++ "... (truncated)"
  else s

mutual

/-- The brief text of a value with the given limits, which only count at the top. -/
def briefWith (maxItems maxLength : Int) : Exhibit → String
  | array shape cells => briefArray maxItems shape cells
  | record name fields => briefRecord name fields
  | table entries =>
    bracket "\x7b" "\x7d" (firstParts maxItems entries.length "..." (briefEntries entries))
  | list items => bracket "[" "]"
      (firstParts maxItems items.length (totalNote items.length) (briefItems items))
  | tuple items => bracket "(" ")"
      (firstParts maxItems items.length (totalNote items.length) (briefItems items))
  | set items => bracket "\x7b" "\x7d"
      (firstParts maxItems items.length (totalNote items.length) (briefItems items))
  | leaf => truncated maxLength (leaf.bounded 6)

def briefItems : List Exhibit → List String
  | [] => []
  | e :: rest => briefWith 5 400 e :: briefItems rest

def briefEntries : List (String × Exhibit) → List String
  | [] => []
  | (key, e) :: rest =>
    (truncated 400 (boundedText key) ++ ": " ++ briefWith 5 400 e) :: briefEntries rest

end

/-- The brief text of a value.  With a limit below zero even an empty block is too large, and has no
least cell to show. -/
def brief (e : Exhibit) (maxItems : Int := 5) (maxLength : Int := 400) : Except Fault String :=
  match e with
  | array _ [] =>
    if maxItems < 0 then .error .noLeastNumber else .ok (briefWith maxItems maxLength e)
  | e => .ok (briefWith maxItems maxLength e)

/-! ### Calls -/

/-- The arguments of a call. -/
def briefArguments (args : List Exhibit) (named : List (String × Exhibit)) : String :=
  let first := if args.isEmpty then []
    else ["args=[" ++ ", ".intercalate (args.map (briefWith 5 400)) ++ "]"]
  let second := if named.isEmpty then []
    else ["kwargs=\x7b" ++
      ", ".intercalate (named.map fun (name, e) => name ++ "=" ++ briefWith 5 400 e) ++ "\x7d"]
  if first.isEmpty && second.isEmpty then "no-args" else ", ".intercalate (first ++ second)

end RulerCompass.Exhibit
