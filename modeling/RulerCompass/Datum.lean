import RulerCompass.Text.Decimal
import RulerCompass.Text.Quoted

/-!
# Untyped data

Hand-written steps may hold anything in the place of an action, a selector or a citation.  `Datum`
keeps such a value, so that a fault can show it.
-/

namespace RulerCompass

/-- Any value of a data file. -/
inductive Datum where
  | null
  | bool (b : Bool)
  | int (i : Int)
  | float (x : Float)
  | text (s : String)
  | list (items : List Datum)
  | table (entries : List (String × Datum))
  deriving Inhabited

namespace Datum

mutual

/-- How a fault shows a value. -/
def render : Datum → String
  | null => "None"
  | bool b => if b then "True" else "False"
  | int i => toString i
  | float x => Decimal.exact x
  | text s => Text.quote s
  | list items => "[" ++ ", ".intercalate (renderItems items) ++ "]"
  | table entries => "\x7b" ++ ", ".intercalate (renderEntries entries) ++ "\x7d"

def renderItems : List Datum → List String
  | [] => []
  | d :: rest => d.render :: renderItems rest

def renderEntries : List (String × Datum) → List String
  | [] => []
  | (key, d) :: rest => (Text.quote key ++ ": " ++ d.render) :: renderEntries rest

end

end Datum

end RulerCompass
