import RulerCompass.Ledger.Basic

/-!
# Views of a ledger

What a ledger tells from outside: its facts, each with the class of its left side.
-/

namespace RulerCompass

/-- A fact of a ledger with the class that it belongs to. -/
structure LedgerRow where
  id : Int
  rootFact : Option Int
  /-- The relations equal to the left side, in the order in which they were entered. -/
  members : List Relation

namespace Ledger

/-- All relations of the kind of `r` that are known to be equal to it, with itself. -/
def equals (l : Ledger) (r : Relation) : List Relation × Ledger :=
  match r with
  | .distance d =>
    let (members, l) := l.equalDistances d
    (members.map .distance, l)
  | .angle a =>
    let (members, l) := l.equalAngles a
    (members.map .angle, l)

/-- The row of a fact. -/
def row (l : Ledger) (f : Fact) : LedgerRow × Ledger :=
  let (tag, l) := l.rootFact f.equation.left
  let (members, l) := l.equals f.equation.left
  (⟨f.id, tag, members⟩, l)

/-- A row for every fact, in order. -/
def rows (l : Ledger) : List LedgerRow × Ledger :=
  l.facts.foldl (fun (rows, l) f =>
    let (row, l) := l.row f
    (rows ++ [row], l)) ([], l)

end Ledger

end RulerCompass
