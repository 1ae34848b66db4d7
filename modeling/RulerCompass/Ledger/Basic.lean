import RulerCompass.Ledger.Forest

/-!
# Ledgers

A ledger holds the facts of a proof.  It refuses an equation that its facts already entail, so no
fact is redundant and repeating a derivation adds nothing.  A copy is made by entering the facts
again into an empty ledger.
-/

namespace RulerCompass

/-- The facts in the order of proof, the number of the next one, and the classes of equal
relations that they make. -/
structure Ledger where
  facts : List Fact := []
  nextId : Int := 1
  forest : Forest := []

namespace Ledger

variable (l : Ledger)

/-! ### Entering facts -/

/-- Enters an assertion unless the ledger entails it; gives the new fact. -/
def record (a : Assertion) (atStep : Int) : Option Fact × Ledger :=
  let left := a.equation.left
  let right := a.equation.right
  match l.forest.connected left.key right.key with
  | (true, forest) => (none, { l with forest := forest })
  | (false, forest) =>
    let fact : Fact := ⟨l.nextId, a.equation, a.citation, a.statement, a.justification, atStep⟩
    (some fact,
      { facts := l.facts ++ [fact]
        nextId := l.nextId + 1
        forest := ((forest.enter left).enter right).union left.key right.key l.nextId })

/-- Enters several assertions in turn; gives the new facts. -/
def recordAll (as : List Assertion) (atStep : Int) : List Fact × Ledger :=
  as.foldl (fun (facts, l) a =>
    let (fact, l) := l.record a atStep
    (facts ++ fact.toList, l)) ([], l)

/-- The ledger of facts entered in their order, each with its own step. -/
def ofFacts (facts : List Fact) : Ledger :=
  facts.foldl (fun l f => (l.record f.assertion f.atStep).2) {}

/-! ### Questions

Each answer comes with the ledger after the question, whose forest may have shorter paths.
-/

/-- Whether two relations are known to be equal. -/
def equal (r s : Relation) : Bool × Ledger :=
  if r = s then (true, l)
  else
    let (answer, forest) := l.forest.connected r.key s.key
    (answer, { l with forest := forest })

/-- All relations known to be equal to one that has been entered. -/
def members (r : Relation) : List Relation × Ledger :=
  let (answer, forest) := l.forest.members r.key
  (answer, { l with forest := forest })

/-- All distances known to be equal to `d`, with itself. -/
def equalDistances (d : Distance) : List Distance × Ledger :=
  let (answer, l) := l.members (.distance d)
  (if answer.isEmpty then [d] else answer.filterMap Relation.distance?, l)

/-- All angles known to be equal to `a`, with itself. -/
def equalAngles (a : Angle) : List Angle × Ledger :=
  let (answer, l) := l.members (.angle a)
  (if answer.isEmpty then [a] else answer.filterMap Relation.angle?, l)

/-- The number of the fact that last enlarged the class of a relation. -/
def rootFact (r : Relation) : Option Int × Ledger :=
  if l.forest.Holds r.key then
    let (root, forest) := l.forest.find r.key
    ((forest.node? root).bind Node.tag, { l with forest := forest })
  else (none, l)

/-- A ledger in one line. -/
def summary : String :=
  "FactStore(facts=" ++ toString l.facts.length ++ ", next_id=" ++ toString l.nextId ++ ")"

end Ledger

end RulerCompass
