import RulerCompass.Action
import RulerCompass.Figure.Draw
import RulerCompass.Ledger.Basic

/-!
# Propositions

A proposition of the first book: the given figure, the steps of the construction with the actions
they ask for, what is stipulated, and what follows at the end.
-/

namespace RulerCompass

/-- What a step is carried out with. -/
inductive Tool where
  | compass
  | straightedge
  /-- A proposition that is already proved. -/
  | proposition
  deriving DecidableEq

/-- The word for a tool. -/
def Tool.name : Tool → String
  | .compass => "compass"
  | .straightedge => "straightedge"
  | .proposition => "macro"

/-- One step of a construction. -/
structure Step where
  instruction : String := ""
  action : Action
  highlights : List String := []
  tool : Option Tool := none
  citation : Option String := none

/-- Whether a proposition asks to construct something or to prove something. -/
inductive Purpose where
  | construction
  | demonstration
  deriving DecidableEq

/-- The word for a purpose. -/
def Purpose.name : Purpose → String
  | .construction => "construction"
  | .demonstration => "theorem"

/-- Two distances that are given as equal. -/
structure GivenDistances where
  left : Distance
  right : Distance
  statement : String

/-- Two angles that are given as equal. -/
structure GivenAngles where
  left : Angle
  right : Angle
  statement : String

/-- Where points have been moved to. -/
abbrev Positions (K : Type) := String → Option (Coord K)

namespace Positions

variable {K : Type}

/-- Later positions replace earlier ones. -/
def update (earlier later : Positions K) : Positions K := fun id => (later id).or (earlier id)

/-- The positions of the points among some elements; of several with one id the last one counts. -/
def ofElements (es : List (Element K)) : Positions K := fun id =>
  ((es.filterMap Element.point?).reverse.find? fun p => p.id = id).map Point.position

/-- A list of moves; the last move of a point counts. -/
def ofMoves (moves : List (String × Coord K)) : Positions K := fun id => moves.reverse.lookup id

end Positions

/-- A proposition as it is written out in a book. -/
structure Proposition (K : Type) where
  id : Int
  title : String
  purpose : Purpose := .construction
  given : List (Element K) := []
  steps : List Step := []
  givenDistances : List GivenDistances := []
  givenAngles : List GivenAngles := []
  /-- The end points of the segments that the construction is about. -/
  results : List (String × String) := []
  draggable : List String := []
  /-- The given figure for other positions of its points. -/
  layout? : Option (Positions K → List (Element K)) := none
  /-- What follows once the steps are done. -/
  conclusion : List Assertion := []
  /-- The proposition in words, which may depend on the finished figure. -/
  verdict? : Option (Figure K → String) := none

namespace Proposition

variable {K : Type}

/-- Whether a step looks for a point past the end of a segment, by Postulate 2. -/
def prolongs (p : Proposition K) : Bool :=
  p.steps.any fun s => match s.action with
    | .mark m => m.beyond?.isSome
    | _ => false

/-- What is given as equal, as assertions. -/
def hypotheses (p : Proposition K) : List Assertion :=
  (p.givenDistances.map fun g => ⟨.distances g.left g.right, .given, g.statement, "Given"⟩) ++
    p.givenAngles.map fun g => ⟨.angles g.left g.right, .given, g.statement, "Given"⟩

/-- The step with this number.  Small negative numbers count from the end. -/
def stepAt (p : Proposition K) (i : Int) : Except Fault Step :=
  let place := if i < 0 then i + p.steps.length else i
  match if place < 0 then none else p.steps[place.toNat]? with
  | some s => .ok s
  | none => .error .noSuchStep

/-- The given figure with some of its points moved. -/
def givenAfter (p : Proposition K) (moves : Positions K) : Except Fault (List (Element K)) :=
  match p.layout? with
  | some layout => .ok (layout ((Positions.ofElements p.given).update moves))
  | none => .error .noLayout

/-- The closing words for a finished figure. -/
def verdict (p : Proposition K) (f : Figure K) : Option String := p.verdict?.map fun say => say f

end Proposition

/-! ### Given figures -/

variable {K : Type}

/-- A given point with a label. -/
def Point.given (label : String) (place : Coord K) : Element K :=
  .point ⟨pointId label, place.x, place.y, label, Byrne.given, .given⟩

/-- The given segment between two labelled points. -/
def Segment.given (a b : String) : Element K :=
  .segment ⟨"seg-" ++ a ++ b, pointId a, pointId b, Byrne.given, .given⟩

end RulerCompass
