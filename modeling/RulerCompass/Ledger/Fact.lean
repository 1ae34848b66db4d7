import RulerCompass.Fault

/-!
# Facts

Distances, angles and the equations between them, the reasons that are cited for an equation, and
the numbered facts of a proof.
-/

namespace RulerCompass

/-- The distance of two points, as an unordered pair when built by `Distance.between`. -/
structure Distance where
  a : String
  b : String
  deriving DecidableEq

/-- The angle at a vertex between two rays, unordered when built by `Angle.between`. -/
structure Angle where
  vertex : String
  ray1 : String
  ray2 : String
  deriving DecidableEq

namespace Distance

/-- The distance of `p` and `q`; the smaller id comes first. -/
def between (p q : String) : Distance := if q < p then ⟨q, p⟩ else ⟨p, q⟩

def key (d : Distance) : String := d.a ++ "|" ++ d.b

end Distance

namespace Angle

/-- The angle at `vertex` between `p` and `q`; the smaller id comes first. -/
def between (vertex p q : String) : Angle :=
  if q < p then ⟨vertex, q, p⟩ else ⟨vertex, p, q⟩

def key (a : Angle) : String := a.vertex ++ ":" ++ a.ray1 ++ "|" ++ a.ray2

end Angle

/-- What a fact can say to be equal. -/
inductive Relation where
  | distance (d : Distance)
  | angle (a : Angle)
  deriving DecidableEq

namespace Relation

/-- The text that identifies a relation.  Distances and angles never share one. -/
def key : Relation → String
  | distance d => "d:" ++ d.key
  | angle a => "a:" ++ a.key

/-- The text without the mark for its kind. -/
def label : Relation → String
  | distance d => d.key
  | angle a => a.key

/-- The distance, if the relation is one. -/
def distance? : Relation → Option Distance
  | distance d => some d
  | angle _ => none

/-- The angle, if the relation is one. -/
def angle? : Relation → Option Angle
  | distance _ => none
  | angle a => some a

end Relation

/-- Two distances, or two angles, are equal. -/
inductive Equation where
  | distances (left right : Distance)
  | angles (left right : Angle)
  deriving DecidableEq

namespace Equation

/-- What the equation says to be equal to its right side. -/
def left : Equation → Relation
  | distances l _ => .distance l
  | angles l _ => .angle l

/-- What the equation says to be equal to its left side. -/
def right : Equation → Relation
  | distances _ r => .distance r
  | angles _ r => .angle r

end Equation

/-- Why an equation holds. -/
inductive Citation where
  /-- Definition 15: all points of a circle are equally far from its centre. -/
  | def15 (circleId : String)
  /-- Common notion 1: things equal to the same thing are equal. -/
  | cn1 (via : Distance)
  /-- Common notion 3: equals taken from equals leave equals. -/
  | cn3 (whole part : Distance)
  | cn3Angle (whole part : Angle)
  /-- Common notion 4: things that coincide are equal. -/
  | cn4
  | given
  | proposition (propId : Int)
  | unknown (shown : Datum)

/-- The short name of a citation. -/
def Citation.name : Citation → Except Fault String
  | .def15 _ => .ok "Def.15"
  | .cn1 _ => .ok "C.N.1"
  | .cn3 .. | .cn3Angle .. => .ok "C.N.3"
  | .cn4 => .ok "C.N.4"
  | .given => .ok "Given"
  | .proposition propId => .ok ("I." ++ toString propId)
  | .unknown shown => .error (.unknownCitation shown)

/-- An equation with its reason, before it is entered into a ledger. -/
structure Assertion where
  equation : Equation
  citation : Citation
  statement : String
  justification : String

/-- A numbered assertion, made at a step of a construction. -/
structure Fact where
  id : Int
  equation : Equation
  citation : Citation
  statement : String
  justification : String
  atStep : Int

namespace Fact

/-- What the fact says, apart from its number and step. -/
def assertion (f : Fact) : Assertion := ⟨f.equation, f.citation, f.statement, f.justification⟩

/-- The facts made before a step. -/
def before (step : Int) (facts : List Fact) : List Fact := facts.filter fun f => f.atStep < step

end Fact

end RulerCompass
