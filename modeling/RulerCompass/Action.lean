import RulerCompass.Datum

/-!
# Actions

What a step asks for.  The elements that meet in an intersection are named by id or by the points
that determine them, since ids depend on the order of drawing.
-/

namespace RulerCompass

/-- A description of a circle or segment. -/
inductive Selector where
  | named (id : String)
  | circle (centerId radiusPointId : String)
  | segment (fromId toId : String)
  /-- Something that describes no element. -/
  | unknown (shown : Datum)

/-- The marking of a crossing.  Without selectors every crossing is eligible. -/
structure Marking where
  ofA : Option Selector := none
  ofB : Option Selector := none
  beyondId : Option String := none
  label : Option String := none

namespace Marking

/-- The point that the crossing has to lie beyond; the empty id names none. -/
def beyond? (m : Marking) : Option String := m.beyondId.filter (· ≠ "")

end Marking

/-- The use of a proved proposition as one operation. -/
structure MacroCall where
  propId : Int
  inputs : List String
  /-- Labels for the points that the macro makes, by the macro's own names for them. -/
  outputLabels : Option (List (String × String)) := none

/-- The label requested for the point with this name. -/
def MacroCall.outputLabel? (labels : Option (List (String × String))) (name : String) :
    Option String := (labels.getD []).lookup name

/-- The operation that a step asks for. -/
inductive Action where
  | straightedge (fromId toId : String)
  | compass (centerId radiusPointId : String)
  | mark (m : Marking)
  | call (c : MacroCall)
  /-- Something that asks for no operation. -/
  | unknown (shown : Datum)

/-- What the user does after a proposition is complete. -/
inductive Extra where
  | circle (centerId radiusPointId : String)
  | segment (fromId toId : String)
  /-- The crossing with this number of two elements. -/
  | mark (ofA ofB : String) (which : Int)
  | unknown (shown : Datum)

end RulerCompass
