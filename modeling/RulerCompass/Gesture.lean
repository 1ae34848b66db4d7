import RulerCompass.Crossing.Choice

/-!
# Gestures

Does the element that a user has just drawn do what a step asks for?
-/

namespace RulerCompass

variable {K : Type}

/-- A marked crossing is accepted when its parents are the ones that the step names, in either
order.  A step that names none accepts every marked crossing. -/
def Marking.accepts (m : Marking) (f : Figure K) (e : Element K) (c : Option (Crossing K)) :
    Except Fault Bool :=
  match e with
  | .point p =>
    if p.origin ≠ .intersection then .ok false
    else match m.ofA, m.ofB, c with
      | none, none, _ => .ok true
      | some a, some b, some c => do
        let a ← a.resolve f
        let b ← b.resolve f
        match a, b with
        | some a, some b => return c.Joins a b
        | _, _ => return false
      | _, _, _ => .ok false
  | _ => .ok false

/-- Whether an element, marked at a crossing if it is a point, is what an action asks for.  The use
of a macro is confirmed by the macro itself. -/
def Action.accepts (a : Action) (f : Figure K) (e : Element K) (c : Option (Crossing K)) :
    Except Fault Bool :=
  match a with
  | .compass centerId radiusPointId => match e with
    | .circle d => .ok (d.centerId = centerId ∧ d.radiusPointId = radiusPointId)
    | _ => .ok false
  | .straightedge fromId toId => match e with
    | .segment s => .ok (s.Joins fromId toId)
    | _ => .ok false
  | .mark m => m.accepts f e c
  | .call _ => .ok false
  | .unknown shown => .error (.unknownAction shown)

/-- Whether an action is satisfied by what has been drawn, if anything has. -/
def Action.acceptsDrawn (a : Action) (f : Figure K) (e : Option (Element K))
    (c : Option (Crossing K)) : Except Fault Bool :=
  match e, a with
  | some e, a => a.accepts f e c
  | none, .unknown shown => .error (.unknownAction shown)
  | none, _ => .ok false

end RulerCompass
