import RulerCompass.Action
import RulerCompass.Crossing.Search
import RulerCompass.Run
import RulerCompass.Style

/-!
# Choosing a crossing

Which crossing does a step mean?  Selectors narrow the crossings down to those of two elements; of
these a step takes the first one beyond a named end point, or else the highest one.  `match?` makes
the choice and `matchNotices` tells when the highest crossing was not the only high one.
-/

namespace RulerCompass

variable {K : Type}

/-! ### Selectors -/

/-- The id of the element that a selector describes. -/
def Selector.resolve (f : Figure K) : Selector → Except Fault (Option String)
  | .named name => .ok ((f.element? name).map fun _ => name)
  | .circle centerId radiusPointId =>
    .ok ((f.circles.find? fun c =>
      c.centerId = centerId ∧ c.radiusPointId = radiusPointId).map Circle.id)
  | .segment fromId toId =>
    .ok ((f.segments.find? fun s => s.Joins fromId toId).map Segment.id)
  | .unknown shown => .error (.unknownSelector shown)

/-- An absent selector resolves to nothing. -/
def Selector.resolveOption (f : Figure K) (s : Option Selector) : Except Fault (Option String) :=
  match s with
  | none => .ok none
  | some s => s.resolve f

namespace Crossing

variable [Scalar K]

/-! ### The highest crossing -/

/-- The earliest of the highest crossings from `best` on. -/
def highestFrom (best : Crossing K) (cs : List (Crossing K)) : Crossing K :=
  cs.foldl (fun best c => if best.y < c.y then c else best) best

/-- The earliest of the highest crossings. -/
def highest? : List (Crossing K) → Option (Crossing K)
  | [] => none
  | c :: rest => some (highestFrom c rest)

/-- The place in the list of the crossing that `highest?` takes. -/
def highestIndex : List (Crossing K) → Nat
  | [] => 0
  | c :: rest => ((rest.zipIdx 1).foldl
      (fun (best : Crossing K × Nat) c => if best.1.y < c.1.y then c else best) (c, 0)).2

/-- The crossings on the level of the highest one, without that one itself. -/
def rivals (cs : List (Crossing K)) : List (Crossing K) :=
  match highest? cs with
  | none => []
  | some best => (cs.eraseIdx (highestIndex cs)).filter fun c =>
    decide (Scalar.abs (c.y - best.y) < Scalar.tolerance)

/-- A warning when a rival stands elsewhere on the same level. -/
def pickNotices (style : Style) (cs : List (Crossing K)) : List (Notice K) :=
  match highest? cs with
  | none => []
  | some best =>
    if style.warnAmbiguous ∧ (rivals cs).any fun c =>
        decide (Scalar.tolerance ≤ Scalar.abs (c.x - best.x)) then
      [.ambiguousPick best.x best.y (rivals cs).length]
    else []

/-- The highest crossing, with its warning. -/
def pick (style : Style) (cs : List (Crossing K)) : Run K (Option (Crossing K)) :=
  ⟨pickNotices style cs, .ok (highest? cs)⟩

/-! ### Beyond an end point -/

/-- Whether a crossing lies past the point `beyondId` on the segment among its parents, seen from
the other end.  What cannot be looked up does not stand in the way. -/
def IsBeyond (c : Crossing K) (beyondId ofA ofB : String) (f : Figure K) : Prop :=
  match (f.segment? ofA).or (f.segment? ofB), f.point? beyondId with
  | some s, some p =>
    match f.span? s with
    | some l =>
      let other := if p.position.Near l.start then l.stop else l.start
      0.0 < (p.position - other).dot (c.position - p.position)
    | none => True
  | _, _ => True

instance (c : Crossing K) (beyondId ofA ofB : String) (f : Figure K) :
    Decidable (c.IsBeyond beyondId ofA ofB f) := by
  unfold IsBeyond
  split
  · split <;> infer_instance
  · infer_instance

/-! ### Matching a step -/

/-- The crossings that a step may take: all without selectors, none when a selector fails to
resolve, otherwise those of the two elements. -/
def eligible (m : Marking) (cs : List (Crossing K)) (f : Figure K) :
    Except Fault (List (Crossing K)) := do
  let a ← Selector.resolveOption f m.ofA
  let b ← Selector.resolveOption f m.ofB
  if m.ofA.isNone ∧ m.ofB.isNone then return cs
  else match a, b with
    | some a, some b => return cs.filter fun c => c.Joins a b
    | _, _ => return []

/-- The point that restricts the choice; a step without selectors has no such restriction. -/
def restriction (m : Marking) : Option String :=
  if m.ofA.isNone ∧ m.ofB.isNone then none else m.beyond?

/-- The crossing that a step means. -/
def match? (m : Marking) (cs : List (Crossing K)) (f : Figure K) :
    Except Fault (Option (Crossing K)) := do
  let cs ← eligible m cs f
  match restriction m with
  | some beyondId => return cs.find? fun c => c.IsBeyond beyondId c.ofA c.ofB f
  | none => return highest? cs

/-- The warnings of a choice by height. -/
def matchNotices (style : Style) (m : Marking) (cs : List (Crossing K)) (f : Figure K) :
    List (Notice K) :=
  match eligible m cs f, restriction m with
  | .ok cs, none => pickNotices style cs
  | _, _ => []

/-- The crossing that a step means, with its warnings. -/
def matching (style : Style) (m : Marking) (cs : List (Crossing K)) (f : Figure K) :
    Run K (Option (Crossing K)) :=
  ⟨matchNotices style m cs f, match? m cs f⟩

/-- The crossings that do not coincide with `picked`. -/
def without (cs : List (Crossing K)) (picked : Crossing K) : List (Crossing K) :=
  cs.filter fun c => !decide (c.position.Near picked.position)

end Crossing

end RulerCompass
