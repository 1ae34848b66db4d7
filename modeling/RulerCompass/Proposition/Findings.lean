import RulerCompass.Macro.Catalogue
import RulerCompass.Proposition.Basic

/-!
# Checking a definition

A definition is well formed when it names points only after they are given or made by an earlier
step, and gives each macro as many inputs as it takes.  `Proposition.findings` reports every
violation in the order of the definition.
-/

namespace RulerCompass

/-- Where a definition names a point. -/
inductive Field where
  | givenSegmentFrom
  | givenSegmentTo
  | givenCircleCenter
  | givenCircleRadiusPoint
  | center
  | radiusPoint
  | segmentFrom
  | segmentTo
  | ofA
  | ofB
  | beyond
  | input
  | highlight
  | resultFrom
  | resultTo
  | givenFact
  | givenAngleFact
  deriving DecidableEq

/-- How messages call a field. -/
def Field.name : Field → String
  | .givenSegmentFrom => "givenElements.segment.fromId"
  | .givenSegmentTo => "givenElements.segment.toId"
  | .givenCircleCenter => "givenElements.circle.centerId"
  | .givenCircleRadiusPoint => "givenElements.circle.radiusPointId"
  | .center => "centerId"
  | .radiusPoint => "radiusPointId"
  | .segmentFrom => "fromId"
  | .segmentTo => "toId"
  | .ofA => "ofA"
  | .ofB => "ofB"
  | .beyond => "beyondId"
  | .input => "inputPointIds"
  | .highlight => "highlightIds"
  | .resultFrom => "resultSegments.fromId"
  | .resultTo => "resultSegments.toId"
  | .givenFact => "givenFacts"
  | .givenAngleFact => "givenAngleFacts"

/-- The naming of a point in a definition. -/
structure Mention where
  field : Field
  pointId : String
  deriving DecidableEq

/-- What is wrong with a definition, and in which step if in any. -/
inductive Finding where
  | dangling (m : Mention) (step : Option Nat)
  | wrongArity (step : Nat) (propId : Int) (takes got : Nat)
  deriving DecidableEq

namespace Finding

/-- The point that is not known. -/
def pointId? : Finding → Option String
  | dangling m _ => some m.pointId
  | wrongArity .. => none

/-- The field in which the violation lies. -/
def field : Finding → Field
  | dangling m _ => m.field
  | wrongArity .. => .input

/-- The step in which the violation lies. -/
def step? : Finding → Option Nat
  | dangling _ step => step
  | wrongArity step .. => some step

/-- The wording of a finding. -/
def message : Finding → String
  | dangling m step =>
    let place := match step with
      | none => "given elements"
      | some k => "step " ++ toString k
    place ++ ": " ++ m.field.name ++ " references " ++ m.pointId ++ " before it exists"
  | wrongArity step propId takes got =>
    "step " ++ toString step ++ ": I." ++ toString propId ++ " takes " ++ toString takes ++
      " input point(s), got " ++ toString got

end Finding

/-! ### What a definition mentions -/

/-- The points that a selector names.  An id counts only when it is that of a point, since other ids
depend on the order of drawing. -/
def Selector.mentions (field : Field) : Selector → List Mention
  | .named id => if (pointId "").isPrefixOf id then [⟨field, id⟩] else []
  | .circle centerId radiusPointId => [⟨field, centerId⟩, ⟨field, radiusPointId⟩]
  | .segment fromId toId => [⟨field, fromId⟩, ⟨field, toId⟩]
  | .unknown _ => []

/-- The points that an action names. -/
def Action.mentions : Action → Except Fault (List Mention)
  | .compass centerId radiusPointId => .ok [⟨.center, centerId⟩, ⟨.radiusPoint, radiusPointId⟩]
  | .straightedge fromId toId => .ok [⟨.segmentFrom, fromId⟩, ⟨.segmentTo, toId⟩]
  | .mark m => .ok (m.ofA.toList.flatMap (Selector.mentions .ofA) ++
      m.ofB.toList.flatMap (Selector.mentions .ofB) ++ m.beyond?.toList.map (⟨.beyond, ·⟩))
  | .call c => .ok (c.inputs.map (⟨.input, ·⟩))
  | .unknown shown => .error (.unknownAction shown)

/-- A macro that gets another number of inputs than it takes. -/
def Action.arityFindings (step : Nat) : Action → List Finding
  | .call c => match Macro.ofProp? c.propId with
    | some m => if c.inputs.length = m.inputCount then []
      else [.wrongArity step c.propId m.inputCount c.inputs.length]
    | none => []
  | _ => []

/-- The points that a step makes, as far as the definition says. -/
def Action.introduced : Action → List String
  | .mark m => ((m.label.filter (· ≠ "")).map pointId).toList
  | .call c => (c.outputLabels.getD []).map fun (_, label) => pointId label
  | _ => []

/-- The points that a given element needs. -/
def Element.mentions {K : Type} : Element K → List Mention
  | .point _ => []
  | .segment s => [⟨.givenSegmentFrom, s.fromId⟩, ⟨.givenSegmentTo, s.toId⟩]
  | .circle c => [⟨.givenCircleCenter, c.centerId⟩, ⟨.givenCircleRadiusPoint, c.radiusPointId⟩]

/-- The end points of two distances. -/
def GivenDistances.mentions (g : GivenDistances) : List Mention :=
  [g.left.a, g.left.b, g.right.a, g.right.b].map (⟨.givenFact, ·⟩)

/-- The vertices and the points on the rays of two angles. -/
def GivenAngles.mentions (g : GivenAngles) : List Mention :=
  [g.left, g.right].flatMap fun a => [a.vertex, a.ray1, a.ray2].map (⟨.givenAngleFact, ·⟩)

/-! ### The check -/

/-- The mentions of points that are not known. -/
def danglingAmong (known : List String) (step : Option Nat) (ms : List Mention) : List Finding :=
  (ms.filter fun m => m.pointId ∉ known).map (.dangling · step)

/-- The findings of a step, given the points known before it. -/
def Step.findings (known : List String) (index : Nat) (s : Step) : Except Fault (List Finding) := do
  let ms ← s.action.mentions
  return s.action.arityFindings index ++
    danglingAmong known (some index) (ms ++ s.highlights.map (⟨.highlight, ·⟩))

/-- The findings of steps that are numbered from `first` on, and the points known after them. -/
def stepFindings (known : List String) (first : Nat) :
    List Step → Except Fault (List Finding × List String)
  | [] => .ok ([], known)
  | s :: rest => do
    let here ← s.findings known first
    let (later, known) ← stepFindings (known ++ s.action.introduced) (first + 1) rest
    return (here ++ later, known)

namespace Proposition

variable {K : Type}

/-- The ids of the given points. -/
def givenPoints (p : Proposition K) : List String :=
  (p.given.filterMap Element.point?).map Point.id

/-- What a definition mentions after its steps. -/
def closingMentions (p : Proposition K) : List Mention :=
  (p.results.flatMap fun (a, b) => [⟨.resultFrom, a⟩, ⟨.resultTo, b⟩]) ++
    p.givenDistances.flatMap GivenDistances.mentions ++ p.givenAngles.flatMap GivenAngles.mentions

/-- All violations: of the given elements, of the steps, and of what comes after them. -/
def findings (p : Proposition K) : Except Fault (List Finding) := do
  let known := p.givenPoints
  let (inSteps, known') ← stepFindings known 0 p.steps
  return danglingAmong known none (p.given.flatMap Element.mentions) ++ inSteps ++
    danglingAmong known' none p.closingMentions

/-- Refuses a definition with findings. -/
def ensureWellFormed (p : Proposition K) : Except Fault Unit := do
  let fs ← p.findings
  if fs.isEmpty then return () else .error (.illFormed p.id (fs.map Finding.message))

end Proposition

end RulerCompass
