import RulerCompass.Proofs.Figure.Grounds
import RulerCompass.Proofs.Meets
import RulerCompass.Proposition.Findings

/-!
# Scopes of a definition

At each of its steps a definition may name the points that are given and those that earlier steps
introduce.  The check walks through the steps with a growing list of known points; this list is the
scope.  So its findings can be told without the walk: they are the occurrences that are wrong in their
place, in the order of the definition.  A definition without findings names nothing out of scope,
neither in its steps nor after them.
-/

namespace RulerCompass

/-! ### What a definition names -/

/-- The points that a selector names; an id counts when it is that of a point. -/
def Selector.pointNames : Selector → List String
  | .named id => if (pointId "").isPrefixOf id then [id] else []
  | .circle centerId radiusPointId => [centerId, radiusPointId]
  | .segment fromId toId => [fromId, toId]
  | .unknown _ => []

/-- The points that an action names. -/
def Action.pointNames : Action → List String
  | .straightedge fromId toId => [fromId, toId]
  | .compass centerId radiusPointId => [centerId, radiusPointId]
  | .mark m => m.ofA.toList.flatMap Selector.pointNames ++ m.ofB.toList.flatMap Selector.pointNames ++
      m.beyond?.toList
  | .call c => c.inputs
  | .unknown _ => []

/-- The points that a step names, those that it highlights among them. -/
def Step.pointNames (s : Step) : List String := s.action.pointNames ++ s.highlights

namespace Proposition

variable {K : Type} (p : Proposition K)

/-- The points that a definition names after its steps: the ends of what it constructs, and what its
hypotheses are about. -/
def closingNames : List String :=
  (p.results.flatMap fun (a, b) => [a, b]) ++ p.hypotheses.flatMap fun a => a.equation.points

/-- The points that the step with this number may name. -/
def scope (k : Nat) : List String :=
  p.givenPoints ++ (p.steps.take k).flatMap fun s => s.action.introduced

/-- Every step asks for an operation, and all names are in scope. -/
structure Scoped : Prop where
  named : ∀ s ∈ p.steps, ∀ shown, s.action ≠ .unknown shown
  steps : ∀ k s, p.steps[k]? = some s → ∀ id ∈ s.pointNames, id ∈ p.scope k
  closing : ∀ id ∈ p.closingNames, id ∈ p.scope p.steps.length

end Proposition

/-! ### Mentions are names -/

theorem Selector.pointId_mentions (field : Field) (s : Selector) :
    (s.mentions field).map Mention.pointId = s.pointNames := by
  cases s with
  | named id =>
    rw [mentions, pointNames]
    split <;> rfl
  | circle centerId radiusPointId => rfl
  | segment fromId toId => rfl
  | unknown shown => rfl

theorem Action.pointId_mentions {a : Action} {ms : List Mention} (h : a.mentions = .ok ms) :
    ms.map Mention.pointId = a.pointNames := by
  cases a with
  | straightedge fromId toId =>
    cases h
    rfl
  | compass centerId radiusPointId =>
    cases h
    rfl
  | mark m =>
    cases h
    simp only [List.map_append, List.map_flatMap, Selector.pointId_mentions, List.map_map, pointNames]
    congr 1
    exact List.map_id _
  | call c =>
    cases h
    rw [List.map_map]
    exact List.map_id _
  | unknown shown => cases h

theorem Proposition.pointId_closingMentions {K : Type} (p : Proposition K) :
    p.closingMentions.map Mention.pointId = p.closingNames := by
  simp [closingMentions, closingNames, hypotheses, GivenDistances.mentions, GivenAngles.mentions,
    List.map_flatMap, List.flatMap_map, Equation.points, Relation.points, Equation.left,
    Equation.right]

/-! ### Occurrences -/

/-- A part of a definition: what is given, one of the steps, or what comes after them. -/
inductive Place where
  | given
  | step (k : Nat)
  | closing

/-- The number of the step, if the place is one. -/
def Place.step? : Place → Option Nat
  | step k => some k
  | _ => none

/-- What the check looks at: the naming of a point, or the inputs of a macro. -/
inductive Occurrence where
  | mention (place : Place) (m : Mention)
  | inputs (step : Nat) (propId : Int) (takes got : Nat)

/-- The finding that reports the occurrence. -/
def Occurrence.finding : Occurrence → Finding
  | mention place m => .dangling m place.step?
  | inputs step propId takes got => .wrongArity step propId takes got

/-- The points that a step names, field by field. -/
def Step.mentions (s : Step) : List Mention :=
  s.action.mentions.toOption.getD [] ++ s.highlights.map (⟨.highlight, ·⟩)

/-- The inputs that an action passes to a macro. -/
def Action.inputOccurrences (k : Nat) : Action → List Occurrence
  | .call c => (Macro.ofProp? c.propId).toList.map fun m =>
      .inputs k c.propId m.inputCount c.inputs.length
  | _ => []

/-- The occurrences in the step with this number. -/
def Step.occurrences (k : Nat) (s : Step) : List Occurrence :=
  s.action.inputOccurrences k ++ s.mentions.map (.mention (.step k))

/-- The occurrences in steps that are numbered from `first` on. -/
def stepOccurrences (first : Nat) (steps : List Step) : List Occurrence :=
  (steps.zipIdx first).flatMap fun (s, k) => s.occurrences k

namespace Proposition

variable {K : Type} (p : Proposition K)

/-- All occurrences, in the order of the definition. -/
def occurrences : List Occurrence :=
  (p.given.flatMap Element.mentions).map (.mention .given) ++ stepOccurrences 0 p.steps ++
    p.closingMentions.map (.mention .closing)

/-- The points that may be named at a place. -/
def scopeAt : Place → List String
  | .given => p.givenPoints
  | .step k => p.scope k
  | .closing => p.scope p.steps.length

/-- A point is named out of scope, or a macro does not get as many inputs as it takes. -/
def Breaks : Occurrence → Prop
  | .mention place m => m.pointId ∉ p.scopeAt place
  | .inputs _ _ takes got => got ≠ takes

instance : DecidablePred p.Breaks
  | .mention .. => inferInstanceAs (Decidable (¬ _))
  | .inputs .. => inferInstanceAs (Decidable (_ ≠ _))

/-- What is reported of some occurrences. -/
def report (os : List Occurrence) : List Finding :=
  (os.filter fun o => decide (p.Breaks o)).map Occurrence.finding

variable {p}

@[simp] theorem report_append (os os' : List Occurrence) :
    p.report (os ++ os') = p.report os ++ p.report os' := by
  simp [report]

theorem report_eq_nil_iff {os : List Occurrence} : p.report os = [] ↔ ∀ o ∈ os, ¬ p.Breaks o := by
  simp [report]

theorem report_mentions (place : Place) (ms : List Mention) :
    p.report (ms.map (.mention place)) = danglingAmong (p.scopeAt place) place.step? ms := by
  rw [report, danglingAmong, List.filter_map, List.map_map]
  rfl

theorem report_inputs (k : Nat) (a : Action) :
    p.report (a.inputOccurrences k) = a.arityFindings k := by
  cases a with
  | call c =>
    rw [Action.inputOccurrences, Action.arityFindings]
    cases Macro.ofProp? c.propId with
    | none => rfl
    | some m =>
      by_cases h : c.inputs.length = m.inputCount <;> simp [report, Breaks, Occurrence.finding, h]
  | _ => rfl

end Proposition

theorem stepOccurrences_cons (first : Nat) (s : Step) (steps : List Step) :
    stepOccurrences first (s :: steps) = s.occurrences first ++ stepOccurrences (first + 1) steps := by
  rw [stepOccurrences, List.zipIdx_cons, List.flatMap_cons]
  rfl

theorem mem_stepOccurrences {first : Nat} {steps : List Step} {o : Occurrence} :
    o ∈ stepOccurrences first steps ↔
      ∃ (k : Nat) (s : Step), steps[k]? = some s ∧ o ∈ s.occurrences (first + k) := by
  rw [stepOccurrences, List.mem_flatMap]
  constructor
  · rintro ⟨⟨s, k⟩, hs, ho⟩
    obtain ⟨hle, hs⟩ := List.mem_zipIdx_iff_le_and_getElem?_sub.mp hs
    exact ⟨k - first, s, hs, by rwa [Nat.add_sub_cancel' hle]⟩
  · rintro ⟨k, s, hs, ho⟩
    refine ⟨(s, first + k), List.mem_zipIdx_iff_le_and_getElem?_sub.mpr ⟨Nat.le_add_right .., ?_⟩,
      ho⟩
    rwa [Nat.add_sub_cancel_left]

theorem Step.pointId_mentions (s : Step) : s.mentions.map Mention.pointId = s.pointNames := by
  have haction : (s.action.mentions.toOption.getD []).map Mention.pointId = s.action.pointNames := by
    cases hms : s.action.mentions with
    | ok ms => exact Action.pointId_mentions hms
    | error fault =>
      cases ha : s.action with
      | unknown shown => rfl
      | _ => rw [ha] at hms; cases hms
  have hhighlights : (s.highlights.map (Mention.mk .highlight)).map Mention.pointId = s.highlights := by
    rw [List.map_map]
    exact List.map_id _
  rw [mentions, List.map_append, haction, hhighlights, pointNames]

/-! ### The check -/

/-- A step that asks for an operation is checked in the scope before it. -/
theorem Step.findings_eq {K : Type} {p : Proposition K} {s : Step}
    (hs : ∀ shown, s.action ≠ .unknown shown) (k : Nat) :
    s.findings (p.scope k) k = .ok (p.report (s.occurrences k)) := by
  obtain ⟨ms, hms⟩ : ∃ ms, s.action.mentions = .ok ms := by
    cases ha : s.action with
    | unknown shown => exact absurd ha (hs shown)
    | _ => exact ⟨_, rfl⟩
  have hmentions : s.mentions = ms ++ s.highlights.map (Mention.mk .highlight) := by
    rw [mentions, hms]
    rfl
  rw [occurrences, Proposition.report_append, Proposition.report_inputs, Proposition.report_mentions,
    hmentions, findings, hms]
  rfl

theorem stepFindings_named {known : List String} {first : Nat} {steps : List Step}
    {r : List Finding × List String} (h : stepFindings known first steps = .ok r) :
    ∀ s ∈ steps, ∀ shown, s.action ≠ .unknown shown := by
  induction steps generalizing known first r with
  | nil => exact fun s hs => nomatch hs
  | cons step steps ih =>
    obtain ⟨here, hhere, h⟩ := exists_of_bind_eq_ok h
    obtain ⟨later, hlater, -⟩ := exists_of_bind_eq_ok h
    intro s hs shown hunknown
    rcases List.mem_cons.mp hs with rfl | hs
    · rw [Step.findings, hunknown] at hhere
      cases hhere
    · exact ih hlater s hs shown hunknown

namespace Proposition

variable {K : Type} {p : Proposition K}

theorem scope_succ {before after : List Step} {s : Step} (h : p.steps = before ++ s :: after) :
    p.scope (before.length + 1) = p.scope before.length ++ s.action.introduced := by
  have htake : p.steps.take before.length = before := by rw [h, List.take_left]
  have htake' : p.steps.take (before.length + 1) = before ++ [s] := by
    rw [h, List.take_append, List.take_of_length_le (Nat.le_succ _), Nat.add_sub_cancel_left]
    rfl
  rw [scope, scope, htake, htake', List.flatMap_append, List.flatMap_singleton, List.append_assoc]

/-- **The walk of the check.**  From any of the steps on it reports what breaks the rules there, and it
knows the scope of its place. -/
theorem stepFindings_eq {before after : List Step} (h : p.steps = before ++ after)
    (hafter : ∀ s ∈ after, ∀ shown, s.action ≠ .unknown shown) :
    stepFindings (p.scope before.length) before.length after =
      .ok (p.report (stepOccurrences before.length after), p.scope p.steps.length) := by
  induction after generalizing before with
  | nil =>
    rw [h, List.append_nil]
    rfl
  | cons s after ih =>
    -- The scope behind this step is the one the rest of the steps starts with.
    have hstep := Step.findings_eq (p := p) (hafter s List.mem_cons_self) before.length
    have hnext : p.steps = (before ++ [s]) ++ after := by
      rw [h, List.append_assoc, List.singleton_append]
    have hrest := ih hnext fun t ht => hafter t (List.mem_cons_of_mem s ht)
    rw [List.length_append, List.length_singleton, scope_succ h] at hrest
    rw [stepFindings, hstep]
    show (stepFindings _ _ after >>= _) = _
    rw [hrest, stepOccurrences_cons, report_append]
    rfl

/-- **The findings are the occurrences that break the rules**, in the order of the definition. -/
theorem findings_eq_report (hp : ∀ s ∈ p.steps, ∀ shown, s.action ≠ .unknown shown) :
    p.findings = .ok (p.report p.occurrences) := by
  have hscope : p.scope 0 = p.givenPoints := List.append_nil _
  have hwalk := stepFindings_eq (List.nil_append p.steps).symm hp
  rw [List.length_nil, hscope] at hwalk
  rw [findings, hwalk, occurrences, report_append, report_append, report_mentions, report_mentions]
  rfl

theorem named_of_findings {fs : List Finding} (h : p.findings = .ok fs) :
    ∀ s ∈ p.steps, ∀ shown, s.action ≠ .unknown shown := by
  obtain ⟨r, hwalk, -⟩ := exists_of_bind_eq_ok h
  exact stepFindings_named hwalk

theorem mentions_in_scope_iff {place : Place} {ms : List Mention} :
    (∀ o ∈ ms.map (.mention place), ¬ p.Breaks o) ↔
      ∀ id ∈ ms.map Mention.pointId, id ∈ p.scopeAt place := by
  simp [Breaks]

/-- **No occurrence breaks the rules** when all names are in scope and all macros get what they take. -/
theorem not_breaks_iff :
    (∀ o ∈ p.occurrences, ¬ p.Breaks o) ↔
      (∀ id ∈ (p.given.flatMap Element.mentions).map Mention.pointId, id ∈ p.givenPoints) ∧
      (∀ (k : Nat) (s : Step), p.steps[k]? = some s →
        (∀ o ∈ s.action.inputOccurrences k, ¬ p.Breaks o) ∧ ∀ id ∈ s.pointNames, id ∈ p.scope k) ∧
      ∀ id ∈ p.closingNames, id ∈ p.scope p.steps.length := by
  -- Steps are counted from nought, and each has its inputs and its names to be checked.
  have hsteps : (∀ o ∈ stepOccurrences 0 p.steps, ¬ p.Breaks o) ↔
      ∀ (k : Nat) (s : Step), p.steps[k]? = some s →
        (∀ o ∈ s.action.inputOccurrences k, ¬ p.Breaks o) ∧ ∀ id ∈ s.pointNames, id ∈ p.scope k := by
    have hstep : ∀ (k : Nat) (s : Step), (∀ o ∈ s.occurrences k, ¬ p.Breaks o) ↔
        (∀ o ∈ s.action.inputOccurrences k, ¬ p.Breaks o) ∧
          ∀ id ∈ s.pointNames, id ∈ p.scope k := by
      intro k s
      rw [Step.occurrences, List.forall_mem_append, mentions_in_scope_iff, Step.pointId_mentions]
      rfl
    constructor
    · intro h k s hs
      refine (hstep k s).mp fun o ho => h o (mem_stepOccurrences.mpr ⟨k, s, hs, ?_⟩)
      rwa [Nat.zero_add]
    · intro h o ho
      obtain ⟨k, s, hs, ho⟩ := mem_stepOccurrences.mp ho
      rw [Nat.zero_add] at ho
      exact (hstep k s).mpr (h k s hs) o ho
  rw [occurrences, List.forall_mem_append, List.forall_mem_append, mentions_in_scope_iff, hsteps,
    mentions_in_scope_iff, pointId_closingMentions, and_assoc]
  rfl

/-- **A definition without findings names nothing out of scope.** -/
theorem scoped_of_findings (h : p.findings = .ok []) : p.Scoped := by
  have hnamed := named_of_findings h
  rw [findings_eq_report hnamed] at h
  obtain ⟨-, hsteps, hclosing⟩ := not_breaks_iff.mp (report_eq_nil_iff.mp (Except.ok.inj h))
  exact ⟨hnamed, fun k s hs => (hsteps k s hs).2, hclosing⟩

end Proposition

end RulerCompass
