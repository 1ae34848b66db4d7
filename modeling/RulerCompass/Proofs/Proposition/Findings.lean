import Mathlib.Data.List.Basic
import RulerCompass.Proofs.Proposition.Scope

/-!
# What the check of a definition decides

A definition is well scoped when all that it names is given or made before, and each macro gets as many
inputs as it takes.  The check decides exactly this.  It reports each occurrence that breaks the rules
once, in the order of the definition, and to give more points can only take findings away.
-/

namespace RulerCompass

/-! ### Making points -/

/-- A mark makes the point with its label, and a macro those with the labels that are asked for. -/
inductive Action.Introduces : Action → String → Prop where
  | mark {m : Marking} {label : String} : m.label = some label → label ≠ "" →
      Introduces (.mark m) (pointId label)
  | call {c : MacroCall} {labels : List (String × String)} {name label : String} :
      c.outputLabels = some labels → (name, label) ∈ labels → Introduces (.call c) (pointId label)

theorem Action.mem_introduced_iff {a : Action} {id : String} :
    id ∈ a.introduced ↔ a.Introduces id := by
  constructor
  · intro h
    cases a with
    | mark m =>
      rw [introduced, Option.mem_toList, Option.map_eq_some_iff] at h
      obtain ⟨label, hlabel, rfl⟩ := h
      obtain ⟨hlabel, hne⟩ := Option.filter_eq_some_iff.mp hlabel
      exact .mark hlabel (of_decide_eq_true hne)
    | call c =>
      rw [introduced, List.mem_map] at h
      obtain ⟨⟨name, label⟩, hmem, rfl⟩ := h
      cases hlabels : c.outputLabels with
      | none =>
        rw [hlabels] at hmem
        cases hmem
      | some labels =>
        rw [hlabels] at hmem
        exact .call hlabels hmem
    | straightedge fromId toId => cases h
    | compass centerId radiusPointId => cases h
    | unknown shown => cases h
  · -- A marking makes its label, a macro each of its labels; nothing else introduces a name.
    rintro (⟨hlabel, hne⟩ | ⟨hlabels, hmem⟩)
    · rw [introduced, Option.mem_toList, Option.map_eq_some_iff]
      exact ⟨_, Option.filter_eq_some_iff.mpr ⟨hlabel, decide_eq_true hne⟩, rfl⟩
    · simp only [introduced, hlabels]
      exact List.mem_map_of_mem hmem

namespace Proposition

variable {K : Type}

/-! ### Well-scoped definitions -/

section Scoping

variable (p : Proposition K)

/-- The point is given or made by one of the first `k` steps. -/
def KnownAt (k : Nat) (id : String) : Prop :=
  id ∈ p.givenPoints ∨ ∃ j < k, ∃ s : Step, p.steps[j]? = some s ∧ s.action.Introduces id

/-- Points are named only after they are given or made, and macros get what they take. -/
structure WellScoped : Prop where
  segments : ∀ s : Segment, .segment s ∈ p.given → s.fromId ∈ p.givenPoints ∧ s.toId ∈ p.givenPoints
  circles : ∀ c : Circle, .circle c ∈ p.given →
    c.centerId ∈ p.givenPoints ∧ c.radiusPointId ∈ p.givenPoints
  steps : ∀ (k : Nat) (s : Step), p.steps[k]? = some s → ∀ id ∈ s.pointNames, p.KnownAt k id
  inputs : ∀ s ∈ p.steps, ∀ (c : MacroCall) (m : Macro), s.action = .call c →
    Macro.ofProp? c.propId = some m → c.inputs.length = m.inputCount
  closing : ∀ id ∈ p.closingNames, p.KnownAt p.steps.length id

variable {p}

theorem mem_scope_iff {k : Nat} {id : String} : id ∈ p.scope k ↔ p.KnownAt k id := by
  -- The names before a step are those introduced by some earlier step.
  have hearlier : (∃ s ∈ p.steps.take k, id ∈ s.action.introduced) ↔
      ∃ j < k, ∃ s : Step, p.steps[j]? = some s ∧ s.action.Introduces id := by
    constructor
    · rintro ⟨s, hs, hid⟩
      obtain ⟨j, hj⟩ := List.getElem?_of_mem hs
      rw [List.getElem?_take] at hj
      split at hj
      next hjk => exact ⟨j, hjk, s, hj, Action.mem_introduced_iff.mp hid⟩
      next => cases hj
    · rintro ⟨j, hjk, s, hs, hid⟩
      refine ⟨s, List.mem_of_getElem? (i := j) ?_, Action.mem_introduced_iff.mpr hid⟩
      rw [List.getElem?_take, if_pos hjk, hs]
  rw [scope, List.mem_append, List.mem_flatMap, hearlier]
  rfl

theorem given_in_scope_iff :
    (∀ id ∈ (p.given.flatMap Element.mentions).map Mention.pointId, id ∈ p.givenPoints) ↔
      (∀ s : Segment, .segment s ∈ p.given →
        s.fromId ∈ p.givenPoints ∧ s.toId ∈ p.givenPoints) ∧
      ∀ c : Circle, .circle c ∈ p.given →
        c.centerId ∈ p.givenPoints ∧ c.radiusPointId ∈ p.givenPoints := by
  constructor
  · intro h
    have helement : ∀ e ∈ p.given, ∀ m ∈ e.mentions, m.pointId ∈ p.givenPoints := fun e he m hm =>
      h _ (List.mem_map_of_mem (List.mem_flatMap_of_mem he hm))
    -- A segment or a circle mentions its two points.
    refine ⟨fun s hs => ⟨?_, ?_⟩, fun c hc => ⟨?_, ?_⟩⟩
    · exact helement _ hs ⟨.givenSegmentFrom, s.fromId⟩ (by simp [Element.mentions])
    · exact helement _ hs ⟨.givenSegmentTo, s.toId⟩ (by simp [Element.mentions])
    · exact helement _ hc ⟨.givenCircleCenter, c.centerId⟩ (by simp [Element.mentions])
    · exact helement _ hc ⟨.givenCircleRadiusPoint, c.radiusPointId⟩ (by simp [Element.mentions])
  · rintro ⟨hsegments, hcircles⟩ id hid
    obtain ⟨m, hm, rfl⟩ := List.mem_map.mp hid
    obtain ⟨e, he, hm⟩ := List.mem_flatMap.mp hm
    cases e with
    | point q => cases hm
    | segment s =>
      obtain ⟨hfrom, hto⟩ := hsegments s he
      simp only [Element.mentions, List.mem_cons, List.not_mem_nil, or_false] at hm
      rcases hm with rfl | rfl
      · exact hfrom
      · exact hto
    | circle c =>
      obtain ⟨hcenter, hradius⟩ := hcircles c he
      simp only [Element.mentions, List.mem_cons, List.not_mem_nil, or_false] at hm
      rcases hm with rfl | rfl
      · exact hcenter
      · exact hradius

theorem inputs_right_iff {k : Nat} {a : Action} :
    (∀ o ∈ a.inputOccurrences k, ¬ p.Breaks o) ↔
      ∀ (c : MacroCall) (m : Macro), a = .call c → Macro.ofProp? c.propId = some m →
        c.inputs.length = m.inputCount := by
  cases a with
  | call c =>
    have hcall : (∀ o ∈ (Action.call c).inputOccurrences k, ¬ p.Breaks o) ↔
        ∀ m : Macro, Macro.ofProp? c.propId = some m → c.inputs.length = m.inputCount := by
      simp [Action.inputOccurrences, Breaks]
    rw [hcall]
    constructor
    · rintro h _ m ⟨⟩ hm
      exact h m hm
    · intro h m hm
      exact h c m rfl hm
  | _ => simp [Action.inputOccurrences]

/-- Nothing breaks the rules of a well-scoped definition, and of no other. -/
theorem wellScoped_iff : p.WellScoped ↔ ∀ o ∈ p.occurrences, ¬ p.Breaks o := by
  rw [not_breaks_iff, given_in_scope_iff]
  simp only [inputs_right_iff, mem_scope_iff]
  constructor
  · intro h
    refine ⟨⟨h.segments, h.circles⟩, fun k s hs => ⟨?_, h.steps k s hs⟩, h.closing⟩
    exact h.inputs s (List.mem_of_getElem? hs)
  · rintro ⟨⟨hsegments, hcircles⟩, hsteps, hclosing⟩
    refine ⟨hsegments, hcircles, fun k s hs => (hsteps k s hs).2, fun s hs => ?_, hclosing⟩
    obtain ⟨k, hk⟩ := List.getElem?_of_mem hs
    exact (hsteps k s hk).1

end Scoping

/-! ### More given points -/

/-- The same segments and circles are given, and at least the same points. -/
structure GivesMore (given more : List (Element K)) : Prop where
  lines : (more.filter fun e => e.point?.isNone) = given.filter fun e => e.point?.isNone
  points : ∀ e ∈ given, e.point?.isSome → e ∈ more

theorem mentions_of_point {e : Element K} (he : e.point?.isNone = false) : e.mentions = [] := by
  cases e with
  | point q => rfl
  | segment s => cases he
  | circle c => cases he

theorem flatMap_mentions (es : List (Element K)) :
    es.flatMap Element.mentions = (es.filter fun e => e.point?.isNone).flatMap Element.mentions := by
  induction es with
  | nil => rfl
  | cons e es ih =>
    rw [List.flatMap_cons, ih, List.filter_cons]
    split
    next => rw [List.flatMap_cons]
    next he => rw [mentions_of_point (Bool.eq_false_iff.mpr he), List.nil_append]

variable {p : Proposition K} {more : List (Element K)}

theorem occurrences_of_givesMore (h : GivesMore p.given more) :
    { p with given := more }.occurrences = p.occurrences := by
  rw [occurrences, occurrences, flatMap_mentions more, h.lines, ← flatMap_mentions]
  rfl

theorem breaks_of_givesMore (h : GivesMore p.given more) {o : Occurrence}
    (ho : { p with given := more }.Breaks o) : p.Breaks o := by
  -- More given points leave every scope at least as large as it was.
  have hgiven : ∀ id ∈ p.givenPoints, id ∈ { p with given := more }.givenPoints := by
    intro id hid
    obtain ⟨q, hq, rfl⟩ := List.mem_map.mp hid
    obtain ⟨e, he, heq⟩ := List.mem_filterMap.mp hq
    have hmore := h.points e he (Option.isSome_of_eq_some heq)
    exact List.mem_map_of_mem (List.mem_filterMap.mpr ⟨e, hmore, heq⟩)
  have hscope : ∀ k, ∀ id ∈ p.scope k, id ∈ { p with given := more }.scope k := by
    intro k id hid
    rcases List.mem_append.mp hid with hid | hid
    · exact List.mem_append_left _ (hgiven id hid)
    · exact List.mem_append_right _ hid
  -- An occurrence breaks nothing it did not break before; the number of inputs does not change.
  cases o with
  | mention place m =>
    intro hm
    apply ho
    cases place with
    | given => exact hgiven _ hm
    | step k => exact hscope k _ hm
    | closing => exact hscope p.steps.length _ hm
  | inputs step propId takes got => exact ho

theorem report_sublist_of_givesMore (h : GivesMore p.given more) (os : List Occurrence) :
    ({ p with given := more }.report os).Sublist (p.report os) := by
  refine List.Sublist.map _ (List.monotone_filter_right os ?_)
  intro o ho
  exact decide_eq_true (breaks_of_givesMore h (of_decide_eq_true ho))

/-! ### What the check decides -/

/-- **The check is exact.**  When all steps ask for one of the four operations, a definition has no
findings just if it is well scoped.  Its findings are those of the occurrences that break the rules, one
for each, in the order of the definition; and if more points are given, none is added. -/
theorem findings_exact (p : Proposition K) (hp : ∀ s ∈ p.steps, ∀ shown, s.action ≠ .unknown shown) :
    (p.findings = .ok [] ↔ p.WellScoped) ∧
    p.findings = .ok ((p.occurrences.filter fun o => decide (p.Breaks o)).map Occurrence.finding) ∧
    ∀ more : List (Element K), GivesMore p.given more →
      ∃ fs fs', p.findings = .ok fs ∧ { p with given := more }.findings = .ok fs' ∧
        fs'.Sublist fs := by
  have hfindings := findings_eq_report hp
  refine ⟨?_, hfindings, fun more hmore => ?_⟩
  · rw [hfindings, Except.ok.injEq, report_eq_nil_iff, wellScoped_iff]
  · have hmoreFindings := findings_eq_report (p := { p with given := more }) hp
    refine ⟨_, _, hfindings, hmoreFindings, ?_⟩
    rw [occurrences_of_givesMore hmore]
    exact report_sublist_of_givesMore hmore p.occurrences

/-- A side is given whose end D is not, the line to C is asked for one step before C is marked, and I.1
gets one of its two inputs.  These are the findings, in this order; C may be named from the third step
on.  If C is given as well, only the others remain. -/
theorem findings_exact_early_name :
    let A : Element Float := Point.given "A" ⟨0.0, 0.0⟩
    let B : Element Float := Point.given "B" ⟨1.0, 0.0⟩
    let C : Element Float := Point.given "C" ⟨2.0, 0.0⟩
    let p : Proposition Float :=
      { id := 8
        title := ""
        given := [A, B, Segment.given "A" "D"]
        steps := [
          { action := .straightedge "pt-A" "pt-C" },
          { action := .mark { ofA := some (.circle "pt-A" "pt-B"), label := some "C" } },
          { action := .call { propId := 1, inputs := ["pt-C"] }, highlights := ["pt-C"] }]
        results := [("pt-B", "pt-C")] }
    let sideD : Finding := .dangling ⟨.givenSegmentTo, "pt-D"⟩ none
    let lineC : Finding := .dangling ⟨.segmentTo, "pt-C"⟩ (some 0)
    let inputs : Finding := .wrongArity 2 1 2 1
    (∀ s ∈ p.steps, ∀ shown, s.action ≠ .unknown shown) ∧ GivesMore p.given (C :: p.given) ∧
      p.findings = .ok [sideD, lineC, inputs] ∧ ¬ p.WellScoped ∧
      ∃ fs', { p with given := C :: p.given }.findings = .ok fs' ∧
        fs'.Sublist [sideD, lineC, inputs] := by
  intro A B C p sideD lineC inputs
  have hsteps : ∀ s ∈ p.steps, ∀ shown, s.action ≠ .unknown shown := by
    intro s hs shown hunknown
    simp only [p, List.mem_cons, List.not_mem_nil, or_false] at hs
    rcases hs with rfl | rfl | rfl <;> cases hunknown
  have hmore : GivesMore p.given (C :: p.given) :=
    ⟨rfl, fun e he _ => List.mem_cons_of_mem C he⟩
  obtain ⟨hiff, hfindings, hsublist⟩ := findings_exact p hsteps
  have hlist : (p.occurrences.filter fun o => decide (p.Breaks o)).map Occurrence.finding =
      [sideD, lineC, inputs] := by decide +kernel
  rw [hlist] at hfindings
  refine ⟨hsteps, hmore, hfindings, fun hscoped => ?_, ?_⟩
  · have hnil := hiff.mpr hscoped
    rw [hfindings] at hnil
    cases hnil
  · obtain ⟨fs, fs', hfs, hfs', hsub⟩ := hsublist _ hmore
    rw [hfindings] at hfs
    cases hfs
    exact ⟨fs', hfs', hsub⟩

end Proposition

end RulerCompass
