import RulerCompass.Proofs.Replay.Promises
import RulerCompass.Proposition.Findings

/-!
# Labels that steps ask for

A marking and a call of a macro may ask for a label, and a step that succeeds gives it to a point.
The text of a call lists labels under names of the macro's own.  Each macro makes one point of its own
name and looks up the label under this name only; the check counts the labels under all names as
introduced.
-/

namespace RulerCompass

variable {K : Type} {style : Style}

/-! ### Points under labels -/

namespace Figure

variable {f g : Figure K} {label : String}

/-- There is a point under the label, with the id that belongs to it. -/
def Labels (f : Figure K) (label : String) : Prop :=
  ∃ q ∈ f.points, q.id = pointId label ∧ q.label = label

instance (f : Figure K) (label : String) : Decidable (f.Labels label) :=
  inferInstanceAs (Decidable (∃ q ∈ f.points, q.id = pointId label ∧ q.label = label))

theorem Labels.isSome_point? (h : f.Labels label) : (f.point? (pointId label)).isSome := by
  obtain ⟨q, hq, hid, -⟩ := h
  exact isSome_point?_iff.mpr ⟨q, hq, hid⟩

theorem GrowsTo.labels (hfg : f.GrowsTo g) (h : f.Labels label) : g.Labels label := by
  obtain ⟨q, hq, hnames⟩ := h
  exact ⟨q, (List.IsPrefix.filterMap _ hfg).subset hq, hnames⟩

/-- A point that is drawn under a label keeps it. -/
theorem labels_of_addPoint {place : Coord K} {origin : Origin} {r : Figure K × Point K}
    (h : f.addPoint style place origin (some label) = .ok r) : r.1.Labels label := by
  refine ⟨r.2, ?_, ?_⟩
  · rw [points, f.addPoint_elements style h, List.filterMap_append]
    exact List.mem_append_right _ (List.mem_singleton_self _)
  · obtain ⟨gets, hgets, hr⟩ := f.exists_label_of_addPoint style h
    cases hgets
    rw [hr]
    exact ⟨rfl, rfl⟩

end Figure

/-! ### Labels of macros -/

/-- The labels of the call are listed under the name of the macro's result, and once. -/
def MacroCall.NamesResult (c : MacroCall) : Prop :=
  ∀ m ∈ Macro.ofProp? c.propId, ((c.outputLabels.getD []).map Prod.fst).Nodup ∧
    ∀ name ∈ (c.outputLabels.getD []).map Prod.fst, name = m.resultName

/-- All labels that the action asks for are looked up. -/
def Action.NamesResult : Action → Prop
  | .call c => c.NamesResult
  | _ => True

instance : DecidablePred MacroCall.NamesResult := fun c =>
  inferInstanceAs (Decidable (∀ m ∈ Macro.ofProp? c.propId,
    ((c.outputLabels.getD []).map Prod.fst).Nodup ∧
      ∀ name ∈ (c.outputLabels.getD []).map Prod.fst, name = m.resultName))

instance : DecidablePred Action.NamesResult
  | .call c => inferInstanceAs (Decidable c.NamesResult)
  | .straightedge .. => isTrue trivial
  | .compass .. => isTrue trivial
  | .mark _ => isTrue trivial
  | .unknown _ => isTrue trivial

/-- A label under the right name is the one that is looked up. -/
theorem MacroCall.NamesResult.lookup {c : MacroCall} (h : c.NamesResult) {m : Macro}
    (hm : Macro.ofProp? c.propId = some m) {name label : String}
    (hlabel : (name, label) ∈ c.outputLabels.getD []) :
    MacroCall.outputLabel? c.outputLabels m.resultName = some label := by
  obtain ⟨hnodup, hnames⟩ := h m hm
  obtain rfl := hnames name (List.mem_map_of_mem hlabel)
  obtain ⟨before, after, hsplit⟩ := List.append_of_mem hlabel
  refine List.lookup_eq_some_iff.mpr ⟨before, after, hsplit, fun q hq => ?_⟩
  rw [hsplit, List.map_append, List.nodup_append] at hnodup
  rw [bne_iff_ne]
  exact (hnodup.2.2 q.1 (List.mem_map_of_mem hq) _ List.mem_cons_self).symm

namespace Macro

variable [Scalar K] {s : Scene K} {extend : Bool} {labels labels' : OutputLabels} {m : Macro}
  {inputs : List String} {o : Outcome K}

/-- A macro that has drawn something has given its result the label that is looked up. -/
theorem Runs.labels_result (h : Runs style s extend labels m inputs o) (hadded : o.added ≠ [])
    {label : String} (hlabel : MacroCall.outputLabel? labels m.resultName = some label) :
    o.scene.figure.Labels label := by
  obtain ⟨f, place, r, hr, hgrows, -⟩ := h.exists_result hadded
  rw [hlabel] at hr
  exact hgrows.labels (Figure.labels_of_addPoint hr)

theorem drawTriangle_congr
    (h : MacroCall.outputLabel? labels "apex" = MacroCall.outputLabel? labels' "apex") :
    drawTriangle style s extend labels inputs = drawTriangle style s extend labels' inputs := by
  simp only [drawTriangle, triangleOn, h]

theorem drawTransfer_congr
    (h : MacroCall.outputLabel? labels "result" = MacroCall.outputLabel? labels' "result") :
    drawTransfer style s extend labels inputs = drawTransfer style s extend labels' inputs := by
  simp only [drawTransfer, transferOn, h]

theorem drawCutOff_congr
    (h : MacroCall.outputLabel? labels "result" = MacroCall.outputLabel? labels' "result") :
    drawCutOff style s extend labels inputs = drawCutOff style s extend labels' inputs := by
  simp only [drawCutOff, cutOffOn, innerLabels, h]

/-- **A macro reads one label**, the one under the name of its result. -/
theorem execute_congr
    (h : MacroCall.outputLabel? labels m.resultName = MacroCall.outputLabel? labels' m.resultName) :
    m.execute style s extend labels inputs = m.execute style s extend labels' inputs := by
  cases m with
  | triangle => exact drawTriangle_congr h
  | transfer => exact drawTransfer_congr h
  | cutOff => exact drawCutOff_congr h

end Macro

/-! ### Labels of steps -/

/-- All that is counted as introduced is made, when the labels are listed under the right names. -/
theorem Action.introduced_made {a : Action} (ha : a.NamesResult)
    (hknown : ∀ c, a = .call c → (Macro.ofProp? c.propId).isSome) {id : String}
    (hid : id ∈ a.introduced) : ∃ label, id = pointId label ∧ a.made? = some id := by
  cases a with
  | straightedge fromId toId => cases hid
  | compass centerId radiusPointId => cases hid
  | mark m =>
    obtain ⟨label, hlabel, rfl⟩ := Option.map_eq_some_iff.mp (Option.mem_toList.mp hid)
    obtain ⟨hlabel, -⟩ := Option.filter_eq_some_iff.mp hlabel
    exact ⟨label, rfl, congrArg (Option.map pointId) hlabel⟩
  | call c =>
    -- The one label of the macro is the one it reads.
    obtain ⟨⟨name, label⟩, hlabel, rfl⟩ := List.mem_map.mp hid
    obtain ⟨m, hm⟩ := Option.isSome_iff_exists.mp (hknown c rfl)
    refine ⟨label, rfl, ?_⟩
    simp only [made?, hm, MacroCall.NamesResult.lookup ha hm hlabel, Option.bind_eq_bind,
      Option.bind_some, Option.map_some]
  | unknown shown => cases hid

namespace Replay

variable [Scalar K] {propId : Int} {extend : Bool} {r r' : Replay K}

/-- **A step that succeeds gives the label it asks for.** -/
theorem labels_of_attempt {index : Nat} {a : Action} {label : String}
    (hmade : a.made? = some (pointId label))
    (h : (r.attempt style propId extend index a).result = .ok (true, r')) :
    r'.scene.figure.Labels label := by
  cases attempted_of_attempt h with
  | segment fromId toId => cases hmade
  | circle centerId radiusPointId => cases hmade
  | @marked m c s point hc hs =>
    -- Ids show their labels.
    obtain ⟨label', hlabel, hid⟩ := Option.map_eq_some_iff.mp hmade
    obtain rfl := pointId_injective hid
    obtain ⟨p, hp, hs⟩ := exists_of_bind_eq_ok hs
    cases hs
    rw [hlabel] at hp
    exact Figure.labels_of_addPoint hp
  | @called c m o layers hm ho hadded hlayers =>
    obtain ⟨m', hm', hmade⟩ := Option.bind_eq_some_iff.mp hmade
    obtain rfl : m = m' := Option.some.inj (hm.symm.trans hm')
    obtain ⟨label', hlabel, hid⟩ := Option.map_eq_some_iff.mp hmade
    obtain rfl := pointId_injective hid
    rcases Macro.eq_unchanged_or_runs ho with rfl | hruns
    · exact absurd rfl hadded
    · exact hruns.labels_result hadded hlabel

/-- A call does the same with other labels, if the macro finds the same label among them. -/
theorem attempt_call_congr {index : Nat} {c : MacroCall} {m : Macro} {labels : Macro.OutputLabels}
    (hm : Macro.ofProp? c.propId = some m)
    (h : MacroCall.outputLabel? labels m.resultName =
      MacroCall.outputLabel? c.outputLabels m.resultName) :
    r.attempt style propId extend index (.call { c with outputLabels := labels }) =
      r.attempt style propId extend index (.call c) := by
  simp only [attempt, hm, Macro.execute_congr h]

/-- **The label that a macro looks up is made.**  When the call of a macro succeeds, the label that it
lists under the name of the macro's result is that of a point right after the step, and so are all its
labels if they are listed under this name.  Labels under other names have no influence on the step. -/
theorem label_made_of_succeeds (style : Style) (p : Proposition K) (given : List (Element K))
    (steps : List Step) {k : Nat} {step : Step} {c : MacroCall} (hstep : steps[k]? = some step)
    (hcall : step.action = .call c) (hsucceeds : Succeeds style p given steps k) :
    ∃ (m : Macro) (r r' : Replay K), Macro.ofProp? c.propId = some m ∧
      (performAll style p.id p.prolongs 0 (steps.take k) (start p given)).result = .ok r ∧
      (performAll style p.id p.prolongs 0 (steps.take (k + 1)) (start p given)).result = .ok r' ∧
      (∀ label, MacroCall.outputLabel? c.outputLabels m.resultName = some label →
        r'.scene.figure.Labels label) ∧
      (c.NamesResult → ∀ name label, (name, label) ∈ c.outputLabels.getD [] →
        r'.scene.figure.Labels label) ∧
      ∀ labels, MacroCall.outputLabel? labels m.resultName =
          MacroCall.outputLabel? c.outputLabels m.resultName →
        r.attempt style p.id p.prolongs k (.call { c with outputLabels := labels }) =
          r.attempt style p.id p.prolongs k (.call c) := by
  obtain ⟨r, step', hr, hstep', hperforms⟩ := hsucceeds
  obtain rfl : step = step' := Option.some.inj (hstep.symm.trans hstep')
  obtain ⟨v, hout, hr'⟩ := exists_of_performs hstep hr hperforms
  rw [hcall] at hperforms hout
  obtain ⟨m, o, hm, -, -⟩ := hperforms
  have hlabels : ∀ label, MacroCall.outputLabel? c.outputLabels m.resultName = some label →
      v.scene.figure.Labels label := by
    intro label hlabel
    refine labels_of_attempt ?_ hout
    simp only [Action.made?, hm, hlabel, Option.bind_eq_bind, Option.bind_some, Option.map_some]
  refine ⟨m, r, _, hm, hr, hr', hlabels, fun hnames name label hlabel => ?_, fun labels h => ?_⟩
  · -- All labels of the call are that of the result.
    exact hlabels label (hnames.lookup hm hlabel)
  · exact attempt_call_congr hm h

/-- A triangle that lists `D` under the name of its apex and `E` under another name: `D` is made. -/
theorem label_made_apex :
    let c : MacroCall := {
      propId := 1, inputs := ["pt-A", "pt-B"]
      outputLabels := some [("apex", "D"), ("result", "E")] }
    let given : List (Element Float) := [Point.given "A" ⟨0.0, 0.0⟩, Point.given "B" ⟨1.0, 0.0⟩]
    let p : Proposition Float := {
      id := 1, title := "", given := given, steps := [{ action := .call c }] }
    Succeeds {} p given p.steps 0 ∧
      ∃ r, (performAll {} p.id p.prolongs 0 (p.steps.take 1) (start p given)).result = .ok r ∧
        r.scene.figure.Labels "D" := by
  intro c given p
  have hflags : flags {} p given p.steps = some [true] := by decide +kernel
  have hsucceeds : Succeeds {} p given p.steps 0 := (succeeds_iff_flag hflags (by decide)).mpr rfl
  obtain ⟨m, -, r, hm, -, hr, hlabels, -, -⟩ :=
    label_made_of_succeeds {} p given p.steps rfl rfl hsucceeds
  refine ⟨hsucceeds, r, hr, hlabels "D" ?_⟩
  obtain rfl : Macro.triangle = m := Option.some.inj hm
  rfl

/-- A triangle that lists `D` under a name it does not look up.  The check takes `D` as introduced, so
it has no finding about the line to `D`; the step succeeds, and no point `D` is made. -/
theorem introduced_not_made :
    let c : MacroCall := {
      propId := 1, inputs := ["pt-A", "pt-B"], outputLabels := some [("result", "D")] }
    let given : List (Element Float) := [Point.given "A" ⟨0.0, 0.0⟩, Point.given "B" ⟨1.0, 0.0⟩]
    let p : Proposition Float := {
      id := 1, title := "", given := given
      steps := [{ action := .call c }, { action := .straightedge "pt-D" "pt-A" }] }
    p.findings = .ok [] ∧ ("result", "D") ∈ c.outputLabels.getD [] ∧
      Succeeds {} p given p.steps 0 ∧
      ∃ r, (performAll {} p.id p.prolongs 0 (p.steps.take 1) (start p given)).result = .ok r ∧
        ¬ r.scene.figure.Labels "D" := by
  intro c given p
  have hflags : flags {} p given p.steps = some [true, true] := by decide +kernel
  have hsucceeds : Succeeds {} p given p.steps 0 := (succeeds_iff_flag hflags (by decide)).mpr rfl
  let first := (performAll {} p.id p.prolongs 0 (p.steps.take 1) (start p given)).result
  have hlabels : first.toOption.map (fun r => decide (r.scene.figure.Labels "D")) = some false := by
    decide +kernel
  obtain ⟨r, hr, hunlabelled⟩ := exists_of_map_toOption_eq_some hlabels
  exact ⟨rfl, List.mem_singleton_self _, hsucceeds, r, hr, of_decide_eq_false hunlabelled⟩

end Replay

end RulerCompass
