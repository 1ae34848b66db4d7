import RulerCompass.Proofs.Macro.Abreast
import RulerCompass.Proofs.Replay.Lockstep

/-!
# Replays alongside, with macros

A macro that runs takes a label for each point that it makes, and where its points lie has no influence
on their names.  What does depend on places is how many points there are: a cut begins with a transfer,
which is dropped with its label when the cut begins where the less segment does.  So names survive a
drag as long as macros run in the same replays and take the same branches.
-/

namespace RulerCompass

variable {K : Type} {style : Style}

/-- At each position that both lists have, the elements differ in their places at most. -/
def NamedAlike (es es' : List (Element K)) : Prop :=
  ∀ (i : Nat) (e e' : Element K), es[i]? = some e → es'[i]? = some e' → e.unplaced = e'.unplaced

theorem SameNames.namedAlike {es es' : List (Element K)} (h : SameNames es es') :
    NamedAlike es es' := by
  intro i e e' he he'
  have hget : (es.map Element.unplaced)[i]? = (es'.map Element.unplaced)[i]? :=
    congrArg (fun (l : List (Element Unit)) => l[i]?) h
  rw [List.getElem?_map, List.getElem?_map, he, he'] at hget
  exact Option.some.inj hget

theorem Figure.InStep.namedAlike {f g f' g' : Figure K} {es es' : List (Element K)}
    (h : InStep f g f' g') (hes : f'.elements = f.elements ++ es)
    (hes' : g'.elements = g.elements ++ es') : NamedAlike es es' := by
  intro i e e' he he'
  exact h.names es es' hes hes' e (List.mem_of_getElem? he) e' (List.mem_of_getElem? he')

variable [Scalar K]

/-! ### Calls -/

namespace Scene

variable {s t : Scene K} {extend : Bool} {c : MacroCall} {m : Macro} {es : List (Element K)}

theorem exists_of_act_call (h : s.act style extend (.call c) = .ok t)
    (hm : Macro.ofProp? c.propId = some m) :
    ∃ o, (m.execute style s extend c.outputLabels c.inputs).result = .ok o ∧ t = o.scene := by
  simp only [act, hm] at h
  obtain ⟨o, ho, h⟩ := exists_of_bind_eq_ok h
  cases h
  exact ⟨o, ho, rfl⟩

theorem eq_of_act_call (h : s.act style extend (.call c) = .ok t)
    (hm : Macro.ofProp? c.propId = none) : t = s := by
  simp only [act, hm] at h
  cases h
  rfl

theorem builds_of_act_call (h : s.act style extend (.call c) = .ok t)
    (hm : Macro.ofProp? c.propId = some m) (hes : t.figure.elements = s.figure.elements ++ es) :
    Macro.Builds style c.outputLabels s.figure m c.inputs es t.figure := by
  obtain ⟨o, ho, rfl⟩ := exists_of_act_call h hm
  have hbuilds := Macro.builds_of_execute ho
  obtain rfl : es = o.added := List.append_cancel_left (hes.symm.trans hbuilds.elements_eq)
  exact hbuilds

/-- A call that the scene allows makes as many points as its branch says, and another draws nothing. -/
theorem pointCount_of_act_call (h : s.act style extend (.call c) = .ok t)
    (hm : Macro.ofProp? c.propId = some m) (hes : t.figure.elements = s.figure.elements ++ es) :
    (s.Performs style extend (.call c) ∧
        Macro.pointCount es = m.pointsMade s.figure c.inputs) ∨
      (¬ s.Performs style extend (.call c) ∧ es = []) := by
  obtain ⟨o, ho, rfl⟩ := exists_of_act_call h hm
  obtain rfl : es = o.added :=
    List.append_cancel_left (hes.symm.trans (Macro.builds_of_execute ho).elements_eq)
  -- The step has been performed exactly when the macro has added elements.
  by_cases hadded : o.added = []
  · refine Or.inr ⟨?_, hadded⟩
    rintro ⟨m', o', hm', ho', hadded'⟩
    obtain rfl : m = m' := Option.some.inj (hm.symm.trans hm')
    obtain rfl : o = o' := Except.ok.inj (ho.symm.trans ho')
    exact hadded' hadded
  · exact Or.inl ⟨⟨m, o, hm, ho, hadded⟩, Macro.pointCount_of_execute ho hadded⟩

end Scene

namespace Replay

variable {p : Proposition K} {given given' : List (Element K)} {steps : List Step}
  {extras : List Extra} {u u' v v' : Replay K} {es es' : List (Element K)}

/-- Each macro step runs in both replays or in neither, and where it runs it takes the same branch. -/
def SameBranches (style : Style) (p : Proposition K) (given given' : List (Element K))
    (steps : List Step) : Prop :=
  ∀ (k : Nat) (step : Step) (c : MacroCall) (m : Macro) (u u' : Replay K), steps[k]? = some step →
    step.action = .call c → Macro.ofProp? c.propId = some m →
    (performAll style p.id p.prolongs 0 (steps.take k) (start p given)).result = .ok u →
    (performAll style p.id p.prolongs 0 (steps.take k) (start p given')).result = .ok u' →
    (Succeeds style p given steps k ↔ Succeeds style p given' steps k) ∧
      (Succeeds style p given steps k →
        m.pointsMade u.scene.figure c.inputs = m.pointsMade u'.scene.figure c.inputs)

/-- The action with this number adds these elements.  Steps are counted first, then extras. -/
inductive AddsAt (style : Style) (p : Proposition K) (given : List (Element K)) (steps : List Step)
    (extras : List Extra) : Nat → List (Element K) → Prop
  | step {k : Nat} {u v : Replay K} {es : List (Element K)} (hk : k < steps.length)
      (hu : (performAll style p.id p.prolongs 0 (steps.take k) (start p given)).result = .ok u)
      (hv : (performAll style p.id p.prolongs 0 (steps.take (k + 1)) (start p given)).result = .ok v)
      (hes : v.scene.figure.elements = u.scene.figure.elements ++ es) :
      AddsAt style p given steps extras k es
  | extra {k : Nat} {r u v : Replay K} {es : List (Element K)} (hk : k < extras.length)
      (hr : (throughConclusion style p given steps).result = .ok r)
      (hu : r.performExtras style p.prolongs steps.length (extras.take k) = .ok u)
      (hv : r.performExtras style p.prolongs steps.length (extras.take (k + 1)) = .ok v)
      (hes : v.scene.figure.elements = u.scene.figure.elements ++ es) :
      AddsAt style p given steps extras (steps.length + k) es

/-! ### One step -/

/-- A macro that makes as many points in both replays keeps the lockstep. -/
theorem lockstep_call {propId : Int} {extend : Bool} {step : Step × Nat} {c : MacroCall}
    (h : Lockstep u u') (hc : step.1.action = .call c)
    (hv : (u.perform style propId extend step).result = .ok v)
    (hv' : (u'.perform style propId extend step).result = .ok v')
    (hes : v.scene.figure.elements = u.scene.figure.elements ++ es)
    (hes' : v'.scene.figure.elements = u'.scene.figure.elements ++ es')
    (hcount : ∀ m, Macro.ofProp? c.propId = some m → Macro.pointCount es = Macro.pointCount es') :
    Lockstep v v' ∧ NamedAlike es es' := by
  have hact := scene_perform hv
  have hact' := scene_perform hv'
  rw [hc] at hact hact'
  cases hm : Macro.ofProp? c.propId with
  -- No such macro: both scenes stay as they are.
  | none =>
    have hscene := Scene.eq_of_act_call hact hm
    have hscene' := Scene.eq_of_act_call hact' hm
    rw [hscene] at hes
    obtain rfl : es = [] := List.self_eq_append_right.mp hes
    refine ⟨?_, nofun⟩
    rw [Lockstep, hscene, hscene']
    exact h
  | some m =>
    have hbuilds := Scene.builds_of_act_call hact hm hes
    have hbuilds' := Scene.builds_of_act_call hact' hm hes'
    obtain ⟨habreast, hnames⟩ := hbuilds.abreast hbuilds' h (hcount m hm)
    exact ⟨habreast, hnames.namedAlike⟩

/-- In one branch a macro step makes as many points in both replays. -/
theorem pointCount_eq (hbranches : SameBranches style p given given' steps) {k : Nat} {step : Step}
    {c : MacroCall} {m : Macro} (hstep : steps[k]? = some step) (hc : step.action = .call c)
    (hm : Macro.ofProp? c.propId = some m)
    (hu : (performAll style p.id p.prolongs 0 (steps.take k) (start p given)).result = .ok u)
    (hu' : (performAll style p.id p.prolongs 0 (steps.take k) (start p given')).result = .ok u')
    (hv : (u.perform style p.id p.prolongs (step, k)).result = .ok v)
    (hv' : (u'.perform style p.id p.prolongs (step, k)).result = .ok v')
    (hes : v.scene.figure.elements = u.scene.figure.elements ++ es)
    (hes' : v'.scene.figure.elements = u'.scene.figure.elements ++ es') :
    Macro.pointCount es = Macro.pointCount es' := by
  obtain ⟨hboth, hpoints⟩ := hbranches k step c m u u' hstep hc hm hu hu'
  rw [succeeds_iff_performs hstep hu, succeeds_iff_performs hstep hu', hc] at hboth
  rw [succeeds_iff_performs hstep hu, hc] at hpoints
  have hact := scene_perform hv
  have hact' := scene_perform hv'
  rw [hc] at hact hact'
  -- A branch taken in one replay is taken in the other, by assumption.
  rcases Scene.pointCount_of_act_call hact hm hes with ⟨hruns, hcount⟩ | ⟨hrefused, rfl⟩
  · rcases Scene.pointCount_of_act_call hact' hm hes' with ⟨-, hcount'⟩ | ⟨hrefused', -⟩
    · rw [hcount, hcount', hpoints hruns]
    · exact absurd (hboth.mp hruns) hrefused'
  · rcases Scene.pointCount_of_act_call hact' hm hes' with ⟨hruns', -⟩ | ⟨-, rfl⟩
    · exact absurd (hboth.mpr hruns') hrefused
    · rfl

/-- **One step keeps the lockstep**, with or without a macro. -/
theorem lockstep_step (hbranches : SameBranches style p given given' steps) {k : Nat}
    (hk : k < steps.length) (h : Lockstep u u')
    (hu : (performAll style p.id p.prolongs 0 (steps.take k) (start p given)).result = .ok u)
    (hu' : (performAll style p.id p.prolongs 0 (steps.take k) (start p given')).result = .ok u')
    (hv : (u.perform style p.id p.prolongs (steps[k], k)).result = .ok v)
    (hv' : (u'.perform style p.id p.prolongs (steps[k], k)).result = .ok v')
    (hes : v.scene.figure.elements = u.scene.figure.elements ++ es)
    (hes' : v'.scene.figure.elements = u'.scene.figure.elements ++ es') :
    Lockstep v v' ∧ NamedAlike es es' := by
  by_cases hcall : ∀ c, steps[k].action ≠ .call c
  · have hstays : InStep u u' v v' := inStep_perform h _ _ hcall v v' hv hv'
    exact ⟨hstays.abreast, hstays.namedAlike hes hes'⟩
  · -- Only macros need the assumption, for they may run in one replay and not in the other.
    obtain ⟨c, hc⟩ := not_forall_not.mp hcall
    have hget : steps[k]? = some steps[k] := List.getElem?_eq_getElem hk
    exact lockstep_call h hc hv hv' hes hes' fun m hm =>
      pointCount_eq hbranches hget hc hm hu hu' hv hv' hes hes'

/-! ### Whole replays -/

section Alongside

variable (hgiven : SameNames given given') (hbranches : SameBranches style p given given' steps)
include hgiven hbranches

/-- After as many steps both replays are in lockstep. -/
theorem lockstep_take (k : Nat) : Relates Lockstep
    (performAll style p.id p.prolongs 0 (steps.take k) (start p given)).result
    (performAll style p.id p.prolongs 0 (steps.take k) (start p given')).result := by
  induction k with
  | zero => exact .of_ok (lockstep_start p hgiven)
  | succ k ih =>
    by_cases hk : k < steps.length
    · intro v v' hv hv'
      have hget : steps[k]? = some steps[k] := List.getElem?_eq_getElem hk
      obtain ⟨u, hu, hv⟩ := exists_of_performAll_take_succ hget hv
      obtain ⟨u', hu', hv'⟩ := exists_of_performAll_take_succ hget hv'
      obtain ⟨es, hes⟩ := (Scene.leads_act (scene_perform hv)).growsTo
      obtain ⟨es', hes'⟩ := (Scene.leads_act (scene_perform hv')).growsTo
      exact (lockstep_step hbranches hk (ih u u' hu hu') hu hu' hv hv' hes.symm hes'.symm).1
    · -- There are no more steps to take.
      rw [List.take_of_length_le (by omega)] at ih ⊢
      exact ih

theorem lockstep_concluded : Relates Lockstep (throughConclusion style p given steps).result
    (throughConclusion style p given' steps).result := by
  have hsteps := lockstep_take hgiven hbranches steps.length
  rw [steps.take_length] at hsteps
  exact lockstep_conclude hsteps

/-- What the same action adds in both replays has the same names. -/
theorem namedAlike_of_addsAt {n : Nat} (h : AddsAt style p given steps extras n es)
    (h' : AddsAt style p given' steps extras n es') : NamedAlike es es' := by
  cases h with
  | step hk hu hv hes =>
    -- Steps come before extras, so one moment is of one kind.
    generalize hn : n = m at h'
    cases h' with
    | step hk' hu' hv' hes' =>
      subst hn
      have hbefore := lockstep_take hgiven hbranches n _ _ hu hu'
      have hget : steps[n]? = some steps[n] := List.getElem?_eq_getElem hk
      have hstep := perform_of_take_succ hget hu hv
      have hstep' := perform_of_take_succ hget hu' hv'
      exact (lockstep_step hbranches hk hbefore hu hu' hstep hstep' hes hes').2
    | extra hk' hr' hu' hv' hes' => omega
  | @extra k _ _ _ _ hk hr hu hv hes =>
    generalize hn : steps.length + k = m at h'
    cases h' with
    | step hk' hu' hv' hes' => omega
    | extra hk' hr' hu' hv' hes' =>
      obtain rfl := Nat.add_left_cancel hn
      have hconcluded := lockstep_concluded hgiven hbranches _ _ hr hr'
      have hstays := inStep_extra hconcluded hk hu hu' hv hv'
      exact hstays.namedAlike hes hes'

end Alongside

/-- A macro step that succeeds takes a label for each point, where it asks for no label of its own. -/
theorem nextLabel_of_succeeds {k : Nat} {step : Step} {c : MacroCall} {m : Macro}
    (hstep : steps[k]? = some step) (hc : step.action = .call c)
    (hm : Macro.ofProp? c.propId = some m)
    (hlabels : MacroCall.outputLabel? c.outputLabels m.resultName = none)
    (hsucceeds : Succeeds style p given steps k)
    (hu : (performAll style p.id p.prolongs 0 (steps.take k) (start p given)).result = .ok u)
    (hv : (performAll style p.id p.prolongs 0 (steps.take (k + 1)) (start p given)).result = .ok v) :
    v.scene.figure.nextLabel = u.scene.figure.nextLabel + m.pointsMade u.scene.figure c.inputs := by
  have hperform := perform_of_take_succ hstep hu hv
  have hk : k ≤ steps.length := Nat.le_of_lt (List.getElem?_eq_some_iff.mp hstep).1
  have hcounter := (transcript_of_performAll_take hk hu).counter
  have hact := scene_perform hperform
  rw [hc] at hact
  rw [succeeds_iff_performs hstep hu, hc] at hsucceeds
  obtain ⟨es, hes⟩ := (Scene.leads_act hact).growsTo
  have hbuilds := Scene.builds_of_act_call hact hm hes.symm
  rcases Scene.pointCount_of_act_call hact hm hes.symm with ⟨-, hcount⟩ | ⟨hrefused, -⟩
  · rw [hbuilds.nextLabel_eq hcounter hlabels, hcount]
  · exact absurd hsucceeds hrefused

/-- **Names follow the branches of macros.**  A macro step that succeeds without a label of its own moves
the counter by the number of points that its branch makes: one for a triangle or a transfer, and for a
cut two, or one where it begins at the start of the less segment.  Let two given figures differ in the
places of points only, and let the macros run in the same replays and take the same branches.  Then the
replays end with the same counters, circles and segments, and what the same step or extra adds in both has
the same ids, labels and colours.  As far as labels reach they have results alike, and known steps and
extras have results. -/
theorem names_follow_branches (style : Style) (p : Proposition K) {given given' : List (Element K)}
    (hgiven : SameNames given given') (steps : List Step)
    (hbranches : SameBranches style p given given' steps) (extras : List Extra) :
    (LabelsReach given (requests steps) extras.length →
      ((∀ s ∈ steps, s.action.Known) → (∀ e ∈ extras, e.Known) →
        ∃ r, (run style p given steps extras).result = .ok r) ∧
      Agree (fun r r' => r.scene.figure.Abreast r'.scene.figure)
        (run style p given steps extras).result (run style p given' steps extras).result) ∧
    (∀ (k : Nat) (step : Step) (c : MacroCall) (m : Macro), steps[k]? = some step →
      step.action = .call c → Macro.ofProp? c.propId = some m →
      MacroCall.outputLabel? c.outputLabels m.resultName = none →
      Succeeds style p given steps k → ∀ u v : Replay K,
      (performAll style p.id p.prolongs 0 (steps.take k) (start p given)).result = .ok u →
      (performAll style p.id p.prolongs 0 (steps.take (k + 1)) (start p given)).result = .ok v →
      v.scene.figure.nextLabel =
        u.scene.figure.nextLabel + m.pointsMade u.scene.figure c.inputs) ∧
    (∀ r r', (run style p given steps extras).result = .ok r →
      (run style p given' steps extras).result = .ok r' →
        r.scene.figure.Abreast r'.scene.figure) ∧
    ∀ n es es', AddsAt style p given steps extras n es → AddsAt style p given' steps extras n es' →
      NamedAlike es es' := by
  have hrun := lockstep_finish (lockstep_concluded hgiven hbranches) extras
  refine ⟨fun hlabels => ⟨fun hknown hextras => ?_, ?_⟩, ?_, hrun,
    fun n es es' h h' => namedAlike_of_addsAt hgiven hbranches h h'⟩
  · exact exists_run style p extras hknown hextras hlabels
  · exact agree_of_lockstep hgiven hlabels hrun
  · intro k step c m hstep hc hm hlabels hsucceeds u v hu hv
    exact nextLabel_of_succeeds hstep hc hm hlabels hsucceeds hu hv

/-- The scene of a replay can be computed without its ledger and hidden constructions. -/
theorem exists_run_of_scene {β : Type} {f : Scene K → β} {b : β}
    (hknown : ∀ s ∈ steps, s.action.Known) (hlabels : LabelsReach given (requests steps) 0)
    (h : ((start p given).scene.actAll style p.prolongs steps).toOption.map f = some b) :
    ∃ r, (run style p given steps).result = .ok r ∧ f r.scene = b := by
  obtain ⟨r, hr⟩ := exists_run style p [] hknown nofun hlabels
  rw [scene_run hr] at h
  exact ⟨r, hr, Option.some.inj h⟩

/-- So can the branch of a macro step. -/
theorem branch_of_scene {k n : Nat} {step : Step} {c : MacroCall} {m : Macro}
    (hstep : steps[k]? = some step) (hc : step.action = .call c) (hm : Macro.ofProp? c.propId = some m)
    (hu : (performAll style p.id p.prolongs 0 (steps.take k) (start p given)).result = .ok u)
    (h : ((start p given).scene.actAll style p.prolongs (steps.take k)).toOption.map (fun s =>
      ((m.execute style s p.prolongs c.outputLabels c.inputs).result.toOption.map
        (fun o => o.added.isEmpty), m.pointsMade s.figure c.inputs)) = some (some false, n)) :
    Succeeds style p given steps k ∧ m.pointsMade u.scene.figure c.inputs = n := by
  rw [scene_performAll hu] at h
  obtain ⟨hruns, hmade⟩ := Prod.mk.inj (Option.some.inj h)
  obtain ⟨o, ho, hadded⟩ := exists_of_map_toOption_eq_some hruns
  refine ⟨(succeeds_iff_performs hstep hu).mpr ?_, hmade⟩
  rw [hc]
  refine ⟨m, o, hm, ho, fun hnil => ?_⟩
  rw [hnil] at hadded
  cases hadded

/-- A cut, two circles and a triangle.  When `B` is moved and `D` comes to lie on `A`, both macros run as
before, but the circles do not meet any more and `G` is missing.  The apex is called `H` all the same. -/
theorem names_follow_branches_cut :
    let given (b d : Coord Float) : List (Element Float) :=
      [Point.given "A" ⟨0.0, 0.0⟩, Point.given "B" b, Point.given "C" ⟨1.0, 1.0⟩, Point.given "D" d]
    let steps : List Step :=
      [{ action := .call { propId := 3, inputs := ["pt-A", "pt-B", "pt-C", "pt-D"] } },
        { action := .compass "pt-A" "pt-D" }, { action := .compass "pt-D" "pt-A" },
        { action := .mark { ofA := some (.named "cir-1"), ofB := some (.named "cir-2") } },
        { action := .call { propId := 1, inputs := ["pt-A", "pt-B"] } }]
    let apart := given ⟨3.0, 0.0⟩ ⟨1.0, 2.0⟩
    let together := given ⟨4.0, 1.0⟩ ⟨0.0, 0.0⟩
    let p : Proposition Float := { id := 100, title := "", given := apart, steps := steps }
    SameNames apart together ∧ SameBranches {} p apart together steps ∧
      ∃ r r' : Replay Float, (run {} p apart steps).result = .ok r ∧
        (run {} p together steps).result = .ok r' ∧ r.scene.figure.Abreast r'.scene.figure ∧
        r.scene.figure.pointIds.drop 4 = ["pt-E", "pt-F", "pt-G", "pt-H"] ∧
        r'.scene.figure.pointIds.drop 4 = ["pt-E", "pt-F", "pt-H"] := by
  intro given steps apart together p
  have hnames : ∀ b d b' d', SameNames (given b d) (given b' d') := fun _ _ _ _ => rfl
  have hgiven : SameNames apart together := hnames _ _ _ _
  have hbranches : SameBranches {} p apart together steps := by
    intro k step c m u u' hstep hc hm hu hu'
    have hk : k < 5 := (List.getElem?_eq_some_iff.mp hstep).1
    obtain rfl | rfl | rfl | rfl | rfl : k = 0 ∨ k = 1 ∨ k = 2 ∨ k = 3 ∨ k = 4 := by omega
    · cases hstep
      cases hc
      cases hm
      obtain ⟨hruns, hmade⟩ := branch_of_scene (n := 2) rfl rfl rfl hu (by decide +kernel)
      obtain ⟨hruns', hmade'⟩ := branch_of_scene (n := 2) rfl rfl rfl hu' (by decide +kernel)
      exact ⟨iff_of_true hruns hruns', fun _ => hmade.trans hmade'.symm⟩
    · cases hstep
      cases hc
    · cases hstep
      cases hc
    · cases hstep
      cases hc
    · cases hstep
      cases hc
      cases hm
      obtain ⟨hruns, hmade⟩ := branch_of_scene (n := 1) rfl rfl rfl hu (by decide +kernel)
      obtain ⟨hruns', hmade'⟩ := branch_of_scene (n := 1) rfl rfl rfl hu' (by decide +kernel)
      exact ⟨iff_of_true hruns hruns', fun _ => hmade.trans hmade'.symm⟩
  have hknown : ∀ s ∈ steps, s.action.Known := by decide
  have hlabels : LabelsReach apart (requests steps) 0 := by decide +kernel
  obtain ⟨hreach, -⟩ := names_follow_branches {} p hgiven steps hbranches []
  obtain ⟨-, hagree⟩ := hreach hlabels
  have hapart : ((start p apart).scene.actAll {} p.prolongs steps).toOption.map
      (fun s => s.figure.pointIds.drop 4) = some ["pt-E", "pt-F", "pt-G", "pt-H"] := by
    decide +kernel
  have htogether : ((start p together).scene.actAll {} p.prolongs steps).toOption.map
      (fun s => s.figure.pointIds.drop 4) = some ["pt-E", "pt-F", "pt-H"] := by
    decide +kernel
  obtain ⟨r, hr, hids⟩ := exists_run_of_scene hknown hlabels hapart
  obtain ⟨r', hr', hids'⟩ := exists_run_of_scene hknown (hlabels.of_sameNames hgiven) htogether
  exact ⟨hgiven, hbranches, r, r', hr, hr', hagree.rel hr hr', hids, hids'⟩

/-- A cut that begins at the start of the less segment takes one label, and else it takes two.  With `C`
on `A` the macros still run, but the apex that was called `G` is called `F` then, and the counters end
apart. -/
theorem cut_at_start_shifts_names :
    let given (c : Coord Float) : List (Element Float) :=
      [Point.given "A" ⟨0.0, 0.0⟩, Point.given "B" ⟨3.0, 0.0⟩, Point.given "C" c,
        Point.given "D" ⟨1.0, 2.0⟩]
    let cut : MacroCall :=
      { propId := 3
        inputs := ["pt-A", "pt-B", "pt-C", "pt-D"]
        outputLabels := some [("result", "E")] }
    let steps : List Step :=
      [{ action := .call cut }, { action := .call { propId := 1, inputs := ["pt-A", "pt-B"] } }]
    let apart := given ⟨1.0, 1.0⟩
    let together := given ⟨0.0, 0.0⟩
    let p : Proposition Float := { id := 100, title := "", given := apart, steps := steps }
    SameNames apart together ∧ ∃ r r' : Replay Float, (run {} p apart steps).result = .ok r ∧
      (run {} p together steps).result = .ok r' ∧
      r.scene.figure.nextLabel = 7 ∧ r'.scene.figure.nextLabel = 6 ∧
      r.scene.figure.pointIds.drop 4 = ["pt-F", "pt-E", "pt-G"] ∧
      r'.scene.figure.pointIds.drop 4 = ["pt-E", "pt-F"] := by
  intro given cut steps apart together p
  have hnames : ∀ c c', SameNames (given c) (given c') := fun _ _ => rfl
  have hknown : ∀ s ∈ steps, s.action.Known := by decide
  have hlabels : LabelsReach apart (requests steps) 0 := by decide +kernel
  have hapart : ((start p apart).scene.actAll {} p.prolongs steps).toOption.map
      (fun s => (s.figure.nextLabel, s.figure.pointIds.drop 4)) =
        some (7, ["pt-F", "pt-E", "pt-G"]) := by decide +kernel
  have htogether : ((start p together).scene.actAll {} p.prolongs steps).toOption.map
      (fun s => (s.figure.nextLabel, s.figure.pointIds.drop 4)) =
        some (6, ["pt-E", "pt-F"]) := by decide +kernel
  obtain ⟨r, hr, hend⟩ := exists_run_of_scene hknown hlabels hapart
  obtain ⟨r', hr', hend'⟩ := exists_run_of_scene hknown (hlabels.of_sameNames (hnames _ _)) htogether
  obtain ⟨hnext, hids⟩ := Prod.mk.inj hend
  obtain ⟨hnext', hids'⟩ := Prod.mk.inj hend'
  exact ⟨hnames _ _, r, r', hr, hr', hnext, hnext', hids, hids'⟩

end Replay

end RulerCompass
