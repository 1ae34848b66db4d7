import RulerCompass.Proofs.Figure.Names
import RulerCompass.Proofs.Proposition.Scope
import RulerCompass.Proofs.Replay.Labels

/-!
# Scopes at run time

While all markings and macros succeed, the points in the scope of a definition are there: those given
stay, and each step makes what it introduces.  So a definition without findings names no point that is
missing, on any given figure with the same names and at each step up to the first failure.
-/

namespace RulerCompass

/-- The action may not be possible in a scene; lines and circles can always be drawn. -/
def Action.MayFail : Action → Prop
  | .mark _ => True
  | .call _ => True
  | _ => False

variable {K : Type} [Scalar K] {style : Style}

/-- What cannot fail is possible in every scene. -/
theorem Scene.performs_of_not_mayFail {extend : Bool} {s : Scene K} {a : Action} (h : ¬ a.MayFail)
    (hnamed : ∀ shown, a ≠ .unknown shown) : s.Performs style extend a := by
  cases a with
  | straightedge fromId toId => trivial
  | compass centerId radiusPointId => trivial
  | mark m => exact absurd trivial h
  | call c => exact absurd trivial h
  | unknown shown => exact absurd rfl (hnamed shown)

namespace Replay

/-- All markings and macros among the first `k` steps succeed. -/
def Unbroken (style : Style) (p : Proposition K) (given : List (Element K)) (steps : List Step)
    (k : Nat) : Prop :=
  ∀ j < k, ∀ step, steps[j]? = some step → step.action.MayFail → Succeeds style p given steps j

/-- A replay has all these points. -/
def Has (r : Replay K) (ids : List String) : Prop := ∀ id ∈ ids, (r.scene.figure.point? id).isSome

variable {r r' : Replay K} {propId : Int} {extend : Bool} {p : Proposition K}
  {given : List (Element K)} {steps : List Step}

omit [Scalar K] in
theorem Has.growsTo {ids : List String} (h : r.Has ids)
    (hgrows : r.scene.figure.GrowsTo r'.scene.figure) : r'.Has ids :=
  fun id hid => hgrows.isSome_point? (h id hid)

/-! ### One step -/

/-- **A step that succeeds makes what it introduces.** -/
theorem has_introduced {index : Nat} {a : Action} (ha : a.NamesResult)
    (h : (r.attempt style propId extend index a).result = .ok (true, r')) :
    r'.Has a.introduced := by
  intro id hid
  have hperforms : r.scene.Performs style extend a := (flag_attempt h).mp rfl
  have hknown : ∀ c, a = .call c → (Macro.ofProp? c.propId).isSome := by
    rintro c rfl
    obtain ⟨m, -, hm, -⟩ := hperforms
    rw [hm, Option.isSome_some]
  obtain ⟨label, rfl, hmade⟩ := Action.introduced_made ha hknown hid
  exact (labels_of_attempt hmade h).isSome_point?

/-! ### All steps -/

/-- Each step before the first failure is possible where the steps before it have led. -/
theorem Unbroken.performs {k : Nat} (h : Unbroken style p given steps (k + 1)) {step : Step}
    (hstep : steps[k]? = some step) (hnamed : ∀ shown, step.action ≠ .unknown shown)
    (hr : (performAll style p.id p.prolongs 0 (steps.take k) (start p given)).result = .ok r) :
    r.scene.Performs style p.prolongs step.action := by
  by_cases hfail : step.action.MayFail
  · obtain ⟨u, step', hu, hstep', hperforms⟩ := h k (Nat.lt_succ_self k) step hstep hfail
    obtain rfl : r = u := Except.ok.inj (hr.symm.trans hu)
    obtain rfl : step = step' := Option.some.inj (hstep.symm.trans hstep')
    exact hperforms
  · exact Scene.performs_of_not_mayFail hfail hnamed

omit [Scalar K] in
/-- The given points are there, wherever they are placed. -/
theorem has_givenPoints (hgiven : SameNames given p.given) : (start p given).Has p.givenPoints := by
  intro id hid
  have hids : (Figure.ofGiven given).pointIds = (Figure.ofGiven p.given).pointIds :=
    Figure.pointIds_of_sameNames hgiven
  refine Figure.isSome_point?_iff_mem.mpr ?_
  change id ∈ (Figure.ofGiven given).pointIds
  rw [hids]
  exact hid

/-- **The scope is there.**  Until a marking or macro fails, there is a replay of the steps before, and
it has all points in scope. -/
theorem exists_has_scope (hscoped : p.Scoped) (hlabels : ∀ s ∈ p.steps, s.action.NamesResult)
    (hgiven : SameNames given p.given) {k : Nat} (hk : k ≤ p.steps.length)
    (h : Unbroken style p given p.steps k) :
    ∃ r, (performAll style p.id p.prolongs 0 (p.steps.take k) (start p given)).result = .ok r ∧
      r.Has (p.scope k) := by
  induction k with
  | zero =>
    refine ⟨start p given, rfl, ?_⟩
    rw [Proposition.scope, List.take_zero, List.flatMap_nil, List.append_nil]
    exact has_givenPoints hgiven
  | succ k ih =>
    obtain ⟨r, hr, hscope⟩ := ih (Nat.le_of_succ_le hk) fun j hj => h j (Nat.lt_succ_of_lt hj)
    have hstep : p.steps[k]? = some p.steps[k] := List.getElem?_eq_getElem hk
    have hmem : p.steps[k] ∈ p.steps := List.getElem_mem hk
    have hperforms := h.performs hstep (hscoped.named _ hmem) hr
    obtain ⟨v, hout, hv⟩ := exists_of_performs hstep hr hperforms
    refine ⟨_, hv, ?_⟩
    have hold : v.Has (p.scope k) := hscope.growsTo (Scene.leads_act (scene_attempt hout)).growsTo
    have hnew : v.Has p.steps[k].action.introduced := has_introduced (hlabels _ hmem) hout
    -- A name in scope was there before, or this step introduces it.
    intro id hid
    rw [Proposition.scope, List.take_add_one, hstep, Option.toList_some, List.flatMap_append,
      ← List.append_assoc, List.flatMap_singleton] at hid
    rcases List.mem_append.mp hid with hid | hid
    · exact hold id hid
    · exact hnew id hid

/-- A replay without failures is one of known steps. -/
theorem known_of_unbroken (hscoped : p.Scoped) (hlabels : ∀ s ∈ p.steps, s.action.NamesResult)
    (hgiven : SameNames given p.given) (h : Unbroken style p given p.steps p.steps.length) :
    ∀ s ∈ p.steps, s.action.Known := by
  intro s hs
  obtain ⟨k, hk, rfl⟩ := List.getElem_of_mem hs
  have hbefore : Unbroken style p given p.steps (k + 1) := fun j hj => h j (by omega)
  obtain ⟨r, hr, -⟩ := exists_has_scope hscoped hlabels hgiven (Nat.le_of_lt hk)
    fun j hj => hbefore j (Nat.lt_succ_of_lt hj)
  exact known_of_performs
    (hbefore.performs (List.getElem?_eq_getElem hk) (hscoped.named _ hs) hr)

/-- **No name dangles.**  Take a definition without findings whose calls list labels under the names of
their macros' results, and a given figure with the same names.  At each step before which no marking or
macro has failed, all points that the step names are there.  If none fails at all, then every replay
with extras, which there is as far as labels reach, ends with all points that the definition names after
its steps. -/
theorem names_there (style : Style) {p : Proposition K} (hfindings : p.findings = .ok [])
    (hlabels : ∀ s ∈ p.steps, s.action.NamesResult) {given : List (Element K)}
    (hgiven : SameNames given p.given) :
    (∀ k step, p.steps[k]? = some step → Unbroken style p given p.steps k →
      ∃ r, (performAll style p.id p.prolongs 0 (p.steps.take k) (start p given)).result = .ok r ∧
        r.Has step.pointNames) ∧
    (Unbroken style p given p.steps p.steps.length → ∀ extras,
      ((∀ e ∈ extras, e.Known) → LabelsReach given (requests p.steps) extras.length →
        ∃ r, (run style p given p.steps extras).result = .ok r) ∧
      ∀ r, (run style p given p.steps extras).result = .ok r → r.Has p.closingNames) := by
  have hscoped := Proposition.scoped_of_findings hfindings
  constructor
  · intro k step hstep h
    have hk : k ≤ p.steps.length := Nat.le_of_lt (List.getElem?_eq_some_iff.mp hstep).1
    obtain ⟨r, hr, hscope⟩ := exists_has_scope hscoped hlabels hgiven hk h
    exact ⟨r, hr, fun id hid => hscope id (hscoped.steps k step hstep id hid)⟩
  · intro h extras
    obtain ⟨u, hu, hscope⟩ := exists_has_scope hscoped hlabels hgiven (Nat.le_refl _) h
    rw [List.take_length] at hu
    have hclosing : u.Has p.closingNames := fun id hid => hscope id (hscoped.closing id hid)
    constructor
    · exact exists_run style p extras (known_of_unbroken hscoped hlabels hgiven h)
    · intro r hr
      obtain ⟨u', hu', hextras⟩ := exists_of_run hr
      obtain rfl : u = u' := Except.ok.inj (hu.symm.trans hu')
      exact hclosing.growsTo (leads_performExtras hextras).growsTo

/-- A definition that goes on from the apex `C` of a macro to a crossing `D`, with `B` moved: the last
step finds both. -/
theorem names_there_apex_crossing :
    let given (b : Coord Float) : List (Element Float) :=
      [Point.given "A" ⟨0.0, 0.0⟩, Point.given "B" b]
    let p : Proposition Float := {
      id := 1, title := "", given := given ⟨1.0, 0.0⟩
      steps := [
        { action := .call {
            propId := 1, inputs := ["pt-A", "pt-B"], outputLabels := some [("apex", "C")] } },
        { action := .compass "pt-A" "pt-B" }, { action := .compass "pt-C" "pt-A" },
        { action := .mark {
            ofA := some (.circle "pt-A" "pt-B"), ofB := some (.circle "pt-C" "pt-A")
            label := some "D" } },
        { action := .straightedge "pt-C" "pt-D", highlights := ["pt-A"] }]
      results := [("pt-C", "pt-D")] }
    let moved := given ⟨2.0, 1.0⟩
    p.findings = .ok [] ∧ (∀ s ∈ p.steps, s.action.NamesResult) ∧ SameNames moved p.given ∧
      Unbroken {} p moved p.steps 5 ∧
      (∃ r, (performAll {} p.id p.prolongs 0 (p.steps.take 4) (start p moved)).result = .ok r ∧
        r.Has ["pt-C", "pt-D", "pt-A"]) ∧
      ∃ r, (run {} p moved p.steps).result = .ok r ∧ r.Has ["pt-C", "pt-D"] := by
  intro given p moved
  have hchecked : p.findings.toOption.map id = some [] := by decide +kernel
  obtain ⟨_, hfindings, rfl⟩ := exists_of_map_toOption_eq_some hchecked
  have hlabels : ∀ s ∈ p.steps, s.action.NamesResult := by decide
  have hsame : ∀ b c, SameNames (given b) (given c) := fun _ _ => rfl
  have hgiven : SameNames moved p.given := hsame ⟨2.0, 1.0⟩ ⟨1.0, 0.0⟩
  have hflags : flags {} p moved p.steps = some (p.steps.map fun _ => true) := by decide +kernel
  have hcomplete := complete_of_flags hflags
  have hunbroken (k : Nat) (hk : k ≤ 5) : Unbroken {} p moved p.steps k :=
    fun j hj _ _ _ => hcomplete j (Nat.lt_of_lt_of_le hj hk)
  obtain ⟨hsteps, hclosing⟩ := names_there {} hfindings hlabels hgiven
  obtain ⟨hruns, hnames⟩ := hclosing (hunbroken 5 (Nat.le_refl 5)) []
  obtain ⟨r, hr⟩ := hruns (fun _ h => nomatch h) (by decide +kernel)
  have hlast := hsteps 4 _ rfl (hunbroken 4 (by decide))
  exact ⟨hfindings, hlabels, hgiven, hunbroken 5 (Nat.le_refl 5), hlast, r, hr, hnames r hr⟩

end Replay

end RulerCompass
