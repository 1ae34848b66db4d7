import RulerCompass.Book.Triangle
import RulerCompass.Proofs.Replay.Prefix

/-!
# Which steps succeed

A step succeeds in the scene that the steps before it have left: lines and circles can always be
drawn, a marking needs a crossing and a label, and a macro has to draw something.  A replay goes on after a step
that fails.  Its counter is set by each step that succeeds, so in the end it stands one past the last
of them: it tells how far a construction got and not how many steps it has lost on the way.
-/

namespace RulerCompass

variable {K : Type} [Scalar K]

/-- The scene allows the action. -/
def Scene.Performs (style : Style) (extend : Bool) (s : Scene K) : Action → Prop
  | .straightedge _ _ => True
  | .compass _ _ => True
  | .mark m => ∃ c t, Crossing.match? m s.crossings s.figure = .ok (some c) ∧
      s.mark style c m.label = .ok t
  | .call c => ∃ m o, Macro.ofProp? c.propId = some m ∧
      (m.execute style s extend c.outputLabels c.inputs).result = .ok o ∧ o.added ≠ []
  | .unknown _ => False

namespace Replay

/-- The step with this number succeeds where the steps before it have led. -/
def Succeeds (style : Style) (p : Proposition K) (given : List (Element K)) (steps : List Step)
    (k : Nat) : Prop :=
  ∃ (r : Replay K) (step : Step),
    (performAll style p.id p.prolongs 0 (steps.take k) (start p given)).result = .ok r ∧
      steps[k]? = some step ∧ r.scene.Performs style p.prolongs step.action

/-- Every step succeeds. -/
def Complete (style : Style) (p : Proposition K) (given : List (Element K)) (steps : List Step) :
    Prop := ∀ k < steps.length, Succeeds style p given steps k

/-- The flags of steps that are numbered from `first` on. -/
def flagsFrom (style : Style) (propId : Int) (extend : Bool) :
    Nat → List Step → Replay K → Run K (List Bool)
  | _, [], _ => return []
  | first, step :: steps, r => do
    let (flag, r) ← r.attempt style propId extend first step.action
    let r := if flag then { r with completed := first + 1 } else r
    return flag :: (← flagsFrom style propId extend (first + 1) steps r)

/-- Which steps of a replay succeed. -/
def flags (style : Style) (p : Proposition K) (given : List (Element K)) (steps : List Step) :
    Option (List Bool) :=
  (flagsFrom style p.id p.prolongs 0 steps (start p given)).result.toOption

variable {style : Style} {propId : Int} {extend : Bool} {r r' : Replay K}

/-! ### One step -/

/-- The flag of a step tells whether its scene allows it. -/
theorem flag_attempt {index : Nat} {a : Action} {flag : Bool}
    (h : (r.attempt style propId extend index a).result = .ok (flag, r')) :
    flag = true ↔ r.scene.Performs style extend a := by
  cases attempted_of_attempt h with
  | segment fromId toId => simp [Scene.Performs]
  | circle centerId radiusPointId => simp [Scene.Performs]
  | marked hc hs => exact iff_of_true rfl ⟨_, _, hc, hs⟩
  | skipped hc =>
    refine iff_of_false Bool.false_ne_true fun ⟨c, _, hc', _⟩ => ?_
    cases hc.symm.trans hc'
  | called hm ho hadded hlayers => simp [Scene.Performs, hm, ho, hadded]
  | refused hm ho hadded => simp [Scene.Performs, hm, ho, hadded]
  | unnamed hm => simp [Scene.Performs, hm]

theorem known_of_performs {s : Scene K} {a : Action} (h : s.Performs style extend a) : a.Known := by
  cases a with
  | mark m =>
    obtain ⟨c, _, hc, -⟩ := h
    exact Crossing.known_of_match? hc
  | unknown shown => exact h
  | _ => trivial

/-- What the scene allows gives a result. -/
theorem exists_attempt_of_performs (propId : Int) (index : Nat) {a : Action}
    (h : r.scene.Performs style extend a) :
    ∃ out, (r.attempt style propId extend index a).result = .ok out := by
  cases a with
  | straightedge fromId toId => exact ⟨_, rfl⟩
  | compass centerId radiusPointId => exact ⟨_, rfl⟩
  | mark m =>
    obtain ⟨c, ⟨s, point⟩, hc, hs⟩ := h
    exact ⟨_, attempt_mark hc hs⟩
  -- The layers of a hidden construction never fail, so the macro is shown.
  | call c =>
    obtain ⟨m, o, hm, ho, hadded⟩ := h
    obtain ⟨layers, hlayers⟩ := Hidden.layers_ok style c.propId c.inputs o.scene.figure index 1
    have hdraws : ¬ o.added.isEmpty = true := mt List.isEmpty_iff.mp hadded
    simp only [attempt, hm, Run.result_bind, ho]
    show ∃ out, (ite (o.added.isEmpty = true) _ _ : Run K _).result = .ok out
    rw [if_neg hdraws, Run.result_bind, hlayers]
    exact ⟨_, rfl⟩
  | unknown shown => exact h.elim

/-- Only the loop over the steps counts. -/
theorem completed_attempt {index : Nat} {a : Action} {out : Bool × Replay K}
    (h : (r.attempt style propId extend index a).result = .ok out) :
    out.2.completed = r.completed := by
  obtain ⟨flag, r'⟩ := out
  cases attempted_of_attempt h <;> rfl

/-- A step that succeeds sets the counter, and one that fails leaves it. -/
theorem completed_perform {step : Step × Nat}
    (h : (r.perform style propId extend step).result = .ok r') :
    (r.scene.Performs style extend step.1.action ∧ r'.completed = step.2 + 1) ∨
      (¬ r.scene.Performs style extend step.1.action ∧ r'.completed = r.completed) := by
  obtain ⟨⟨flag, u⟩, hout, h⟩ := Run.exists_of_bind_eq_ok h
  have hflag := flag_attempt hout
  have hcompleted := completed_attempt hout
  cases flag with
  | true =>
    cases h
    exact Or.inl ⟨hflag.mp rfl, rfl⟩
  | false =>
    cases h
    refine Or.inr ⟨fun hperforms => ?_, hcompleted⟩
    exact Bool.false_ne_true (hflag.mpr hperforms)

/-! ### All steps -/

/-- The replay of one step more. -/
theorem performAll_take_succ {steps : List Step} {k : Nat} {step : Step}
    (hstep : steps[k]? = some step) :
    (performAll style propId extend 0 (steps.take (k + 1)) r).result =
      (performAll style propId extend 0 (steps.take k) r).result >>= fun u =>
        (u.perform style propId extend (step, k)).result := by
  obtain ⟨hk, -⟩ := List.getElem?_eq_some_iff.mp hstep
  have htake : steps.take (k + 1) = steps.take k ++ [step] := by
    rw [List.take_add_one, hstep, Option.toList_some]
  have hlength : (steps.take k).length = k := List.length_take_of_le (Nat.le_of_lt hk)
  rw [htake, performAll_append, Run.result_bind, hlength, Nat.zero_add]
  congr 1
  funext u
  rw [performAll, List.zipIdx_singleton, List.foldlM_cons, Run.result_bind]
  exact bind_pure _

theorem exists_of_performAll_take_succ {steps : List Step} {k : Nat} {step : Step}
    (hstep : steps[k]? = some step)
    (h : (performAll style propId extend 0 (steps.take (k + 1)) r).result = .ok r') :
    ∃ u, (performAll style propId extend 0 (steps.take k) r).result = .ok u ∧
      (u.perform style propId extend (step, k)).result = .ok r' := by
  rw [performAll_take_succ hstep] at h
  exact exists_of_bind_eq_ok h

/-- The step that leads from one replay to the next. -/
theorem perform_of_take_succ {steps : List Step} {k : Nat} {step : Step} {u v : Replay K}
    (hstep : steps[k]? = some step)
    (hu : (performAll style propId extend 0 (steps.take k) r).result = .ok u)
    (hv : (performAll style propId extend 0 (steps.take (k + 1)) r).result = .ok v) :
    (u.perform style propId extend (step, k)).result = .ok v := by
  obtain ⟨w, hw, hperform⟩ := exists_of_performAll_take_succ hstep hv
  obtain rfl : u = w := Except.ok.inj (hu.symm.trans hw)
  exact hperform

section Steps

variable {p : Proposition K} {given : List (Element K)} {steps : List Step}

/-- There is only one replay of the first steps, so a step succeeds just when it is allowed there. -/
theorem succeeds_iff_performs {k : Nat} {step : Step} {u : Replay K} (hstep : steps[k]? = some step)
    (hu : (performAll style p.id p.prolongs 0 (steps.take k) (start p given)).result = .ok u) :
    Succeeds style p given steps k ↔ u.scene.Performs style p.prolongs step.action := by
  constructor
  · rintro ⟨v, step', hv, hget, hperforms⟩
    obtain rfl : u = v := Except.ok.inj (hu.symm.trans hv)
    obtain rfl : step = step' := Option.some.inj (hstep.symm.trans hget)
    exact hperforms
  · intro hperforms
    exact ⟨u, step, hu, hstep, hperforms⟩

/-- After some steps the next one is later than all that is written down. -/
theorem transcript_of_performAll_take {k : Nat} (hk : k ≤ steps.length) {u : Replay K}
    (hu : (performAll style p.id p.prolongs 0 (steps.take k) (start p given)).result = .ok u) :
    Transcript u k := by
  have hstart : Transcript (start p given) (0 : Nat) := (transcript_start p given).later (by omega)
  have htranscript := hstart.performAll hu
  rwa [List.length_take_of_le hk, Nat.zero_add] at htranscript

/-- A step that its scene allows leads on. -/
theorem exists_of_performs {k : Nat} {step : Step} {u : Replay K} (hstep : steps[k]? = some step)
    (hu : (performAll style p.id p.prolongs 0 (steps.take k) (start p given)).result = .ok u)
    (hperforms : u.scene.Performs style p.prolongs step.action) :
    ∃ v, (u.attempt style p.id p.prolongs k step.action).result = .ok (true, v) ∧
      (performAll style p.id p.prolongs 0 (steps.take (k + 1)) (start p given)).result =
        .ok { v with completed := k + 1 } := by
  obtain ⟨⟨flag, v⟩, hout⟩ :=
    exists_attempt_of_performs p.id k hperforms
  obtain rfl : flag = true := (flag_attempt hout).mpr hperforms
  refine ⟨v, hout, ?_⟩
  rw [performAll_take_succ hstep, hu]
  change (u.perform style p.id p.prolongs (step, k)).result = _
  rw [perform, Run.result_bind, hout]
  rfl

/-- Each flag belongs to the scene that the steps before it have left. -/
theorem exists_flag_of_flagsFrom {first : Nat} {flags : List Bool}
    (h : (flagsFrom style propId extend first steps r).result = .ok flags) {k : Nat} {step : Step}
    (hstep : steps[k]? = some step) :
    ∃ (u : Replay K) (flag : Bool),
      (performAll style propId extend first (steps.take k) r).result = .ok u ∧
        flags[k]? = some flag ∧ (flag = true ↔ u.scene.Performs style extend step.action) := by
  induction steps generalizing first r flags k with
  | nil => cases hstep
  | cons step' steps ih =>
    obtain ⟨⟨flag, v⟩, hout, h⟩ := Run.exists_of_bind_eq_ok h
    obtain ⟨rest, hrest, h⟩ := Run.exists_of_bind_eq_ok h
    cases h
    have hperform : (r.perform style propId extend (step', first)).result =
        .ok (if flag then { v with completed := first + 1 } else v) := by
      rw [perform, Run.result_bind, hout]
      rfl
    -- The first step is the one asked for, or it is among the others.
    cases k with
    | zero =>
      cases hstep
      exact ⟨r, flag, rfl, rfl, flag_attempt hout⟩
    | succ k =>
      obtain ⟨w, flag', hw, hflag, hperforms⟩ := ih hrest hstep
      refine ⟨w, flag', ?_, hflag, hperforms⟩
      rw [List.take_succ_cons, performAll_cons, Run.result_bind, hperform]
      exact hw

theorem succeeds_iff_flag {bs : List Bool} (h : flags style p given steps = some bs) {k : Nat}
    (hk : k < steps.length) : Succeeds style p given steps k ↔ bs[k]? = some true := by
  have hresult : (flagsFrom style p.id p.prolongs 0 steps (start p given)).result = .ok bs := by
    obtain ⟨_, hbs, rfl⟩ := exists_of_map_toOption_eq_some (g := id) (by rwa [Option.map_id])
    exact hbs
  obtain ⟨u, flag, hu, hflag, hperforms⟩ :=
    exists_flag_of_flagsFrom hresult (List.getElem?_eq_getElem hk)
  rw [hflag, Option.some.injEq, hperforms]
  exact succeeds_iff_performs (List.getElem?_eq_getElem hk) hu

theorem complete_of_flags (h : flags style p given steps = some (steps.map fun _ => true)) :
    Complete style p given steps := by
  intro k hk
  rw [succeeds_iff_flag h hk, List.getElem?_map, List.getElem?_eq_getElem hk]
  rfl

/-- **What the counter says.**  After the first `k` steps it is one past the last of them that has
succeeded, or zero. -/
theorem completed_performAll {k : Nat} (hk : k ≤ steps.length)
    (h : (performAll style p.id p.prolongs 0 (steps.take k) (start p given)).result = .ok r) :
    r.completed ≤ k ∧ (∀ i, r.completed = i + 1 → Succeeds style p given steps i) ∧
      ∀ i, r.completed ≤ i → i < k → ¬ Succeeds style p given steps i := by
  induction k generalizing r with
  | zero =>
    cases h
    have hzero : (start p given).completed = 0 := rfl
    refine ⟨Nat.le_of_eq hzero, fun i hi => ?_, fun i _ hi => ?_⟩
    · rw [hzero] at hi
      omega
    · omega
  | succ k ih =>
    have hstep : steps[k]? = some steps[k] := List.getElem?_eq_getElem hk
    obtain ⟨u, hu, hperform⟩ := exists_of_performAll_take_succ hstep h
    obtain ⟨hle, hlast, hafter⟩ := ih (Nat.le_of_succ_le hk) hu
    have hsucceeds : Succeeds style p given steps k ↔
        u.scene.Performs style p.prolongs steps[k].action := succeeds_iff_performs hstep hu
    rcases completed_perform hperform with ⟨hperforms, hcompleted⟩ | ⟨hfails, hcompleted⟩
    · -- This step is the last success so far.
      have hcompleted : r.completed = k + 1 := hcompleted
      refine ⟨Nat.le_of_eq hcompleted, fun i hi => ?_, fun i hi hik => ?_⟩
      · have hik : i = k := by omega
        rw [hik]
        exact hsucceeds.mpr hperforms
      · omega
    · -- The last success stays, and this step is a failure.
      refine ⟨by omega, fun i hi => hlast i (by omega), fun i hi hik => ?_⟩
      by_cases hcase : i < k
      · exact hafter i (by omega) hcase
      · have hik : i = k := by omega
        rw [hik, hsucceeds]
        exact hfails

/-- Extras change the scene and the proof only. -/
theorem eq_of_performExtras {α : Type} {π : Replay K → α}
    (hπ : ∀ (u : Replay K) scene ledger facts,
      π { u with scene := scene, ledger := ledger, facts := facts } = π u)
    {atStep : Int} {extras : List Extra}
    (h : r.performExtras style extend atStep extras = .ok r') : π r' = π r := by
  refine performExtras_keeps (I := fun u => π u = π r) ?_ ?_ h rfl
  · intro u hu
    rw [← hu]
    exact hπ u _ u.ledger u.facts
  · intro u e v hv hu
    rw [← hu]
    cases e with
    | circle centerId radiusPointId =>
      cases hv
      exact hπ u _ u.ledger u.facts
    | segment fromId toId =>
      cases hv
      exact hπ u _ u.ledger u.facts
    | mark ofA ofB which =>
      rw [performExtra] at hv
      split at hv
      · obtain ⟨_, -, hv⟩ := exists_of_bind_eq_ok hv
        cases hv
        exact hπ u _ _ _
      · cases hv
        exact hπ u _ u.ledger u.facts
    | unknown shown => cases hv

/-- Extras are not counted. -/
theorem completed_performExtras {atStep : Int} {extras : List Extra}
    (h : r.performExtras style extend atStep extras = .ok r') : r'.completed = r.completed :=
  eq_of_performExtras (π := Replay.completed) (fun _ _ _ _ => rfl) h

theorem exists_of_run {extras : List Extra} (h : (run style p given steps extras).result = .ok r) :
    ∃ u, (performAll style p.id p.prolongs 0 steps (start p given)).result = .ok u ∧
      (u.prove p.conclusion steps.length).performExtras style p.prolongs steps.length extras =
        .ok r := by
  obtain ⟨v, hv, hextras⟩ := exists_concluded_of_run h
  obtain ⟨-, u, hu, rfl⟩ := throughConclusion_eq_ok_iff.mp hv
  exact ⟨u, hu, hextras⟩

end Steps

/-- **The counter of a replay is one past its last step that succeeded.**  So a smaller counter than
the number of steps tells that a step has failed, but the full number tells no more than that the
last step has succeeded: earlier ones may have failed. -/
theorem completed_eq_last_success (style : Style) (p : Proposition K) (given : List (Element K))
    (steps : List Step) (extras : List Extra) :
    ((∀ s ∈ steps, s.action.Known) → (∀ e ∈ extras, e.Known) →
      LabelsReach given (requests steps) extras.length →
        ∃ r, (run style p given steps extras).result = .ok r) ∧
    ∀ r, (run style p given steps extras).result = .ok r →
      (∀ k, r.completed = k + 1 → Succeeds style p given steps k) ∧
      (∀ k, r.completed ≤ k → ¬ Succeeds style p given steps k) ∧
      (r.completed < steps.length → ∃ k, k < steps.length ∧ ¬ Succeeds style p given steps k) ∧
      (r.completed = steps.length ↔
        steps = [] ∨ Succeeds style p given steps (steps.length - 1)) := by
  refine ⟨exists_run style p extras, fun r hr => ?_⟩
  obtain ⟨u, hu, hextras⟩ := exists_of_run hr
  have hproved : (u.prove p.conclusion steps.length).completed = u.completed := rfl
  have hcompleted : r.completed = u.completed := (completed_performExtras hextras).trans hproved
  rw [← steps.take_length] at hu
  obtain ⟨hle, hlast, hafter⟩ := completed_performAll (Nat.le_refl _) hu
  rw [← hcompleted] at hle hlast hafter
  -- A failure is no success, and behind the last step there is none.
  have hbeyond : ∀ k, r.completed ≤ k → ¬ Succeeds style p given steps k := by
    intro k hk hsucceeds
    by_cases hlt : k < steps.length
    · exact hafter k hk hlt hsucceeds
    · obtain ⟨_, _, -, hget, -⟩ := hsucceeds
      rw [List.getElem?_eq_none (Nat.le_of_not_lt hlt)] at hget
      cases hget
  refine ⟨hlast, hbeyond, fun hlt => ⟨r.completed, hlt, hbeyond _ (Nat.le_refl _)⟩, ?_⟩
  constructor
  · intro hall
    by_cases hempty : steps = []
    · exact Or.inl hempty
    · have hpos : 0 < steps.length := List.length_pos_iff.mpr hempty
      exact Or.inr (hlast _ (by omega))
  · rintro (hempty | hsucceeds)
    · rw [hempty] at hle ⊢
      exact Nat.le_antisymm hle (Nat.zero_le _)
    · -- A success beyond the counter is impossible.
      by_contra hne
      exact hbeyond _ (by omega) hsucceeds

/-- The first proposition with `B` on `A`, up to the marking: its circles do not meet and the counter
stops at two of three steps. -/
theorem completed_cut_short :
    let p : Proposition Float := Book.Triangle.proposition
    let given := Book.Triangle.layout (Positions.ofMoves [("pt-B", ⟨-1.0, 0.0⟩)])
    let steps := p.steps.take 3
    ∃ r, (run {} p given steps).result = .ok r ∧ r.completed = 2 ∧ steps.length = 3 ∧
      Succeeds {} p given steps 1 ∧ ¬ Succeeds {} p given steps 2 := by
  intro p given steps
  obtain ⟨hruns, hcounts⟩ := completed_eq_last_success {} p given steps []
  obtain ⟨r, hr⟩ := hruns (by decide) (by decide) (by decide +kernel)
  have hcounted : (run {} p given steps).result.toOption.map (fun r => r.completed) = some 2 := by
    decide +kernel
  obtain ⟨r', hr', hcompleted⟩ := exists_of_map_toOption_eq_some hcounted
  obtain rfl : r = r' := Except.ok.inj (hr.symm.trans hr')
  obtain ⟨hlast, hbeyond, -, -⟩ := hcounts r hr
  exact ⟨r, hr, hcompleted, rfl, hlast 1 hcompleted, hbeyond 2 (Nat.le_of_eq hcompleted)⟩

/-- All five steps of the same replay: no apex is marked, yet the lines to the apex are drawn and the
counter ends on the number of steps. -/
theorem completed_full_of_failed_step :
    let p : Proposition Float := Book.Triangle.proposition
    let given := Book.Triangle.layout (Positions.ofMoves [("pt-B", ⟨-1.0, 0.0⟩)])
    ∃ r, (run {} p given p.steps).result = .ok r ∧ r.completed = p.steps.length ∧
      2 < p.steps.length ∧ ¬ Succeeds {} p given p.steps 2 := by
  intro p given
  have hcounted : (run {} p given p.steps).result.toOption.map (fun r => r.completed) = some 5 := by
    decide +kernel
  obtain ⟨r, hr, hcompleted⟩ := exists_of_map_toOption_eq_some hcounted
  have hflags : flags {} p given p.steps = some [true, true, false, true, true] := by
    decide +kernel
  refine ⟨r, hr, hcompleted, by decide, ?_⟩
  rw [succeeds_iff_flag hflags (by decide)]
  decide

end Replay

end RulerCompass
