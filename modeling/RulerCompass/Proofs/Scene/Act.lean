import RulerCompass.Proofs.Action.Known
import RulerCompass.Proofs.Macro.Build

/-!
# Actions on a scene

A replay and a hidden construction perform the same actions with different records beside them: one
keeps a ledger and passes over a macro that refuses, the other keeps a drawing.  `Scene.act` is what
an action does to the scene alone, by moves, and how far it moves the label counter.  Both do just that
to their scenes, so neither the ledger nor the drawing ever has an influence on the figure.
-/

namespace RulerCompass

variable {K : Type} [Scalar K] (style : Style) (extend : Bool)

namespace Scene

/-- What an action does to a scene. -/
def act (s : Scene K) : Action → Except Fault (Scene K)
  | .straightedge fromId toId => .ok (s.drawSegment style extend fromId toId).1
  | .compass centerId radiusPointId => .ok (s.drawCircle style extend centerId radiusPointId).1
  | .mark m => do
    match ← Crossing.match? m s.crossings s.figure with
    | some c => return (← s.mark style c m.label).1
    | none => s.skip m.label
  | .call c =>
    match Macro.ofProp? c.propId with
    | some m => do return (← (m.execute style s extend c.outputLabels c.inputs).result).scene
    | none => .ok s
  | .unknown shown => .error (.unknownAction shown)

/-- What several actions do to a scene, in turn. -/
def actAll (s : Scene K) (steps : List Step) : Except Fault (Scene K) :=
  steps.foldlM (fun s step => s.act style extend step.action) s

variable {style extend} {s t : Scene K}

theorem act_mark_none {m : Marking} (hc : Crossing.match? m s.crossings s.figure = .ok none) :
    s.act style extend (.mark m) = s.skip m.label := by
  rw [act, hc]
  rfl

theorem act_mark_some {m : Marking} {c : Crossing K} {r : Scene K × Point K}
    (hc : Crossing.match? m s.crossings s.figure = .ok (some c))
    (hr : s.mark style c m.label = .ok r) : s.act style extend (.mark m) = .ok r.1 := by
  rw [act, hc]
  exact congrArg (· >>= fun r => .ok r.1) hr

theorem act_call_some {c : MacroCall} {m : Macro} {o : Macro.Outcome K}
    (hm : Macro.ofProp? c.propId = some m)
    (ho : (m.execute style s extend c.outputLabels c.inputs).result = .ok o) :
    s.act style extend (.call c) = .ok o.scene := by
  simp only [act, hm, ho]
  rfl

theorem act_call_none {c : MacroCall} (hm : Macro.ofProp? c.propId = none) :
    s.act style extend (.call c) = .ok s := by
  simp only [act, hm]

theorem leads_act {a : Action} (h : s.act style extend a = .ok t) : s.Leads style t := by
  cases a with
  | straightedge fromId toId =>
    cases h
    exact leads_drawSegment style s extend fromId toId
  | compass centerId radiusPointId =>
    cases h
    exact leads_drawCircle style s extend centerId radiusPointId
  | mark m =>
    obtain ⟨c?, -, h⟩ := exists_of_bind_eq_ok h
    cases c? with
    | none => exact leads_skip h
    | some c =>
      obtain ⟨r, hr, h⟩ := exists_of_bind_eq_ok h
      cases h
      exact leads_mark hr
  | call c =>
    rw [act] at h
    split at h
    · -- What a macro draws is put behind what is there.
      rename_i m _
      obtain ⟨o, ho, h⟩ := exists_of_bind_eq_ok h
      cases h
      exact ((m.execute_meets style s extend c.outputLabels c.inputs).2 o ho).draws.leads
    · cases h
      exact .refl s
  | unknown shown => cases h

/-! ### The label counter -/

/-- An action moves the counter to the ceiling of its request at most. -/
theorem nextLabel_act_le {a : Action} (h : s.act style extend a = .ok t)
    (hcounter : 0 ≤ s.figure.nextLabel) {top : Nat} (htop : s.figure.nextLabel ≤ top) :
    t.figure.nextLabel ≤ a.request.ceiling top := by
  cases a with
  | straightedge fromId toId =>
    cases h
    exact Request.le_ceiling _ htop
  | compass centerId radiusPointId =>
    cases h
    exact Request.le_ceiling _ htop
  | mark m =>
    -- Marked or passed over, the counter moves alike.
    have hceiling := Request.advanced_le_ceiling m.label htop
    obtain ⟨c?, -, h⟩ := exists_of_bind_eq_ok h
    cases c? with
    | none =>
      rw [eq_skipped_of_skip h]
      exact hceiling
    | some c =>
      obtain ⟨r, hr, h⟩ := exists_of_bind_eq_ok h
      cases h
      rw [(s.mark_meets style c m.label).2 r hr]
      exact hceiling
  | call c =>
    rw [act] at h
    split at h
    · rename_i m hm
      obtain ⟨o, ho, h⟩ := exists_of_bind_eq_ok h
      cases h
      have hnext := (Macro.builds_of_execute ho).nextLabel_le hcounter
      rw [Action.request_call hm, Request.ceiling]
      dsimp only
      omega
    · cases h
      exact Request.le_ceiling _ htop
  | unknown shown => cases h

/-! ### Several actions -/

theorem leads_actAll {steps : List Step} (h : s.actAll style extend steps = .ok t) :
    s.Leads style t := by
  induction steps generalizing s with
  | nil =>
    cases h
    exact .refl _
  | cons step steps ih =>
    obtain ⟨u, hu, h⟩ := exists_of_bind_eq_ok h
    exact (leads_act hu).trans (ih h)

/-- What the first step draws comes first. -/
theorem exists_first_of_actAll {step : Step} {steps : List Step}
    (h : s.actAll style extend (step :: steps) = .ok t)
    (hstep : ∀ u, s.act style extend step.action = .ok u →
      ∃ e es, u.figure.elements = s.figure.elements ++ e :: es ∧ s.figure.Anchors e) :
    ∃ e es, t.figure.elements = s.figure.elements ++ e :: es ∧ s.figure.Anchors e := by
  obtain ⟨u, hu, h⟩ := exists_of_bind_eq_ok h
  obtain ⟨e, es, hes, he⟩ := hstep u hu
  obtain ⟨more, hmore⟩ := (leads_actAll h).growsTo
  exact ⟨e, es ++ more, by rw [← hmore, hes, List.append_assoc, List.cons_append], he⟩

end Scene

end RulerCompass
