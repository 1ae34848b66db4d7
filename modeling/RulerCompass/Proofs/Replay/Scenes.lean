import RulerCompass.Proofs.Replay.Attempt
import RulerCompass.Proofs.Scene.Act

/-!
# Scenes of a replay

Each step does to the scene of a replay what its action does to a scene alone, so a replay consists of
moves from its given figure to the end.
-/

namespace RulerCompass

variable {K : Type} [Scalar K] (style : Style) (extend : Bool)

namespace Replay

variable {style extend} {r r' : Replay K} {propId : Int}

theorem scene_markAt {c : Crossing K} {label? : Option String} {atStep : Int}
    (h : r.markAt style c label? atStep = .ok r') :
    ∃ p, r.scene.mark style c label? = .ok (r'.scene, p) := by
  obtain ⟨⟨s, p⟩, hs, h⟩ := exists_of_bind_eq_ok h
  cases h
  exact ⟨p, hs⟩

theorem scene_attempt {index : Nat} {a : Action} {out : Bool × Replay K}
    (h : (r.attempt style propId extend index a).result = .ok out) :
    r.scene.act style extend a = .ok out.2.scene := by
  obtain ⟨flag, r'⟩ := out
  cases attempted_of_attempt h with
  | segment fromId toId => rfl
  | circle centerId radiusPointId => rfl
  | marked hc hs => exact Scene.act_mark_some hc hs
  | skipped hc hs => exact (Scene.act_mark_none hc).trans hs
  | called hm ho hadded hlayers => exact Scene.act_call_some hm ho
  | @refused c m o hm ho hadded =>
    -- A macro that has added nothing is passed over, and it has left the scene alone.
    have hfollows := (m.execute_meets style _ extend c.outputLabels c.inputs).2 o ho
    rw [Scene.act_call_some hm ho, hfollows.scene_eq hadded]
  | unnamed hm => exact Scene.act_call_none hm

theorem scene_perform {step : Step × Nat}
    (h : (r.perform style propId extend step).result = .ok r') :
    r.scene.act style extend step.1.action = .ok r'.scene := by
  obtain ⟨⟨succeeded, r''⟩, hout, h⟩ := Run.exists_of_bind_eq_ok h
  rw [scene_attempt hout]
  cases succeeded <;> cases h <;> rfl

theorem scene_performAll {first : Nat} {steps : List Step}
    (h : (performAll style propId extend first steps r).result = .ok r') :
    r.scene.actAll style extend steps = .ok r'.scene := by
  induction steps generalizing first r with
  | nil =>
    cases h
    rfl
  | cons step steps ih =>
    rw [performAll_cons] at h
    obtain ⟨u, hu, h⟩ := Run.exists_of_bind_eq_ok h
    rw [Scene.actAll, List.foldlM_cons, scene_perform hu]
    exact ih h

/-- Up to its conclusion a replay is its steps, once the given labels have been read. -/
theorem throughConclusion_eq_ok_iff {p : Proposition K} {given : List (Element K)} {steps : List Step} :
    (throughConclusion style p given steps).result = .ok r ↔
      (Figure.ofGiven given).Legible ∧
        ∃ u, (performAll style p.id p.prolongs 0 steps (start p given)).result = .ok u ∧
          u.prove p.conclusion steps.length = r := by
  rw [throughConclusion, Run.result_bind, ← Figure.readLabels_eq_ok_iff]
  constructor
  · intro h
    obtain ⟨_, hlabels, h⟩ := exists_of_bind_eq_ok h
    obtain ⟨u, hu, h⟩ := Run.exists_of_bind_eq_ok h
    cases h
    exact ⟨hlabels, u, hu, rfl⟩
  · rintro ⟨hlabels, u, hu, rfl⟩
    have hread : (Run.ofExcept (Figure.readLabels given) : Run K Unit).result = .ok () := by
      rw [Run.result_ofExcept, hlabels]
    refine (congrArg (· >>= _) hread).trans ?_
    show (performAll style p.id p.prolongs 0 steps (start p given) >>= _).result = _
    rw [Run.result_bind, hu]
    rfl

theorem run_nil (p : Proposition K) (given : List (Element K)) (steps : List Step) :
    (run style p given steps).result = (throughConclusion style p given steps).result := by
  rw [run, Run.result_bind]
  cases (throughConclusion style p given steps).result <;> rfl

theorem scene_run {p : Proposition K} {given : List (Element K)} {steps : List Step}
    (h : (run style p given steps).result = .ok r) :
    (start p given).scene.actAll style p.prolongs steps = .ok r.scene := by
  rw [run_nil] at h
  obtain ⟨-, u, hu, rfl⟩ := throughConclusion_eq_ok_iff.mp h
  have hsteps := scene_performAll hu
  exact hsteps

theorem leads_performAll {first : Nat} {steps : List Step}
    (h : (performAll style propId extend first steps r).result = .ok r') :
    r.scene.Leads style r'.scene := Scene.leads_actAll (scene_performAll h)

theorem leads_performExtra {atStep : Int} {e : Extra}
    (h : r.performExtra style atStep e = .ok r') : r.scene.Leads style r'.scene := by
  cases e with
  | circle centerId radiusPointId =>
    cases h
    exact r.scene.leads_drawCircle style true centerId radiusPointId
  | segment fromId toId =>
    cases h
    exact r.scene.leads_drawSegment style true fromId toId
  | mark ofA ofB which =>
    rw [performExtra] at h
    split at h
    · obtain ⟨p, hp⟩ := scene_markAt h
      exact Scene.leads_mark hp
    · obtain ⟨s, hs, h⟩ := exists_of_bind_eq_ok h
      cases h
      exact Scene.leads_skip hs
  | unknown shown => cases h

/-- What searching and every extra keep is kept by all extras. -/
theorem performExtras_keeps {I : Replay K → Prop} {atStep : Int} {extras : List Extra}
    (hsearch : ∀ r : Replay K, I r → I { r with scene := r.scene.searchAll true })
    (hextra : ∀ (r : Replay K) (e : Extra) (r' : Replay K),
      r.performExtra style atStep e = .ok r' → I r → I r')
    (h : r.performExtras style extend atStep extras = .ok r') (hr : I r) : I r' := by
  have hstep : ∀ (e : Extra) (r : Replay K), I r →
      Meets False (r.performExtra style atStep e) I := fun e r hr =>
    ⟨False.elim, fun u hu => hextra r e u hu hr⟩
  rcases performExtras_eq_ok h with rfl | h
  · exact hr
  · exact (Meets.foldlM hstep extras (readied_keeps hsearch hr)).2 r' h

theorem figure_readied (extend : Bool) (r : Replay K) :
    (r.readied extend).scene.figure = r.scene.figure := by
  cases extend with
  | true => rfl
  | false => exact r.scene.searchAll_figure true

theorem leads_readied (style : Style) (extend : Bool) (r : Replay K) :
    r.scene.Leads style (r.readied extend).scene :=
  readied_keeps (I := fun u => r.scene.Leads style u.scene)
    (fun u hu => hu.trans (u.scene.leads_searchAll style true)) (.refl _)

theorem leads_performExtras {atStep : Int} {extras : List Extra}
    (h : r.performExtras style extend atStep extras = .ok r') : r.scene.Leads style r'.scene := by
  refine performExtras_keeps (I := fun u => r.scene.Leads style u.scene) ?_ ?_ h (.refl _)
  · intro u hu
    exact hu.trans (u.scene.leads_searchAll style true)
  · intro u e v hv hu
    exact hu.trans (leads_performExtra hv)

theorem leads_throughConclusion {p : Proposition K} {given : List (Element K)} {steps : List Step}
    (h : (throughConclusion style p given steps).result = .ok r) :
    (start p given).scene.Leads style r.scene := by
  obtain ⟨-, u, hu, rfl⟩ := throughConclusion_eq_ok_iff.mp h
  have hsteps := leads_performAll hu
  exact hsteps

/-- A replay is its extras after its conclusion. -/
theorem exists_concluded_of_run {p : Proposition K} {given : List (Element K)} {steps : List Step}
    {extras : List Extra} (h : (run style p given steps extras).result = .ok r) :
    ∃ u, (throughConclusion style p given steps).result = .ok u ∧
      u.performExtras style p.prolongs steps.length extras = .ok r := by
  obtain ⟨u, hu, h⟩ := Run.exists_of_bind_eq_ok h
  obtain ⟨v, hv, h⟩ := Run.exists_of_bind_eq_ok h
  cases h
  exact ⟨u, hu, hv⟩

theorem leads_run {p : Proposition K} {given : List (Element K)} {steps : List Step}
    {extras : List Extra} (h : (run style p given steps extras).result = .ok r) :
    (start p given).scene.Leads style r.scene := by
  obtain ⟨u, hu, hextras⟩ := exists_concluded_of_run h
  exact (leads_throughConclusion hu).trans (leads_performExtras hextras)

end Replay

end RulerCompass
