import RulerCompass.Proofs.Crossing.Marking
import RulerCompass.Proofs.Ledger.Known
import RulerCompass.Proofs.Macro.Shape
import RulerCompass.Proofs.Replay.Success

/-!
# Where facts come from

Each fact of a replay is given, or concluded, or it has been entered in one turn: by a single step or a
single extra.  A turn that enters facts either marks a crossing that was open, and then they are what
Definition 15 says about the new point, or it performs a macro, and then they are what the macro asserts.
-/

namespace RulerCompass.Replay

variable {K : Type}

theorem mem_facts_prove {r : Replay K} {as : List Assertion} {now : Int} {f : Fact} :
    f ∈ (r.prove as now).facts ↔ f ∈ r.facts ∨ f ∈ (r.ledger.recordAll as now).1 :=
  List.mem_append

variable [Scalar K] {style : Style}

/-! ### Turns -/

/-- A single step or extra of a replay leads from the second replay to the third; its facts get the
number. -/
inductive Turn (style : Style) (p : Proposition K) (given : List (Element K)) (steps : List Step)
    (extras : List Extra) : Int → Replay K → Replay K → Prop
  | step {before after : List Step} {step : Step} {u v : Replay K}
      (hsteps : steps = before ++ step :: after)
      (hu : (performAll style p.id p.prolongs 0 before (start p given)).result = .ok u)
      (hv : (u.perform style p.id p.prolongs (step, before.length)).result = .ok v) :
      Turn style p given steps extras before.length u v
  | extra {before after : List Extra} {e : Extra} {r u v : Replay K}
      (hextras : extras = before ++ e :: after)
      (hr : (throughConclusion style p given steps).result = .ok r)
      (hu : before.foldlM (performExtra style steps.length) (r.readied p.prolongs) = .ok u)
      (hv : u.performExtra style steps.length e = .ok v) :
      Turn style p given steps extras steps.length u v

theorem leads_foldlM {α : Type} {perform : Replay K → α → Except Fault (Replay K)}
    (hstep : ∀ u a v, perform u a = .ok v → u.scene.Leads style v.scene) {l : List α}
    {u v : Replay K} (h : l.foldlM perform u = .ok v) : u.scene.Leads style v.scene := by
  have hloop := Meets.foldlM (f := perform) (c := fun _ => False)
    (I := fun w => u.scene.Leads style w.scene)
    (fun a w hw => ⟨False.elim, fun x hx => hw.trans (hstep w a x hx)⟩) l (.refl _)
  exact hloop.2 v h

section Whole

variable {p : Proposition K} {given : List (Element K)} {steps : List Step} {extras : List Extra}
  {now : Int} {r u v : Replay K} {f : Fact}

theorem Turn.leads_start (h : Turn style p given steps extras now u v) :
    (start p given).scene.Leads style u.scene := by
  cases h with
  | step hsteps hu hv => exact leads_performAll hu
  | extra hextras hr hu hv =>
    refine ((leads_throughConclusion hr).trans (leads_readied style p.prolongs _)).trans ?_
    exact leads_foldlM (fun _ _ _ hx => leads_performExtra hx) hu

/-- **The steps have sources.**  A fact that steps enter is entered in the turn of one of them. -/
theorem exists_turn_of_performAll (extras : List Extra)
    (h : (performAll style p.id p.prolongs 0 steps (start p given)).result = .ok r)
    (hf : f ∈ r.facts) (hnew : f ∉ (start p given).facts) :
    ∃ (k : Int) (u v : Replay K), Turn style p given steps extras k u v ∧ f ∉ u.facts ∧
      f ∈ v.facts ∧ v.scene.Leads style r.scene := by
  have hloop := h
  rw [performAll, Run.result_foldlM] at hloop
  -- The fact is missing at the start and there at the end, so some step has entered it.
  obtain ⟨before, ⟨step, k⟩, after, u, v, hsplit, hu, hv, hold, hentered, hrest⟩ :=
    exists_change_of_foldlM (P := fun u : Replay K => f ∈ u.facts) hloop hnew hf
  obtain ⟨first, rest, hsteps, rfl, hnext⟩ := List.zipIdx_eq_append_iff.mp hsplit
  cases rest with
  | nil => cases hnext
  | cons step' rest =>
    rw [List.zipIdx_cons, Nat.zero_add] at hnext
    obtain ⟨hhead, -⟩ := List.cons.inj hnext
    obtain ⟨rfl, rfl⟩ := Prod.mk.inj hhead
    rw [← Run.result_foldlM] at hu
    refine ⟨_, u, v, .step hsteps hu hv, hold, hentered, leads_foldlM (fun u a v hx => ?_) hrest⟩
    exact Scene.leads_act (scene_perform hx)

/-- **Facts have sources.**  A fact is given, or the definition concludes it, or it is entered in the
turn of a step or an extra. -/
theorem source_of_mem_facts (h : (run style p given steps extras).result = .ok r)
    (hf : f ∈ r.facts) :
    f ∈ (start p given).facts ∨
      (∃ u : Replay K, (performAll style p.id p.prolongs 0 steps (start p given)).result = .ok u ∧
        f ∈ (u.ledger.recordAll p.conclusion steps.length).1) ∨
      ∃ (k : Int) (u v : Replay K), Turn style p given steps extras k u v ∧ f ∉ u.facts ∧
        f ∈ v.facts ∧ v.scene.Leads style r.scene := by
  obtain ⟨concluded, hthrough, hextras⟩ := exists_concluded_of_run h
  obtain ⟨-, u, hu, rfl⟩ := throughConclusion_eq_ok_iff.mp hthrough
  -- A fact is entered before the conclusion, by it, or by an extra.
  by_cases hconcluded : f ∈ (u.prove p.conclusion steps.length).facts
  · rcases mem_facts_prove.mp hconcluded with hsteps | hconclusion
    · by_cases hgiven : f ∈ (start p given).facts
      · exact Or.inl hgiven
      · obtain ⟨k, v, w, hturn, hold, hentered, hleads⟩ :=
          exists_turn_of_performAll extras hu hsteps hgiven
        have hend := leads_performExtras hextras
        exact Or.inr (Or.inr ⟨k, v, w, hturn, hold, hentered, hleads.trans hend⟩)
    · exact Or.inr (Or.inl ⟨u, hu, hconclusion⟩)
  · rcases performExtras_eq_ok hextras with rfl | hloop
    · exact absurd hf hconcluded
    · rw [← facts_readied p.prolongs] at hconcluded
      obtain ⟨before, e, after, v, w, hsplit, hv, hw, hold, hentered, hrest⟩ :=
        exists_change_of_foldlM (P := fun u : Replay K => f ∈ u.facts) hloop hconcluded hf
      refine Or.inr (Or.inr ⟨_, v, w, .extra hsplit hthrough hv hw, hold, hentered, ?_⟩)
      exact leads_foldlM (fun _ _ _ hx => leads_performExtra hx) hrest

/-! ### What a turn enters -/

/-- The assertions that are entered between two replays: about a crossing that is marked, or by a
macro. -/
inductive Entry (style : Style) (extend : Bool) (u v : Replay K) : List Assertion → Prop
  | marked {c : Crossing K} {label? : Option String} {q : Point K} (hc : c ∈ u.scene.crossings)
      (hmark : u.scene.mark style c label? = .ok (v.scene, q)) :
      Entry style extend u v (c.radiusAssertions q.id v.scene.figure)
  | called {m : Macro} {labels : Macro.OutputLabels} {inputs : List String} {o : Macro.Outcome K}
      (hruns : Macro.Runs style u.scene extend labels m inputs o) :
      Entry style extend u v o.assertions

theorem exists_entry_of_attempt {propId : Int} {extend : Bool} {index : Nat} {a : Action}
    {out : Bool × Replay K} (h : (u.attempt style propId extend index a).result = .ok out)
    (hf : f ∈ out.2.facts) (hnew : f ∉ u.facts) :
    ∃ as, Entry style extend u out.2 as ∧ f ∈ (u.ledger.recordAll as index).1 := by
  obtain ⟨flag, v⟩ := out
  cases attempted_of_attempt h with
  | segment fromId toId => exact absurd hf hnew
  | circle centerId radiusPointId => exact absurd hf hnew
  | marked hc hs =>
    refine ⟨_, .marked (Crossing.offered_of_match? hc).mem hs, ?_⟩
    exact (mem_facts_prove.mp hf).resolve_left hnew
  | skipped hc => exact absurd hf hnew
  | called hm ho hadded hlayers =>
    -- A macro that leaves everything alone adds nothing.
    rcases Macro.eq_unchanged_or_runs ho with rfl | hruns
    · exact absurd rfl hadded
    · exact ⟨_, .called hruns, (mem_facts_prove.mp hf).resolve_left hnew⟩
  | refused hm ho hadded => exact absurd hf hnew
  | unnamed hm => exact absurd hf hnew

theorem exists_entry_of_perform {propId : Int} {extend : Bool} {step : Step × Nat}
    (h : (u.perform style propId extend step).result = .ok v) (hf : f ∈ v.facts)
    (hnew : f ∉ u.facts) :
    ∃ as, Entry style extend u v as ∧ f ∈ (u.ledger.recordAll as step.2).1 := by
  obtain ⟨⟨flag, w⟩, hout, h⟩ := Run.exists_of_bind_eq_ok h
  -- To count the step changes neither its scene nor its facts.
  have hsame : v.scene = w.scene ∧ v.facts = w.facts := by
    cases flag <;> cases h <;> exact ⟨rfl, rfl⟩
  rw [hsame.2] at hf
  obtain ⟨as, hentry, hrecorded⟩ := exists_entry_of_attempt hout hf hnew
  refine ⟨as, ?_, hrecorded⟩
  cases hentry with
  | marked hc hmark =>
    rw [← hsame.1] at hmark ⊢
    exact .marked hc hmark
  | called hruns => exact .called hruns

theorem exists_entry_of_performExtra {extend : Bool} {e : Extra}
    (h : u.performExtra style now e = .ok v) (hf : f ∈ v.facts) (hnew : f ∉ u.facts) :
    ∃ as, Entry style extend u v as ∧ f ∈ (u.ledger.recordAll as now).1 := by
  cases e with
  | circle centerId radiusPointId =>
    cases h
    exact absurd hf hnew
  | segment fromId toId =>
    cases h
    exact absurd hf hnew
  | mark ofA ofB which =>
    rw [performExtra] at h
    split at h
    · rename_i c hc
      obtain ⟨⟨s, q⟩, hmark, h⟩ := exists_of_bind_eq_ok h
      cases h
      refine ⟨_, .marked (List.mem_of_find?_eq_some hc) hmark, ?_⟩
      exact (mem_facts_prove.mp hf).resolve_left hnew
    · obtain ⟨s, -, h⟩ := exists_of_bind_eq_ok h
      cases h
      exact absurd hf hnew
  | unknown shown => cases h

/-- **What a turn enters** are assertions about the point that it marks, or those of its macro. -/
theorem Turn.exists_entry (h : Turn style p given steps extras now u v) (hf : f ∈ v.facts)
    (hnew : f ∉ u.facts) :
    ∃ extend as, Entry style extend u v as ∧ f.assertion ∈ as ∧ f.atStep = now := by
  have hentered : ∃ extend as, Entry style extend u v as ∧ f ∈ (u.ledger.recordAll as now).1 := by
    cases h with
    | step hsteps hu hv => exact ⟨_, exists_entry_of_perform hv hf hnew⟩
    | extra hextras hr hu hv => exact ⟨true, exists_entry_of_performExtra hv hf hnew⟩
  obtain ⟨extend, as, hentry, hrecorded⟩ := hentered
  exact ⟨extend, as, hentry, Ledger.assertion_mem_of_mem_recordAll hrecorded,
    Ledger.recordAll_atStep _ as now f hrecorded⟩

end Whole

end RulerCompass.Replay
