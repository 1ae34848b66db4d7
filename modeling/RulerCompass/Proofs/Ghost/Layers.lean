import RulerCompass.Proofs.Book.Labels
import RulerCompass.Proofs.Macro.Given

/-!
# Layers of hidden constructions

The steps of a hidden construction are those of the book, on a given figure of their own.  By
induction on the nesting every hidden construction gives its layers, and all of them belong to the
step that it was revealed for.
-/

namespace RulerCompass

/-- The macro that an action uses, with its inputs. -/
def Action.use? : Action → Option (Macro × List String)
  | .call c => (Macro.ofProp? c.propId).map fun m => (m, c.inputs)
  | _ => none

namespace Hidden

variable {K : Type} [Scalar K] (style : Style)

/-! ### The scene of a hidden construction -/

section Scene

variable {style : Style} {extend : Bool} {h h' : Hidden K}
  {below : Macro → List String → Figure K → Run K (List (GhostLayer K))}

theorem scene_perform {a : Action} (hh : (h.perform style extend below a).result = .ok h') :
    h.scene.act style extend a = .ok h'.scene := by
  cases a with
  | straightedge fromId toId =>
    cases hh
    rfl
  | compass centerId radiusPointId =>
    cases hh
    rfl
  | mark m =>
    obtain ⟨c?, hc, hh⟩ := Run.exists_of_bind_eq_ok hh
    cases c? with
    | none =>
      obtain ⟨s, hs, hh⟩ := Run.exists_of_bind_eq_ok hh
      cases hh
      exact (Scene.act_mark_none hc).trans hs
    | some c =>
      obtain ⟨r, hr, hh⟩ := Run.exists_of_bind_eq_ok hh
      obtain ⟨beyond, -, hh⟩ := Run.exists_of_bind_eq_ok hh
      cases hh
      exact Scene.act_mark_some hc hr
  | call c =>
    rw [perform] at hh
    split at hh
    · -- No such macro, so nothing happens.
      rename_i hm
      cases hh
      exact Scene.act_call_none hm
    · rename_i m hm
      obtain ⟨o, ho, hh⟩ := Run.exists_of_bind_eq_ok hh
      obtain ⟨layers, -, hh⟩ := Run.exists_of_bind_eq_ok hh
      cases hh
      exact Scene.act_call_some hm ho
  | unknown shown => cases hh

theorem scene_performAll {steps : List Step} (hh : (steps.foldlM (fun (h : Hidden K) s =>
      h.perform style extend below s.action) h).result = .ok h') :
    h.scene.actAll style extend steps = .ok h'.scene := by
  induction steps generalizing h with
  | nil =>
    cases hh
    rfl
  | cons step steps ih =>
    rw [List.foldlM_cons] at hh
    obtain ⟨u, hu, hh⟩ := Run.exists_of_bind_eq_ok hh
    rw [Scene.actAll, List.foldlM_cons, scene_perform hu]
    exact ih hh

end Scene

/-! ### Performing the steps -/

section Performing

variable {below : Macro → List String → Figure K → Run K (List (GhostLayer K))}
  (hbelow : ∀ m inputs f, ∃ layers, (below m inputs f).result = .ok layers)
include hbelow

/-- A hidden step fails for an unknown action or for want of a label only, and the label counter does not
go back. -/
theorem perform_meets (extend : Bool) (h : Hidden K) (a : Action) :
    Meets (a.Known ∧ h.scene.figure.Room a.request.count a.request.label?)
      (h.perform style extend below a).result
      fun h' => h.scene.figure.nextLabel ≤ h'.scene.figure.nextLabel := by
  cases a with
  | compass centerId radiusPointId =>
    have hnext := h.scene.drawCircle_nextLabel style extend centerId radiusPointId
    exact meets_ok (Int.le_of_eq hnext.symm)
  | straightedge fromId toId =>
    have hnext := h.scene.drawSegment_nextLabel style extend fromId toId
    exact meets_ok (Int.le_of_eq hnext.symm)
  | mark m =>
    have hmatch := Crossing.match?_meets h.scene.figure m h.scene.crossings
    refine Run.meets_bind (hmatch.imp And.left) fun c? _ => ?_
    cases c? with
    | none =>
      refine Run.meets_bind ((h.scene.skip_meets m.label).imp fun hk => hk.2.readable) fun s hs => ?_
      rw [hs]
      exact meets_ok (h.scene.le_skipped_nextLabel m.label)
    | some c =>
      have hmark := h.scene.mark_meets style c m.label
      refine Run.meets_bind (hmark.imp fun hk => hk.2.hasLabel Nat.one_pos) fun r hr => ?_
      have hbeyond := m.prolongation?_meets r.1.figure style r.2
      refine Run.meets_bind (hbeyond.imp And.left) fun beyond _ => ?_
      refine meets_ok (Int.le_trans (Label.le_advanced _ m.label) (Int.le_of_eq hr.symm))
  | call c =>
    rw [perform]
    -- Macros call deeper constructions, which never fail.
    split
    · exact meets_ok (Int.le_refl _)
    · rename_i m hm
      have hrun := m.execute_meets style h.scene extend c.outputLabels c.inputs
      rw [Action.request_call hm]
      refine Run.meets_bind (hrun.imp And.right) fun outcome ho => ?_
      refine Run.meets_bind (.of_ok fun _ => hbelow m c.inputs h.scene.figure) fun layers _ => ?_
      exact meets_ok ho.nextLabel_le
  | unknown shown => exact meets_error fun hk => hk.1

/-- Known steps can all be performed, in their order, while there are labels for their points. -/
theorem performAll_meets (extend : Bool) (steps : List Step) {h : Hidden K} {top : Nat}
    (hcounter : 0 ≤ h.scene.figure.nextLabel) (htop : h.scene.figure.nextLabel ≤ top) :
    Meets ((∀ s ∈ steps, s.action.Known) ∧ LabelsSuffice top (requests steps) 0)
      (steps.foldlM (fun (h : Hidden K) s => h.perform style extend below s.action) h).result
      fun _ => True := by
  induction steps generalizing h top with
  | nil => exact meets_ok_true
  | cons s steps ih =>
    rw [List.foldlM_cons]
    have hstep := (perform_meets style hbelow extend h s.action).with_eq
    -- This step first, then the others from the counter behind it.
    refine Run.meets_bind (hstep.imp fun hk => ?_) fun u ⟨hu, hle⟩ => ?_
    · exact ⟨hk.1 s List.mem_cons_self, hk.2.room hcounter htop⟩
    · have hceiling := Scene.nextLabel_act_le (scene_perform hu) hcounter htop
      refine (ih (Int.le_trans hcounter hle) hceiling).imp fun hk => ?_
      exact ⟨fun t ht => hk.1 t (List.mem_cons_of_mem s ht), hk.2.rest⟩

end Performing

theorem layersWithin_ok (bound : Nat) (m : Macro) (inputs : List String) (parent : Figure K)
    (atStep depth : Int) :
    ∃ layers, (layersWithin style bound m inputs parent atStep depth).result = .ok layers := by
  induction bound generalizing m inputs parent depth with
  | zero => exact ⟨[], rfl⟩
  | succ bound ih =>
    unfold layersWithin
    split
    · exact ⟨[], rfl⟩
    · rename_i p hp
      split
      · exact ⟨[], rfl⟩
      · -- All inputs are there, so the construction of the book runs on their places.
        rename_i given hgiven
        have hmem : p ∈ Book.propositions := List.mem_of_find?_eq_some hp
        obtain rfl := Macro.eq_placed_of_givenFor? hgiven
        have hlabels := Book.labelsReach hmem (m.sameNames_placed inputs parent p) 0
          Label.alphabet_le_capacity
        have hrun := performAll_meets style (fun m inputs f => ih m inputs f (depth + 1)) p.prolongs
          p.steps (h := { scene := { figure := Figure.ofGiven (m.placed p inputs parent) } })
          (Figure.ofGiven_nextLabel_nonneg _) (Int.self_le_toNat _)
        -- The rules ask for a condition, which the book meets.
        suffices hmeets : Meets (LabelsReach (m.placed p inputs parent) (requests p.steps) 0) _
            fun _ => True from hmeets.1 hlabels
        refine Run.meets_bind ((Figure.readGiven_meets _).imp fun h => h.legible) fun f hf => ?_
        rw [hf]
        refine Run.meets_bind (hrun.imp fun h => ⟨Book.known_of_mem hmem, h.suffice⟩) fun _ _ => ?_
        exact meets_ok_true

theorem layers_ok (propId : Int) (inputs : List String) (parent : Figure K) (atStep depth : Int) :
    ∃ layers, (Hidden.layers style propId inputs parent atStep depth).result = .ok layers := by
  unfold layers
  split
  · exact ⟨[], rfl⟩
  · exact layersWithin_ok style _ _ inputs parent atStep depth

/-! ### The step of a layer -/

/-- The layers of the macro that a hidden step uses come after those before it, and no others. -/
theorem exists_deeper_of_perform {style : Style} {extend : Bool}
    {below : Macro → List String → Figure K → Run K (List (GhostLayer K))} {h h' : Hidden K}
    {a : Action} (hh : (h.perform style extend below a).result = .ok h') :
    (a.use? = none ∧ h'.deeper = h.deeper) ∨
      ∃ m inputs layers, a.use? = some (m, inputs) ∧
        (below m inputs h.scene.figure).result = .ok layers ∧ h'.deeper = h.deeper ++ layers := by
  cases a with
  -- Only a macro can show deeper layers.
  | straightedge fromId toId =>
    cases hh
    exact Or.inl ⟨rfl, rfl⟩
  | compass centerId radiusPointId =>
    cases hh
    exact Or.inl ⟨rfl, rfl⟩
  | mark m =>
    obtain ⟨c?, -, hh⟩ := Run.exists_of_bind_eq_ok hh
    cases c? with
    | none =>
      obtain ⟨s, -, hh⟩ := Run.exists_of_bind_eq_ok hh
      cases hh
      exact Or.inl ⟨rfl, rfl⟩
    | some c =>
      obtain ⟨r, -, hh⟩ := Run.exists_of_bind_eq_ok hh
      obtain ⟨beyond, -, hh⟩ := Run.exists_of_bind_eq_ok hh
      cases hh
      exact Or.inl ⟨rfl, rfl⟩
  | call c =>
    rw [perform] at hh
    split at hh
    · rename_i hm
      cases hh
      exact Or.inl ⟨by rw [Action.use?, hm, Option.map_none], rfl⟩
    · rename_i m hm
      obtain ⟨o, -, hh⟩ := Run.exists_of_bind_eq_ok hh
      obtain ⟨layers, hlayers, hh⟩ := Run.exists_of_bind_eq_ok hh
      cases hh
      exact Or.inr ⟨m, c.inputs, layers, by rw [Action.use?, hm, Option.map_some], hlayers, rfl⟩
  | unknown shown => cases hh

section Step

variable {style} {extend : Bool} {P : GhostLayer K → Prop}
  {below : Macro → List String → Figure K → Run K (List (GhostLayer K))}
  (hbelow : ∀ m inputs f layers, (below m inputs f).result = .ok layers → ∀ g ∈ layers, P g)
include hbelow

theorem perform_deeper {h h' : Hidden K} {a : Action}
    (hh : (h.perform style extend below a).result = .ok h') (hdeeper : ∀ g ∈ h.deeper, P g) :
    ∀ g ∈ h'.deeper, P g := by
  rcases exists_deeper_of_perform hh with ⟨-, hsame⟩ | ⟨m, inputs, layers, -, hlayers, happend⟩
  · rw [hsame]
    exact hdeeper
  · intro g hg
    rw [happend] at hg
    rcases List.mem_append.mp hg with hg | hg
    · exact hdeeper g hg
    · exact hbelow m inputs _ layers hlayers g hg

theorem performAll_deeper {steps : List Step} {h h' : Hidden K}
    (hh : (steps.foldlM (fun (h : Hidden K) s => h.perform style extend below s.action) h).result =
      .ok h') (hdeeper : ∀ g ∈ h.deeper, P g) : ∀ g ∈ h'.deeper, P g := by
  induction steps generalizing h with
  | nil =>
    cases hh
    exact hdeeper
  | cons s steps ih =>
    rw [List.foldlM_cons] at hh
    obtain ⟨u, hu, hh⟩ := Run.exists_of_bind_eq_ok hh
    exact ih hh (perform_deeper hbelow hu hdeeper)

end Step

variable {style}

theorem atStep_of_mem_layersWithin {bound : Nat} {m : Macro} {inputs : List String}
    {parent : Figure K} {atStep depth : Int} {layers : List (GhostLayer K)}
    (h : (layersWithin style bound m inputs parent atStep depth).result = .ok layers) :
    ∀ g ∈ layers, g.atStep = atStep := by
  induction bound generalizing m inputs parent depth layers with
  | zero =>
    cases h
    exact fun g hg => nomatch hg
  | succ bound ih =>
    unfold layersWithin at h
    split at h
    · cases h
      exact fun g hg => nomatch hg
    · split at h
      · cases h
        exact fun g hg => nomatch hg
      · obtain ⟨f, -, h⟩ := Run.exists_of_bind_eq_ok h
        obtain ⟨last, hlast, h⟩ := Run.exists_of_bind_eq_ok h
        cases h
        have hdeeper := performAll_deeper (fun m inputs f _ hf => ih hf) hlast (fun g hg => nomatch hg)
        intro g hg
        rcases List.mem_append.mp hg with hg | hg
        · -- The own layer, or none where nothing has been drawn.
          split at hg
          · cases hg
          · obtain rfl := List.mem_singleton.mp hg
            rfl
        · -- Layers below carry the step they were asked at.
          exact hdeeper g hg

/-- All layers revealed at a step belong to it, however deep they are. -/
theorem atStep_of_mem_layers {propId : Int} {inputs : List String} {parent : Figure K}
    {atStep depth : Int} {layers : List (GhostLayer K)}
    (h : (Hidden.layers style propId inputs parent atStep depth).result = .ok layers) :
    ∀ g ∈ layers, g.atStep = atStep := by
  unfold Hidden.layers at h
  split at h
  · cases h
    exact fun g hg => nomatch hg
  · exact atStep_of_mem_layersWithin h

end Hidden

end RulerCompass
