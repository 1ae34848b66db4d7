import RulerCompass.Proofs.Ghost.Drawing

/-!
# The shape of hidden constructions

A macro uses at most one other, the one before it, and on given points of its own.  Those are there
wherever they have been moved to, so a hidden construction always resolves the inputs of the macro
that it uses, and it shows something whatever fails in it.  The layers of a macro are therefore one
for each proposition from its own down to the first, each one macro deeper than the one before.
-/

namespace RulerCompass

variable {K : Type}

/-! ### Headings -/

/-- Which proposition a layer shows, how many macros deep and at which step. -/
structure GhostLayer.Heading where
  propId : Int
  depth : Int
  atStep : Int
  deriving DecidableEq

namespace GhostLayer

def heading (g : GhostLayer K) : Heading := ⟨g.propId, g.depth, g.atStep⟩

/-- The propositions from this one down to the first, each one macro deeper than the one before. -/
def descent (propId depth atStep : Int) : List Heading :=
  (List.range propId.toNat).map fun (j : Nat) => ⟨propId - j, depth + j, atStep⟩

theorem descent_succ (n : Nat) (depth atStep : Int) :
    descent (n + 1 : Nat) depth atStep =
      ⟨(n + 1 : Nat), depth, atStep⟩ :: descent n (depth + 1) atStep := by
  rw [descent, descent, Int.toNat_natCast, Int.toNat_natCast, List.range_succ_eq_map, List.map_cons,
    List.map_map]
  congr 1
  · simp
  · refine List.map_congr_left fun j _ => ?_
    simp only [Function.comp_apply, Heading.mk.injEq, and_true]
    omega

end GhostLayer

/-! ### Macros that are used -/

/-- The macros that steps use, in order, with their inputs. -/
def Step.uses (steps : List Step) : List (Macro × List String) :=
  steps.filterMap fun s => s.action.use?

theorem Step.uses_cons_none {step : Step} {steps : List Step} (h : step.action.use? = none) :
    uses (step :: steps) = uses steps := by
  simp only [uses, List.filterMap_cons, h]

theorem Step.uses_cons_some {step : Step} {steps : List Step} {u : Macro × List String}
    (h : step.action.use? = some u) : uses (step :: steps) = u :: uses steps := by
  simp only [uses, List.filterMap_cons, h]

namespace Macro

variable [Scalar K] {m : Macro}

/-- A proposition uses only the one before it, and on given points. -/
theorem spec_of_mem_uses {u : Macro × List String}
    (hu : u ∈ Step.uses (m.proposition (K := K)).steps) :
    m.number = u.1.number + 1 ∧ ∀ id ∈ u.2, id ∈ m.givenIds := by
  -- The steps of the book decide.
  cases m with
  | triangle =>
    have h : ∀ u ∈ Step.uses Book.Triangle.steps, triangle.number = u.1.number + 1 ∧
        ∀ id ∈ u.2, id ∈ triangle.givenIds := by decide
    exact h u hu
  | transfer =>
    have h : ∀ u ∈ Step.uses Book.Transfer.steps, transfer.number = u.1.number + 1 ∧
        ∀ id ∈ u.2, id ∈ transfer.givenIds := by decide
    exact h u hu
  | cutOff =>
    have h : ∀ u ∈ Step.uses Book.CutOff.steps, cutOff.number = u.1.number + 1 ∧
        ∀ id ∈ u.2, id ∈ cutOff.givenIds := by decide
    exact h u hu

/-- The propositions from a macro down to the first, by what is used. -/
theorem descent_number (m : Macro) (depth atStep : Int) :
    GhostLayer.descent m.number depth atStep = ⟨m.number, depth, atStep⟩ ::
      (Step.uses (m.proposition (K := K)).steps).flatMap fun u =>
        GhostLayer.descent u.1.number (depth + 1) atStep := by
  have hcons (n : Nat) : GhostLayer.descent (n + 1 : Nat) depth atStep =
      ⟨(n + 1 : Nat), depth, atStep⟩ :: (GhostLayer.descent n (depth + 1) atStep ++ []) := by
    rw [GhostLayer.descent_succ, List.append_nil]
  cases m with
  | triangle => exact hcons 0
  | transfer => exact hcons 1
  | cutOff => exact hcons 2

end Macro

/-! ### One macro below the other -/

namespace Hidden

variable [Scalar K] {style : Style} {extend : Bool} {m : Macro} {inputs : List String}
  {parent : Figure K} {atStep depth : Int} {layers : List (GhostLayer K)} {h h' : Hidden K}
  {steps : List Step} {below below' : Macro → List String → Figure K → Run K (List (GhostLayer K))}

/-- The layers of a macro whose inputs are there, its own before those below. -/
theorem layersWithin_succ (style : Style) (bound : Nat) (m : Macro) (inputs : List String)
    (parent : Figure K) (atStep depth : Int) :
    layersWithin style (bound + 1) m inputs parent atStep depth =
      if m.Finds inputs parent then do
        let below := fun m inputs f => layersWithin style bound m inputs f atStep (depth + 1)
        let h ← construction style m below (m.placed m.proposition inputs parent)
        let own := if h.elements.isEmpty then [] else [⟨m.number, depth, atStep, h.elements⟩]
        return own ++ h.deeper
      else return [] := by
  rw [layersWithin, m.book_proposition?]
  simp only [m.givenFor?_eq]
  by_cases hfinds : m.Finds inputs parent
  · rw [if_pos hfinds, if_pos hfinds]
    dsimp only
    rw [readGiven_placed]
    rfl
  · rw [if_neg hfinds, if_neg hfinds]

/-- Only the macro that it uses matters to a hidden step. -/
theorem perform_congr {a : Action} (hbelow : ∀ u ∈ a.use?, below u.1 = below' u.1) (h : Hidden K) :
    h.perform style extend below a = h.perform style extend below' a := by
  cases a with
  | call c =>
    rw [perform, perform]
    split
    · rfl
    · rename_i m hm
      rw [hbelow (m, c.inputs) (by rw [Action.use?, hm]; rfl)]
  | _ => rfl

theorem performAll_congr (hbelow : ∀ u ∈ Step.uses steps, below u.1 = below' u.1) (h : Hidden K) :
    steps.foldlM (fun (h : Hidden K) s => h.perform style extend below s.action) h =
      steps.foldlM (fun (h : Hidden K) s => h.perform style extend below' s.action) h := by
  induction steps generalizing h with
  | nil => rfl
  | cons step steps ih =>
    have hstep : h.perform style extend below step.action =
        h.perform style extend below' step.action := by
      refine perform_congr (fun u hu => hbelow u ?_) h
      exact List.mem_filterMap.mpr ⟨step, List.mem_cons_self, hu⟩
    rw [List.foldlM_cons, List.foldlM_cons, hstep]
    congr 1
    -- The first step agrees, and so do the others, whose uses are among all uses.
    funext v
    refine ih (fun u hu => hbelow u ?_) v
    obtain ⟨s, hs, huse⟩ := List.mem_filterMap.mp hu
    exact List.mem_filterMap.mpr ⟨s, List.mem_cons_of_mem step hs, huse⟩

/-- **The nesting ends by itself.**  The number of a macro bounds the nesting, and no larger bound
makes a difference. -/
theorem layersWithin_eq (style : Style) {bound : Nat} (hbound : m.number ≤ bound) :
    layersWithin (K := K) style bound m = layersWithin style m.number m := by
  induction bound generalizing m with
  | zero => cases m <;> exact absurd hbound (by decide)
  | succ bound ih =>
    obtain ⟨n, hn⟩ : ∃ n, m.number = n + 1 := by cases m <;> exact ⟨_, rfl⟩
    funext inputs parent atStep depth
    rw [hn, layersWithin_succ, layersWithin_succ]
    -- Both constructions use the macro with the number `n` only.
    have hsame : construction style m
          (fun m inputs f => layersWithin style bound m inputs f atStep (depth + 1)) =
        construction (K := K) style m
          (fun m inputs f => layersWithin style n m inputs f atStep (depth + 1)) := by
      funext given
      refine performAll_congr (fun u hu => ?_) _
      obtain ⟨hnumber, -⟩ := Macro.spec_of_mem_uses (K := K) hu
      have hu' : u.1.number = n := by omega
      have hbelow : layersWithin (K := K) style bound u.1 = layersWithin style n u.1 := by
        rw [ih (by omega), hu']
      rw [hbelow]
    dsimp only
    rw [hsame]

/-- Below the own drawing are the layers of the macros that are used, in order, once all their inputs
are there. -/
theorem headings_performAll {H : Macro → List GhostLayer.Heading}
    (hh : (steps.foldlM (fun (h : Hidden K) s => h.perform style extend below s.action) h).result =
      .ok h')
    (hbelow : ∀ u ∈ Step.uses steps, ∀ f layers, u.1.Finds u.2 f →
      (below u.1 u.2 f).result = .ok layers → layers.map GhostLayer.heading = H u.1)
    (hfinds : ∀ u ∈ Step.uses steps, u.1.Finds u.2 h.scene.figure) :
    h'.deeper.map GhostLayer.heading = h.deeper.map GhostLayer.heading ++
      (Step.uses steps).flatMap fun u => H u.1 := by
  induction steps generalizing h with
  | nil =>
    cases hh
    exact (List.append_nil _).symm
  | cons step steps ih =>
    rw [List.foldlM_cons] at hh
    obtain ⟨v, hv, hh⟩ := Run.exists_of_bind_eq_ok hh
    have hgrows := (Scene.leads_act (scene_perform hv)).growsTo
    rcases exists_deeper_of_perform hv with
      ⟨huse, hdeeper⟩ | ⟨m, inputs, layers, huse, hlayers, hdeeper⟩
    · -- The step uses no macro and adds no layers.
      rw [Step.uses_cons_none huse] at hbelow hfinds ⊢
      rw [ih hh hbelow fun u hu => (hfinds u hu).mono hgrows, hdeeper]
    · -- The layers of its macro go before those of the later steps.
      rw [Step.uses_cons_some huse] at hbelow hfinds ⊢
      obtain ⟨hfirst, hfinds⟩ := List.forall_mem_cons.mp hfinds
      obtain ⟨hheadings, hbelow⟩ := List.forall_mem_cons.mp hbelow
      rw [ih hh hbelow fun u hu => (hfinds u hu).mono hgrows, hdeeper, List.map_append,
        hheadings _ layers hfirst hlayers, List.flatMap_cons, List.append_assoc]

/-- The layers of a macro go down from its own proposition to the first, wherever its inputs lie. -/
theorem headings_layersWithin {bound : Nat} (hbound : m.number ≤ bound)
    (h : (layersWithin style bound m inputs parent atStep depth).result = .ok layers) :
    layers.map GhostLayer.heading =
      if m.Finds inputs parent then GhostLayer.descent m.number depth atStep else [] := by
  induction bound generalizing m inputs parent depth layers with
  | zero => cases m <;> exact absurd hbound (by decide)
  | succ bound ih =>
    rw [layersWithin_succ] at h
    split at h
    · rename_i hfinds
      obtain ⟨last, hlast, h⟩ := Run.exists_of_bind_eq_ok h
      cases h
      obtain ⟨hdrawn, -⟩ := exists_drawings hlast
      rw [if_neg fun h => hdrawn (List.isEmpty_iff.mp h), if_pos hfinds]
      have hbelow : ∀ u ∈ Step.uses (m.proposition (K := K)).steps, ∀ f layers, u.1.Finds u.2 f →
          (layersWithin (K := K) style bound u.1 u.2 f atStep (depth + 1)).result = .ok layers →
            layers.map GhostLayer.heading = GhostLayer.descent u.1.number (depth + 1) atStep := by
        -- A macro in use has the number before this one, which the induction covers.
        intro u hu f layers hfound hlayers
        obtain ⟨hnumber, -⟩ := Macro.spec_of_mem_uses (K := K) hu
        rw [ih (by omega) hlayers, if_pos hfound]
      have hgiven := m.isSome_point?_placed inputs parent
      have hfound : ∀ u ∈ Step.uses (m.proposition (K := K)).steps,
          u.1.Finds u.2 (Figure.ofGiven (m.placed m.proposition inputs parent)) := by
        -- What is used inside is asked on given ids, and these have been placed.
        intro u hu
        obtain ⟨-, hinputs⟩ := Macro.spec_of_mem_uses (K := K) hu
        exact Macro.finds_of_forall_mem fun id hid => hgiven id (hinputs id hid)
      have hdeeper := headings_performAll
        (H := fun m => GhostLayer.descent m.number (depth + 1) atStep) hlast hbelow hfound
      rw [m.descent_number (K := K), List.map_append, hdeeper]
      rfl
    · rename_i hfinds
      cases h
      rw [if_neg hfinds]
      rfl

end Hidden

end RulerCompass
