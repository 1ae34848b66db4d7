import RulerCompass.Proofs.Ghost.Tree
import RulerCompass.Proofs.Macro.Shape
import RulerCompass.Proofs.Replay.Success

/-!
# What a replay reveals

A macro that has drawn something has found its inputs, and they are still there in the figure that it
leaves.  So each successful use of a macro reveals the whole descent from its proposition to the first,
and nothing else reveals anything.
-/

namespace RulerCompass

variable {K : Type} [Scalar K] {style : Style}

/-! ### One use -/

namespace Hidden

variable {propId atStep depth : Int} {inputs : List String} {parent : Figure K}
  {layers : List (GhostLayer K)}

open Classical in
theorem headings_layers
    (h : (Hidden.layers style propId inputs parent atStep depth).result = .ok layers) :
    layers.map GhostLayer.heading =
      if ∃ m, Macro.ofProp? propId = some m ∧ m.Finds inputs parent then
        GhostLayer.descent propId depth atStep
      else [] := by
  unfold Hidden.layers at h
  split at h
  · rename_i hm
    cases h
    rw [if_neg]
    · rfl
    · rintro ⟨m, hm', -⟩
      rw [hm] at hm'
      cases hm'
  · rename_i m hm
    rw [headings_layersWithin (Nat.le_refl _) h, ← Macro.ofProp?_eq_some hm]
    by_cases hfinds : m.Finds inputs parent
    · rw [if_pos hfinds, if_pos ⟨m, hm, hfinds⟩]
    · rw [if_neg hfinds, if_neg]
      rintro ⟨m', hm', hfinds'⟩
      obtain rfl : m = m' := Option.some.inj (hm.symm.trans hm')
      exact hfinds hfinds'

end Hidden

/-- The headings of the layers that an action reveals when it succeeds. -/
def Action.revealed (atStep : Int) : Action → List GhostLayer.Heading
  | .call c => GhostLayer.descent c.propId 1 atStep
  | _ => []

namespace Replay

variable {propId : Int} {extend : Bool} {r r' : Replay K}

/-! ### All steps -/

theorem headings_attempt {index : Nat} {a : Action} {flag : Bool}
    (h : (r.attempt style propId extend index a).result = .ok (flag, r')) :
    r'.ghosts.map GhostLayer.heading =
      r.ghosts.map GhostLayer.heading ++ if flag then a.revealed index else [] := by
  -- Only a macro that has drawn something reveals layers.
  cases attempted_of_attempt h with
  | segment fromId toId => exact (List.append_nil _).symm
  | circle centerId radiusPointId => exact (List.append_nil _).symm
  | marked hc hs => exact (List.append_nil _).symm
  | skipped hc => exact (List.append_nil _).symm
  | refused hm ho hadded => exact (List.append_nil _).symm
  | unnamed hm => exact (List.append_nil _).symm
  | @called c m o layers hm ho hadded hlayers =>
    have hgrows := ((m.execute_meets style r.scene extend c.outputLabels c.inputs).2 o ho).draws.leads
    -- An outcome that has drawn something had its inputs, and the figure has kept them.
    rcases Macro.eq_unchanged_or_runs ho with rfl | hruns
    · exact absurd rfl hadded
    · have hfinds := hruns.finds.mono hgrows.growsTo
      have hheadings := Hidden.headings_layers hlayers
      rw [if_pos ⟨m, hm, hfinds⟩] at hheadings
      rw [List.map_append, hheadings]
      rfl

theorem headings_perform {step : Step × Nat}
    (h : (r.perform style propId extend step).result = .ok r') :
    (r.scene.Performs style extend step.1.action ∧
        r'.ghosts.map GhostLayer.heading =
          r.ghosts.map GhostLayer.heading ++ step.1.action.revealed step.2) ∨
      (¬ r.scene.Performs style extend step.1.action ∧
        r'.ghosts.map GhostLayer.heading = r.ghosts.map GhostLayer.heading) := by
  obtain ⟨⟨flag, u⟩, hout, h⟩ := Run.exists_of_bind_eq_ok h
  have hflag := flag_attempt hout
  have hheadings := headings_attempt hout
  cases flag with
  | true =>
    cases h
    exact Or.inl ⟨hflag.mp rfl, hheadings⟩
  | false =>
    cases h
    rw [if_neg Bool.false_ne_true, List.append_nil] at hheadings
    exact Or.inr ⟨fun hperforms => Bool.false_ne_true (hflag.mpr hperforms), hheadings⟩

variable {p : Proposition K} {given : List (Element K)} {steps : List Step}

open Classical in
theorem headings_performAll {k : Nat} (hk : k ≤ steps.length)
    (h : (performAll style p.id p.prolongs 0 (steps.take k) (start p given)).result = .ok r) :
    r.ghosts.map GhostLayer.heading = (steps.take k).zipIdx.flatMap fun s =>
      if Succeeds style p given steps s.2 then s.1.action.revealed s.2 else [] := by
  induction k generalizing r with
  | zero =>
    cases h
    rfl
  | succ k ih =>
    have hstep : steps[k]? = some steps[k] := List.getElem?_eq_getElem hk
    obtain ⟨u, hu, hperform⟩ := exists_of_performAll_take_succ hstep h
    have hsucceeds : Succeeds style p given steps k ↔
        u.scene.Performs style p.prolongs steps[k].action := succeeds_iff_performs hstep hu
    have hlength : (steps.take k).length = k := List.length_take_of_le (Nat.le_of_succ_le hk)
    rw [List.take_add_one, hstep, Option.toList_some, List.zipIdx_append, List.flatMap_append,
      ← ih (Nat.le_of_succ_le hk) hu, hlength, List.zipIdx_singleton, List.flatMap_singleton]
    -- The step counts exactly when it has been performed.
    rcases headings_perform hperform with ⟨hperforms, hheadings⟩ | ⟨hfails, hheadings⟩
    · rw [hheadings, Nat.zero_add, if_pos (hsucceeds.mpr hperforms)]
    · rw [hheadings, Nat.zero_add, if_neg (mt hsucceeds.mp hfails), List.append_nil]

/-- Neither the conclusion nor the extras reveal anything. -/
theorem ghosts_of_run {extras : List Extra} (h : (run style p given steps extras).result = .ok r) :
    ∃ u, (performAll style p.id p.prolongs 0 steps (start p given)).result = .ok u ∧
      r.ghosts = u.ghosts := by
  obtain ⟨u, hu, hextras⟩ := exists_of_run h
  have hghosts : r.ghosts = (u.prove p.conclusion steps.length).ghosts :=
    eq_of_performExtras (π := Replay.ghosts) (fun _ _ _ _ => rfl) hextras
  exact ⟨u, hu, hghosts⟩

open Classical in
/-- **Layers go down one proposition at a time.**  The layers of a proposition on any inputs are
there, and they are none when the proposition is no macro or an input that a given point is moved to
is not a point of the figure.  Otherwise they are as many as the number of the proposition, from its
own down to the first, each one deeper than the one before and all at one step, wherever the inputs
lie.  The bound on the nesting is never reached: a larger one gives the same layers.  So a replay
shows these layers for each of its steps that succeeds in using a macro, in order, and no others. -/
theorem layers_descend (style : Style) :
    (∀ (propId : Int) (inputs : List String) (parent : Figure K) (atStep depth : Int),
      (∃ layers, (Hidden.layers style propId inputs parent atStep depth).result = .ok layers ∧
        layers.map GhostLayer.heading =
          if ∃ m, Macro.ofProp? propId = some m ∧ m.Finds inputs parent then
            GhostLayer.descent propId depth atStep
          else []) ∧
      ∀ m bound, Macro.ofProp? propId = some m → m.number ≤ bound →
        Hidden.layersWithin style bound m inputs parent atStep depth =
          Hidden.layers style propId inputs parent atStep depth) ∧
    ∀ (p : Proposition K) (given : List (Element K)) (steps : List Step) (extras : List Extra),
      ((∀ s ∈ steps, s.action.Known) → (∀ e ∈ extras, e.Known) →
        LabelsReach given (requests steps) extras.length →
          ∃ r, (run style p given steps extras).result = .ok r) ∧
      ∀ r, (run style p given steps extras).result = .ok r →
        r.ghosts.map GhostLayer.heading = steps.zipIdx.flatMap fun s =>
          if Succeeds style p given steps s.2 then s.1.action.revealed s.2 else [] := by
  refine ⟨fun propId inputs parent atStep depth => ⟨?_, ?_⟩, fun p given steps extras => ⟨?_, ?_⟩⟩
  · obtain ⟨layers, hlayers⟩ := Hidden.layers_ok style propId inputs parent atStep depth
    exact ⟨layers, hlayers, Hidden.headings_layers hlayers⟩
  · intro m bound hm hbound
    rw [Hidden.layersWithin_eq style hbound]
    simp only [Hidden.layers, hm]
  · exact exists_run style p extras
  · intro r hr
    obtain ⟨u, hu, hghosts⟩ := ghosts_of_run hr
    have hk : (performAll style p.id p.prolongs 0 (steps.take steps.length) (start p given)).result =
        .ok u := by rw [List.take_length, hu]
    rw [hghosts, headings_performAll (Nat.le_refl _) hk, List.take_length]

/-- Four uses of macros on two points that lie on one another: the triangle fails, the cut and the
transfer reveal all that they stand on, and there is no fourth macro. -/
theorem layers_descend_one_place :
    let given : List (Element Float) := [Point.given "A" ⟨1.0, 2.0⟩, Point.given "B" ⟨1.0, 2.0⟩]
    let use (propId : Int) (inputs : List String) : Step := { action := .call { propId, inputs } }
    let steps := [use 1 ["pt-A", "pt-B"], use 3 ["pt-A", "pt-A", "pt-B", "pt-B"],
      use 2 ["pt-B", "pt-A", "pt-A"], use 4 ["pt-A"]]
    let layers := Hidden.layers {} 3 ["pt-A", "pt-A", "pt-B", "pt-B"] (Figure.ofGiven given) 5 2
    ∃ r found, (run {} Book.Triangle.proposition given steps).result = .ok r ∧
      r.ghosts.map GhostLayer.heading =
        [⟨3, 1, 1⟩, ⟨2, 2, 1⟩, ⟨1, 3, 1⟩, ⟨2, 1, 2⟩, ⟨1, 2, 2⟩] ∧
      layers.result = .ok found ∧
        found.map GhostLayer.heading = [⟨3, 2, 5⟩, ⟨2, 3, 5⟩, ⟨1, 4, 5⟩] ∧
      Hidden.layersWithin {} 9 .cutOff ["pt-A", "pt-A", "pt-B", "pt-B"] (Figure.ofGiven given) 5 2 =
        layers := by
  intro given use steps layers
  obtain ⟨hlayers, hreplays⟩ := layers_descend (K := Float) {}
  obtain ⟨⟨found, hfound, hheadings⟩, hbound⟩ :=
    hlayers 3 ["pt-A", "pt-A", "pt-B", "pt-B"] (Figure.ofGiven given) 5 2
  obtain ⟨hruns, hrevealed⟩ := hreplays Book.Triangle.proposition given steps []
  obtain ⟨r, hr⟩ := hruns (by decide) (by decide) (by decide +kernel)
  have hflags : flags {} Book.Triangle.proposition given steps = some [false, true, true, false] := by
    decide +kernel
  have hrevealed := hrevealed r hr
  have hsteps : steps.zipIdx = [(use 1 ["pt-A", "pt-B"], 0),
    (use 3 ["pt-A", "pt-A", "pt-B", "pt-B"], 1), (use 2 ["pt-B", "pt-A", "pt-A"], 2),
    (use 4 ["pt-A"], 3)] := rfl
  rw [hsteps] at hrevealed
  simp only [List.flatMap_cons, List.flatMap_nil] at hrevealed
  rw [if_neg (by rw [succeeds_iff_flag hflags (by decide)]; decide),
    if_pos (by rw [succeeds_iff_flag hflags (by decide)]; decide),
    if_pos (by rw [succeeds_iff_flag hflags (by decide)]; decide),
    if_neg (by rw [succeeds_iff_flag hflags (by decide)]; decide)] at hrevealed
  rw [if_pos ⟨.cutOff, rfl, by decide⟩] at hheadings
  exact ⟨r, found, hr, hrevealed, hfound, hheadings, hbound .cutOff 9 rfl (by decide)⟩

end Replay

end RulerCompass
