import RulerCompass.Proofs.Figure.Drawing
import RulerCompass.Proofs.Replay.Transcript

/-!
# What a hidden construction shows

A hidden construction performs the steps of its proposition beside the replay, with a scene of its
own.  Step by step it shows what it draws, as it stands at that moment.  That is how the finished
figure has it, since the steps of the book make no point of a circle after the circle.
-/

namespace RulerCompass

variable {K : Type} [Scalar K] {style : Style} {extend : Bool}

namespace Hidden

/-! ### Showing what is drawn -/

/-- From one stage to a later one a hidden construction shows what it draws, as it stands in the
finished figure, and prolongations. -/
def Shows (finished : Figure K) (h h' : Hidden K) : Prop :=
  ∃ es gs, h'.scene.figure.elements = h.scene.figure.elements ++ es ∧
    h'.elements = h.elements ++ gs ∧
    gs.filter (fun g => !g.isProduction) = finished.drawings h.scene.figure es

variable {finished : Figure K} {h h' h'' : Hidden K}

theorem Shows.refl (h : Hidden K) : Shows finished h h :=
  ⟨[], [], (List.append_nil _).symm, (List.append_nil _).symm, rfl⟩

theorem Shows.trans (hh : Shows finished h h') (hh' : Shows finished h' h'') :
    Shows finished h h'' := by
  obtain ⟨es, gs, hes, hgs, hshown⟩ := hh
  obtain ⟨es', gs', hes', hgs', hshown'⟩ := hh'
  refine ⟨es ++ es', gs ++ gs', ?_, ?_, ?_⟩
  · rw [hes', hes, List.append_assoc]
  · rw [hgs', hgs, List.append_assoc]
  · rw [List.filter_append, hshown, hshown', Figure.drawings_append hes]

omit [Scalar K] in
/-- What is beyond an end point is marked as a prolongation. -/
theorem isProduction_of_prolongation? {m : Marking} {f : Figure K} {q : Point K}
    {beyond : Option (Ghost K)} (h : m.prolongation? style f q = .ok beyond) :
    ∀ g ∈ beyond, g.isProduction = true := by
  unfold Marking.prolongation? at h
  split at h
  · cases h
    exact fun g hg => nomatch hg
  · split at h
    · cases h
      exact fun g hg => nomatch hg
    · obtain ⟨color, -, h⟩ := exists_of_bind_eq_ok h
      cases h
      rintro g ⟨⟩
      rfl

/-- What a macro adds is shown as it stands, since it is drawn on points that are there. -/
theorem filterMap_drawn {s t : Scene K} {es : List (Element K)} (hdraws : s.Draws style t es)
    (hgrows : t.figure.GrowsTo finished) :
    es.filterMap (drawn t.figure) = finished.drawings s.figure es := by
  rw [Figure.drawings_of_anchorsAll hdraws.anchored]
  refine List.filterMap_congr fun e he => ?_
  have hanchors := hdraws.anchored.anchors_of_mem hdraws.elements_eq he
  have hcircle : ∀ c, e ≠ .circle c := fun c hc => hdraws.no_circle c (hc ▸ he)
  rw [hgrows.ghost?_eq hanchors fun c hc => absurd hc (hcircle c)]
  cases e with
  | circle c => exact absurd rfl (hcircle c)
  | _ => rfl

/-- **One step.** -/
theorem perform_shows {below : Macro → List String → Figure K → Run K (List (GhostLayer K))}
    {a : Action} (hh : (h.perform style extend below a).result = .ok h')
    (hgrows : h'.scene.figure.GrowsTo finished)
    (hradius : ∀ c ∈ h'.scene.figure.circles, finished.radius c.id = h'.scene.figure.radius c.id) :
    Shows finished h h' := by
  cases a with
  | straightedge fromId toId =>
    cases hh
    have hdrawn := h.scene.drawSegment_elements style extend fromId toId
    refine ⟨_, _, hdrawn, rfl, ?_⟩
    rw [← Figure.filter_drawings, ← Figure.toList_ghost?_eq_drawings hdrawn hgrows hradius]
    rfl
  | compass centerId radiusPointId =>
    cases hh
    have hdrawn := h.scene.drawCircle_elements style extend centerId radiusPointId
    refine ⟨_, _, hdrawn, rfl, ?_⟩
    rw [← Figure.filter_drawings, ← Figure.toList_ghost?_eq_drawings hdrawn hgrows hradius]
    rfl
  | mark m =>
    obtain ⟨c?, -, hh⟩ := Run.exists_of_bind_eq_ok hh
    cases c? with
    | none =>
      obtain ⟨s, hs, hh⟩ := Run.exists_of_bind_eq_ok hh
      cases hh
      obtain rfl := Scene.eq_skipped_of_skip hs
      exact ⟨[], [], (List.append_nil _).symm, (List.append_nil _).symm, rfl⟩
    | some c =>
      obtain ⟨⟨s, q⟩, hmark, hh⟩ := Run.exists_of_bind_eq_ok hh
      obtain ⟨beyond, hbeyond, hh⟩ := Run.exists_of_bind_eq_ok hh
      cases hh
      obtain ⟨r, hr, hmark⟩ := exists_of_bind_eq_ok hmark
      cases hmark
      refine ⟨[.point r.2], _, h.scene.figure.addPoint_elements style hr, rfl, ?_⟩
      -- The point is the drawing; what is beyond an end point stands for no element.
      have hfilter : beyond.toList.filter (fun g => !g.isProduction) = [] := by
        refine List.filter_eq_nil_iff.mpr fun g hg => ?_
        rw [isProduction_of_prolongation? hbeyond g (Option.mem_toList.mp hg)]
        exact Bool.false_ne_true
      rw [List.filter_cons_of_pos rfl, hfilter]
      rfl
  | call c =>
    rw [perform] at hh
    split at hh
    · cases hh
      exact .refl h
    · rename_i m _
      obtain ⟨o, ho, hh⟩ := Run.exists_of_bind_eq_ok hh
      obtain ⟨layers, -, hh⟩ := Run.exists_of_bind_eq_ok hh
      cases hh
      have hdraws := ((m.execute_meets style h.scene extend c.outputLabels c.inputs).2 o ho).draws
      refine ⟨o.added, _, hdraws.elements_eq, rfl, ?_⟩
      rw [← Figure.filter_drawings, ← filterMap_drawn hdraws hgrows]
  | unknown shown => cases hh

/-- **All steps.**  The later ones leave the circles of the earlier ones their sizes. -/
theorem performAll_shows {below : Macro → List String → Figure K → Run K (List (GhostLayer K))}
    {steps : List Step} (hh : (steps.foldlM (fun (h : Hidden K) s =>
      h.perform style extend below s.action) h).result = .ok h')
    (hsteps : steps.Pairwise fun s t => t.action.SparesCircle s.action)
    (hs : h.scene.figure.SparedBy steps) : Shows h'.scene.figure h h' := by
  induction steps generalizing h with
  | nil =>
    cases hh
    exact .refl _
  | cons step steps ih =>
    obtain ⟨hstep, hsteps⟩ := List.pairwise_cons.mp hsteps
    rw [List.foldlM_cons] at hh
    obtain ⟨u, hu, hh⟩ := Run.exists_of_bind_eq_ok hh
    -- What this step draws has its final size already, since the rest spares its circles.
    have hrest := scene_performAll hh
    have hspared := Scene.sparedBy_act (scene_perform hu) hs hstep
    have hfirst := perform_shows hu (Scene.leads_actAll hrest).growsTo fun c hc =>
      Scene.radius_actAll hrest hspared hc
    exact hfirst.trans (ih hh hsteps hspared)

/-! ### The own layer -/

/-- The hidden construction of a macro on a given figure. -/
def construction (style : Style) (m : Macro)
    (below : Macro → List String → Figure K → Run K (List (GhostLayer K)))
    (given : List (Element K)) : Run K (Hidden K) :=
  let p : Proposition K := m.proposition
  p.steps.foldlM (fun h s => h.perform style p.prolongs below s.action)
    { scene := { figure := Figure.ofGiven given } }

variable {m : Macro} {inputs : List String} {parent : Figure K} {given : List (Element K)}
  {below : Macro → List String → Figure K → Run K (List (GhostLayer K))} {last : Hidden K}

/-- The given figure can be read, wherever its points have been moved. -/
theorem readGiven_placed (m : Macro) (inputs : List String) (parent : Figure K) :
    Figure.readGiven (m.placed m.proposition inputs parent) =
      .ok (Figure.ofGiven (m.placed m.proposition inputs parent)) := by
  have hmem := List.mem_of_find?_eq_some (m.book_proposition? (K := K))
  have hlabels := Book.labelsReach hmem (m.sameNames_placed inputs parent _) 0
    Label.alphabet_le_capacity
  obtain ⟨f, hf⟩ := (Figure.readGiven_meets _).1 hlabels.legible
  rw [hf, (Figure.readGiven_meets _).2 f hf]

/-- The replay on the same given figure gives a result, and both end with the same scene. -/
theorem exists_run_scene_eq (hgiven : SameNames given (m.proposition (K := K)).given)
    (h : (construction style m below given).result = .ok last) :
    ∃ r : Replay K, (Replay.run style m.proposition given (m.proposition (K := K)).steps).result =
      .ok r ∧ r.scene = last.scene := by
  have hmem := List.mem_of_find?_eq_some (m.book_proposition? (K := K))
  obtain ⟨r, hr⟩ := Replay.exists_run style m.proposition [] (Book.known_of_mem hmem)
    (fun _ h => nomatch h) (Book.labelsReach hmem hgiven 0 Label.alphabet_le_capacity)
  exact ⟨r, hr, Except.ok.inj ((Replay.scene_run hr).symm.trans (scene_performAll h))⟩

/-- The hidden construction shows all that it draws, beginning with its first step. -/
theorem exists_drawings
    (h : (construction style m below (m.placed m.proposition inputs parent)).result = .ok last) :
    last.elements ≠ [] ∧ ∃ beyond,
      last.scene.figure.elements = m.placed m.proposition inputs parent ++ beyond ∧
      last.elements.filter (fun g => !g.isProduction) = last.scene.figure.drawings
        (Figure.ofGiven (m.placed m.proposition inputs parent)) beyond := by
  have hspared : (Figure.ofGiven (m.placed m.proposition inputs parent)).SparedBy
      (m.proposition (K := K)).steps := by
    intro c hc
    rw [m.circles_placed] at hc
    cases hc
  obtain ⟨beyond, gs, hbeyond, hgs, hshown⟩ := performAll_shows h m.steps_sparesCircle hspared
  -- Some element of the construction always has its ends, so the layer is not empty.
  obtain ⟨e, es, hes, he⟩ := Macro.exists_first_anchored (scene_performAll h)
  have hgrows := (Scene.leads_actAll (scene_performAll h)).growsTo
  rw [List.nil_append] at hgs
  refine ⟨fun hnil => ?_, beyond, hbeyond, hgs ▸ hshown⟩
  obtain rfl : beyond = e :: es := List.append_cancel_left (hbeyond.symm.trans hes)
  rw [← hgs, hnil] at hshown
  exact Figure.drawings_cons_ne_nil hgrows he hshown.symm

/-- **The first layer is the drawing of the replay.**  A hidden construction gives its layers for all
inputs.  When there are any, let the given points of its proposition be moved to the inputs.  The
proposition replayed on that figure gives a result, and the first layer, without prolongations, is the
drawing of what the final figure has beyond the given one: in order, each point, segment and circle as
it stands there, except segments and circles whose ends or centre were not there when drawn. -/
theorem own_layer_eq_drawings (style : Style) (propId : Int) (inputs : List String)
    (parent : Figure K) (atStep depth : Int) :
    ∃ layers, (Hidden.layers style propId inputs parent atStep depth).result = .ok layers ∧
      (layers ≠ [] → ∃ m p r own deeper beyond,
        Macro.ofProp? propId = some m ∧ Book.proposition? propId = some p ∧
        (Replay.run style p (m.placed p inputs parent) p.steps).result = .ok r ∧
        layers = own :: deeper ∧ own.propId = propId ∧ own.depth = depth ∧ own.atStep = atStep ∧
        r.scene.figure.elements = m.placed p inputs parent ++ beyond ∧
        own.elements.filter (fun g => !g.isProduction) =
          r.scene.figure.drawings (Figure.ofGiven (m.placed p inputs parent)) beyond) := by
  obtain ⟨layers, hlayers⟩ := layers_ok style propId inputs parent atStep depth
  refine ⟨layers, hlayers, fun hne => ?_⟩
  unfold Hidden.layers at hlayers
  split at hlayers
  · cases hlayers
    exact absurd rfl hne
  · rename_i m hm
    obtain rfl := Macro.ofProp?_eq_some hm
    obtain ⟨bound, hbound⟩ : ∃ bound, m.number = bound + 1 := by cases m <;> exact ⟨_, rfl⟩
    rw [hbound, layersWithin, m.book_proposition?] at hlayers
    dsimp only at hlayers
    split at hlayers
    · -- Inputs that are missing leave no layers.
      cases hlayers
      exact absurd rfl hne
    · -- The inputs are there: the hidden construction runs to its end and is compared with a replay.
      rename_i given hgiven
      obtain rfl := Macro.eq_placed_of_givenFor? hgiven
      obtain ⟨f, hf, hlayers⟩ := Run.exists_of_bind_eq_ok hlayers
      obtain rfl : _ = f := Except.ok.inj ((readGiven_placed m inputs parent).symm.trans hf)
      obtain ⟨last, hlast, hlayers⟩ := Run.exists_of_bind_eq_ok hlayers
      cases hlayers
      obtain ⟨hdrawn, beyond, hbeyond, hshown⟩ := exists_drawings hlast
      obtain ⟨r, hr, hscene⟩ := exists_run_scene_eq (m.sameNames_placed inputs parent _) hlast
      rw [← hscene] at hbeyond hshown
      rw [if_neg fun h => hdrawn (List.isEmpty_iff.mp h)]
      exact ⟨m, m.proposition, r, _, _, beyond, hm, m.book_proposition?, hr, rfl, rfl, rfl, rfl,
        hbeyond, hshown⟩

/-- A triangle on one point: two circles without a size are shown, and two segments to an apex that
is not there are left out. -/
theorem own_layer_eq_drawings_one_point :
    let p : Proposition Float := Book.Triangle.proposition
    let inputs := ["pt-A", "pt-A"]
    let parent : Figure Float := Figure.ofGiven [Point.given "A" ⟨1.0, 2.0⟩]
    let given := Macro.triangle.placed p inputs parent
    ∃ own r beyond, (Hidden.layers {} 1 inputs parent 0 1).result = .ok [own] ∧
      own.elements.length = 2 ∧ (Replay.run {} p given p.steps).result = .ok r ∧
      r.scene.figure.elements = given ++ beyond ∧ beyond.length = 4 ∧
      own.elements.filter (fun g => !g.isProduction) =
        r.scene.figure.drawings (Figure.ofGiven given) beyond := by
  intro p inputs parent given
  obtain ⟨layers, hlayers, hdrawn⟩ := own_layer_eq_drawings {} 1 inputs parent 0 1
  have hlengths : (Hidden.layers {} 1 inputs parent 0 1).result.toOption.map
      (fun layers => layers.map fun g => g.elements.length) = some [2] := by decide +kernel
  rw [hlayers] at hlengths
  have hlengths := Option.some.inj hlengths
  obtain ⟨m, q, r, own, deeper, beyond, hm, hq, hr, rfl, -, -, -, hbeyond, hshown⟩ :=
    hdrawn (by rintro rfl; cases hlengths)
  cases hm
  cases hq
  obtain ⟨hown, hdeeper⟩ := List.cons.inj hlengths
  obtain rfl := List.map_eq_nil_iff.mp hdeeper
  have hcount : (Replay.run {} p given p.steps).result.toOption.map
      (fun r => r.scene.figure.elements.length) = some (given.length + 4) := by decide +kernel
  rw [hr] at hcount
  have hcount : r.scene.figure.elements.length = given.length + 4 := Option.some.inj hcount
  rw [hbeyond, List.length_append] at hcount
  exact ⟨own, r, beyond, hlayers, hown, hr, hbeyond, Nat.add_left_cancel hcount, hshown⟩

end Hidden

end RulerCompass
