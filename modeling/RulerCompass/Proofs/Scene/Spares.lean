import RulerCompass.Proofs.Scene.Act

/-!
# Circles that keep their size

A circle is drawn about a centre through a point.  When one of them is missing the circle has no
size, and it would get one if the missing point were made later.  So circles keep their size through
all actions that make no point of theirs, which can be read off the actions.
-/

namespace RulerCompass

variable {K : Type}

/-! ### What an action draws -/

namespace Action

/-- What an action can draw. -/
inductive MayDraw : Action → Element K → Prop
  | segment {fromId toId : String} {s : Segment} : MayDraw (.straightedge fromId toId) (.segment s)
  | circle (c : Circle) : MayDraw (.compass c.centerId c.radiusPointId) (.circle c)
  | point {m : Marking} {p : Point K} (h : ∀ label ∈ m.label, p.id = pointId label) :
      MayDraw (.mark m) (.point p)
  | called {c : MacroCall} {e : Element K} (h : ∀ d, e ≠ .circle d) : MayDraw (.call c) e

/-- The action makes no point with this id. -/
def Spares (id : String) : Action → Prop
  | .mark m => ∃ label ∈ m.label, pointId label ≠ id
  | .call _ => False
  | _ => True

instance (id : String) : DecidablePred (Spares id)
  | .straightedge .. | .compass .. | .unknown _ => isTrue trivial
  | .mark m => inferInstanceAs (Decidable (∃ label ∈ m.label, pointId label ≠ id))
  | .call _ => isFalse False.elim

/-- The action makes no point of a circle that an earlier action draws. -/
def SparesCircle (a : Action) : Action → Prop
  | .compass centerId radiusPointId => a.Spares centerId ∧ a.Spares radiusPointId
  | _ => True

instance (a : Action) : DecidablePred a.SparesCircle
  | .compass .. => inferInstanceAs (Decidable (_ ∧ _))
  | .straightedge .. | .mark _ | .call _ | .unknown _ => isTrue trivial

theorem MayDraw.id_ne {a : Action} {p : Point K} (h : a.MayDraw (.point p)) {id : String}
    (ha : a.Spares id) : p.id ≠ id := by
  cases h with
  | point h =>
    obtain ⟨label, hlabel, hne⟩ := ha
    rw [h label hlabel]
    exact hne
  | called h => cases ha

theorem MayDraw.eq_compass {a : Action} {c : Circle} (h : a.MayDraw (Element.circle (K := K) c)) :
    a = .compass c.centerId c.radiusPointId := by
  cases h with
  | circle => rfl
  | called h => exact absurd rfl (h c)

end Action

variable [Scalar K] {style : Style} {extend : Bool} {s t : Scene K}

/-- **An action appends to the figure** what it can draw. -/
theorem Scene.elements_act {a : Action} (h : s.act style extend a = .ok t) :
    ∃ es, t.figure.elements = s.figure.elements ++ es ∧ ∀ e ∈ es, a.MayDraw e := by
  cases a with
  | straightedge fromId toId =>
    cases h
    exact ⟨_, rfl, fun e he => List.mem_singleton.mp he ▸ .segment⟩
  | compass centerId radiusPointId =>
    cases h
    refine ⟨_, s.drawCircle_elements style extend centerId radiusPointId, fun e he => ?_⟩
    rw [List.mem_singleton.mp he]
    exact .circle (s.drawCircle style extend centerId radiusPointId).2
  | mark m =>
    -- Passed over, a crossing adds nothing; marked, it adds its point.
    obtain ⟨c?, -, h⟩ := exists_of_bind_eq_ok h
    cases c? with
    | none =>
      rw [eq_skipped_of_skip h]
      exact ⟨[], (List.append_nil _).symm, fun _ he => nomatch he⟩
    | some c =>
      obtain ⟨r, hr, h⟩ := exists_of_bind_eq_ok h
      cases h
      obtain ⟨p, hp, hr⟩ := exists_of_bind_eq_ok hr
      cases hr
      refine ⟨_, s.figure.addPoint_elements style hp, fun e he => ?_⟩
      rw [List.mem_singleton.mp he]
      exact .point fun label hlabel => Figure.id_of_addPoint hp hlabel
  | call c =>
    rw [act] at h
    split at h
    · rename_i m _
      obtain ⟨o, ho, h⟩ := exists_of_bind_eq_ok h
      cases h
      -- None of the three macros draws a circle.
      have hdraws := ((m.execute_meets style s extend c.outputLabels c.inputs).2 o ho).draws
      refine ⟨o.added, hdraws.elements_eq, fun e he => .called fun d hd => ?_⟩
      exact hdraws.no_circle d (hd ▸ he)
    · cases h
      exact ⟨[], (List.append_nil _).symm, fun _ he => nomatch he⟩
  | unknown shown => cases h

/-- A point that an action does not make is found as before. -/
theorem Scene.point?_act {a : Action} (h : s.act style extend a = .ok t) {id : String}
    (ha : a.Spares id) : t.figure.point? id = s.figure.point? id := by
  obtain ⟨es, hes, hdraws⟩ := elements_act h
  have hnone : (es.filterMap Element.point?).find? (fun p => p.id = id) = none := by
    refine List.find?_eq_none.mpr fun p hp hid => ?_
    obtain ⟨e, he, hp⟩ := List.mem_filterMap.mp hp
    cases e <;> cases hp
    exact (hdraws _ he).id_ne ha (of_decide_eq_true hid)
  rw [Figure.point?, Figure.points, hes, List.filterMap_append, List.find?_append, hnone, Option.or_none]
  rfl

/-! ### Keeping the sizes -/

/-- The steps make no point of a circle of the figure. -/
def Figure.SparedBy (f : Figure K) (steps : List Step) : Prop :=
  ∀ c ∈ f.circles, ∀ step ∈ steps, step.action.Spares c.centerId ∧ step.action.Spares c.radiusPointId

namespace Scene

variable {step : Step} {steps : List Step}

/-- The circles that a step draws are spared, too, when later steps spare them. -/
theorem sparedBy_act (h : s.act style extend step.action = .ok t)
    (hs : s.figure.SparedBy (step :: steps))
    (hsteps : ∀ later ∈ steps, later.action.SparesCircle step.action) : t.figure.SparedBy steps := by
  obtain ⟨es, hes, hdraws⟩ := elements_act h
  intro c hc later hlater
  have hc := Figure.mem_circles.mp hc
  rw [hes] at hc
  rcases List.mem_append.mp hc with hc | hc
  · exact hs c (Figure.mem_circles.mpr hc) later (List.mem_cons_of_mem _ hlater)
  · have hspares := hsteps later hlater
    rw [(hdraws _ hc).eq_compass] at hspares
    exact hspares

theorem point?_actAll (h : s.actAll style extend steps = .ok t) {id : String}
    (hsteps : ∀ step ∈ steps, step.action.Spares id) : t.figure.point? id = s.figure.point? id := by
  induction steps generalizing s with
  | nil =>
    cases h
    rfl
  | cons step steps ih =>
    obtain ⟨u, hu, h⟩ := exists_of_bind_eq_ok h
    obtain ⟨hstep, hsteps⟩ := List.forall_mem_cons.mp hsteps
    exact (ih h hsteps).trans (point?_act hu hstep)

/-- **Circles keep their size** through steps that make no point of theirs. -/
theorem radius_actAll (h : s.actAll style extend steps = .ok t) (hs : s.figure.SparedBy steps)
    {c : Circle} (hc : c ∈ s.figure.circles) : t.figure.radius c.id = s.figure.radius c.id := by
  -- The id may belong to an earlier circle, which then is the one to be measured.
  obtain ⟨d, hd, hbefore, hafter⟩ := (leads_actAll h).growsTo.circle?_eq hc
  have hcenter := point?_actAll h fun step hstep => (hs d hd step hstep).1
  have hrim := point?_actAll h fun step hstep => (hs d hd step hstep).2
  simp only [Figure.radius, hbefore, hafter, Figure.distance?, hcenter, hrim]

end Scene

end RulerCompass
