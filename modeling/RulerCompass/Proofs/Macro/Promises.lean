import RulerCompass.Proofs.Figure.Grounds
import RulerCompass.Proofs.Macro.Shape

/-!
# What a macro promises

A call of a macro tells which point it makes, if it asks for a label, and which distances are equal
then.  An outcome that has drawn something has made this point and asserts these equations.  Besides,
all that it asserts is about points that are there.
-/

namespace RulerCompass

variable {K : Type} {style : Style}

namespace Macro

/-- The distances that the result of a macro makes equal, from the inputs. -/
def promises : Macro → List String → String → List Equation
  | triangle, a :: b :: _, made =>
    [.distances (.between a made) (.between a b), .distances (.between b made) (.between b a)]
  | transfer, target :: start :: stop :: _, made =>
    [.distances (.between target made) (.between start stop)]
  | cutOff, cut :: _ :: start :: stop :: _, made =>
    [.distances (.between cut made) (.between start stop)]
  | _, _, _ => []

variable [Scalar K] {s : Scene K} {extend : Bool} {labels : OutputLabels} {m : Macro}
  {inputs : List String} {o : Outcome K}

/-- What the outcome of a macro tells about a point that it has made. -/
structure Outcome.Makes (o : Outcome K) (m : Macro) (inputs : List String) (made : String) : Prop where
  there : (o.scene.figure.point? made).isSome
  asserted : ∀ e ∈ m.promises inputs made, e ∈ o.assertions.map Assertion.equation

/-- The result of a macro that has drawn something: a point under the label that is asked for, which
is still there at the end. -/
theorem Runs.exists_result (h : Runs style s extend labels m inputs o) (hadded : o.added ≠ []) :
    ∃ (f : Figure K) (place : Coord K) (r : Figure K × Point K),
      f.addPoint style place .intersection (MacroCall.outputLabel? labels m.resultName) = .ok r ∧
        r.1.GrowsTo o.scene.figure ∧
        ∀ e ∈ m.promises inputs r.2.id, e ∈ o.assertions.map Assertion.equation := by
  cases h with
  | @triangle aId bId rest a b o ha hb ho =>
    rcases exists_of_triangleOn ho with rfl | ⟨place, r, hr, hscene, -, has⟩
    · exact absurd rfl hadded
    · refine ⟨s.figure, place, r, hr, ?_, fun e he => ?_⟩
      · rw [hscene]
        exact ((Scene.leads_drawSegment style { s with figure := r.1 } extend r.2.id aId).trans
          (Scene.leads_drawSegment style _ extend r.2.id bId)).growsTo
      · obtain rfl := Figure.id_of_point? ha
        obtain rfl := Figure.id_of_point? hb
        rw [has]
        exact he
  | @transfer targetId startId stopId rest target start stop o ht hs hp ho =>
    obtain ⟨place, r, hr, hscene, -, has⟩ := exists_of_transferOn ho
    refine ⟨s.figure, place, r, hr, ?_, fun e he => ?_⟩
    · rw [hscene]
      exact (Scene.leads_drawSegment style { s with figure := r.1 } extend targetId r.2.id).growsTo
    · rw [has]
      exact he
  -- The inner transfer is kept or dropped; the promise is about the result alone.
  | cutOff hc ht hs hp ho =>
    obtain ⟨inner, moved, kept, place, r, -, -, -, hr, hscene, -, has⟩ := exists_of_cutOffOn ho
    refine ⟨kept.scene.figure, place, r, hr, ?_, fun e he => ?_⟩
    · rw [hscene]
      exact .refl _
    · rw [has, List.map_append]
      exact List.mem_append_right _ he

/-- A macro that has drawn something has made its result. -/
theorem Runs.makes (h : Runs style s extend labels m inputs o) (hadded : o.added ≠ [])
    {label : String} (hlabel : MacroCall.outputLabel? labels m.resultName = some label) :
    o.Makes m inputs (pointId label) := by
  obtain ⟨f, place, r, hr, hgrows, hasserted⟩ := h.exists_result hadded
  rw [← Figure.id_of_addPoint hr hlabel]
  exact ⟨hgrows.isSome_point? (Figure.isSome_point?_drawn style _ hr), hasserted⟩

/-! ### No assertion about points that are not there -/

theorem grounds_transferOn {target start stop : Point K} {targetId startId stopId : String}
    (htarget : (s.figure.point? targetId).isSome) (hstart : (s.figure.point? startId).isSome)
    (hstop : (s.figure.point? stopId).isSome)
    (ho : (transferOn style s extend labels target start stop targetId startId stopId).result =
      .ok o) : ∀ a ∈ o.assertions, o.scene.figure.Grounds a.equation := by
  obtain ⟨place, r, hr, hscene, -, has⟩ := exists_of_transferOn ho
  have hthere := Figure.isSome_point?_drawn style _ hr
  have hpoint : s.figure.GrowsTo r.1 := .of_append (s.figure.addPoint_elements style hr)
  have hgrows :=
    (Scene.leads_drawSegment style { s with figure := r.1 } extend targetId r.2.id).growsTo
  intro a ha
  rw [has] at ha
  obtain rfl := List.mem_singleton.mp ha
  rw [hscene]
  exact hgrows.grounds (Figure.grounds_distances (hpoint.isSome_point? htarget) hthere
    (hpoint.isSome_point? hstart) (hpoint.isSome_point? hstop))

theorem Runs.grounds (h : Runs style s extend labels m inputs o) :
    ∀ a ∈ o.assertions, o.scene.figure.Grounds a.equation := by
  cases h with
  | @triangle aId bId rest a b o ha hb ho =>
    rcases exists_of_triangleOn ho with rfl | ⟨place, r, hr, hscene, -, has⟩
    · exact fun a ha => nomatch ha
    · have hthere := Figure.isSome_point?_drawn style _ hr
      have hpoint : s.figure.GrowsTo r.1 := .of_append (s.figure.addPoint_elements style hr)
      have hgrows := ((Scene.leads_drawSegment style { s with figure := r.1 } extend r.2.id aId).trans
        (Scene.leads_drawSegment style _ extend r.2.id bId)).growsTo
      obtain rfl := Figure.id_of_point? ha
      obtain rfl := Figure.id_of_point? hb
      have haId : (r.1.point? a.id).isSome := hpoint.isSome_point? (by simp [ha])
      have hbId : (r.1.point? b.id).isSome := hpoint.isSome_point? (by simp [hb])
      intro c hc
      rw [has] at hc
      rw [hscene]
      refine hgrows.grounds ?_
      simp only [List.mem_cons, List.not_mem_nil, or_false] at hc
      -- Both sides are as long as the base, which is named from either end.
      rcases hc with rfl | rfl
      · exact Figure.grounds_distances haId hthere haId hbId
      · exact Figure.grounds_distances hbId hthere hbId haId
  | transfer ht hs hp ho =>
    exact grounds_transferOn (by simp [ht]) (by simp [hs]) (by simp [hp]) ho
  | @cutOff cutId targetId startId stopId rest cut target start stop o hc ht hs hp ho =>
    obtain ⟨inner, moved, kept, place, r, -, hmoved, hkept, hr, hscene, -, has⟩ :=
      exists_of_cutOffOn ho
    have hthere := Figure.isSome_point?_drawn style _ hr
    have hpoint : kept.scene.figure.GrowsTo r.1 :=
      .of_append (kept.scene.figure.addPoint_elements style hr)
    have hinner : ∀ a ∈ moved.assertions, moved.scene.figure.Grounds a.equation :=
      grounds_transferOn (by simp [hc]) (by simp [hs]) (by simp [hp]) hmoved
    -- The inner transfer is kept or dropped as a whole.
    have hsame : s.figure.GrowsTo kept.scene.figure ∧
        ∀ a ∈ kept.assertions, kept.scene.figure.Grounds a.equation := by
      rw [hkept]
      split
      · exact ⟨.refl _, fun a ha => nomatch ha⟩
      · have hdraws := (transferOn_meets style s extend inner cut start stop (by simp [hc])
          startId stopId).2 moved hmoved
        exact ⟨hdraws.1.draws.leads.growsTo, hinner⟩
    obtain ⟨hgrows, hassertions⟩ := hsame
    have hthrough := hgrows.trans hpoint
    intro a ha
    rw [has] at ha
    rw [hscene]
    rcases List.mem_append.mp ha with ha | ha
    · exact hpoint.grounds (hassertions a ha)
    · obtain rfl := List.mem_singleton.mp ha
      exact Figure.grounds_distances (hthrough.isSome_point? (by simp [hc])) hthere
        (hthrough.isSome_point? (by simp [hs])) (hthrough.isSome_point? (by simp [hp]))

/-! ### What is cited -/

theorem citation_of_transferOn {target start stop : Point K} {targetId startId stopId : String}
    (ho : (transferOn style s extend labels target start stop targetId startId stopId).result =
      .ok o) : ∀ a ∈ o.assertions, a.citation = .proposition 2 := by
  obtain ⟨place, r, -, -, -, has⟩ := exists_of_transferOn ho
  intro a ha
  rw [has] at ha
  rw [List.mem_singleton.mp ha]
  rfl

/-- A macro cites Definition 15 for circles only that are not in the figure. -/
theorem Runs.exists_hidden_of_def15 (h : Runs style s extend labels m inputs o) {a : Assertion}
    (ha : a ∈ o.assertions) {circleId : String} (hcited : a.citation = .def15 circleId) :
    ∃ centerId, circleId = hiddenCircleId centerId := by
  cases h with
  | @triangle aId bId rest b c o hb hc ho =>
    rcases exists_of_triangleOn ho with rfl | ⟨place, r, -, -, -, has⟩
    · cases ha
    · rw [has] at ha
      -- Each side is on the hidden circle about the other end of the base.
      simp only [List.mem_cons, List.not_mem_nil, or_false] at ha
      rcases ha with rfl | rfl
      · exact ⟨b.id, (Citation.def15.inj hcited).symm⟩
      · exact ⟨c.id, (Citation.def15.inj hcited).symm⟩
  -- Transfers and cuts cite other propositions, no circle.
  | transfer ht hs hp ho =>
    rw [citation_of_transferOn ho a ha] at hcited
    cases hcited
  | cutOff hc ht hs hp ho =>
    obtain ⟨inner, moved, kept, place, r, -, hmoved, hkept, -, -, -, has⟩ := exists_of_cutOffOn ho
    rw [has] at ha
    rcases List.mem_append.mp ha with ha | ha
    · rw [hkept] at ha
      split at ha
      · cases ha
      · rw [citation_of_transferOn hmoved a ha] at hcited
        cases hcited
    · rw [List.mem_singleton.mp ha] at hcited
      cases hcited

end Macro

end RulerCompass
