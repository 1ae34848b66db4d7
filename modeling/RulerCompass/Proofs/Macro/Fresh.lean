import RulerCompass.Proofs.Figure.WellNamed
import RulerCompass.Proofs.Macro.Build

/-!
# The names of new points

A macro gives its result the label that is asked for, and its other points automatic ones.  In a well-named
figure, while no point bears the label that is asked for, all new ids are free and differ from each other.
The inner point of a cut is made first, when the label of the result is not in use yet: should its automatic
label be this one, it takes the next.
-/

namespace RulerCompass.Macro

variable {K : Type} {style : Style} {labels : OutputLabels} {f g : Figure K} {m : Macro}
  {inputs : List String} {es : List (Element K)}

/-- The points among some elements, in their order. -/
def newPoints (es : List (Element K)) : List (Point K) := es.filterMap Element.point?

namespace Builds

theorem points_eq (h : Builds style labels f m inputs es g) : g.points = f.points ++ newPoints es := by
  rw [Figure.points, h.elements_eq, List.filterMap_append]
  rfl

/-- A macro keeps the figure well named when its result gets a label that is free, or the next. -/
theorem wellNamed (h : Builds style labels f m inputs es g) (hf : f.WellNamed)
    (hfree : ∀ label ∈ MacroCall.outputLabel? labels m.resultName, pointId label ∉ f.pointIds) :
    g.WellNamed :=
  h.keeps (fun _ hf => ⟨hf.counter, hf.counts⟩) (fun _ _ _ _ hf => hf.addPoint)
    (fun _ fromId toId hf => hf.addSegment style fromId toId) hf hfree

/-- The result is the last point, and it bears the label that is asked for. -/
theorem exists_result (h : Builds style labels f m inputs es g) (hes : es ≠ []) :
    ∃ earlier result, newPoints es = earlier ++ [result] ∧
      ∀ label ∈ MacroCall.outputLabel? labels m.resultName, result.label = label := by
  cases h with
  | refused => exact absurd rfl hes
  | triangle hr => exact ⟨[], _, rfl, (Figure.names_of_addPoint hr).2⟩
  | transfer hr => exact ⟨[], _, rfl, (Figure.names_of_addPoint hr).2⟩
  | cut hr => exact ⟨[], _, rfl, (Figure.names_of_addPoint hr).2⟩
  | @carried _ _ _ _ _ _ _ _ q r _ _ hr => exact ⟨[q.2], r.2, rfl, (Figure.names_of_addPoint hr).2⟩

end Builds

/-- **New points get fresh names.**  Let no two points of the figure share an id, let each id be made from
the label, and let the counter be at least zero and above the number of every label; let the label that the
macro looks up, if there is one, be that of no point.  Then the macro has an outcome while there are labels
for its points, and the figure of every outcome has the old points and then the new ones and is again as
just said.  The ids of the new points differ from each other and from those of all points that were there.
If anything has been added, the result is the last new point, it bears the label that is asked for, and no
new point before it does. -/
theorem execute_names_fresh [Scalar K] (style : Style) (m : Macro) (s : Scene K) (extend : Bool)
    (labels : OutputLabels) (inputs : List String) (hs : s.figure.WellNamed)
    (hfree : ∀ label ∈ MacroCall.outputLabel? labels m.resultName,
      ∀ p ∈ s.figure.points, p.label ≠ label) :
    (s.figure.Room m.mostPoints (MacroCall.outputLabel? labels m.resultName) →
      ∃ o, (m.execute style s extend labels inputs).result = .ok o) ∧
    ∀ o, (m.execute style s extend labels inputs).result = .ok o →
      o.scene.figure.points = s.figure.points ++ newPoints o.added ∧ o.scene.figure.WellNamed ∧
      ((newPoints o.added).map Point.id).Nodup ∧
      (∀ q ∈ newPoints o.added, ∀ p ∈ s.figure.points, q.id ≠ p.id) ∧
      (o.added ≠ [] → ∃ earlier result, newPoints o.added = earlier ++ [result] ∧
        ∀ label ∈ MacroCall.outputLabel? labels m.resultName,
          result.label = label ∧ ∀ q ∈ earlier, q.label ≠ label) := by
  refine ⟨(m.execute_meets style s extend labels inputs).1, fun o ho => ?_⟩
  have hbuilds := builds_of_execute ho
  have hend : o.scene.figure.WellNamed := by
    -- A label that is free has no point of its id.
    refine hbuilds.wellNamed hs fun label hlabel hmem => ?_
    obtain ⟨p, hp, hsame⟩ := hs.pointId_mem_pointIds.mp hmem
    exact hfree label hlabel p hp hsame
  have hnodup := hend.nodup
  rw [Figure.pointIds, hbuilds.points_eq, List.map_append, List.nodup_append] at hnodup
  obtain ⟨-, hnew, hapart⟩ := hnodup
  refine ⟨hbuilds.points_eq, hend, hnew, fun q hq p hp hsame => ?_, fun hadded => ?_⟩
  · exact hapart _ (List.mem_map_of_mem hp) _ (List.mem_map_of_mem hq) hsame.symm
  · obtain ⟨earlier, result, hpoints, hlabelled⟩ := hbuilds.exists_result hadded
    refine ⟨earlier, result, hpoints, fun label hlabel => ⟨hlabelled label hlabel, ?_⟩⟩
    intro q hq hsame
    -- Two new points of one label would share their id.
    have hnamed : ∀ p ∈ newPoints o.added, p.id = pointId p.label := by
      intro p hp
      refine hend.named p ?_
      rw [hbuilds.points_eq]
      exact List.mem_append_right _ hp
    rw [hpoints] at hnew hnamed
    rw [List.map_append, List.nodup_append] at hnew
    refine hnew.2.2 _ (List.mem_map_of_mem hq) _ (List.mem_singleton_self _) ?_
    rw [hnamed q (by simp [hq]), hnamed result (by simp), hsame, hlabelled label hlabel]

/-- The part `AE` cut off from `AB` equal to `CD`, where `E` is the next label as well: the inner point
takes `F`, and the label after both is `G`. -/
theorem execute_names_fresh_reserved :
    let s : Scene Float :=
      { figure := Figure.ofGiven [Point.given "A" ⟨0.0, 0.0⟩, Point.given "B" ⟨4.0, 0.0⟩,
          Point.given "C" ⟨0.0, 1.0⟩, Point.given "D" ⟨0.0, 3.0⟩] }
    let labels : OutputLabels := some [("result", "E")]
    let result := (cutOff.execute {} s true labels ["pt-A", "pt-B", "pt-C", "pt-D"]).result
    s.figure.WellNamed ∧ Label.ofIndex s.figure.nextLabel = .ok "E" ∧
      ∃ o, result = .ok o ∧ (newPoints o.added).map Point.label = ["F", "E"] ∧
        o.scene.figure.nextLabel = 6 ∧ o.scene.figure.WellNamed ∧
        ((newPoints o.added).map Point.id).Nodup := by
  intro s labels result
  have hs : s.figure.WellNamed := by
    refine { Figure.passed_ofGiven _ with nodup := ?_, named := ?_ }
    · decide +kernel
    · decide +kernel
  have hfree : ∀ label ∈ MacroCall.outputLabel? labels Macro.cutOff.resultName,
      ∀ p ∈ s.figure.points, p.label ≠ label := by decide +kernel
  have hrun : result.toOption.map (fun o =>
      ((newPoints o.added).map Point.label, o.scene.figure.nextLabel)) = some (["F", "E"], 6) := by
    decide +kernel
  have hroom : s.figure.Room Macro.cutOff.mostPoints
      (MacroCall.outputLabel? labels Macro.cutOff.resultName) := by decide +kernel
  have hnext : Label.ofIndex s.figure.nextLabel = .ok "E" := by
    rw [Label.ofIndex_eq_ok_iff hroom.counter]
    exact ⟨(hroom.lt_capacity (by decide)).2, by decide +kernel⟩
  obtain ⟨houtcome, hfresh⟩ := execute_names_fresh {} .cutOff s true labels
    ["pt-A", "pt-B", "pt-C", "pt-D"] hs hfree
  obtain ⟨o, ho⟩ := houtcome hroom
  obtain ⟨-, hend, hnew, -, -⟩ := hfresh o ho
  have ho : result = .ok o := ho
  rw [ho] at hrun
  obtain ⟨hlabels, hcounter⟩ := Prod.mk.inj (Option.some.inj hrun)
  exact ⟨hs, hnext, o, ho, hlabels, hcounter, hend, hnew⟩

end RulerCompass.Macro
