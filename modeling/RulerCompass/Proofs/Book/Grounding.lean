import RulerCompass.Proofs.Book.Layouts

/-!
# What the book's facts are about

In a replay of the book every fact of a step is about points that are there, wherever the given
points are.  The conclusion is written down without a look at the figure.  So when a step has failed
it may be about a point that was never made; a replay without failed steps has no such fact.
-/

namespace RulerCompass.Book

open Replay

/-- **Only a conclusion can be about a missing point.**  For every proposition and every placement
of its points, each point that a fact of the replay names is there, unless the fact belongs to the
conclusion and the point is made by a step that has failed.  When every step succeeds all facts are
about points of the figure. -/
theorem points_there_or_failed (style : Style) {p : Proposition Float} (hp : p ∈ propositions)
    {layout : Positions Float → List (Element Float)} (hlayout : p.layout? = some layout)
    (positions : Positions Float) :
    ∃ r, (run style p (layout positions) p.steps).result = .ok r ∧
      (∀ f ∈ r.facts, ∀ id ∈ f.equation.points, (r.scene.figure.point? id).isSome ∨
        f.atStep = p.steps.length ∧ ∃ (k : Nat) (step : Step), p.steps[k]? = some step ∧
          step.action.made? = some id ∧ ¬ Succeeds style p (layout positions) p.steps k) ∧
      (Complete style p (layout positions) p.steps →
        ∀ f ∈ r.facts, r.scene.figure.Grounds f.equation) := by
  have hzero : (0.0 : Float) ≤ 0.0 := by decide +kernel
  obtain ⟨r, hr⟩ := exists_run_layout hp hlayout positions style []
    (fun _ he => nomatch he) Label.alphabet_le_capacity
  have hpoints : ∀ f ∈ r.facts, ∀ id ∈ f.equation.points, (r.scene.figure.point? id).isSome ∨
      f.atStep = p.steps.length ∧ ∃ (k : Nat) (step : Step), p.steps[k]? = some step ∧
        step.action.made? = some id ∧ ¬ Succeeds style p (layout positions) p.steps k := by
    intro f hf id hid
    exact isSome_point?_or_failed hzero (tidy_layout hp hlayout positions)
      (grounds_hypotheses hp hlayout positions) (grounds_conclusion hp hlayout positions) hr hf hid
  refine ⟨r, hr, hpoints, fun hcomplete f hf id hid => ?_⟩
  rcases hpoints f hf id hid with hthere | ⟨-, k, step, hstep, -, hfails⟩
  · -- The point is there.
    exact hthere
  · -- The step that makes it would have failed, but all steps succeed.
    obtain ⟨hk, -⟩ := List.getElem?_eq_some_iff.mp hstep
    exact absurd (hcomplete k hk) hfails

/-- The second proposition as the book has it: no step fails, and its five facts are about the three
given points and the points `D`, `E` and `F` of the construction. -/
theorem points_there_transfer :
    let p : Proposition Float := Transfer.proposition
    let given := Transfer.layout fun _ => none
    p ∈ propositions ∧ p.layout? = some Transfer.layout ∧ Complete {} p given p.steps ∧
      ∃ r, (run {} p given p.steps).result = .ok r ∧ r.facts.length = 5 ∧
        ∀ f ∈ r.facts, r.scene.figure.Grounds f.equation := by
  intro p given
  have hp : p ∈ propositions := List.mem_of_getElem? (i := 1) rfl
  have hcomplete : Complete {} p given p.steps := complete_of_flags (by decide +kernel)
  obtain ⟨r, hr, -, hgrounds⟩ := points_there_or_failed {} hp rfl fun _ => none
  have hlength : (run {} p given p.steps).result.toOption.map (fun r => r.facts.length) =
      some 5 := by decide +kernel
  obtain ⟨r', hr', hlength⟩ := exists_of_map_toOption_eq_some hlength
  obtain rfl : r = r' := Except.ok.inj (hr.symm.trans hr')
  exact ⟨hp, rfl, hcomplete, r, hr, hlength, hgrounds hcomplete⟩

/-- The first proposition with `B` on `A`: there is no apex `C`, and `CA = CB` is concluded. -/
theorem concluded_without_apex :
    let p : Proposition Float := Triangle.proposition
    let given := Triangle.layout (Positions.ofMoves [("pt-B", ⟨-1.0, 0.0⟩)])
    ∃ r, (run {} p given p.steps).result = .ok r ∧ ∃ f ∈ r.facts,
      f.equation = .distances (.between "pt-C" "pt-A") (.between "pt-C" "pt-B") ∧
        "pt-C" ∈ f.equation.points ∧ r.scene.figure.point? "pt-C" = none := by
  intro p given
  have hrun : (run {} p given p.steps).result.toOption.map (fun r =>
      (r.facts.map Fact.equation, (r.scene.figure.point? "pt-C").isNone)) =
      some ([.distances (.between "pt-C" "pt-A") (.between "pt-C" "pt-B")], true) := by
    decide +kernel
  obtain ⟨r, hr, hfacts⟩ := exists_of_map_toOption_eq_some hrun
  obtain ⟨hequations, hnone⟩ := Prod.mk.inj hfacts
  have hmem : Equation.distances (.between "pt-C" "pt-A") (.between "pt-C" "pt-B") ∈
      r.facts.map Fact.equation := by
    rw [hequations]
    exact List.mem_singleton_self _
  obtain ⟨f, hf, heq⟩ := List.mem_map.mp hmem
  refine ⟨r, hr, f, hf, heq, ?_, Option.isNone_iff_eq_none.mp hnone⟩
  rw [heq]
  decide

end RulerCompass.Book
