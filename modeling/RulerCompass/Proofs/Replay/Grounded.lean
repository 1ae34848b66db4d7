import RulerCompass.Proofs.Replay.Crossings
import RulerCompass.Proofs.Replay.Promises

/-!
# Facts about points that are there

A crossing stands on elements that have their points, so what Definition 15 says about it is about
points of the figure, and a macro asserts nothing about other points either.  So all facts that steps
enter are grounded, whichever of them succeed.  A conclusion is not derived from the figure: it is
grounded when the steps that make its points have succeeded.
-/

namespace RulerCompass

variable {K : Type} [Scalar K]

/-! ### Circles that cross something -/

namespace Figure

variable {f : Figure K}

/-- A circle that has a size has its points. -/
theorem isSome_of_disc? (hzero : (0.0 : K) ≤ 0.0) {c : Circle} (hc : f.circle? c.id = some c)
    (h : (f.disc? c).isSome) : (f.point? c.centerId).isSome ∧ (f.point? c.radiusPointId).isSome := by
  obtain ⟨d, hd⟩ := Option.isSome_iff_exists.mp h
  simp only [disc?, Option.bind_eq_bind, Option.bind_eq_some_iff] at hd
  obtain ⟨center, hcenter, hd⟩ := hd
  refine ⟨by rw [hcenter, Option.isSome_some], ?_⟩
  rw [radius, hc] at hd
  cases hrim : f.point? c.radiusPointId with
  | some rim => rfl
  | none =>
    -- The radius of a circle without its rim counts as zero.
    have hdistance : f.distance? c.centerId c.radiusPointId = none := by
      simp [distance?, hcenter, hrim]
    simp only [hdistance, Option.getD_none] at hd
    rw [if_pos hzero] at hd
    cases hd

/-- Two elements that meet have their sizes. -/
theorem Meet.isSome_disc? {a b : Element K} {points : List (Coord K)} (h : f.Meet a b points)
    {c : Circle} (hc : a = .circle c ∨ b = .circle c) : (f.disc? c).isSome := by
  cases h with
  -- Circles need both their points, on whichever side they stand.
  | circles hx hy =>
    rcases hc with hc | hc
    · cases hc
      rw [hx, Option.isSome_some]
    · cases hc
      rw [hy, Option.isSome_some]
  | circleSegment hx hl =>
    rcases hc with hc | hc
    · cases hc
      rw [hx, Option.isSome_some]
    · cases hc
  | segmentCircle hx hl =>
    rcases hc with hc | hc
    · cases hc
    · cases hc
      rw [hx, Option.isSome_some]
  | segments hl hm => rcases hc with hc | hc <;> cases hc

end Figure

namespace Crossing

variable {f : Figure K} {c : Crossing K}

/-- A circle that is found as a parent has its points. -/
theorem Current.isSome_parent (h : c.Current f) (hzero : (0.0 : K) ≤ 0.0)
    (hfinds : f.FindsCircles) {id : String} (hid : id ∈ c.parents) {d : Circle} (hd : f.circle? id = some d) :
    (f.point? d.centerId).isSome ∧ (f.point? d.radiusPointId).isSome := by
  obtain ⟨a, ha, b, hb, -, hofA, hofB, points, hmeet, -⟩ := h
  -- The parent with this id is an element `x` of the figure.
  have hparent : ∃ x ∈ f.curves, x.id = id ∧ (x = a ∨ x = b) := by
    simp only [parents, List.mem_cons, List.not_mem_nil, or_false] at hid
    rcases hid with hid | hid
    · exact ⟨a, ha, by rw [hid, hofA], Or.inl rfl⟩
    · exact ⟨b, hb, by rw [hid, hofB], Or.inr rfl⟩
  obtain ⟨x, hx, rfl, hside⟩ := hparent
  cases x with
  | point p => simp [Figure.curves, Element.point?] at hx
  | segment s =>
    have hnone := hfinds.segment s (Figure.segment_mem_curves.mp hx)
    have hfound : f.circle? s.id = some d := hd
    rw [hnone] at hfound
    cases hfound
  | circle e =>
    have hfound := hfinds.circle e (Figure.circle_mem_curves.mp hx)
    have hsame : d = e := Option.some.inj (hd.symm.trans hfound)
    rw [hsame]
    refine Figure.isSome_of_disc? hzero hfound (hmeet.isSome_disc? ?_)
    rcases hside with hside | hside
    · exact Or.inl hside.symm
    · exact Or.inr hside.symm

end Crossing

namespace Replay

variable {style : Style} {propId : Int} {extend : Bool} {r r' : Replay K}

/-! ### What steps keep -/

/-- The figure is tidy, its crossings are up to date, and all facts are about its points. -/
structure Sound (r : Replay K) : Prop where
  tidy : r.scene.figure.Tidy
  current : ∀ c ∈ r.scene.crossings, c.Current r.scene.figure
  grounded : ∀ f ∈ r.facts, r.scene.figure.Grounds f.equation

omit [Scalar K] in
/-- Facts are grounded when what is asserted is. -/
theorem grounded_prove {as : List Assertion} {atStep : Int}
    (hr : ∀ f ∈ r.facts, r.scene.figure.Grounds f.equation)
    (has : ∀ a ∈ as, r.scene.figure.Grounds a.equation) :
    ∀ f ∈ (r.prove as atStep).facts, r.scene.figure.Grounds f.equation := by
  intro f hf
  rcases List.mem_append.mp hf with hf | hf
  · exact hr f hf
  · exact has f.assertion (Ledger.assertion_mem_of_mem_recordAll hf)

theorem Sound.attempt (hzero : (0.0 : K) ≤ 0.0) (hr : r.Sound) {index : Nat} {a : Action}
    {out : Bool × Replay K} (h : (r.attempt style propId extend index a).result = .ok out) :
    out.2.Sound := by
  have hleads := Scene.leads_act (scene_attempt h)
  have hgrows := hleads.growsTo
  refine ⟨hleads.tidy hr.tidy, hleads.current hzero hr.current, ?_⟩
  have hkept : ∀ f ∈ r.facts, out.2.scene.figure.Grounds f.equation :=
    fun f hf => hgrows.grounds (hr.grounded f hf)
  obtain ⟨flag, r'⟩ := out
  cases attempted_of_attempt h with
  | segment fromId toId => exact hkept
  | circle centerId radiusPointId => exact hkept
  -- The radii come from the parents of the crossing, which have their points.
  | @marked m c s point hc hs =>
    obtain ⟨p, hp, hs⟩ := exists_of_bind_eq_ok hs
    cases hs
    have htidy : p.1.Tidy := hr.tidy.addPoint hp
    have hcurrent : c.Current p.1 := by
      have hmem := (Crossing.offered_of_match? hc).mem
      exact (hr.current c hmem).growsTo hgrows hzero
    refine grounded_prove (r := { r with scene := _ }) hkept fun a ha => ?_
    obtain ⟨id, hid, d, hd, heq, -⟩ := Crossing.exists_of_mem_radiusAssertions ha
    obtain ⟨hcenter, hrim⟩ := hcurrent.isSome_parent hzero htidy.findsCircles hid hd
    rw [heq]
    exact Figure.grounds_distances hcenter (Figure.isSome_point?_drawn style _ hp) hcenter hrim
  | skipped hc => exact hkept
  -- A macro grounds what it asserts itself.
  | @called c m o layers hm ho hadded hlayers =>
    rcases Macro.eq_unchanged_or_runs ho with rfl | hruns
    · exact absurd rfl hadded
    · exact grounded_prove (r := { r with scene := o.scene }) hkept hruns.grounds
  | refused hm ho hadded => exact hkept
  | unnamed hm => exact hkept

theorem Sound.performAll (hzero : (0.0 : K) ≤ 0.0) (hr : r.Sound) {first : Nat} {steps : List Step}
    (h : (performAll style propId extend first steps r).result = .ok r') : r'.Sound := by
  induction steps generalizing first r with
  | nil =>
    cases h
    exact hr
  | cons step steps ih =>
    rw [performAll_cons] at h
    obtain ⟨u, hu, h⟩ := Run.exists_of_bind_eq_ok h
    obtain ⟨⟨flag, v⟩, hout, hu⟩ := Run.exists_of_bind_eq_ok hu
    have hv : v.Sound := hr.attempt hzero hout
    -- Counting the step changes nothing that is asked here.
    have hu' : u.Sound := by
      cases flag with
      | true =>
        cases hu
        exact ⟨hv.tidy, hv.current, hv.grounded⟩
      | false =>
        cases hu
        exact hv
    exact ih hu' h

/-! ### Whole replays -/

section Steps

variable {p : Proposition K} {given : List (Element K)} {steps : List Step}

/-- A given figure without circles, with hypotheses about its points. -/
theorem sound_start (hgiven : (Figure.ofGiven given).Tidy)
    (hhypotheses : ∀ a ∈ p.hypotheses, (Figure.ofGiven given).Grounds a.equation) :
    (start p given).Sound := by
  have hnone : ∀ c ∈ (start p given).scene.crossings, c.Current (start p given).scene.figure :=
    fun c hc => nomatch hc
  refine ⟨hgiven, hnone, ?_⟩
  exact grounded_prove (r := { scene := { figure := Figure.ofGiven given } })
    (fun f hf => nomatch hf) hhypotheses

/-- **A fact is grounded or concluded too early.**  Every point that a fact of a replay names is
there, unless the fact belongs to the conclusion and the point is made by a step that has failed. -/
theorem isSome_point?_or_failed (hzero : (0.0 : K) ≤ 0.0) (hgiven : (Figure.ofGiven given).Tidy)
    (hhypotheses : ∀ a ∈ p.hypotheses, (Figure.ofGiven given).Grounds a.equation)
    (hconclusion : ∀ a ∈ p.conclusion, ∀ id ∈ a.equation.points,
      ((Figure.ofGiven given).point? id).isSome ∨
        ∃ (k : Nat) (step : Step), steps[k]? = some step ∧ step.action.made? = some id)
    (h : (run style p given steps).result = .ok r) {f : Fact} (hf : f ∈ r.facts) {id : String}
    (hid : id ∈ f.equation.points) :
    (r.scene.figure.point? id).isSome ∨ f.atStep = steps.length ∧ ∃ (k : Nat) (step : Step),
      steps[k]? = some step ∧ step.action.made? = some id ∧ ¬ Succeeds style p given steps k := by
  rw [run_nil] at h
  obtain ⟨-, u, hu, rfl⟩ := throughConclusion_eq_ok_iff.mp h
  have hsound : u.Sound := (sound_start hgiven hhypotheses).performAll hzero hu
  rcases List.mem_append.mp hf with hf | hf
  · -- A fact of the steps is grounded.
    exact Or.inl (hsound.grounded f hf id hid)
  · -- A fact of the conclusion names points of the definition, each made by some step.
    have hatStep := Ledger.recordAll_atStep _ p.conclusion steps.length f hf
    have ha := Ledger.assertion_mem_of_mem_recordAll hf
    rcases hconclusion f.assertion ha id hid with hthere | ⟨k, step, hstep, hmade⟩
    · exact Or.inl ((leads_performAll hu).growsTo.isSome_point? hthere)
    · by_cases hk : Succeeds style p given steps k
      · exact Or.inl (keeps_of_succeeds hgiven hu hk hstep hmade).there
      · exact Or.inr ⟨hatStep, k, step, hstep, hmade, hk⟩

end Steps

end Replay

end RulerCompass
