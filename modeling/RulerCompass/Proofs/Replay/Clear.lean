import RulerCompass.Proofs.Macro.Build
import RulerCompass.Proofs.Replay.Lockstep
import RulerCompass.Proofs.Scene.Clear

/-!
# Points and crossings of a replay

A point is marked on a crossing, and crossings are kept clear of points.  So a replay without macros
never has two points in one place unless both are given.  A macro only appends to the crossings: those
that lie where its points are put stay, and a later marking may put a second point there.
-/

namespace RulerCompass

variable {K : Type} [Scalar K] {style : Style}

namespace Replay

/-- The scenes of a replay: after each step, while prolonged segments are searched, and after each
extra. -/
inductive Visits (style : Style) (p : Proposition K) (given : List (Element K)) (steps : List Step)
    (extras : List Extra) : Scene K → Prop
  | afterSteps {k : Nat} {r : Replay K}
      (h : (performAll style p.id p.prolongs 0 (steps.take k) (start p given)).result = .ok r) :
      Visits style p given steps extras r.scene
  | withinSearch {n : Nat} {r : Replay K}
      (h : (throughConclusion style p given steps).result = .ok r) :
      Visits style p given steps extras
        ((r.scene.figure.elements.take n).foldl (fun s e => s.search true e) r.scene)
  | afterExtras {k : Nat} {r r' : Replay K}
      (h : (throughConclusion style p given steps).result = .ok r)
      (h' : r.performExtras style p.prolongs steps.length (extras.take k) = .ok r') :
      Visits style p given steps extras r'.scene

/-- A step or an extra leads from one scene to the next. -/
inductive Transition (style : Style) (p : Proposition K) (given : List (Element K))
    (steps : List Step) (extras : List Extra) : Scene K → Scene K → Prop
  | step {k : Nat} {u v : Replay K} (hk : k < steps.length)
      (hu : (performAll style p.id p.prolongs 0 (steps.take k) (start p given)).result = .ok u)
      (hv : (performAll style p.id p.prolongs 0 (steps.take (k + 1)) (start p given)).result = .ok v) :
      Transition style p given steps extras u.scene v.scene
  | extra {k : Nat} {r u v : Replay K} (hk : k < extras.length)
      (hr : (throughConclusion style p given steps).result = .ok r)
      (hu : r.performExtras style p.prolongs steps.length (extras.take k) = .ok u)
      (hv : r.performExtras style p.prolongs steps.length (extras.take (k + 1)) = .ok v) :
      Transition style p given steps extras u.scene v.scene

/-- A macro step of the replay makes the point. -/
def MadeByMacro (style : Style) (p : Proposition K) (given : List (Element K)) (steps : List Step)
    (q : Point K) : Prop :=
  ∃ (k : Nat) (step : Step) (c : MacroCall) (u v : Replay K),
    steps[k]? = some step ∧ step.action = .call c ∧
      (performAll style p.id p.prolongs 0 (steps.take k) (start p given)).result = .ok u ∧
      (performAll style p.id p.prolongs 0 (steps.take (k + 1)) (start p given)).result = .ok v ∧
      u.scene.Gains v.scene q

variable {p : Proposition K} {given : List (Element K)} {steps : List Step} {extras : List Extra}
  {r u v : Replay K}

theorem leads_take_succ {k : Nat} (hk : k < steps.length)
    (hu : (performAll style p.id p.prolongs 0 (steps.take k) (start p given)).result = .ok u)
    (hv : (performAll style p.id p.prolongs 0 (steps.take (k + 1)) (start p given)).result = .ok v) :
    u.scene.Leads style v.scene := by
  have hstep := perform_of_take_succ (List.getElem?_eq_getElem hk) hu hv
  exact Scene.leads_act (scene_perform hstep)

/-! ### Crossings -/

/-- **Steps keep the crossings clear** of all points but those that macros make. -/
theorem clearBut_performAll {k : Nat}
    (h : (performAll style p.id p.prolongs 0 (steps.take k) (start p given)).result = .ok r) :
    r.scene.ClearBut (MadeByMacro style p given steps) := by
  induction k generalizing r with
  | zero =>
    cases h
    -- No crossings have been found at the start.
    intro c hc
    cases hc
  | succ k ih =>
    cases hstep : steps[k]? with
    | none =>
      have hlength : steps.length ≤ k := List.getElem?_eq_none_iff.mp hstep
      rw [List.take_of_length_le (by omega)] at h
      rw [List.take_of_length_le hlength] at ih
      exact ih h
    | some step =>
      obtain ⟨u, hu, hperform⟩ := exists_of_performAll_take_succ hstep h
      have hact := scene_perform hperform
      by_cases hcall : ∀ c, step.action ≠ .call c
      · exact Scene.clearBut_act hcall hact (ih hu)
      · -- What a macro makes is spared, so no crossing near it is excluded.
        obtain ⟨c, hc⟩ := not_forall_not.mp hcall
        refine (Scene.leads_act hact).clearBut (ih hu) fun q hq hfresh => ?_
        exact ⟨k, step, c, u, r, hstep, hc, hu, h, (Scene.leads_act hact).gains hq hfresh⟩

theorem clearBut_throughConclusion (h : (throughConclusion style p given steps).result = .ok r) :
    r.scene.ClearBut (MadeByMacro style p given steps) := by
  obtain ⟨-, u, hu, rfl⟩ := throughConclusion_eq_ok_iff.mp h
  rw [← steps.take_length] at hu
  have hsteps := clearBut_performAll hu
  exact hsteps

theorem clearBut_performExtra {spared : Point K → Prop} {now : Int} {e : Extra}
    (h : u.performExtra style now e = .ok v) (hu : u.scene.ClearBut spared) :
    v.scene.ClearBut spared := by
  cases e with
  | circle centerId radiusPointId =>
    cases h
    exact Scene.clearBut_drawCircle centerId radiusPointId hu
  | segment fromId toId =>
    cases h
    exact Scene.clearBut_drawSegment fromId toId hu
  | mark ofA ofB which =>
    rw [performExtra] at h
    split at h
    · obtain ⟨point, hmark⟩ := scene_markAt h
      exact Scene.clearBut_mark hmark hu
    · obtain ⟨s, hs, h⟩ := exists_of_bind_eq_ok h
      cases h
      exact Scene.clearBut_skip hs hu
  | unknown shown => cases h

theorem clearBut_readied {spared : Point K → Prop} {extend : Bool} (hu : u.scene.ClearBut spared) :
    (u.readied extend).scene.ClearBut spared :=
  readied_keeps (I := fun u => u.scene.ClearBut spared) (fun _ hu => hu.searchAll true) hu

theorem clearBut_performExtras {spared : Point K → Prop} {now : Int} {extend : Bool}
    (h : u.performExtras style extend now extras = .ok v) (hu : u.scene.ClearBut spared) :
    v.scene.ClearBut spared :=
  performExtras_keeps (I := fun u => u.scene.ClearBut spared) (fun _ hu => hu.searchAll true)
    (fun _ _ _ => clearBut_performExtra) h hu

theorem Visits.clearBut {s : Scene K} (h : Visits style p given steps extras s) :
    s.ClearBut (MadeByMacro style p given steps) := by
  cases h with
  | afterSteps h => exact clearBut_performAll h
  | withinSearch h =>
    exact (clearBut_throughConclusion h).searchEach true _
  | afterExtras h h' => exact clearBut_performExtras h' (clearBut_throughConclusion h)

theorem visits_run (h : (run style p given steps extras).result = .ok r) :
    Visits style p given steps extras r.scene := by
  obtain ⟨u, hu, hextras⟩ := exists_concluded_of_run h
  rw [← extras.take_length] at hextras
  exact .afterExtras hu hextras

/-! ### Points -/

theorem spared_of_performExtra {spared : Point K → Prop} {now : Int} {e : Extra}
    (h : u.performExtra style now e = .ok v) (hu : u.scene.ClearBut spared) {q q' : Point K}
    (hq : u.scene.Gains v.scene q) (hq' : q' ∈ u.scene.figure.points)
    (hnear : q.position.Near q'.position) : spared q' := by
  cases e with
  | circle centerId radiusPointId =>
    cases h
    exact absurd hq (Scene.not_gains_of_points_eq (Scene.points_drawCircle centerId radiusPointId) q)
  | segment fromId toId =>
    cases h
    exact absurd hq (Scene.not_gains_of_points_eq (Scene.points_drawSegment fromId toId) q)
  | mark ofA ofB which =>
    rw [performExtra] at h
    split at h
    · rename_i c hc
      -- The crossing comes from the list, so what is near it is spared.
      obtain ⟨point, hmark⟩ := scene_markAt h
      exact Scene.spared_of_mark hmark hu (List.mem_of_find?_eq_some hc) hq hq' hnear
    · obtain ⟨s, hs, h⟩ := exists_of_bind_eq_ok h
      cases h
      obtain rfl := Scene.eq_skipped_of_skip hs
      exact absurd hq (Scene.not_gains_of_points_eq rfl q)
  | unknown shown => cases h

/-- Only on a point of a macro a step or an extra without macros makes another point. -/
theorem Transition.madeByMacro (hsteps : ∀ s ∈ steps, ∀ c, s.action ≠ .call c) {s t : Scene K}
    (h : Transition style p given steps extras s t) {q q' : Point K} (hq : s.Gains t q)
    (hq' : q' ∈ s.figure.points) (hnear : q.position.Near q'.position) :
    MadeByMacro style p given steps q' := by
  cases h with
  | @step k u v hk hu hv =>
    have hperform := perform_of_take_succ (List.getElem?_eq_getElem hk) hu hv
    have hcall : ∀ c, steps[k].action ≠ .call c := hsteps _ (List.getElem_mem hk)
    exact Scene.spared_of_act hcall (scene_perform hperform) (clearBut_performAll hu) hq hq' hnear
  | extra hk hr hu hv =>
    obtain ⟨w, hw, hextra⟩ := exists_searched_of_performExtras_take_succ hk hu hv
    have hclear := clearBut_performExtras hu (clearBut_throughConclusion hr)
    -- The first extra comes after a search of the whole figure, which changes no point.
    rcases hw with rfl | rfl
    · exact spared_of_performExtra hextra hclear hq hq' hnear
    · refine spared_of_performExtra hextra (clearBut_readied hclear) ?_ ?_ hnear
      · rw [Scene.Gains, figure_readied]
        exact hq
      · rw [figure_readied]
        exact hq'

theorem not_madeByMacro (hsteps : ∀ s ∈ steps, ∀ c, s.action ≠ .call c) (q : Point K) :
    ¬ MadeByMacro style p given steps q := by
  rintro ⟨k, step, c, u, v, hstep, hc, -⟩
  exact hsteps step (List.mem_of_getElem? hstep) c hc

/-- **No point is made twice.**  In a replay without macros no crossing ever lies near a point.  So what
a step or an extra marks is near to no point that was there before: only given points can lie together.
Known steps and extras have such a replay as far as labels reach. -/
theorem no_point_twice (style : Style) (p : Proposition K) (given : List (Element K))
    (steps : List Step) (hsteps : ∀ s ∈ steps, ∀ c, s.action ≠ .call c) (extras : List Extra) :
    ((∀ s ∈ steps, s.action.Known) → (∀ e ∈ extras, e.Known) →
      LabelsReach given (requests steps) extras.length →
        ∃ r, (run style p given steps extras).result = .ok r) ∧
    (∀ r, (run style p given steps extras).result = .ok r →
      Visits style p given steps extras r.scene) ∧
    (∀ s, Visits style p given steps extras s →
      ∀ c ∈ s.crossings, ∀ q ∈ s.figure.points, ¬ c.position.Near q.position) ∧
    ∀ s t, Transition style p given steps extras s t → ∀ q, s.Gains t q →
      ∀ q' ∈ s.figure.points, ¬ q.position.Near q'.position := by
  refine ⟨exists_run style p extras, fun r hr => visits_run hr, fun s hs c hc q hq hnear => ?_,
    fun s t hst q hq q' hq' hnear => ?_⟩
  · exact not_madeByMacro hsteps q (hs.clearBut c hc q hq hnear)
  · exact not_madeByMacro hsteps q' (hst.madeByMacro hsteps hq hq' hnear)

/-- The first proposition up to its apex.  The base has to be prolonged before the far end of a diameter
can be marked, and the new point is near to none of the three points that are there. -/
theorem no_point_twice_diameter :
    let p : Proposition Float := Book.Triangle.proposition
    let steps := p.steps.take 3
    let extras : List Extra := [.mark "seg-AB" "cir-1" 1]
    (∀ s ∈ steps, ∀ c, s.action ≠ .call c) ∧ (∀ s ∈ steps, s.action.Known) ∧
      (∀ e ∈ extras, e.Known) ∧ ∃ (u r : Replay Float) (q : Point Float),
        (throughConclusion {} p p.given steps).result = .ok u ∧
        (run {} p p.given steps extras).result = .ok r ∧
        Transition {} p p.given steps extras u.scene r.scene ∧ u.scene.Gains r.scene q ∧
        u.scene.figure.pointIds = ["pt-A", "pt-B", "pt-C"] ∧ q.id = "pt-D" ∧
        (∀ q' ∈ u.scene.figure.points, ¬ q.position.Near q'.position) ∧
        ∀ c ∈ r.scene.crossings, ∀ q ∈ r.scene.figure.points, ¬ c.position.Near q.position := by
  intro p steps extras
  have hcalls : ∀ s ∈ steps, ∀ c, s.action ≠ .call c := by
    simp [steps, p, Book.Triangle.proposition, Book.Triangle.steps]
  have hknown : ∀ s ∈ steps, s.action.Known := by decide
  have hextras : ∀ e ∈ extras, e.Known := by decide
  obtain ⟨hruns, hvisits, hclear, hpoints⟩ := no_point_twice {} p p.given steps hcalls extras
  obtain ⟨r, hr⟩ := hruns hknown hextras (by decide +kernel)
  obtain ⟨u, hu, hv⟩ := exists_concluded_of_run hr
  have hbefore : (throughConclusion {} p p.given steps).result.toOption.map
      (fun r => r.scene.figure.pointIds) = some ["pt-A", "pt-B", "pt-C"] := by decide +kernel
  have hafter : (run {} p p.given steps extras).result.toOption.map
      (fun r => r.scene.figure.pointIds) = some ["pt-A", "pt-B", "pt-C", "pt-D"] := by decide +kernel
  rw [hu] at hbefore
  rw [hr] at hafter
  have hbefore : u.scene.figure.pointIds = ["pt-A", "pt-B", "pt-C"] := Option.some.inj hbefore
  have hafter : r.scene.figure.pointIds = ["pt-A", "pt-B", "pt-C", "pt-D"] := Option.some.inj hafter
  obtain ⟨q, hgains, -, hid⟩ : ∃ q, u.scene.Gains r.scene q ∧ q ∈ r.scene.figure.points ∧
      q.id = "pt-D" := by
    refine (leads_performExtras hv).exists_gains "pt-D" ?_ ?_
    · rw [hafter]
      decide
    · rw [hbefore]
      decide
  have hstep : Transition {} p p.given steps extras u.scene r.scene :=
    .extra (k := 0) (by decide) hu rfl hv
  exact ⟨hcalls, hknown, hextras, u, r, q, hu, hr, hstep, hgains, hbefore, hid,
    hpoints _ _ hstep q hgains, hclear _ (hvisits r hr)⟩

/-! ### Macros -/

/-- **What a macro does to the crossings.**  A macro step that succeeds keeps all crossings and finds
others, of which none lies near a point but for the result of a cut.  So a crossing near a point that it
has made was there before, or lies at the result of a cut on the line of its inner transfer.  At all times
only points that macros have made can have crossings near them. -/
theorem crossing_near_macro_point (style : Style) (p : Proposition K) (given : List (Element K))
    (steps : List Step) :
    (∀ (k : Nat) (step : Step) (c : MacroCall), steps[k]? = some step → step.action = .call c →
      Succeeds style p given steps k →
      ∃ (m : Macro) (u v : Replay K) (es : List (Element K)) (found : List (Crossing K)),
        Macro.ofProp? c.propId = some m ∧
        (performAll style p.id p.prolongs 0 (steps.take k) (start p given)).result = .ok u ∧
        (performAll style p.id p.prolongs 0 (steps.take (k + 1)) (start p given)).result = .ok v ∧
        es ≠ [] ∧ v.scene.figure.elements = u.scene.figure.elements ++ es ∧
        v.scene.crossings = u.scene.crossings ++ found ∧
        ∀ d ∈ found, ∀ q ∈ v.scene.figure.points, d.position.Near q.position →
          m = .cutOff ∧ es.getLast? = some (.point q)) ∧
    ∀ (extras : List Extra) (s : Scene K), Visits style p given steps extras s →
      ∀ c ∈ s.crossings, ∀ q ∈ s.figure.points, c.position.Near q.position →
        MadeByMacro style p given steps q := by
  refine ⟨fun k step c hstep hc hsucceeds => ?_, fun extras s hs => hs.clearBut⟩
  obtain ⟨u, step', hu, hstep', hperforms⟩ := hsucceeds
  obtain rfl : step = step' := Option.some.inj (hstep.symm.trans hstep')
  obtain ⟨v, hv, htake⟩ := exists_of_performs hstep hu hperforms
  rw [hc] at hperforms hv
  obtain ⟨m, o, hm, ho, hadded⟩ := hperforms
  have hscene : v.scene = o.scene :=
    Except.ok.inj ((scene_attempt hv).symm.trans (Scene.act_call_some hm ho))
  obtain ⟨found, hcrossings, hclear⟩ := Macro.found_clear ho
  have helements : o.scene.figure.elements = u.scene.figure.elements ++ o.added :=
    (Macro.builds_of_execute ho).elements_eq
  rw [← hscene] at hcrossings hclear helements
  exact ⟨m, u, _, o.added, found, hm, hu, htake, hadded, helements, hcrossings, hclear⟩

/-- Two circles whose upper crossing is the apex that the macro computes.  The crossing is still there
after the macro step. -/
theorem crossing_near_macro_point_apex :
    let given : List (Element Float) := [Point.given "A" ⟨0.0, 0.0⟩, Point.given "B" ⟨1.0, 0.0⟩]
    let triangle : MacroCall := { propId := 1, inputs := ["pt-A", "pt-B"] }
    let steps : List Step := [{ action := .compass "pt-A" "pt-B" },
      { action := .compass "pt-B" "pt-A" }, { action := .call triangle }]
    let p : Proposition Float := { id := 100, title := "", given := given, steps := steps }
    Succeeds {} p given steps 2 ∧ ∃ (u v : Replay Float) (es : List (Element Float)),
      (performAll {} p.id p.prolongs 0 (steps.take 2) (start p given)).result = .ok u ∧
      (performAll {} p.id p.prolongs 0 steps (start p given)).result = .ok v ∧
      v.scene.figure.elements = u.scene.figure.elements ++ es ∧
      v.scene.crossings = u.scene.crossings ∧
      ∃ c ∈ v.scene.crossings, ∃ q ∈ v.scene.figure.points,
        c.position.Near q.position ∧ q.id = "pt-C" ∧ MadeByMacro {} p given steps q := by
  intro given triangle steps p
  have hflags : flags {} p given steps = some [true, true, true] := by decide +kernel
  have hsucceeds : Succeeds {} p given steps 2 := (succeeds_iff_flag hflags (by decide)).mpr rfl
  obtain ⟨hsteps, hnear⟩ := crossing_near_macro_point {} p given steps
  obtain ⟨m, u, v, es, found, hm, hu, hv, -, helements, hcrossings, hclear⟩ :=
    hsteps 2 _ triangle rfl rfl hsucceeds
  have hbefore : (performAll {} p.id p.prolongs 0 (steps.take 2) (start p given)).result.toOption.map
      (fun r => r.scene.crossings.length) = some 2 := by decide +kernel
  have hafter : (performAll {} p.id p.prolongs 0 steps (start p given)).result.toOption.map
      (fun r => (r.scene.crossings.length, decide (∃ c ∈ r.scene.crossings,
        ∃ q ∈ r.scene.figure.points, c.position.Near q.position ∧ q.id = "pt-C"))) =
        some (2, true) := by decide +kernel
  have hv : (performAll {} p.id p.prolongs 0 steps (start p given)).result = .ok v := hv
  rw [hu] at hbefore
  rw [hv] at hafter
  obtain ⟨hlength, honApex⟩ := Prod.mk.inj (Option.some.inj hafter)
  obtain ⟨c, hc, q, hq, hcq, hid⟩ := of_decide_eq_true honApex
  -- As many crossings as before: the macro has found none.
  have hnone : found = [] := by
    have hlength' : u.scene.crossings.length = 2 := Option.some.inj hbefore
    rw [hcrossings, List.length_append] at hlength
    exact List.length_eq_zero_iff.mp (by omega)
  rw [hnone, List.append_nil] at hcrossings
  have hvisits : Visits {} p given steps [] v.scene := .afterSteps (k := 3) hv
  exact ⟨hsucceeds, u, v, es, hu, hv, helements, hcrossings, c, hc, q, hq, hcq, hid,
    hnear [] v.scene hvisits c hc q hq hcq⟩

/-- A macro does not take the crossings that its points land on: after the same steps the crossing on the
apex is marked, and there are two points in one place. -/
theorem crossing_stays_on_apex :
    let given : List (Element Float) := [Point.given "A" ⟨0.0, 0.0⟩, Point.given "B" ⟨1.0, 0.0⟩]
    let circles : Marking := { ofA := some (.named "cir-1"), ofB := some (.named "cir-2") }
    let steps : List Step := [{ action := .compass "pt-A" "pt-B" },
      { action := .compass "pt-B" "pt-A" },
      { action := .call { propId := 1, inputs := ["pt-A", "pt-B"] } }, { action := .mark circles }]
    let p : Proposition Float := { id := 100, title := "", given := given, steps := steps }
    let after (k : Nat) := (performAll {} p.id p.prolongs 0 (steps.take k) (start p given)).result
    Succeeds {} p given steps 2 ∧ ∃ (u v w : Replay Float) (q q' : Point Float),
      after 2 = .ok u ∧ after 3 = .ok v ∧ after 4 = .ok w ∧
      u.scene.Gains v.scene q ∧ (∃ c ∈ v.scene.crossings, c.position.Near q.position) ∧
      v.scene.Gains w.scene q' ∧ q'.position.Near q.position ∧ q.id = "pt-C" ∧ q'.id = "pt-D" := by
  intro given circles steps p after
  have hflags : flags {} p given steps = some [true, true, true, true] := by decide +kernel
  have hsucceeds : Succeeds {} p given steps 2 := (succeeds_iff_flag hflags (by decide)).mpr rfl
  have htwo : (after 2).toOption.map (fun r => r.scene.figure.pointIds) =
      some ["pt-A", "pt-B"] := by decide +kernel
  have hthree : (after 3).toOption.map (fun r => (r.scene.figure.pointIds,
      decide (∀ q ∈ r.scene.figure.points, q.id = "pt-C" →
        ∃ c ∈ r.scene.crossings, c.position.Near q.position))) =
        some (["pt-A", "pt-B", "pt-C"], true) := by decide +kernel
  have hfour : (after 4).toOption.map (fun r => (r.scene.figure.pointIds,
      decide (∀ q ∈ r.scene.figure.points, ∀ q' ∈ r.scene.figure.points,
        q.id = "pt-C" → q'.id = "pt-D" → q'.position.Near q.position))) =
        some (["pt-A", "pt-B", "pt-C", "pt-D"], true) := by decide +kernel
  obtain ⟨u, hu, hpoints⟩ := exists_of_map_toOption_eq_some htwo
  obtain ⟨v, hv, hcrossing⟩ := exists_of_map_toOption_eq_some hthree
  obtain ⟨w, hw, hnear⟩ := exists_of_map_toOption_eq_some hfour
  obtain ⟨hids, hcrossing⟩ := Prod.mk.inj hcrossing
  obtain ⟨hids', hnear⟩ := Prod.mk.inj hnear
  have hcrossing := of_decide_eq_true hcrossing
  have hnear := of_decide_eq_true hnear
  have hmacro : u.scene.Leads {} v.scene := leads_take_succ (by decide) hu hv
  have hmarking : v.scene.Leads {} w.scene := leads_take_succ (by decide) hv hw
  obtain ⟨q, hgains, hq, hid⟩ := hmacro.exists_gains "pt-C" (by rw [hids]; decide)
    (by rw [hpoints]; decide)
  obtain ⟨q', hgains', hq', hid'⟩ := hmarking.exists_gains "pt-D" (by rw [hids']; decide)
    (by rw [hids]; decide)
  have hkept : q ∈ w.scene.figure.points := (List.IsPrefix.filterMap _ hmarking.growsTo).subset hq
  exact ⟨hsucceeds, u, v, w, q, q', hu, hv, hw, hgains, hcrossing q hq hid, hgains',
    hnear q hkept q' hq' hid hid', hid, hid'⟩

end Replay

end RulerCompass
