import RulerCompass.Proofs.Agree
import RulerCompass.Proofs.Figure.Abreast
import RulerCompass.Proofs.Replay.Faults
import RulerCompass.Proofs.Replay.Success

/-!
# Replays in lockstep

When a given point is dragged, other markings fail than before.  A step without macros moves the
counters alike whether it succeeds or not, and it draws a circle or segment in any case.  So the
figures of two replays that differ in the places of given points only stay abreast, through all steps
and extras, and what is drawn in both keeps its id, label and colour.
-/

namespace RulerCompass

variable {K : Type} {style : Style}

variable [Scalar K]

namespace Replay

variable {r r' u v : Replay K}

/-! ### One action -/

/-- Both figures are abreast. -/
def Lockstep (r r' : Replay K) : Prop := r.scene.figure.Abreast r'.scene.figure

/-- One action brings both figures on. -/
def InStep (r r' u v : Replay K) : Prop :=
  Figure.InStep r.scene.figure r'.scene.figure u.scene.figure v.scene.figure

theorem marksOrSkips_of_mark {c : Crossing K} {label? : Option String} {out : Scene K × Point K}
    (h : r.scene.mark style c label? = .ok out) :
    Figure.MarksOrSkips style label? r.scene.figure out.1.figure := by
  obtain ⟨f, hf, h⟩ := exists_of_bind_eq_ok h
  cases h
  exact .marks hf

omit [Scalar K] in
theorem marksOrSkips_of_skip {label? : Option String} {s : Scene K}
    (h : r.scene.skip label? = .ok s) :
    Figure.MarksOrSkips style label? r.scene.figure s.figure := by
  rw [Scene.eq_skipped_of_skip h]
  exact .skips

theorem marksOrSkips_of_attempt {propId : Int} {extend : Bool} {index : Nat} {m : Marking}
    {out : Bool × Replay K} (h : (r.attempt style propId extend index (.mark m)).result = .ok out) :
    Figure.MarksOrSkips style m.label r.scene.figure out.2.scene.figure := by
  obtain ⟨flag, u⟩ := out
  cases attempted_of_attempt h with
  | marked hc hs => exact marksOrSkips_of_mark hs
  | skipped hc hs => exact marksOrSkips_of_skip hs

/-- **A step without macros keeps the lockstep**, whether it succeeds in both replays, in one of them
or in none. -/
theorem inStep_attempt (h : Lockstep r r') (propId : Int) (extend : Bool) (index : Nat) {a : Action}
    (ha : ∀ c, a ≠ .call c) :
    Relates (fun out out' => InStep r r' out.2 out'.2)
      (r.attempt style propId extend index a).result
      (r'.attempt style propId extend index a).result := by
  cases a with
  | straightedge fromId toId => exact .of_ok (Figure.Abreast.addSegment h fromId toId)
  | compass centerId radiusPointId => exact .of_ok (Figure.Abreast.addCircle h centerId radiusPointId)
  | mark m =>
    -- Marked in one replay and passed over in the other, the counters still move alike.
    intro out out' hout hout'
    exact Figure.Abreast.marksOrSkips h (marksOrSkips_of_attempt hout) (marksOrSkips_of_attempt hout')
  | call c => exact absurd rfl (ha c)
  | unknown shown => exact fun _ _ hout => nomatch hout

theorem inStep_perform (h : Lockstep r r') (propId : Int) (extend : Bool) {step : Step × Nat}
    (hstep : ∀ c, step.1.action ≠ .call c) :
    Relates (InStep r r') (r.perform style propId extend step).result
      (r'.perform style propId extend step).result := by
  refine Run.relates_bind (inStep_attempt h propId extend step.2 hstep) fun out out' hout => ?_
  obtain ⟨flag, u⟩ := out
  obtain ⟨flag', v⟩ := out'
  -- The flags may differ, but they decide about the counter of steps only.
  cases flag <;> cases flag' <;> exact .of_ok hout

theorem marksOrSkips_of_performExtra {now : Int} {ofA ofB : String} {which : Int}
    (h : r.performExtra style now (.mark ofA ofB which) = .ok u) :
    Figure.MarksOrSkips style none r.scene.figure u.scene.figure := by
  rw [performExtra] at h
  split at h
  · obtain ⟨p, hp⟩ := scene_markAt h
    exact marksOrSkips_of_mark hp
  · obtain ⟨s, hs, h⟩ := exists_of_bind_eq_ok h
    cases h
    exact marksOrSkips_of_skip hs

/-- **An extra keeps the lockstep.** -/
theorem inStep_performExtra (h : Lockstep r r') (now : Int) (e : Extra) :
    Relates (InStep r r') (r.performExtra style now e) (r'.performExtra style now e) := by
  cases e with
  | circle centerId radiusPointId => exact .of_ok (Figure.Abreast.addCircle h centerId radiusPointId)
  | segment fromId toId => exact .of_ok (Figure.Abreast.addSegment h fromId toId)
  | mark ofA ofB which =>
    intro u v hu hv
    exact Figure.Abreast.marksOrSkips h (marksOrSkips_of_performExtra hu)
      (marksOrSkips_of_performExtra hv)
  | unknown shown => exact fun _ _ hu => nomatch hu

/-! ### Whole replays -/

theorem lockstep_performAll (h : Lockstep r r') (propId : Int) (extend : Bool) (first : Nat)
    {steps : List Step} (hsteps : ∀ s ∈ steps, ∀ c, s.action ≠ .call c) :
    Relates Lockstep (performAll style propId extend first steps r).result
      (performAll style propId extend first steps r').result := by
  refine Run.relates_foldlM _ (fun step hstep u v huv => ?_) h
  have hmem : step.1 ∈ steps := List.fst_mem_of_mem_zipIdx hstep
  exact (inStep_perform huv propId extend (hsteps step.1 hmem)).mono fun _ _ h => h.abreast

theorem lockstep_performExtras (h : Lockstep r r') (extend : Bool) (now : Int)
    (extras : List Extra) :
    Relates Lockstep (r.performExtras style extend now extras)
      (r'.performExtras style extend now extras) := by
  by_cases hextras : extras = []
  · subst hextras
    exact .of_ok h
  · rw [performExtras_of_ne_nil hextras, performExtras_of_ne_nil hextras]
    refine Relates.foldlM extras (fun e _ u v huv => ?_) ?_
    · exact (inStep_performExtra huv now e).mono fun _ _ h => h.abreast
    · rw [Lockstep, figure_readied, figure_readied]
      exact h

variable {given given' : List (Element K)}

omit [Scalar K] in
theorem lockstep_start (p : Proposition K) (hgiven : SameNames given given') :
    Lockstep (start p given) (start p given') := Figure.abreast_ofGiven hgiven

theorem lockstep_conclude {p : Proposition K} {steps : List Step}
    (h : Relates Lockstep (performAll style p.id p.prolongs 0 steps (start p given)).result
      (performAll style p.id p.prolongs 0 steps (start p given')).result) :
    Relates Lockstep (throughConclusion style p given steps).result
      (throughConclusion style p given' steps).result := by
  intro r r' hr hr'
  obtain ⟨-, u, hu, rfl⟩ := throughConclusion_eq_ok_iff.mp hr
  obtain ⟨-, u', hu', rfl⟩ := throughConclusion_eq_ok_iff.mp hr'
  have hconcluded := h u u' hu hu'
  exact hconcluded

theorem lockstep_finish {p : Proposition K} {steps : List Step}
    (h : Relates Lockstep (throughConclusion style p given steps).result
      (throughConclusion style p given' steps).result) (extras : List Extra) :
    Relates Lockstep (run style p given steps extras).result
      (run style p given' steps extras).result := by
  intro r r' hr hr'
  obtain ⟨u, hu, hr⟩ := exists_concluded_of_run hr
  obtain ⟨u', hu', hr'⟩ := exists_concluded_of_run hr'
  exact lockstep_performExtras (h u u' hu hu') p.prolongs steps.length extras r r' hr hr'

theorem lockstep_throughConclusion (p : Proposition K) (hgiven : SameNames given given')
    {steps : List Step} (hsteps : ∀ s ∈ steps, ∀ c, s.action ≠ .call c) :
    Relates Lockstep (throughConclusion style p given steps).result
      (throughConclusion style p given' steps).result :=
  lockstep_conclude (lockstep_performAll (lockstep_start p hgiven) p.id p.prolongs 0 hsteps)

theorem lockstep_run (p : Proposition K) (hgiven : SameNames given given') {steps : List Step}
    (hsteps : ∀ s ∈ steps, ∀ c, s.action ≠ .call c) (extras : List Extra) :
    Relates Lockstep (run style p given steps extras).result
      (run style p given' steps extras).result :=
  lockstep_finish (lockstep_throughConclusion p hgiven hsteps) extras

/-- As far as labels reach, replays on given figures with the same names fail alike. -/
theorem agree_of_lockstep {p : Proposition K} (hgiven : SameNames given given') {steps : List Step}
    {extras : List Extra} (hlabels : LabelsReach given (requests steps) extras.length)
    (h : Relates Lockstep (run style p given steps extras).result
      (run style p given' steps extras).result) :
    Agree Lockstep (run style p given steps extras).result
      (run style p given' steps extras).result := by
  refine .of_relates h fun fault => ?_
  rw [run_eq_error_iff style p hlabels, run_eq_error_iff style p (hlabels.of_sameNames hgiven)]

/-! ### What single actions draw -/

/-- From one figure to the next, the element has been drawn. -/
def Drawn (u v : Replay K) (e : Element K) : Prop :=
  ∃ es, v.scene.figure.elements = u.scene.figure.elements ++ es ∧ e ∈ es

/-- The action with this number draws the element.  Steps are counted first, then extras. -/
inductive DrawsAt (style : Style) (p : Proposition K) (given : List (Element K)) (steps : List Step)
    (extras : List Extra) : Nat → Element K → Prop
  | step {k : Nat} {u v : Replay K} {e : Element K} (hk : k < steps.length)
      (hu : (performAll style p.id p.prolongs 0 (steps.take k) (start p given)).result = .ok u)
      (hv : (performAll style p.id p.prolongs 0 (steps.take (k + 1)) (start p given)).result = .ok v)
      (he : Drawn u v e) : DrawsAt style p given steps extras k e
  | extra {k : Nat} {r u v : Replay K} {e : Element K} (hk : k < extras.length)
      (hr : (throughConclusion style p given steps).result = .ok r)
      (hu : r.performExtras style p.prolongs steps.length (extras.take k) = .ok u)
      (hv : r.performExtras style p.prolongs steps.length (extras.take (k + 1)) = .ok v)
      (he : Drawn u v e) : DrawsAt style p given steps extras (steps.length + k) e

omit [Scalar K] in
theorem unplaced_eq_of_inStep (h : InStep r r' u v) {e e' : Element K} (he : Drawn r u e)
    (he' : Drawn r' v e') : e.unplaced = e'.unplaced := by
  obtain ⟨es, hes, he⟩ := he
  obtain ⟨es', hes', he'⟩ := he'
  exact h.names es es' hes hes' e he e' he'

/-- The replay of one extra more, taken apart.  Before the first extra crossings may be searched. -/
theorem exists_searched_of_performExtras_take_succ {extend : Bool} {now : Int} {extras : List Extra}
    {k : Nat} (hk : k < extras.length)
    (hu : r.performExtras style extend now (extras.take k) = .ok u)
    (hv : r.performExtras style extend now (extras.take (k + 1)) = .ok v) :
    ∃ w : Replay K, (w = u ∨ w = u.readied extend) ∧
      w.performExtra style now extras[k] = .ok v := by
  have htake : extras.take (k + 1) = extras.take k ++ [extras[k]] := by
    rw [List.take_add_one, List.getElem?_eq_getElem hk, Option.toList_some]
  -- The last extra is done on its own, after the first ones.
  rw [htake, performExtras_of_ne_nil (List.append_ne_nil_of_right_ne_nil _ (List.cons_ne_nil _ _)),
    List.foldlM_append] at hv
  obtain ⟨w, hw, hv⟩ := exists_of_bind_eq_ok hv
  rw [List.foldlM_cons] at hv
  obtain ⟨x, hx, hv⟩ := exists_of_bind_eq_ok hv
  cases hv
  refine ⟨w, ?_, hx⟩
  -- Before the first extra the figure is searched; before the others nothing happens.
  by_cases hnone : extras.take k = []
  · rw [hnone] at hu hw
    cases hu
    cases hw
    exact Or.inr rfl
  · rw [performExtras_of_ne_nil hnone] at hu
    exact Or.inl (Except.ok.inj (hw.symm.trans hu))

/-- Searching crossings leaves the figure as it is. -/
theorem exists_of_performExtras_take_succ {extend : Bool} {now : Int} {extras : List Extra} {k : Nat}
    (hk : k < extras.length) (hu : r.performExtras style extend now (extras.take k) = .ok u)
    (hv : r.performExtras style extend now (extras.take (k + 1)) = .ok v) :
    ∃ w : Replay K, w.scene.figure = u.scene.figure ∧
      w.performExtra style now extras[k] = .ok v := by
  obtain ⟨w, hw, hextra⟩ := exists_searched_of_performExtras_take_succ hk hu hv
  refine ⟨w, ?_, hextra⟩
  rcases hw with rfl | rfl
  · rfl
  · exact u.figure_readied extend

/-- One extra more keeps the figures in step, even where crossings are searched before it. -/
theorem inStep_extra {extend : Bool} {now : Int} {extras : List Extra} (hr : Lockstep r r') {k : Nat}
    (hk : k < extras.length) {u u' v v' : Replay K}
    (hu : r.performExtras style extend now (extras.take k) = .ok u)
    (hu' : r'.performExtras style extend now (extras.take k) = .ok u')
    (hv : r.performExtras style extend now (extras.take (k + 1)) = .ok v)
    (hv' : r'.performExtras style extend now (extras.take (k + 1)) = .ok v') : InStep u u' v v' := by
  have hbefore : Lockstep u u' := lockstep_performExtras hr extend _ _ u u' hu hu'
  obtain ⟨w, hw, hextra⟩ := exists_of_performExtras_take_succ hk hu hv
  obtain ⟨w', hw', hextra'⟩ := exists_of_performExtras_take_succ hk hu' hv'
  have hsearched : Lockstep w w' := by
    rw [Lockstep, hw, hw']
    exact hbefore
  have hstays := inStep_performExtra hsearched _ extras[k] v v' hextra hextra'
  rwa [InStep, hw, hw'] at hstays

section Names

variable {p : Proposition K} (hgiven : SameNames given given') {steps : List Step}
  (hsteps : ∀ s ∈ steps, ∀ c, s.action ≠ .call c) {extras : List Extra}
include hgiven hsteps

/-- What a step draws in both replays has the same names. -/
theorem unplaced_eq_of_step {k : Nat} (hk : k < steps.length) {u u' v v' : Replay K}
    {e e' : Element K}
    (hu : (performAll style p.id p.prolongs 0 (steps.take k) (start p given)).result = .ok u)
    (hu' : (performAll style p.id p.prolongs 0 (steps.take k) (start p given')).result = .ok u')
    (hv : (performAll style p.id p.prolongs 0 (steps.take (k + 1)) (start p given)).result = .ok v)
    (hv' : (performAll style p.id p.prolongs 0 (steps.take (k + 1)) (start p given')).result = .ok v')
    (he : Drawn u v e) (he' : Drawn u' v' e') : e.unplaced = e'.unplaced := by
  have hbefore : Lockstep u u' :=
    lockstep_performAll (lockstep_start p hgiven) p.id p.prolongs 0
      (fun s hs => hsteps s (List.mem_of_mem_take hs)) u u' hu hu'
  have hget : steps[k]? = some steps[k] := List.getElem?_eq_getElem hk
  have hstep := perform_of_take_succ hget hu hv
  have hstep' := perform_of_take_succ hget hu' hv'
  have hdraws : ∀ c, steps[k].action ≠ .call c := hsteps steps[k] (List.getElem_mem hk)
  have hstays : InStep u u' v v' := inStep_perform hbefore _ _ hdraws v v' hstep hstep'
  exact unplaced_eq_of_inStep hstays he he'

theorem unplaced_eq_of_extra {k : Nat} (hk : k < extras.length) {r r' u u' v v' : Replay K}
    {e e' : Element K} (hr : (throughConclusion style p given steps).result = .ok r)
    (hr' : (throughConclusion style p given' steps).result = .ok r')
    (hu : r.performExtras style p.prolongs steps.length (extras.take k) = .ok u)
    (hu' : r'.performExtras style p.prolongs steps.length (extras.take k) = .ok u')
    (hv : r.performExtras style p.prolongs steps.length (extras.take (k + 1)) = .ok v)
    (hv' : r'.performExtras style p.prolongs steps.length (extras.take (k + 1)) = .ok v')
    (he : Drawn u v e) (he' : Drawn u' v' e') : e.unplaced = e'.unplaced := by
  have hconcluded : Lockstep r r' := lockstep_throughConclusion p hgiven hsteps r r' hr hr'
  exact unplaced_eq_of_inStep (inStep_extra hconcluded hk hu hu' hv hv') he he'

end Names

/-- **Names survive a drag.**  Let two given figures differ in the places of points only, and let no
step use a macro.  The replays of the same steps and extras then end with the same counters, circles and
segments, whichever markings fail in which replay.  As far as labels reach they have results alike, and
known steps and extras have results.  What the same step or extra draws in both replays has the same id,
label and colour. -/
theorem names_stable (style : Style) (p : Proposition K) {given given' : List (Element K)}
    (hgiven : SameNames given given') (steps : List Step)
    (hsteps : ∀ s ∈ steps, ∀ c, s.action ≠ .call c) (extras : List Extra) :
    (LabelsReach given (requests steps) extras.length →
      ((∀ s ∈ steps, s.action.Known) → (∀ e ∈ extras, e.Known) →
        ∃ r, (run style p given steps extras).result = .ok r) ∧
      Agree (fun r r' => r.scene.figure.Abreast r'.scene.figure)
        (run style p given steps extras).result (run style p given' steps extras).result) ∧
    (∀ r r', (run style p given steps extras).result = .ok r →
      (run style p given' steps extras).result = .ok r' →
        r.scene.figure.Abreast r'.scene.figure) ∧
    ∀ n e e', DrawsAt style p given steps extras n e → DrawsAt style p given' steps extras n e' →
      e.unplaced = e'.unplaced := by
  have hrun : Relates Lockstep (run style p given steps extras).result
      (run style p given' steps extras).result := lockstep_run p hgiven hsteps extras
  refine ⟨fun hlabels => ⟨fun hknown hextras => ?_, ?_⟩, hrun, ?_⟩
  · exact exists_run style p extras hknown hextras hlabels
  · exact agree_of_lockstep hgiven hlabels hrun
  · intro n e e' he he'
    -- The moment is that of a step or of an extra, and the same in both replays.
    cases he with
    | step hk hu hv hdrawn =>
      generalize hn : n = m at he'
      cases he' with
      | step hk' hu' hv' hdrawn' =>
        subst hn
        exact unplaced_eq_of_step hgiven hsteps hk hu hu' hv hv' hdrawn hdrawn'
      | extra hk' hr' hu' hv' hdrawn' => omega
    | @extra k _ _ _ _ hk hr hu hv hdrawn =>
      generalize hn : steps.length + k = m at he'
      cases he' with
      | step hk' hu' hv' hdrawn' => omega
      | extra hk' hr' hu' hv' hdrawn' =>
        obtain rfl := Nat.add_left_cancel hn
        exact unplaced_eq_of_extra hgiven hsteps hk hr hr' hu hu' hv hv' hdrawn hdrawn'

/-- What the step with this number draws. -/
def drawnIn (style : Style) (p : Proposition K) (given : List (Element K)) (steps : List Step)
    (k : Nat) : Except Fault (List (Element K)) := do
  let u ← (performAll style p.id p.prolongs 0 (steps.take k) (start p given)).result
  let v ← (performAll style p.id p.prolongs 0 (steps.take (k + 1)) (start p given)).result
  return v.scene.figure.elements.drop u.scene.figure.elements.length

theorem drawsAt_of_drawnIn {p : Proposition K} {steps : List Step} {extras : List Extra} {k : Nat}
    {es : List (Element K)} {e : Element K} (hk : k < steps.length)
    (h : drawnIn style p given steps k = .ok es) (he : e ∈ es) :
    DrawsAt style p given steps extras k e := by
  obtain ⟨u, hu, h⟩ := exists_of_bind_eq_ok h
  obtain ⟨v, hv, h⟩ := exists_of_bind_eq_ok h
  cases h
  have hstep := perform_of_take_succ (List.getElem?_eq_getElem hk) hu hv
  obtain ⟨es, hes⟩ := (Scene.leads_act (scene_perform hstep)).growsTo
  rw [← hes, List.drop_left] at he
  exact .step hk hu hv ⟨es, hes.symm, he⟩

/-- Two circles, whose crossing takes the next label, and the crossing of two given lines.  With `B` on
`A` the circles do not meet and `G` is missing, but the crossing of the lines is still called `H`. -/
theorem names_stable_without_crossing :
    let given (b : Coord Float) : List (Element Float) :=
      [Point.given "A" ⟨0.0, 0.0⟩, Point.given "B" b, Point.given "C" ⟨5.0, 0.0⟩,
        Point.given "D" ⟨7.0, 2.0⟩, Point.given "E" ⟨5.0, 2.0⟩, Point.given "F" ⟨7.0, 0.0⟩]
    let steps : List Step :=
      [{ action := .compass "pt-A" "pt-B" }, { action := .compass "pt-B" "pt-A" },
        { action := .mark { ofA := some (.named "cir-1"), ofB := some (.named "cir-2") } },
        { action := .straightedge "pt-C" "pt-D" }, { action := .straightedge "pt-E" "pt-F" },
        { action := .mark { ofA := some (.named "seg-1"), ofB := some (.named "seg-2") } }]
    let p : Proposition Float := { id := 1, title := "", given := given ⟨1.0, 0.0⟩, steps := steps }
    let apart := (run {} p (given ⟨1.0, 0.0⟩) steps).result
    let together := (run {} p (given ⟨0.0, 0.0⟩) steps).result
    let names (r : Replay Float) := (r.scene.figure.elements.map Element.id).drop 6
    SameNames (given ⟨1.0, 0.0⟩) (given ⟨0.0, 0.0⟩) ∧ (∀ s ∈ steps, ∀ c, s.action ≠ .call c) ∧
      ∃ r r', apart = .ok r ∧ together = .ok r' ∧ r.scene.figure.Abreast r'.scene.figure ∧
        names r = ["cir-1", "cir-2", "pt-G", "seg-1", "seg-2", "pt-H"] ∧
        names r' = ["cir-1", "cir-2", "seg-1", "seg-2", "pt-H"] ∧
        ∃ e e', DrawsAt {} p (given ⟨1.0, 0.0⟩) steps [] 5 e ∧
          DrawsAt {} p (given ⟨0.0, 0.0⟩) steps [] 5 e' ∧ e.id = "pt-H" ∧
          e.unplaced = e'.unplaced := by
  intro given steps p apart together names
  have hgiven : SameNames (given ⟨1.0, 0.0⟩) (given ⟨0.0, 0.0⟩) := rfl
  have hsteps : ∀ s ∈ steps, ∀ c, s.action ≠ .call c := by
    simp [steps]
  obtain ⟨hreach, -, hstable⟩ := names_stable {} p hgiven steps hsteps []
  obtain ⟨-, hagree⟩ := hreach (by decide +kernel)
  have hapart : apart.toOption.map names =
      some ["cir-1", "cir-2", "pt-G", "seg-1", "seg-2", "pt-H"] := by decide +kernel
  have htogether : together.toOption.map names =
      some ["cir-1", "cir-2", "seg-1", "seg-2", "pt-H"] := by decide +kernel
  obtain ⟨r, hr, hnames⟩ := exists_of_map_toOption_eq_some hapart
  obtain ⟨r', hr', hnames'⟩ := exists_of_map_toOption_eq_some htogether
  have hlast : (drawnIn {} p (given ⟨1.0, 0.0⟩) steps 5).toOption.map (List.map Element.id) =
      some ["pt-H"] := by decide +kernel
  have hlast' : (drawnIn {} p (given ⟨0.0, 0.0⟩) steps 5).toOption.map (List.map Element.id) =
      some ["pt-H"] := by decide +kernel
  obtain ⟨es, hes, hids⟩ := exists_of_map_toOption_eq_some hlast
  obtain ⟨es', hes', hids'⟩ := exists_of_map_toOption_eq_some hlast'
  obtain ⟨e, rfl, hid⟩ := List.map_eq_singleton_iff.mp hids
  obtain ⟨e', rfl, -⟩ := List.map_eq_singleton_iff.mp hids'
  have he : DrawsAt {} p (given ⟨1.0, 0.0⟩) steps [] 5 e :=
    drawsAt_of_drawnIn (by decide) hes (List.mem_singleton_self e)
  have he' : DrawsAt {} p (given ⟨0.0, 0.0⟩) steps [] 5 e' :=
    drawsAt_of_drawnIn (by decide) hes' (List.mem_singleton_self e')
  exact ⟨hgiven, hsteps, r, r', hr, hr', hagree.rel hr hr', hnames, hnames', e, e', he, he', hid,
    hstable 5 e e' he he'⟩

end Replay

end RulerCompass
