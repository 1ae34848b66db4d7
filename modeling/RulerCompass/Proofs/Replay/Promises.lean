import RulerCompass.Proofs.Crossing.Marking
import RulerCompass.Proofs.Figure.Tidy
import RulerCompass.Proofs.Ledger.Known
import RulerCompass.Proofs.Macro.Promises
import RulerCompass.Proofs.Replay.Success

/-!
# What steps promise

The text of a step tells which point it makes and which distances are equal then.  A step that
succeeds keeps this promise, whatever the positions are, and what it has made and proved stays when
later steps follow.  So a replay all of whose steps succeed knows all that its text promises.
-/

namespace RulerCompass

/-! ### Promises -/

/-- A point marked on a circle that is named by its points has the distance of the rim. -/
def Selector.promises : Selector → String → List Equation
  | .circle center rim, made => [.distances (.between center made) (.between center rim)]
  | _, _ => []

namespace Action

/-- The id of the point that an action makes under an explicit label. -/
def made? : Action → Option String
  | .mark m => m.label.map pointId
  | .call c => do
    let m ← Macro.ofProp? c.propId
    (MacroCall.outputLabel? c.outputLabels m.resultName).map pointId
  | _ => none

/-- The distances that an action makes equal when it makes this point. -/
def promises : Action → String → List Equation
  | .mark m, made => (m.ofA.toList ++ m.ofB.toList).flatMap fun s => s.promises made
  | .call c, made => (Macro.ofProp? c.propId).toList.flatMap fun m => m.promises c.inputs made
  | _, _ => []

end Action

/-- What is given as equal, and what the steps promise. -/
def Proposition.promised {K : Type} (p : Proposition K) (steps : List Step) : List Equation :=
  p.hypotheses.map Assertion.equation ++
    steps.flatMap fun s => s.action.made?.toList.flatMap s.action.promises

namespace Replay

variable {K : Type} [Scalar K] {style : Style} {propId : Int} {extend : Bool} {r r' : Replay K}

/-! ### One step -/

/-- The replay has the point and knows the equations of an action. -/
structure Keeps (r : Replay K) (a : Action) (made : String) : Prop where
  there : (r.scene.figure.point? made).isSome
  known : ∀ e ∈ a.promises made, r.ledger.Equates e.left e.right

omit [Scalar K] in
theorem equates_prove (hr : r.ledger.Reached) {as : List Assertion} {atStep : Int} {e : Equation}
    (he : e ∈ as.map Assertion.equation) :
    (r.prove as atStep).ledger.Equates e.left e.right := by
  obtain ⟨a, ha, rfl⟩ := List.mem_map.mp he
  exact hr.equates_recordAll atStep ha

/-- **A step that succeeds keeps its promise.** -/
theorem keeps_of_attempt {index : Nat} {a : Action} {made : String} (hr : r.ledger.Reached)
    (htidy : r.scene.figure.Tidy) (hmade : a.made? = some made)
    (h : (r.attempt style propId extend index a).result = .ok (true, r')) : r'.Keeps a made := by
  cases attempted_of_attempt h with
  | segment fromId toId => cases hmade
  | circle centerId radiusPointId => cases hmade
  | @marked m c s point hc hs =>
    obtain ⟨label, hlabel, rfl⟩ := Option.map_eq_some_iff.mp hmade
    obtain ⟨p, hp, hs⟩ := exists_of_bind_eq_ok hs
    cases hs
    have hthere := Figure.isSome_point?_drawn style _ hp
    have htidy' : p.1.Tidy := htidy.addPoint hp
    -- A point leaves the circles as they are.
    have hsame : p.1.circles = r.scene.figure.circles := by
      simp [Figure.circles, Figure.addPoint_elements style _ hp, Element.circle?]
    have hid : p.2.id = pointId label := Figure.id_of_addPoint hp hlabel
    constructor
    · rw [← hid]
      exact hthere
    · intro e he
      obtain ⟨selector, hselector, he⟩ := List.mem_flatMap.mp he
      obtain ⟨id, hparent, hresolve⟩ := (Crossing.offered_of_match? hc).resolves selector hselector
      cases selector with
      | circle center rim =>
        obtain rfl := List.mem_singleton.mp he
        obtain ⟨d, hd, rfl⟩ := Option.map_eq_some_iff.mp (Except.ok.inj hresolve)
        -- The circle the selector describes is the one found by its id.
        have hpoints : d.centerId = center ∧ d.radiusPointId = rim := by
          simpa using List.find?_some hd
        have hfound : p.1.circle? d.id = some d := by
          refine htidy'.circle?_eq_some ?_
          rw [hsame]
          exact List.mem_of_find?_eq_some hd
        refine equates_prove (r := { r with scene := _ }) hr ?_
        refine Crossing.mem_radiusAssertions_iff.mpr ⟨d.id, hparent, d, hfound, ?_⟩
        rw [Crossing.radiusEquation, hpoints.1, hpoints.2, hid]
      | named name => cases he
      | segment fromId toId => cases he
      | unknown shown => cases he
  | @called c m o layers hm ho hadded hlayers =>
    obtain ⟨m', hm', hmade⟩ := Option.bind_eq_some_iff.mp hmade
    obtain rfl : m = m' := Option.some.inj (hm.symm.trans hm')
    obtain ⟨label, hlabel, rfl⟩ := Option.map_eq_some_iff.mp hmade
    rcases Macro.eq_unchanged_or_runs ho with rfl | hruns
    · exact absurd rfl hadded
    · have hmakes := hruns.makes hadded hlabel
      refine ⟨hmakes.there, fun e he => ?_⟩
      obtain ⟨m', hm', he⟩ := List.mem_flatMap.mp he
      -- The macro has promised its own equations.
      obtain rfl : m = m' := Option.some.inj (hm.symm.trans (Option.mem_toList.mp hm'))
      exact equates_prove (r := { r with scene := o.scene }) hr (hmakes.asserted e he)

/-! ### All steps -/

theorem equations_subset_performAll {first : Nat} {steps : List Step} (hr : Transcript r first)
    (h : (performAll style propId extend first steps r).result = .ok r') :
    r.ledger.equations ⊆ r'.ledger.equations := by
  have hr' := hr.performAll h
  obtain ⟨new, hnew, -⟩ := (performAll_adds h).facts
  rw [Ledger.equations, Ledger.equations, ← hr.facts_eq, ← hr'.facts_eq, hnew, List.map_append]
  exact List.subset_append_left _ _

theorem Keeps.performAll {first : Nat} {steps : List Step} {a : Action} {made : String}
    (hkeeps : r.Keeps a made) (hr : Transcript r first)
    (h : (performAll style propId extend first steps r).result = .ok r') : r'.Keeps a made := by
  have hr' := hr.performAll h
  have hgrows := (leads_performAll h).growsTo
  constructor
  · exact hgrows.isSome_point? hkeeps.there
  · intro e he
    exact (hkeeps.known e he).mono hr.reached hr'.reached (equations_subset_performAll hr h)

section Steps

variable {p : Proposition K} {given : List (Element K)} {steps : List Step}

/-- A step that succeeds has kept its promise at the end. -/
theorem keeps_of_succeeds (hgiven : (Figure.ofGiven given).Tidy)
    (h : (performAll style p.id p.prolongs 0 steps (start p given)).result = .ok r) {k : Nat}
    {step : Step} {made : String} (hk : Succeeds style p given steps k)
    (hstep : steps[k]? = some step) (hmade : step.action.made? = some made) :
    r.Keeps step.action made := by
  obtain ⟨hlt, -⟩ := List.getElem?_eq_some_iff.mp hstep
  have hstart : Transcript (start p given) (0 : Nat) := (transcript_start p given).later (by omega)
  rw [← steps.take_append_drop (k + 1), performAll_append] at h
  obtain ⟨v, hv, hrest⟩ := Run.exists_of_bind_eq_ok h
  have htranscript := hstart.performAll hv
  obtain ⟨u, hu, hperform⟩ := exists_of_performAll_take_succ hstep hv
  have hu' := hstart.performAll hu
  have htidy : u.scene.figure.Tidy := (leads_performAll hu).tidy hgiven
  -- The flag of the step is set, since there is one replay of the steps before it only.
  obtain ⟨⟨flag, w⟩, hout, hperform⟩ := Run.exists_of_bind_eq_ok hperform
  obtain ⟨u', step', hu'', hstep', hperforms⟩ := hk
  obtain rfl : u = u' := Except.ok.inj (hu.symm.trans hu'')
  obtain rfl : step = step' := Option.some.inj (hstep.symm.trans hstep')
  obtain rfl : flag = true := (flag_attempt hout).mpr hperforms
  have hkeeps : w.Keeps step.action made := keeps_of_attempt hu'.reached htidy hmade hout
  have hkeeps' : v.Keeps step.action made := by
    cases hperform
    exact ⟨hkeeps.there, hkeeps.known⟩
  exact hkeeps'.performAll htranscript hrest

/-- **A complete replay knows what is promised.**  When every step succeeds, the ledger before the
conclusion has all equations of the hypotheses and of the steps. -/
theorem equates_of_complete (hgiven : (Figure.ofGiven given).Tidy)
    (hcomplete : Complete style p given steps)
    (h : (performAll style p.id p.prolongs 0 steps (start p given)).result = .ok r)
    {e : Equation} (he : e ∈ p.promised steps) : r.ledger.Equates e.left e.right := by
  have hstart : Transcript (start p given) (0 : Nat) := (transcript_start p given).later (by omega)
  have htranscript := hstart.performAll h
  rcases List.mem_append.mp he with he | he
  · -- Given equations are known from the start and never forgotten.
    have hknown : (start p given).ledger.Equates e.left e.right :=
      equates_prove (r := { scene := { figure := Figure.ofGiven given } }) Ledger.reached_empty he
    exact hknown.mono hstart.reached htranscript.reached (equations_subset_performAll hstart h)
  · -- The others are promised by some step, which has succeeded.
    obtain ⟨step, hstep, he⟩ := List.mem_flatMap.mp he
    obtain ⟨made, hmade, he⟩ := List.mem_flatMap.mp he
    obtain ⟨k, hk, rfl⟩ := List.getElem_of_mem hstep
    have hkeeps := keeps_of_succeeds hgiven h (hcomplete k hk) (List.getElem?_eq_getElem hk)
      (Option.mem_toList.mp hmade)
    exact hkeeps.known e he

end Steps

end Replay

end RulerCompass
