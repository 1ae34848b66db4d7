import RulerCompass.Proofs.Ledger.Copies
import RulerCompass.Proofs.Replay.Transcript

/-!
# Cutting a replay

Going back to an earlier step takes no new replay: what was made before a step can be cut out of the
finished replay.  Each step appends to the figure, to the facts and to the ghosts, and all that it
appends carries its number.  So the entries that carry a smaller number are those of the replay of
the steps before, and the ledger of that replay is a copy made from the facts.
-/

namespace RulerCompass.Replay

/-! ### Lists that are written step by step -/

section Within

variable {α : Type} {atStep : α → Int} {first mid stop : Int} {l m n : List α}

/-- The second list goes on from the first with entries made from step `first` on and before step
`stop`. -/
def AppendsWithin (atStep : α → Int) (first stop : Int) (l m : List α) : Prop :=
  ∃ new, m = l ++ new ∧ ∀ a ∈ new, first ≤ atStep a ∧ atStep a < stop

namespace AppendsWithin

theorem refl (l : List α) : AppendsWithin atStep first stop l l :=
  ⟨[], (List.append_nil l).symm, fun _ ha => nomatch ha⟩

theorem trans (hlm : AppendsWithin atStep first mid l m) (hmn : AppendsWithin atStep mid stop m n)
    (hfirst : first ≤ mid) (hstop : mid ≤ stop) : AppendsWithin atStep first stop l n := by
  obtain ⟨early, rfl, hearly⟩ := hlm
  obtain ⟨late, rfl, hlate⟩ := hmn
  refine ⟨early ++ late, List.append_assoc l early late, fun a ha => ?_⟩
  rcases List.mem_append.mp ha with ha | ha
  · exact ⟨(hearly a ha).1, Int.lt_of_lt_of_le (hearly a ha).2 hstop⟩
  · exact ⟨Int.le_trans hfirst (hlate a ha).1, (hlate a ha).2⟩

/-- The entries made before a step are the list as it was then. -/
theorem filter_lt (hl : AppendsWithin atStep first mid [] l)
    (hm : AppendsWithin atStep mid stop l m) : m.filter (fun a => atStep a < mid) = l := by
  obtain ⟨early, rfl, hearly⟩ := hl
  obtain ⟨late, rfl, hlate⟩ := hm
  rw [List.filter_append, List.filter_eq_self.mpr, List.filter_eq_nil_iff.mpr, List.append_nil]
  · intro a ha hlt
    exact absurd (of_decide_eq_true hlt) (Int.not_lt.mpr (hlate a ha).1)
  · intro a ha
    exact decide_eq_true (hearly a ha).2

end AppendsWithin

end Within

variable {K : Type}

theorem appendsWithin_prove (r : Replay K) (as : List Assertion) (now : Int) :
    AppendsWithin Fact.atStep now (now + 1) r.facts (r.prove as now).facts := by
  refine ⟨_, rfl, fun f hf => ?_⟩
  rw [Ledger.recordAll_atStep _ as now f hf]
  exact ⟨Int.le_refl now, Int.lt_succ now⟩

theorem prove_nil (r : Replay K) (now : Int) : r.prove [] now = r := by
  simp [prove, Ledger.recordAll]

variable [Scalar K] {style : Style} {propId : Int} {extend : Bool}

/-! ### What steps add -/

/-- The second replay goes on from the first with what is made from step `first` on and before step
`stop`. -/
structure Adds (r s : Replay K) (first stop : Int) : Prop where
  growsTo : r.scene.figure.GrowsTo s.scene.figure
  facts : AppendsWithin Fact.atStep first stop r.facts s.facts
  ghosts : AppendsWithin GhostLayer.atStep first stop r.ghosts s.ghosts

variable {r s t : Replay K}

namespace Adds

variable {first mid stop : Int}

omit [Scalar K]

theorem refl (r : Replay K) : r.Adds r first stop := ⟨.refl _, .refl _, .refl _⟩

theorem trans (hrs : r.Adds s first mid) (hst : s.Adds t mid stop) (hfirst : first ≤ mid)
    (hstop : mid ≤ stop) : r.Adds t first stop where
  growsTo := hrs.growsTo.trans hst.growsTo
  facts := hrs.facts.trans hst.facts hfirst hstop
  ghosts := hrs.ghosts.trans hst.ghosts hfirst hstop

theorem prove (r : Replay K) (as : List Assertion) (now : Int) :
    r.Adds (r.prove as now) now (now + 1) := ⟨.refl _, appendsWithin_prove r as now, .refl _⟩

end Adds

/-- One step adds entries with its own number only. -/
theorem attempt_adds {index : Nat} {a : Action} {out : Bool × Replay K}
    (h : (r.attempt style propId extend index a).result = .ok out) :
    r.Adds out.2 index (index + 1 : Nat) := by
  have hgrows := (Scene.leads_act (scene_attempt h)).growsTo
  obtain ⟨flag, r'⟩ := out
  cases attempted_of_attempt h with
  -- Facts and layers are put behind those that are there, with the index of the step.
  | segment fromId toId => exact ⟨hgrows, .refl _, .refl _⟩
  | circle centerId radiusPointId => exact ⟨hgrows, .refl _, .refl _⟩
  | marked hc hs => exact ⟨hgrows, appendsWithin_prove _ _ _, .refl _⟩
  | skipped hc => exact ⟨hgrows, .refl _, .refl _⟩
  | called hm ho hadded hlayers =>
    refine ⟨hgrows, appendsWithin_prove _ _ _, _, rfl, fun g hg => ?_⟩
    rw [Hidden.atStep_of_mem_layers hlayers g hg]
    exact ⟨Int.le_refl _, Int.lt_succ _⟩
  | refused hm ho hadded => exact .refl _
  | unnamed hm => exact .refl _

theorem perform_adds {step : Step × Nat}
    (h : (r.perform style propId extend step).result = .ok s) :
    r.Adds s step.2 (step.2 + 1 : Nat) := by
  obtain ⟨⟨succeeded, r'⟩, hout, h⟩ := Run.exists_of_bind_eq_ok h
  have hadds := attempt_adds hout
  cases succeeded with
  | true =>
    cases h
    exact ⟨hadds.growsTo, hadds.facts, hadds.ghosts⟩
  | false =>
    cases h
    exact hadds

/-- **A run of steps** adds entries with the numbers of these steps only. -/
theorem performAll_adds {first : Nat} {steps : List Step}
    (h : (performAll style propId extend first steps r).result = .ok s) :
    r.Adds s first (first + steps.length : Nat) := by
  induction steps generalizing first r with
  | nil =>
    cases h
    exact .refl _
  | cons step steps ih =>
    rw [performAll_cons] at h
    obtain ⟨u, hu, h⟩ := Run.exists_of_bind_eq_ok h
    have hlater : u.Adds s (first + 1 : Nat) (first + 1 + steps.length : Nat) := ih h
    rw [List.length_cons, Nat.add_comm steps.length, ← Nat.add_assoc]
    exact (perform_adds hu).trans hlater (by omega) (by omega)

/-! ### The cut -/

section Cut

variable (p : Proposition K) (given : List (Element K)) (steps : List Step)

variable {p given steps} in
/-- What a definition concludes has no influence on the steps. -/
theorem run_nil_without_conclusion (hgiven : (Figure.ofGiven given).Legible)
    (h : (performAll style p.id p.prolongs 0 steps (start p given)).result = .ok r) :
    (run style { p with conclusion := [] } given steps).result = .ok r := by
  rw [run_nil]
  exact throughConclusion_eq_ok_iff.mpr ⟨hgiven, r, h, r.prove_nil _⟩

omit [Scalar K] in
/-- What is given comes before the first step. -/
theorem appendsWithin_start :
    AppendsWithin Fact.atStep (-1) 0 [] (start p given).facts :=
  appendsWithin_prove { scene := { figure := Figure.ofGiven given } } p.hypotheses (-1)

variable {p given steps}

/-- A finished replay goes on from the replay of its first steps, which has made nothing at a later
step. -/
theorem adds_take {full : Replay K} (h : (run style p given steps).result = .ok full) {k : Nat}
    (hk : k ≤ steps.length) :
    ∃ part, (run style { p with conclusion := [] } given (steps.take k)).result = .ok part ∧
      AppendsWithin Fact.atStep (-1) k [] part.facts ∧
      AppendsWithin GhostLayer.atStep 0 k [] part.ghosts ∧ part.Adds full k (steps.length + 1) := by
  have htake : (steps.take k).length = k := List.length_take_of_le hk
  rw [run_nil] at h
  obtain ⟨hgiven, r, hr, rfl⟩ := throughConclusion_eq_ok_iff.mp h
  -- The run goes through the first steps and then through the others.
  rw [← List.take_append_drop k steps, performAll_append] at hr
  obtain ⟨part, hpart, hr⟩ := Run.exists_of_bind_eq_ok hr
  have hearly := performAll_adds hpart
  have hlate := performAll_adds hr
  rw [Nat.zero_add, htake] at hearly hlate
  rw [List.length_drop, Nat.add_sub_cancel' hk] at hlate
  refine ⟨part, run_nil_without_conclusion hgiven hpart, ?_, hearly.ghosts, ?_⟩
  · exact (appendsWithin_start p given).trans hearly.facts (by omega) (by omega)
  · exact hlate.trans (.prove r p.conclusion steps.length) (by omega) (by omega)

end Cut

/-- **Cutting a replay is replaying a prefix.**  A replay of known steps gives a result as far as labels
reach.  For every result and every number `k` of steps, the replay of the first `k` steps without a
conclusion gives one too.  Its elements are a prefix of those of the whole replay, its facts and ghosts are those made
before step `k`, and the ledger built anew from these facts has the same facts as its ledger and
gives the same replies to all calls. -/
theorem cut_eq_run_take (style : Style) (p : Proposition K) (given : List (Element K))
    (steps : List Step) {k : Nat} (hk : k ≤ steps.length) :
    ((∀ s ∈ steps, s.action.Known) → LabelsReach given (requests steps) 0 →
      ∃ full, (run style p given steps).result = .ok full) ∧
    ∀ full, (run style p given steps).result = .ok full →
      ∃ part, (run style { p with conclusion := [] } given (steps.take k)).result = .ok part ∧
        part.scene.figure.elements <+: full.scene.figure.elements ∧
        Fact.before k full.facts = part.facts ∧
        (full.ghosts.filter fun g => g.atStep < (k : Int)) = part.ghosts ∧
        (Ledger.ofFacts (Fact.before k full.facts)).facts = part.ledger.facts ∧
        ∀ calls, (Ledger.ofFacts (Fact.before k full.facts)).answers calls =
          part.ledger.answers calls := by
  refine ⟨fun hknown => exists_run style p [] hknown (fun _ h => nomatch h),
    fun full hfull => ?_⟩
  obtain ⟨part, hpart, hfacts, hghosts, hadds⟩ := adds_take hfull hk
  have hcut : Fact.before k full.facts = part.facts := hfacts.filter_lt hadds.facts
  -- The ledger of the part is that of its facts, which are those that have been cut out.
  have htranscript := (run_meets style _ given (steps.take k) []).2 part hpart
  have hreached := htranscript.reached
  have halike : (Ledger.ofFacts (Fact.before k full.facts)).Alike part.ledger := by
    rw [hcut, htranscript.facts_eq]
    exact hreached.ofFacts_alike
  refine ⟨part, hpart, hadds.growsTo, hcut, hghosts.filter_lt hadds.ghosts, halike.facts_eq,
    fun calls => ?_⟩
  exact Ledger.answers_eq (Ledger.reached_ofFacts _).coherent.wellFormed
    hreached.coherent.wellFormed halike calls

/-- The second proposition, cut after the triangle and the first circle. -/
theorem cut_eq_run_take_transfer :
    let p : Proposition Float := Book.Transfer.proposition
    3 ≤ p.steps.length ∧ (∀ s ∈ p.steps, s.action.Known) ∧
      ∃ full part, (run {} p p.given p.steps).result = .ok full ∧
        (run {} { p with conclusion := [] } p.given (p.steps.take 3)).result = .ok part ∧
        part.scene.figure.elements <+: full.scene.figure.elements ∧
        Fact.before 3 full.facts = part.facts ∧
        full.facts.map Fact.atStep = [1, 1, 3, 5, 6] ∧
        (full.ghosts.filter fun g => g.atStep < 3) = part.ghosts := by
  intro p
  have hk : 3 ≤ p.steps.length := by decide
  have hknown : ∀ s ∈ p.steps, s.action.Known := by decide
  obtain ⟨htotal, hcut⟩ := cut_eq_run_take {} p p.given p.steps hk
  obtain ⟨full, hfull⟩ := htotal hknown (by decide +kernel)
  obtain ⟨part, hpart, helements, hfacts, hghosts, -⟩ := hcut full hfull
  have hsteps : (run {} p p.given p.steps).result.toOption.map (fun r => r.facts.map Fact.atStep) =
      some [1, 1, 3, 5, 6] := by decide +kernel
  rw [hfull] at hsteps
  exact ⟨hk, hknown, full, part, hfull, hpart, helements, hfacts, Option.some.inj hsteps, hghosts⟩

end RulerCompass.Replay
