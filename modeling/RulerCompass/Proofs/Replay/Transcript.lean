import RulerCompass.Proofs.Ghost.Layers
import RulerCompass.Proofs.Ledger.Batch
import RulerCompass.Proofs.Ledger.Coherent
import RulerCompass.Proofs.Replay.Scenes

/-!
# The transcript of a replay

A replay collects its facts from several sources: what is given, the crossings that are marked, the
macros, the conclusion and the extras.  `Transcript` says that the collected facts are those of the
ledger at all times, in the order of their steps.  Every source enters with `prove`, so a replay
keeps it, and no replay of known steps and extras fails while there are labels for its points.
-/

namespace RulerCompass.Replay

variable {K : Type} [Scalar K] (style : Style) {r : Replay K} {now : Int}

/-- What a replay has written down up to a step: the facts of its ledger, in order. -/
structure Transcript (r : Replay K) (now : Int) : Prop where
  counter : 0 ≤ r.scene.figure.nextLabel
  reached : r.ledger.Reached
  facts_eq : r.facts = r.ledger.facts
  sorted : r.facts.Pairwise fun f g => f.atStep ≤ g.atStep
  bounds : ∀ f ∈ r.facts, -1 ≤ f.atStep ∧ f.atStep ≤ now

namespace Transcript

omit [Scalar K]

theorem later (h : Transcript r now) {k : Int} (hk : now ≤ k) : Transcript r k :=
  { h with bounds := fun f hf => ⟨(h.bounds f hf).1, Int.le_trans (h.bounds f hf).2 hk⟩ }

theorem draw (h : Transcript r now) {s : Scene K}
    (hs : r.scene.figure.nextLabel ≤ s.figure.nextLabel) :
    Transcript { r with scene := s } now :=
  { h with counter := Int.le_trans h.counter hs }

theorem overlay (h : Transcript r now) (layers : List (GhostLayer K)) :
    Transcript { r with ghosts := layers } now := { h with }

theorem complete (h : Transcript r now) (n : Nat) : Transcript { r with completed := n } now :=
  { h with }

/-- What is proved now comes after all that is written down. -/
theorem prove (h : Transcript r now) (as : List Assertion) (hnow : -1 ≤ now) :
    Transcript (r.prove as now) now where
  counter := h.counter
  reached := h.reached.recordAll as now
  facts_eq := by
    have hfacts : r.facts ++ (r.ledger.recordAll as now).1 = (r.ledger.recordAll as now).2.facts := by
      rw [Ledger.recordAll_facts, h.facts_eq]
    exact hfacts
  sorted := by
    refine List.pairwise_append.mpr ⟨h.sorted, ?_, fun f hf g hg => ?_⟩
    · -- All new facts are of the present, and the earlier ones are of it at the latest.
      refine List.pairwise_of_forall_mem_list fun f hf g hg => ?_
      rw [Ledger.recordAll_atStep _ as now f hf, Ledger.recordAll_atStep _ as now g hg]
    · rw [Ledger.recordAll_atStep _ as now g hg]
      exact (h.bounds f hf).2
  bounds f hf := by
    rcases List.mem_append.mp hf with hf | hf
    · exact h.bounds f hf
    · rw [Ledger.recordAll_atStep _ as now f hf]
      exact ⟨hnow, Int.le_refl now⟩

end Transcript

omit [Scalar K] in
/-- At the start what is given has been written down. -/
theorem transcript_start (p : Proposition K) (given : List (Element K)) :
    Transcript (start p given) (-1) := by
  have hempty : Transcript ({ scene := { figure := Figure.ofGiven given } } : Replay K) (-1) :=
    { counter := Figure.ofGiven_nextLabel_nonneg given
      reached := Ledger.reached_empty
      facts_eq := rfl
      sorted := List.Pairwise.nil
      bounds := fun f hf => nomatch hf }
  exact hempty.prove p.hypotheses (Int.le_refl _)

/-! ### Steps -/

theorem markAt_meets (h : Transcript r now) (hnow : -1 ≤ now) (c : Crossing K)
    (label? : Option String) :
    Meets (r.scene.figure.HasLabel label?) (r.markAt style c label? now) fun r' =>
      Transcript r' now := by
  refine (r.scene.mark_meets style c label?).bind fun s hs => meets_ok ((h.draw ?_).prove _ hnow)
  rw [hs]
  exact Label.le_advanced _ label?

/-- One step fails for an unknown action or for want of a label only, and writes down what it proves. -/
theorem attempt_meets (propId : Int) (extend : Bool) {index : Nat} (h : Transcript r index)
    (a : Action) :
    Meets (a.Known ∧ r.scene.figure.Room a.request.count a.request.label?)
      (r.attempt style propId extend index a).result fun out => Transcript out.2 index := by
  cases a with
  | straightedge fromId toId =>
    have hnext := r.scene.drawSegment_nextLabel style extend fromId toId
    exact meets_ok (h.draw (Int.le_of_eq hnext.symm))
  | compass centerId radiusPointId =>
    have hnext := r.scene.drawCircle_nextLabel style extend centerId radiusPointId
    exact meets_ok (h.draw (Int.le_of_eq hnext.symm))
  | mark m =>
    have hmatch := Crossing.match?_meets r.scene.figure m r.scene.crossings
    refine Run.meets_bind (hmatch.imp And.left) fun c? _ => ?_
    -- Passed over or marked, the counter does not go back.
    cases c? with
    | none =>
      refine Run.meets_bind meets_ok_true fun _ _ => ?_
      refine Run.meets_bind ((r.scene.skip_meets m.label).imp fun hk => hk.2.readable) fun s hs => ?_
      rw [hs]
      exact meets_ok (h.draw (r.scene.le_skipped_nextLabel m.label))
    | some c =>
      have hmark := markAt_meets style h (by omega) c m.label
      refine Run.meets_bind (hmark.imp fun hk => hk.2.hasLabel Nat.one_pos) fun r' hr' => ?_
      exact meets_ok hr'
  | call c =>
    rw [attempt]
    split
    · exact meets_ok h
    · rename_i m hm
      have hrun := m.execute_meets style r.scene extend c.outputLabels c.inputs
      rw [Action.request_call hm]
      refine Run.meets_bind (hrun.imp And.right) fun outcome ho => ?_
      split
      · exact meets_ok h
      · -- Layers are shown after the facts, and neither moves the counter.
        refine Run.meets_bind (.of_ok fun _ => Hidden.layers_ok style _ _ _ _ _) fun layers _ => ?_
        exact meets_ok (((h.draw ho.nextLabel_le).prove _ (by omega)).overlay _)
  | unknown shown => exact meets_error And.left

theorem perform_meets (propId : Int) (extend : Bool) (step : Step × Nat)
    (h : Transcript r step.2) :
    Meets (step.1.action.Known ∧
        r.scene.figure.Room step.1.action.request.count step.1.action.request.label?)
      (r.perform style propId extend step).result fun r' => Transcript r' step.2 := by
  refine Run.meets_bind (attempt_meets style propId extend h step.1.action) fun out hout => ?_
  obtain ⟨succeeded, r'⟩ := out
  cases succeeded with
  | true => exact meets_ok (hout.complete _)
  | false => exact meets_ok hout

/-- **A run of steps.**  Each step is later than all that is written down before it, and the labels last
as far as the bound that has been read off the steps. -/
theorem performAll_meets (propId : Int) (extend : Bool) (steps : List Step) (more : Nat) {first : Nat}
    (h : Transcript r first) {top : Nat} (htop : r.scene.figure.nextLabel ≤ top) :
    Meets ((∀ s ∈ steps, s.action.Known) ∧ LabelsSuffice top (requests steps) more)
      (performAll style propId extend first steps r).result fun r' =>
        Transcript r' (first + steps.length : Nat) ∧
          r'.scene.figure.nextLabel ≤ ceilings top (requests steps) := by
  induction steps generalizing first r top with
  | nil => exact meets_ok ⟨h, htop⟩
  | cons s steps ih =>
    have hstep := (perform_meets style propId extend (s, first) h).with_eq
    rw [performAll_cons]
    refine Run.meets_bind (hstep.imp fun hk => ?_) fun r' ⟨hperform, hr'⟩ => ?_
    · exact ⟨hk.1 s List.mem_cons_self, hk.2.room h.counter htop⟩
    · have hlater : Transcript r' (first + 1 : Nat) := hr'.later (by omega)
      -- The bound moves on with what the step asks for.
      have hrest := ih hlater (Scene.nextLabel_act_le (scene_perform hperform) h.counter htop)
      rw [List.length_cons, Nat.add_comm steps.length, ← Nat.add_assoc]
      exact hrest.imp fun hk => ⟨fun t ht => hk.1 t (List.mem_cons_of_mem s ht), hk.2.rest⟩

theorem Transcript.performAll {style : Style} {propId : Int} {extend : Bool} {first : Nat}
    {steps : List Step} {r' : Replay K} (h : Transcript r first)
    (hr' : (performAll style propId extend first steps r).result = .ok r') :
    Transcript r' (first + steps.length : Nat) :=
  ((performAll_meets style propId extend steps 0 h (Int.self_le_toNat _)).2 r' hr').1

/-! ### Extras -/

/-- An extra makes one point at most, under an automatic label. -/
theorem performExtra_meets (h : Transcript r now) (hnow : -1 ≤ now) (e : Extra) :
    Meets (e.Known ∧ r.scene.figure.Room 1 none) (r.performExtra style now e) fun r' =>
      Transcript r' now := by
  cases e with
  | circle centerId radiusPointId =>
    have hnext := r.scene.drawCircle_nextLabel style true centerId radiusPointId
    exact meets_ok (h.draw (Int.le_of_eq hnext.symm))
  | segment fromId toId =>
    have hnext := r.scene.drawSegment_nextLabel style true fromId toId
    exact meets_ok (h.draw (Int.le_of_eq hnext.symm))
  | mark ofA ofB which =>
    rw [performExtra]
    split
    · exact (markAt_meets style h hnow _ none).imp fun hk => hk.2.hasLabel Nat.one_pos
    · have hnone : ∀ label ∈ (none : Option String), Label.Readable label := by rintro _ ⟨⟩
      refine ((r.scene.skip_meets none).imp fun _ => hnone).bind fun s hs => ?_
      rw [hs]
      exact meets_ok (h.draw (r.scene.le_skipped_nextLabel none))
  | unknown shown => exact meets_error And.left

theorem nextLabel_performExtra_le {r' : Replay K} {e : Extra}
    (h : r.performExtra style now e = .ok r') :
    r'.scene.figure.nextLabel ≤ r.scene.figure.nextLabel + 1 := by
  have hone : ∀ i : Int, i ≤ i + 1 := fun i => Int.le_add_of_nonneg_right Int.one_nonneg
  cases e with
  | circle centerId radiusPointId =>
    cases h
    exact hone _
  | segment fromId toId =>
    cases h
    exact hone _
  | mark ofA ofB which =>
    rw [performExtra] at h
    split at h
    · obtain ⟨p, hp⟩ := scene_markAt h
      exact Int.le_of_eq ((r.scene.mark_meets style _ none).2 _ hp)
    · obtain ⟨s, hs, h⟩ := exists_of_bind_eq_ok h
      cases h
      rw [Scene.eq_skipped_of_skip hs]
      exact Int.le_refl _
  | unknown shown => cases h

theorem Transcript.readied (h : Transcript r now) (extend : Bool) :
    Transcript (r.readied extend) now :=
  readied_keeps (I := fun r => Transcript r now)
    (fun _ h => h.draw (by rw [Scene.searchAll_figure])) h

/-- Known extras can all be performed, in their order, while there is a label for each. -/
theorem foldExtras_meets (hnow : -1 ≤ now) (extras : List Extra) (h : Transcript r now) {top : Nat}
    (htop : r.scene.figure.nextLabel ≤ top) :
    Meets ((∀ e ∈ extras, e.Known) ∧ top + extras.length ≤ Label.capacity)
      (extras.foldlM (performExtra style now) r) fun r' => Transcript r' now := by
  induction extras generalizing r top with
  | nil => exact meets_ok h
  | cons e extras ih =>
    rw [List.foldlM_cons, List.length_cons]
    have hfirst := (performExtra_meets style h hnow e).with_eq
    refine (hfirst.imp fun hk => ?_).bind fun r' ⟨hr, hr'⟩ => ?_
    · exact ⟨hk.1 e List.mem_cons_self, h.counter, by omega, fun label hlabel => nomatch hlabel⟩
    · have hnext := nextLabel_performExtra_le style hr
      have htop' : r'.scene.figure.nextLabel ≤ (top + 1 : Nat) := by omega
      have hrest := ih hr' htop'
      exact hrest.imp fun hk => ⟨fun d hd => hk.1 d (List.mem_cons_of_mem e hd), by omega⟩

theorem performExtras_meets (h : Transcript r now) (hnow : -1 ≤ now) (extend : Bool)
    (extras : List Extra) {top : Nat} (htop : r.scene.figure.nextLabel ≤ top) :
    Meets ((∀ e ∈ extras, e.Known) ∧ top + extras.length ≤ Label.capacity)
      (r.performExtras style extend now extras) fun r' => Transcript r' now := by
  by_cases hextras : extras = []
  · subst hextras
    exact meets_ok h
  · rw [performExtras_of_ne_nil hextras]
    refine foldExtras_meets style hnow extras (h.readied extend) ?_
    rw [figure_readied]
    exact htop

/-! ### The whole replay -/

theorem throughConclusion_meets (p : Proposition K) (given : List (Element K))
    (steps : List Step) (more : Nat) :
    Meets ((∀ s ∈ steps, s.action.Known) ∧ LabelsReach given (requests steps) more)
      (throughConclusion style p given steps).result fun r => Transcript r steps.length ∧
        r.scene.figure.nextLabel ≤
          ceilings (Figure.ofGiven given).nextLabel.toNat (requests steps) := by
  have hstart := (transcript_start p given).later (k := (0 : Nat)) (by omega)
  have hsteps := performAll_meets style p.id p.prolongs steps more hstart (Int.self_le_toNat _)
  refine Run.meets_bind ((Figure.readLabels_meets given).imp fun hk => hk.2.legible) fun _ _ => ?_
  refine Run.meets_bind (hsteps.imp fun hk => ⟨hk.1, hk.2.suffice⟩) fun r ⟨hr, htop⟩ => ?_
  rw [Nat.zero_add] at hr
  exact meets_ok ⟨hr.prove _ (by omega), htop⟩

theorem run_meets (p : Proposition K) (given : List (Element K)) (steps : List Step)
    (extras : List Extra) :
    Meets ((∀ s ∈ steps, s.action.Known) ∧ (∀ e ∈ extras, e.Known) ∧
        LabelsReach given (requests steps) extras.length)
      (run style p given steps extras).result fun r => Transcript r steps.length := by
  have hsteps := throughConclusion_meets style p given steps extras.length
  refine Run.meets_bind (hsteps.imp fun hk => ⟨hk.1, hk.2.2⟩) fun r ⟨hr, htop⟩ => ?_
  have hextras := performExtras_meets style hr (by omega) p.prolongs extras htop
  refine Run.meets_bind (hextras.imp fun hk => ⟨hk.2.1, hk.2.2.suffice.capacity⟩) fun r' hr' => ?_
  exact meets_ok hr'

/-- A replay of known steps and extras gives a result when its labels reach. -/
theorem exists_run (p : Proposition K) {given : List (Element K)} {steps : List Step}
    (extras : List Extra) (hsteps : ∀ s ∈ steps, s.action.Known) (hextras : ∀ e ∈ extras, e.Known)
    (hlabels : LabelsReach given (requests steps) extras.length) :
    ∃ r, (run style p given steps extras).result = .ok r :=
  (run_meets style p given steps extras).1 ⟨hsteps, hextras, hlabels⟩

/-- **The transcript is the ledger.**  A replay of known steps and extras gives a result as far as labels
reach.  The facts of every result are those of its ledger, numbered from one on and in the order of
their steps, which lie between that of what is given and the number of steps.  So the facts before any
step are a prefix.  A macro that is passed over, since it added nothing, has proved nothing. -/
theorem transcript_eq_ledger (p : Proposition K) (given : List (Element K)) (steps : List Step)
    (extras : List Extra) :
    ((∀ s ∈ steps, s.action.Known) → (∀ e ∈ extras, e.Known) →
      LabelsReach given (requests steps) extras.length →
        ∃ r, (run style p given steps extras).result = .ok r) ∧
    (∀ r, (run style p given steps extras).result = .ok r →
      r.facts = r.ledger.facts ∧
      (∀ i (h : i < r.facts.length), r.facts[i].id = i + 1) ∧
      (r.facts.Pairwise fun f g => f.atStep ≤ g.atStep) ∧
      (∀ f ∈ r.facts, -1 ≤ f.atStep ∧ f.atStep ≤ steps.length) ∧
      ∀ k, Fact.before k r.facts <+: r.facts) ∧
    ∀ (m : Macro) (s : Scene K) (extend : Bool) (labels : Macro.OutputLabels)
      (inputs : List String) (o : Macro.Outcome K),
      (m.execute style s extend labels inputs).result = .ok o → o.added = [] →
        o.assertions = [] := by
  have hrun := run_meets style p given steps extras
  refine ⟨exists_run style p extras, fun r hr => ?_, ?_⟩
  · have h := hrun.2 r hr
    refine ⟨h.facts_eq, fun i hi => ?_, h.sorted, h.bounds, fun k => Fact.before_prefix k h.sorted⟩
    have hnumbered := h.reached.coherent.numbered
    simp only [← h.facts_eq] at hnumbered
    exact hnumbered i hi
  · intro m s extend labels inputs o ho
    exact ((m.execute_meets style s extend labels inputs).2 o ho).assertions_eq_nil

/-- The transcript of the first proposition, and a macro that lacks an input. -/
theorem transcript_eq_ledger_triangle :
    let p : Proposition Float := Book.Triangle.proposition
    let result := (run {} p p.given p.steps).result
    let refused := (Macro.triangle.execute {} ({} : Scene Float) false none ["pt-A"]).result
    ((∀ s ∈ p.steps, s.action.Known) ∧ ∃ r, result = .ok r ∧ r.facts = r.ledger.facts ∧
      r.facts.map Fact.id = [1, 2] ∧ r.facts.map Fact.atStep = [2, 2]) ∧
    ∃ o, refused = .ok o ∧ o.added = [] ∧ o.assertions = [] := by
  intro p result refused
  obtain ⟨htotal, hfacts, hmacro⟩ := transcript_eq_ledger {} p p.given p.steps []
  have hknown : ∀ s ∈ p.steps, s.action.Known := by decide
  obtain ⟨r, hr⟩ := htotal hknown (fun _ h => nomatch h) (by decide +kernel)
  have hdoubles : result.toOption.map (fun r => (r.facts.map Fact.id, r.facts.map Fact.atStep)) =
      some ([1, 2], [2, 2]) := by decide +kernel
  have hresult : result = .ok r := hr
  rw [hresult] at hdoubles
  obtain ⟨hids, hsteps⟩ := Prod.mk.inj (Option.some.inj hdoubles)
  refine ⟨⟨hknown, r, hr, (hfacts r hr).1, hids, hsteps⟩, .unchanged {}, rfl, rfl, ?_⟩
  exact hmacro .triangle {} false none ["pt-A"] _ rfl rfl

end RulerCompass.Replay
