import RulerCompass.Book.Transfer
import RulerCompass.Proofs.Replay.Transcript

/-!
# How parents are written

A marking names the two parents of a crossing, and a segment may be named by its two ends.  Both pairs
can be written either way round.  `Turned` relates what differs in this respect only; the relation goes
through the choice of a crossing, one step and the list of steps to the whole replay.
-/

namespace RulerCompass

/-! ### Turning -/

/-- The same description, but for the order of the ends of a segment. -/
inductive Selector.Turned : Selector → Selector → Prop
  | refl (s : Selector) : Turned s s
  | ends (p q : String) : Turned (.segment p q) (.segment q p)

/-- The same two descriptions in either order, with what else a marking says. -/
structure Marking.Turned (m m' : Marking) : Prop where
  parents : (Option.Rel Selector.Turned m.ofA m'.ofA ∧ Option.Rel Selector.Turned m.ofB m'.ofB) ∨
    (Option.Rel Selector.Turned m.ofA m'.ofB ∧ Option.Rel Selector.Turned m.ofB m'.ofA)
  beyondId : m.beyondId = m'.beyondId
  label : m.label = m'.label

/-- The same action, but for the order in which a marking names the parents. -/
inductive Action.Turned : Action → Action → Prop
  | refl (a : Action) : Turned a a
  | mark {m m' : Marking} (h : m.Turned m') : Turned (.mark m) (.mark m')

/-- The same extra, but for the order in which a marking names the parents. -/
inductive Extra.Turned : Extra → Extra → Prop
  | refl (e : Extra) : Turned e e
  | mark (ofA ofB : String) (which : Int) : Turned (.mark ofA ofB which) (.mark ofB ofA which)

/-- The selectors of the action describe elements, if it has selectors. -/
def Action.SelectorsKnown (a : Action) : Prop := ∀ m, a = .mark m → m.Known

theorem Segment.joins_comm (s : Segment) (p q : String) : s.Joins p q ↔ s.Joins q p := Or.comm

theorem Crossing.joins_comm {K : Type} (c : Crossing K) (a b : String) :
    c.Joins a b ↔ c.Joins b a := Or.comm

variable {K : Type}

/-! ### Resolving selectors -/

namespace Selector

variable (f : Figure K)

theorem Turned.resolve_eq {s t : Selector} (h : s.Turned t) : s.resolve f = t.resolve f := by
  cases h with
  | refl s => rfl
  | ends p q => simp only [resolve, Segment.joins_comm _ p q]

theorem resolveOption_eq {s t : Option Selector} (h : Option.Rel Turned s t) :
    resolveOption f s = resolveOption f t := by
  cases h with
  | none => rfl
  | some h => exact h.resolve_eq f

theorem isNone_eq {s t : Option Selector} (h : Option.Rel Turned s t) : s.isNone = t.isNone := by
  cases h with
  | none => rfl
  | some h => rfl

end Selector

/-! ### Choosing a crossing -/

namespace Marking.Turned

variable {m m' : Marking} (h : m.Turned m')

include h

theorem nameless_iff : (m.ofA.isNone ∧ m.ofB.isNone) ↔ (m'.ofA.isNone ∧ m'.ofB.isNone) := by
  rcases h.parents with ⟨ha, hb⟩ | ⟨ha, hb⟩
  · rw [Selector.isNone_eq ha, Selector.isNone_eq hb]
  · rw [Selector.isNone_eq ha, Selector.isNone_eq hb, and_comm]

/-- **The parents may be written either way.**  Both selectors are resolved before the crossings are
looked at, and what they resolve to joins a crossing in either order. -/
theorem eligible_eq (hm : m.Known) (cs : List (Crossing K)) (f : Figure K) :
    Crossing.eligible m cs f = Crossing.eligible m' cs f := by
  unfold Crossing.eligible
  simp only [h.nameless_iff]
  -- The selectors stay in their places, or they change them.
  rcases h.parents with ⟨ha, hb⟩ | ⟨ha, hb⟩
  · rw [Selector.resolveOption_eq f ha, Selector.resolveOption_eq f hb]
  · -- Known selectors are resolved without a fault, so it does not matter which one is first.
    obtain ⟨a, hfirst⟩ := (Selector.resolveOption_meets f m.ofA).1 hm.1
    obtain ⟨b, hsecond⟩ := (Selector.resolveOption_meets f m.ofB).1 hm.2
    rw [← Selector.resolveOption_eq f ha, ← Selector.resolveOption_eq f hb, hfirst, hsecond]
    cases a with
    | none => cases b <;> rfl
    | some a =>
      cases b with
      | none => rfl
      | some b =>
        show (if _ then _ else _) = (if _ then _ else _)
        simp only [Crossing.joins_comm _ b a]

theorem restriction_eq : Crossing.restriction m = Crossing.restriction m' := by
  simp only [Crossing.restriction, Marking.beyond?, h.nameless_iff, h.beyondId]

theorem matching_eq [Scalar K] (style : Style) (hm : m.Known) (cs : List (Crossing K))
    (f : Figure K) : Crossing.matching style m cs f = Crossing.matching style m' cs f := by
  simp only [Crossing.matching, Crossing.matchNotices, Crossing.match?, h.eligible_eq hm,
    h.restriction_eq]

end Marking.Turned

/-! ### Steps and extras -/

namespace Replay

variable [Scalar K] {style : Style} {propId : Int} {extend : Bool}

theorem attempt_eq_of_turned {a a' : Action} (h : a.Turned a') (ha : a.SelectorsKnown) (index : Nat)
    (r : Replay K) :
    r.attempt style propId extend index a = r.attempt style propId extend index a' := by
  cases h with
  | refl a => rfl
  | mark h => rw [attempt, attempt, h.matching_eq style (ha _ rfl), h.label]

theorem perform_eq_of_turned {s s' : Step} (h : s.action.Turned s'.action) (hs : s.action.SelectorsKnown)
    (index : Nat) (r : Replay K) :
    r.perform style propId extend (s, index) = r.perform style propId extend (s', index) := by
  rw [perform, perform, attempt_eq_of_turned h hs]

/-- **Steps that name their parents differently make the same replay**, one step after the other. -/
theorem performAll_eq_of_turned {steps steps' : List Step}
    (h : List.Forall₂ (fun s s' => s.action.Turned s'.action) steps steps')
    (hselectors : ∀ s ∈ steps, s.action.SelectorsKnown) (first : Nat) (r : Replay K) :
    performAll style propId extend first steps r = performAll style propId extend first steps' r := by
  induction h generalizing first r with
  | nil => rfl
  | @cons s s' steps steps' hs hsteps ih =>
    have hlater : ∀ t ∈ steps, t.action.SelectorsKnown := fun t ht =>
      hselectors t (List.mem_cons_of_mem s ht)
    rw [performAll_cons, performAll_cons,
      perform_eq_of_turned hs (hselectors s List.mem_cons_self)]
    congr 1
    funext u
    exact ih hlater (first + 1) u

theorem performExtra_eq_of_turned {e e' : Extra} (h : e.Turned e') (now : Int) (r : Replay K) :
    r.performExtra style now e = r.performExtra style now e' := by
  cases h with
  | refl e => rfl
  | mark ofA ofB which => simp only [performExtra, Crossing.joins_comm _ ofA ofB]

theorem performExtras_eq_of_turned {extras extras' : List Extra}
    (h : List.Forall₂ Extra.Turned extras extras') (now : Int) (r : Replay K) :
    r.performExtras style extend now extras = r.performExtras style extend now extras' := by
  have hfold : ∀ r : Replay K,
      extras.foldlM (performExtra style now) r = extras'.foldlM (performExtra style now) r := by
    induction h with
    | nil => exact fun r => rfl
    | cons he _ ih =>
      intro r
      rw [List.foldlM_cons, List.foldlM_cons, performExtra_eq_of_turned he]
      congr 1
      funext u
      exact ih u
  -- Exchanging the two selectors of an extra does not make it another one,
  -- so the search before the first happens in both or in neither.
  have hempty : extras.isEmpty = extras'.isEmpty := by
    cases h <;> rfl
  rw [performExtras, performExtras, hempty, hfold]

/-! ### The whole replay -/

omit [Scalar K] in
/-- A definition prolongs segments or not, however its own steps name their parents. -/
theorem prolongs_eq_of_turned (p : Proposition K) {steps : List Step}
    (h : List.Forall₂ (fun s s' => s.action.Turned s'.action) p.steps steps) :
    { p with steps := steps }.prolongs = p.prolongs := by
  show steps.any _ = p.steps.any _
  generalize p.steps = own at h
  induction h with
  | nil => rfl
  | @cons s s' _ _ hs _ ih =>
    rw [List.any_cons, List.any_cons, ih]
    congr 1
    generalize s.action = a, s'.action = a' at hs
    cases hs with
    | refl a => rfl
    | mark h => simp only [Marking.beyond?, h.beyondId]

/-- **A replay does not depend on how parents are written.**  For all steps with selectors that describe
elements, the two parents of any marking, the two ends in any selector and the two parents in any marking
after the steps may be written the other way round: the replay is the same as a whole, with its figure,
crossings, facts, ghosts, count of steps and notices.  There is such a replay whenever steps and extras
are of known kinds, as far as labels reach.  The steps that the definition itself has may be written
differently too. -/
theorem run_eq_of_turned (style : Style) (p : Proposition K) (given : List (Element K))
    {steps steps' : List Step} {extras extras' : List Extra}
    (hselectors : ∀ s ∈ steps, s.action.SelectorsKnown)
    (hsteps : List.Forall₂ (fun s s' => s.action.Turned s'.action) steps steps')
    (hextras : List.Forall₂ Extra.Turned extras extras') :
    run style p given steps extras = run style p given steps' extras' ∧
      ((∀ s ∈ steps, s.action.Known) → (∀ e ∈ extras, e.Known) →
        LabelsReach given (requests steps) extras.length →
          ∃ r, (run style p given steps' extras').result = .ok r) ∧
      ∀ own, List.Forall₂ (fun s s' => s.action.Turned s'.action) p.steps own →
        run style { p with steps := own } given steps' extras' = run style p given steps extras := by
  have hrun : run style p given steps extras = run style p given steps' extras' := by
    rw [run, run, throughConclusion, throughConclusion, hsteps.length_eq,
      performAll_eq_of_turned hsteps hselectors]
    simp only [performExtras_eq_of_turned hextras]
  refine ⟨hrun, fun hknown hextrasKnown hlabels => ?_, fun own hown => ?_⟩
  · rw [← hrun]
    exact exists_run style p extras hknown hextrasKnown hlabels
  · rw [hrun, run, run, throughConclusion, throughConclusion, prolongs_eq_of_turned p hown]
    rfl

/-- The second proposition with a marking after it: the parents of the first marking and of the one
afterwards are exchanged, and both segments are named from their other ends. -/
theorem run_eq_of_turned_transfer :
    let p : Proposition Float := Book.Transfer.proposition
    let first : Marking := {
      ofA := some (.segment "pt-B" "pt-D")
      ofB := some (.circle "pt-B" "pt-C")
      beyondId := some "pt-B"
      label := some "E" }
    let last : Marking := {
      ofA := some (.circle "pt-D" "pt-E")
      ofB := some (.segment "pt-A" "pt-D")
      beyondId := some "pt-A"
      label := some "F" }
    let steps := (p.steps.set 3 { action := .mark first }).set 5 { action := .mark last }
    ∃ r, (run {} p p.given p.steps [.mark "cir-2" "seg-3" 0]).result = .ok r ∧
      (run {} { p with steps := steps } p.given steps [.mark "seg-3" "cir-2" 0]).result = .ok r ∧
      r.completed = 6 ∧ r.scene.figure.points.map Point.label = ["A", "B", "C", "D", "E", "F", "G"] ∧
      r.facts.length = 6 := by
  intro p first last steps
  have hknown : ∀ s ∈ p.steps, s.action.Known := by decide
  have hselectors : ∀ s ∈ p.steps, s.action.SelectorsKnown := fun s hs m hm => by
    have h := hknown s hs
    rw [hm] at h
    exact h
  have hsteps : List.Forall₂ (fun s s' => s.action.Turned s'.action) p.steps steps := by
    refine .cons (.refl _) (.cons (.refl _) (.cons (.refl _) (.cons ?_ (.cons (.refl _)
      (.cons ?_ .nil)))))
    · exact .mark ⟨.inr ⟨.some (.refl _), .some (.ends _ _)⟩, rfl, rfl⟩
    · exact .mark ⟨.inl ⟨.some (.refl _), .some (.ends _ _)⟩, rfl, rfl⟩
  have hextras : List.Forall₂ Extra.Turned [.mark "cir-2" "seg-3" 0] [.mark "seg-3" "cir-2" 0] :=
    .cons (.mark _ _ _) .nil
  obtain ⟨-, -, hown⟩ := run_eq_of_turned {} p p.given hselectors hsteps hextras
  have hshown : (run {} p p.given p.steps [.mark "cir-2" "seg-3" 0]).result.toOption.map
      (fun r => (r.completed, r.scene.figure.points.map Point.label, r.facts.length)) =
      some (6, ["A", "B", "C", "D", "E", "F", "G"], 6) := by decide +kernel
  obtain ⟨r, hr, hshown⟩ := exists_of_map_toOption_eq_some hshown
  obtain ⟨hcompleted, hshown⟩ := Prod.mk.inj hshown
  obtain ⟨hpoints, hfacts⟩ := Prod.mk.inj hshown
  exact ⟨r, hr, by rw [hown steps hsteps, hr], hcompleted, hpoints, hfacts⟩

end Replay

end RulerCompass
