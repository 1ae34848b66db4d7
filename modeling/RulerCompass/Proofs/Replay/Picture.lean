import RulerCompass.Book.Transfer
import RulerCompass.Proofs.Agree
import RulerCompass.Proofs.Replay.Transcript
import RulerCompass.Session

/-!
# The picture of a replay

What a replay shows does not depend on what it proves.  The ledger is written at every step, but no
step reads it to decide what is drawn, where, and under which label and colour.  So two definitions
that prolong segments alike give the same picture, whatever they take as given and conclude, and a
macro draws the same whatever ledger it is used with.
-/

namespace RulerCompass

variable {K : Type}

namespace Replay

/-- What a replay shows: what is drawn and may still be marked, the hidden constructions, and how far
the steps got. -/
structure Picture (K : Type) where
  scene : Scene K
  ghosts : List (GhostLayer K)
  completed : Nat

/-- The picture that a replay shows. -/
def picture (r : Replay K) : Picture K := ⟨r.scene, r.ghosts, r.completed⟩

/-- Two replays that show the same picture differ in facts and ledger at most. -/
theorem exists_of_picture_eq {r r' : Replay K} (h : r.picture = r'.picture) :
    ∃ facts ledger, r' = { r with facts := facts, ledger := ledger } := by
  obtain ⟨scene, ledger, facts, ghosts, completed⟩ := r
  obtain ⟨scene', ledger', facts', ghosts', completed'⟩ := r'
  simp only [picture, Picture.mk.injEq] at h
  obtain ⟨rfl, rfl, rfl⟩ := h
  exact ⟨facts', ledger', rfl⟩

variable [Scalar K] {style : Style} {extend : Bool} {r r' : Replay K}

/-! ### One action -/

theorem agree_markAt (h : r.picture = r'.picture) (c : Crossing K) (label? : Option String)
    (now now' : Int) :
    Agree (fun u v => u.picture = v.picture) (r.markAt style c label? now)
      (r'.markAt style c label? now') := by
  obtain ⟨facts, ledger, rfl⟩ := exists_of_picture_eq h
  refine (Agree.refl (r.scene.mark style c label?)).bind fun s t hst => ?_
  subst hst
  exact .ok rfl

/-- **A step shows the same** from the same picture, whatever has been proved before. -/
theorem agree_attempt (h : r.picture = r'.picture) (propId propId' : Int) (index : Nat) (a : Action) :
    Agree (fun out out' => out.1 = out'.1 ∧ out.2.picture = out'.2.picture)
      (r.attempt style propId extend index a).result
      (r'.attempt style propId' extend index a).result := by
  -- Two replays of one picture differ in facts and ledger, which no action reads.
  obtain ⟨facts, ledger, rfl⟩ := exists_of_picture_eq h
  cases a with
  | straightedge fromId toId => exact .ok ⟨rfl, rfl⟩
  | compass centerId radiusPointId => exact .ok ⟨rfl, rfl⟩
  | mark m =>
    refine Run.agree_bind (.refl _) fun c? d? hcd => ?_
    subst hcd
    cases c? with
    | none =>
      refine Run.agree_bind (.refl _) fun _ _ _ => ?_
      refine Run.agree_bind (.refl (r.scene.skip m.label)) fun s t hst => ?_
      subst hst
      exact .ok ⟨rfl, rfl⟩
    | some c =>
      refine Run.agree_bind (agree_markAt h c m.label index index) fun u v huv => ?_
      exact .ok ⟨rfl, huv⟩
  | call c =>
    rw [attempt, attempt]
    cases Macro.ofProp? c.propId with
    | none => exact .ok ⟨rfl, rfl⟩
    | some m =>
      refine Run.agree_bind (.refl _) fun o o' ho => ?_
      subst ho
      by_cases hempty : o.added.isEmpty
      · simp only [hempty, if_true]
        exact .ok ⟨rfl, rfl⟩
      · simp only [hempty]
        refine Run.agree_bind (.refl _) fun layers layers' hlayers => ?_
        subst hlayers
        exact .ok ⟨rfl, rfl⟩
  | unknown shown => exact .error _

theorem agree_perform (h : r.picture = r'.picture) (propId propId' : Int) (step : Step × Nat) :
    Agree (fun u v => u.picture = v.picture) (r.perform style propId extend step).result
      (r'.perform style propId' extend step).result := by
  refine Run.agree_bind (agree_attempt h propId propId' step.2 step.1.action) fun out out' hout => ?_
  obtain ⟨flag, u⟩ := out
  obtain ⟨flag', v⟩ := out'
  obtain ⟨rfl, huv⟩ := hout
  obtain ⟨facts, ledger, rfl⟩ := exists_of_picture_eq huv
  cases flag with
  | true => exact .ok rfl
  | false => exact .ok rfl

theorem agree_performExtra (h : r.picture = r'.picture) (now now' : Int) (e : Extra) :
    Agree (fun u v => u.picture = v.picture) (r.performExtra style now e)
      (r'.performExtra style now' e) := by
  obtain ⟨facts, ledger, rfl⟩ := exists_of_picture_eq h
  cases e with
  | circle centerId radiusPointId => exact .ok rfl
  | segment fromId toId => exact .ok rfl
  | mark ofA ofB which =>
    rw [performExtra, performExtra]
    cases r.scene.crossings.find? fun c => c.Joins ofA ofB ∧ c.which = which with
    | none =>
      refine (Agree.refl (r.scene.skip none)).bind fun s t hst => ?_
      subst hst
      exact .ok rfl
    | some c => exact agree_markAt h c none now now'
  | unknown shown => exact .error _

/-! ### Whole replays -/

/-- **All steps show the same.** -/
theorem agree_performAll (h : r.picture = r'.picture) (propId propId' : Int) (first : Nat)
    (steps : List Step) :
    Agree (fun u v => u.picture = v.picture) (performAll style propId extend first steps r).result
      (performAll style propId' extend first steps r').result :=
  Run.agree_foldlM _ (fun step _ _ _ huv => agree_perform huv propId propId' step) h

theorem agree_performExtras (h : r.picture = r'.picture) (now now' : Int) (extras : List Extra) :
    Agree (fun u v => u.picture = v.picture) (r.performExtras style extend now extras)
      (r'.performExtras style extend now' extras) := by
  obtain ⟨facts, ledger, rfl⟩ := exists_of_picture_eq h
  rw [performExtras, performExtras]
  cases extras.isEmpty with
  | true => exact .ok rfl
  | false =>
    refine Agree.foldlM extras (fun e _ _ _ huv => agree_performExtra huv now now' e) ?_
    cases extend with
    | true => rfl
    | false => rfl

theorem agree_run {p q : Proposition K} (h : p.prolongs = q.prolongs) (given : List (Element K))
    (steps : List Step) (extras : List Extra) :
    Agree (fun r r' => r.picture = r'.picture) (run style p given steps extras).result
      (run style q given steps extras).result := by
  have hstart : (start p given).picture = (start q given).picture := rfl
  have hsteps : Agree (fun u v => u.picture = v.picture)
      (performAll style p.id p.prolongs 0 steps (start p given)).result
      (performAll style q.id p.prolongs 0 steps (start q given)).result :=
    agree_performAll hstart p.id q.id 0 steps
  have hconcluded : Agree (fun u v => u.picture = v.picture)
      (throughConclusion style p given steps).result
      (throughConclusion style q given steps).result := by
    -- The readings of the labels are the same, and the conclusion shows nothing.
    rw [throughConclusion, throughConclusion, ← h]
    refine Run.agree_bind (.refl (Figure.readLabels given)) fun _ _ _ => ?_
    exact Run.agree_bind hsteps fun u v huv => .ok huv
  refine Run.agree_bind hconcluded fun u v huv => ?_
  rw [← h]
  refine Run.agree_bind (agree_performExtras huv _ _ extras) fun u' v' huv' => ?_
  exact .ok huv'

end Replay

/-! ### Macros with a ledger -/

/-- A macro that is used with two ledgers has one outcome. -/
theorem Session.agree_call [Scalar K] (s : Session K) (l : Ledger) (c : MacroCall) (extend : Bool)
    (now : Int) :
    Agree (fun out out' => out.1.map Prod.fst = out'.1.map Prod.fst ∧ out.2.scene = out'.2.scene ∧
        out.2.ghosts = out'.2.ghosts)
      (s.call c extend now).result (Session.call { s with ledger := l } c extend now).result := by
  rw [Session.call, Session.call]
  cases Macro.ofProp? c.propId with
  | none => exact .ok ⟨rfl, rfl, rfl⟩
  | some m =>
    refine Run.agree_bind (.refl _) fun o o' ho => ?_
    subst ho
    exact .ok ⟨rfl, rfl, rfl⟩

namespace Replay

/-- **The picture never depends on the proof.**  On one given figure, with the same steps and extras,
two definitions that prolong segments alike have replays with the same scene, ghosts and counter, or
with the same fault, whatever they take as given and conclude; known steps and extras give no fault as
far as labels reach.
In particular a macro that is used with two ledgers has one outcome, and leaves one scene and the
same ghosts behind. -/
theorem picture_eq_of_prolongs_eq [Scalar K] (style : Style) (p q : Proposition K)
    (h : p.prolongs = q.prolongs) (given : List (Element K)) (steps : List Step)
    (extras : List Extra) :
    (run style p given steps extras).result.map picture =
      (run style q given steps extras).result.map picture ∧
    ((∀ s ∈ steps, s.action.Known) → (∀ e ∈ extras, e.Known) →
      LabelsReach given (requests steps) extras.length →
        ∃ r, (run style p given steps extras).result = .ok r) ∧
    ∀ (s : Session K) (l : Ledger) (c : MacroCall) (extend : Bool) (now : Int),
      (s.call c extend now).result.map
          (fun out => (out.1.map Prod.fst, out.2.scene, out.2.ghosts)) =
        (Session.call { s with ledger := l } c extend now).result.map
          (fun out => (out.1.map Prod.fst, out.2.scene, out.2.ghosts)) := by
  refine ⟨(agree_run h given steps extras).map_eq, exists_run style p extras, ?_⟩
  intro s l c extend now
  refine ((s.agree_call l c extend now).mono fun out out' hout => ?_).map_eq
  obtain ⟨houtcome, hscene, hghosts⟩ := hout
  rw [houtcome, hscene, hghosts]

/-- The first three steps of the second proposition, and the same steps in a proposition that takes
`AB = BC` as given: they prove different facts and show the same picture, down to the ghosts of the
macro that is the second step. -/
theorem picture_eq_transfer_isosceles :
    let p : Proposition Float := { Book.Transfer.proposition with conclusion := [] }
    let q : Proposition Float := {
      p with givenDistances := [⟨.between "pt-A" "pt-B", .between "pt-B" "pt-C", "AB = BC"⟩] }
    let steps := p.steps.take 3
    p.prolongs = q.prolongs ∧
      ∃ r r', (run {} p p.given steps).result = .ok r ∧ (run {} q p.given steps).result = .ok r' ∧
        r.facts.map Fact.statement = ["AD = AB", "BD = BA"] ∧
        r'.facts.map Fact.statement = ["AB = BC", "AD = AB", "BD = BA"] ∧
        r.picture = r'.picture ∧ r.ghosts.length = 1 ∧ r.scene.figure.elements.length = 9 := by
  intro p q steps
  have hprolongs : p.prolongs = q.prolongs := rfl
  obtain ⟨hpicture, -, -⟩ := picture_eq_of_prolongs_eq {} p q hprolongs p.given steps []
  have hp : (run {} p p.given steps).result.toOption.map
      (fun r => (r.facts.map Fact.statement, r.ghosts.length, r.scene.figure.elements.length)) =
      some (["AD = AB", "BD = BA"], 1, 9) := by decide +kernel
  have hq : (run {} q p.given steps).result.toOption.map (fun r => r.facts.map Fact.statement) =
      some ["AB = BC", "AD = AB", "BD = BA"] := by decide +kernel
  obtain ⟨r, hr, hshown⟩ := exists_of_map_toOption_eq_some hp
  obtain ⟨hfacts, hshown⟩ := Prod.mk.inj hshown
  obtain ⟨hghosts, hlength⟩ := Prod.mk.inj hshown
  obtain ⟨r', hr', hfacts'⟩ := exists_of_map_toOption_eq_some hq
  rw [hr, hr'] at hpicture
  exact ⟨hprolongs, r, r', hr, hr', hfacts, hfacts', Except.ok.inj hpicture, hghosts, hlength⟩

end Replay

end RulerCompass
