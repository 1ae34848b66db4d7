import RulerCompass.Proofs.Replay.Prefix

/-!
# Why a replay fails

A step, a selector or an extra of no known kind ends a replay when its turn comes; the first of them
decides about the fault.  Apart from that a replay fails when the number of a round is too long to be read
or written, which does not happen where labels reach.  Nothing else ends it: missing points, circles
without a radius, crossings that are gone and macros that cannot run are passed over.
-/

namespace RulerCompass

/-! ### What is of no known kind -/

/-- The fault says that something is of no known kind. -/
inductive Fault.OfUnknown : Fault → Prop
  | selector (shown : Datum) : OfUnknown (.unknownSelector shown)
  | action (shown : Datum) : OfUnknown (.unknownAction shown)
  | extra (shown : Datum) : OfUnknown (.unknownExtra shown)

/-- The fault is this one, or it is one of length where labels do not last. -/
inductive Fault.DueTo (unread? : Option Fault) (lasting : Prop) (fault : Fault) : Prop
  | unread (h : unread? = some fault) : DueTo unread? lasting fault
  | noLabel (hlength : fault.OfLength) (hends : ¬ lasting) : DueTo unread? lasting fault

namespace Fault.DueTo

variable {unread? unread?' : Option Fault} {lasting lasting' : Prop} {fault : Fault}

theorem mono (h : fault.DueTo unread? lasting) (hunread : unread? = some fault → unread?' = some fault)
    (hlasting : lasting' → lasting) : fault.DueTo unread?' lasting' := by
  cases h with
  | unread h => exact .unread (hunread h)
  | noLabel hlength hends => exact .noLabel hlength (mt hlasting hends)

theorem eq_some (h : fault.DueTo unread? lasting) (hlasting : lasting) : unread? = some fault := by
  cases h with
  | unread h => exact h
  | noLabel hlength hends => exact absurd hlasting hends

theorem eq_some_or_ofLength (h : fault.DueTo unread? lasting) :
    unread? = some fault ∨ fault.OfLength := by
  cases h with
  | unread h => exact .inl h
  | noLabel hlength hends => exact .inr hlength

end Fault.DueTo

/-- Why a selector cannot be resolved. -/
def Selector.fault? : Selector → Option Fault
  | .unknown shown => some (.unknownSelector shown)
  | _ => none

/-- Why a marking cannot be read; its first selector is resolved first. -/
def Marking.fault? (m : Marking) : Option Fault :=
  (m.ofA.bind Selector.fault?).or (m.ofB.bind Selector.fault?)

/-- Why an action cannot be read. -/
def Action.fault? : Action → Option Fault
  | .mark m => m.fault?
  | .unknown shown => some (.unknownAction shown)
  | _ => none

/-- Why an extra cannot be read. -/
def Extra.fault? : Extra → Option Fault
  | .unknown shown => some (.unknownExtra shown)
  | _ => none

theorem Selector.fault?_eq_none_iff (s : Selector) : s.fault? = none ↔ s.Known := by
  cases s <;> simp [fault?, Known]

theorem Marking.fault?_eq_none_iff (m : Marking) : m.fault? = none ↔ m.Known := by
  simp [fault?, Known, Option.or_eq_none_iff, Selector.fault?_eq_none_iff]

theorem Action.fault?_eq_none_iff (a : Action) : a.fault? = none ↔ a.Known := by
  cases a <;> simp [fault?, Known, Marking.fault?_eq_none_iff]

theorem Extra.fault?_eq_none_iff (e : Extra) : e.fault? = none ↔ e.Known := by
  cases e <;> simp [fault?, Known]

theorem Selector.not_known_iff (s : Selector) : ¬ s.Known ↔ ∃ shown, s = .unknown shown := by
  cases s <;> simp [Known]

theorem Action.not_known_iff (a : Action) : ¬ a.Known ↔ (∃ shown, a = .unknown shown) ∨
    ∃ m, a = .mark m ∧ ∃ shown, m.ofA = some (.unknown shown) ∨ m.ofB = some (.unknown shown) := by
  cases a with
  | mark m =>
    simp only [Known, Marking.Known, not_and_or, not_forall, Selector.not_known_iff]
    simp [exists_or]
  | _ => simp [Known]

theorem Extra.not_known_iff (e : Extra) : ¬ e.Known ↔ ∃ shown, e = .unknown shown := by
  cases e <;> simp [Known]

theorem Action.ofUnknown_of_fault? {a : Action} {fault : Fault} (h : a.fault? = some fault) :
    fault.OfUnknown := by
  -- A marking fails with the fault of one of its selectors.
  have hselector : ∀ s : Option Selector, s.bind Selector.fault? = some fault → fault.OfUnknown := by
    intro s hs
    obtain ⟨t, -, ht⟩ := Option.bind_eq_some_iff.mp hs
    cases t with
    | unknown shown =>
      cases ht
      exact .selector shown
    | _ => cases ht
  cases a with
  | mark m =>
    rcases Option.or_eq_some_iff.mp h with h | ⟨-, h⟩
    · exact hselector m.ofA h
    · exact hselector m.ofB h
  | unknown shown =>
    cases h
    exact .action shown
  | _ => cases h

variable {K : Type} {fault : Fault}

/-! ### Choosing a crossing -/

theorem Selector.resolveOption_error {s : Option Selector} (f : Figure K)
    (h : s.bind fault? = some fault) : resolveOption f s = .error fault := by
  obtain ⟨t, rfl, ht⟩ := Option.bind_eq_some_iff.mp h
  cases t with
  | unknown shown =>
    cases ht
    rfl
  | _ => cases ht

variable [Scalar K]

theorem Crossing.match?_error {m : Marking} (h : m.fault? = some fault) (cs : List (Crossing K))
    (f : Figure K) : match? m cs f = .error fault := by
  rcases Option.or_eq_some_iff.mp h with ha | ⟨ha, hb⟩
  · rw [match?, eligible, Selector.resolveOption_error f ha]
    rfl
  · -- The first selector is resolved to some id before the second one fails.
    have hknown : ∀ s ∈ m.ofA, s.Known := fun s hs =>
      s.fault?_eq_none_iff.mp (Option.bind_eq_none_iff.mp ha s hs)
    obtain ⟨a, hresolved⟩ := (Selector.resolveOption_meets f m.ofA).1 hknown
    rw [match?, eligible, hresolved, Selector.resolveOption_error f hb]
    rfl

namespace Replay

variable {style : Style} {propId : Int} {extend : Bool} {r : Replay K}

/-! ### Steps -/

theorem attempt_error {a : Action} (h : a.fault? = some fault) (index : Nat) :
    (r.attempt style propId extend index a).result = .error fault := by
  cases a with
  | mark m =>
    have hmatch : (Crossing.matching style m r.scene.crossings r.scene.figure).result =
        .error fault := Crossing.match?_error h _ _
    rw [attempt, Run.result_bind, hmatch]
    rfl
  | unknown shown =>
    cases h
    rfl
  | _ => cases h

theorem perform_error {step : Step × Nat} (h : step.1.action.fault? = some fault) :
    (r.perform style propId extend step).result = .error fault := by
  rw [perform, Run.result_bind, attempt_error h]
  rfl

theorem known_of_perform {step : Step × Nat} {r' : Replay K}
    (h : (r.perform style propId extend step).result = .ok r') : step.1.action.Known := by
  rw [← Action.fault?_eq_none_iff]
  cases hread : step.1.action.fault? with
  | none => rfl
  | some fault =>
    rw [perform_error hread] at h
    cases h

/-- A step that can be read fails for the length of a label only. -/
theorem attempt_failsBy {a : Action} (ha : a.Known) (hcounter : 0 ≤ r.scene.figure.nextLabel)
    (index : Nat) : FailsBy Fault.OfLength (r.attempt style propId extend index a).result := by
  cases a with
  | straightedge fromId toId => exact .of_ok ⟨_, rfl⟩
  | compass centerId radiusPointId => exact .of_ok ⟨_, rfl⟩
  | mark m =>
    have hmatch := (Crossing.match?_meets r.scene.figure m r.scene.crossings).1 ha
    refine Run.failsBy_bind (.of_ok hmatch) fun c? _ => ?_
    cases c? with
    | none =>
      refine Run.failsBy_bind (.of_ok ⟨_, rfl⟩) fun _ _ => ?_
      exact Run.failsBy_bind (r.scene.skip_failsBy m.label) fun _ _ => .of_ok ⟨_, rfl⟩
    | some c =>
      refine Run.failsBy_bind ?_ fun _ _ => .of_ok ⟨_, rfl⟩
      exact FailsBy.bind (Scene.mark_failsBy style hcounter c m.label) fun _ _ => .of_ok ⟨_, rfl⟩
  | call c =>
    rw [attempt]
    split
    · exact .of_ok ⟨_, rfl⟩
    · rename_i m hm
      refine Run.failsBy_bind (Macro.execute_failsBy hcounter m c.inputs) fun o _ => ?_
      split
      · exact .of_ok ⟨_, rfl⟩
      · -- The layers of a hidden construction never fail.
        have hlayers := Hidden.layers_ok style c.propId c.inputs o.scene.figure index 1
        exact Run.failsBy_bind (.of_ok hlayers) fun _ _ => .of_ok ⟨_, rfl⟩
  | unknown shown => exact ha.elim

/-- Why a step fails: it cannot be read, or there is no label for it. -/
theorem perform_failsBy (step : Step × Nat) (hr : Transcript r step.2) :
    FailsBy (Fault.DueTo step.1.action.fault?
        (r.scene.figure.Room step.1.action.request.count step.1.action.request.label?))
      (r.perform style propId extend step).result := by
  intro fault hfault
  cases hread : step.1.action.fault? with
  | some first =>
    rw [perform_error hread] at hfault
    cases hfault
    exact .unread rfl
  | none =>
    have hknown := step.1.action.fault?_eq_none_iff.mp hread
    -- A step that can be read fails for a label only, and not where there is room for one.
    refine .noLabel ?_ fun hroom => ?_
    · refine Run.failsBy_bind (attempt_failsBy hknown hr.counter step.2) (fun out _ => ?_) fault hfault
      exact .of_ok ⟨_, rfl⟩
    · obtain ⟨u, hu⟩ := (perform_meets style propId extend step hr).1 ⟨hknown, hroom⟩
      rw [hu] at hfault
      cases hfault

/-- **Why steps fail**: the first of them that cannot be read does not let the run go on, or labels do not
last as long as steps before it ask for some. -/
theorem performAll_failsBy {first : Nat} {steps : List Step} (more : Nat) (hr : Transcript r first)
    {top : Nat} (htop : r.scene.figure.nextLabel ≤ top) :
    FailsBy (Fault.DueTo (steps.findSome? fun s => s.action.fault?)
        (LabelsSuffice top (requests steps) more))
      (performAll style propId extend first steps r).result := by
  induction steps generalizing first r top with
  | nil => exact .of_ok ⟨_, rfl⟩
  | cons s steps ih =>
    rw [performAll_cons]
    refine Run.failsBy_bind ?_ fun u hu => ?_
    · refine (perform_failsBy (s, first) hr).mono fun fault h => h.mono (fun hs => ?_) ?_
      · rw [List.findSome?_cons, hs]
      · exact fun hsuffice => hsuffice.room hr.counter htop
    · -- The step has been performed, so it could be read.
      have hread := s.action.fault?_eq_none_iff.mpr (known_of_perform hu)
      have hlater : Transcript u (first + 1 : Nat) :=
        ((perform_meets style propId extend (s, first) hr).2 u hu).later (by omega)
      have hnext := Scene.nextLabel_act_le (scene_perform hu) hr.counter htop
      refine (ih hlater hnext).mono fun fault h => h.mono (fun hsteps => ?_) LabelsSuffice.rest
      rw [List.findSome?_cons, hread]
      exact hsteps

theorem known_of_performAll {first : Nat} {steps : List Step} {r' : Replay K}
    (h : (performAll style propId extend first steps r).result = .ok r') :
    ∀ s ∈ steps, s.action.Known := by
  induction steps generalizing first r with
  | nil => exact fun _ hs => nomatch hs
  | cons s steps ih =>
    rw [performAll_cons] at h
    obtain ⟨u, hu, h⟩ := Run.exists_of_bind_eq_ok h
    exact List.forall_mem_cons.mpr ⟨known_of_perform hu, ih h⟩

/-! ### Extras -/

theorem known_of_performExtra {e : Extra} {now : Int} {r' : Replay K}
    (h : r.performExtra style now e = .ok r') : e.Known := by
  cases e with
  | unknown shown => cases h
  | _ => trivial

/-- Why an extra fails: it cannot be read, or there is no label for it. -/
theorem performExtra_failsBy {now : Int} (hr : Transcript r now) (hnow : -1 ≤ now) (e : Extra) :
    FailsBy (Fault.DueTo e.fault? (r.scene.figure.Room 1 none)) (r.performExtra style now e) := by
  intro fault hfault
  cases e with
  | circle centerId radiusPointId => cases hfault
  | segment fromId toId => cases hfault
  | mark ofA ofB which =>
    refine .noLabel ?_ fun hroom => ?_
    · rw [performExtra] at hfault
      split at hfault
      · exact FailsBy.bind (Scene.mark_failsBy style hr.counter _ none) (fun _ _ => .of_ok ⟨_, rfl⟩)
          fault hfault
      · exact FailsBy.bind (r.scene.skip_failsBy none) (fun _ _ => .of_ok ⟨_, rfl⟩) fault hfault
    · -- With room for a label the extra goes through.
      obtain ⟨u, hu⟩ :=
        (performExtra_meets style hr hnow (.mark ofA ofB which)).1 ⟨trivial, hroom⟩
      rw [hu] at hfault
      cases hfault
  | unknown shown =>
    cases hfault
    exact .unread rfl

theorem foldExtras_failsBy {now : Int} {extras : List Extra} (hr : Transcript r now)
    (hnow : -1 ≤ now) {top : Nat} (htop : r.scene.figure.nextLabel ≤ top) :
    FailsBy (Fault.DueTo (extras.findSome? Extra.fault?) (top + extras.length ≤ Label.capacity))
      (extras.foldlM (performExtra style now) r) := by
  induction extras generalizing r top with
  | nil => exact .of_ok ⟨_, rfl⟩
  | cons e extras ih =>
    rw [List.foldlM_cons, List.length_cons]
    refine FailsBy.bind ?_ fun u hu => ?_
    · refine (performExtra_failsBy hr hnow e).mono fun fault h => h.mono (fun he => ?_) fun hroom => ?_
      · rw [List.findSome?_cons, he]
      · exact ⟨hr.counter, by omega, fun label hlabel => nomatch hlabel⟩
    · -- The extra has been performed, so it could be read, and it used one label at most.
      have hread := e.fault?_eq_none_iff.mpr (known_of_performExtra hu)
      have hlater := (performExtra_meets style hr hnow e).2 u hu
      have hnext := nextLabel_performExtra_le style hu
      have htop' : u.scene.figure.nextLabel ≤ (top + 1 : Nat) := by omega
      refine (ih hlater htop').mono fun fault h =>
        h.mono (fun hextras => ?_) fun hroom => by omega
      rw [List.findSome?_cons, hread]
      exact hextras

theorem performExtras_failsBy {now : Int} {extras : List Extra} (hr : Transcript r now)
    (hnow : -1 ≤ now) {top : Nat} (htop : r.scene.figure.nextLabel ≤ top) :
    FailsBy (Fault.DueTo (extras.findSome? Extra.fault?) (top + extras.length ≤ Label.capacity))
      (r.performExtras style extend now extras) := by
  by_cases hextras : extras = []
  · subst hextras
    exact .of_ok ⟨_, rfl⟩
  · rw [performExtras_of_ne_nil hextras]
    refine foldExtras_failsBy (hr.readied extend) hnow ?_
    rw [figure_readied]
    exact htop

theorem known_of_performExtras {now : Int} {extras : List Extra} {r' : Replay K}
    (h : r.performExtras style extend now extras = .ok r') : ∀ e ∈ extras, e.Known := by
  have hfold : ∀ (extras : List Extra) (r : Replay K),
      extras.foldlM (performExtra style now) r = .ok r' → ∀ e ∈ extras, e.Known := by
    intro extras
    induction extras with
    | nil => exact fun _ _ _ he => nomatch he
    | cons e extras ih =>
      intro r h
      rw [List.foldlM_cons] at h
      obtain ⟨u, hu, h⟩ := exists_of_bind_eq_ok h
      exact List.forall_mem_cons.mpr ⟨known_of_performExtra hu, ih u h⟩
  by_cases hextras : extras = []
  · subst hextras
    exact fun _ he => nomatch he
  · rw [performExtras_of_ne_nil hextras] at h
    exact hfold extras _ h

/-! ### The whole replay -/

/-- Some step asks for nothing known, some marking has a selector that describes no element, or some
extra is none of those that there are. -/
def AsksUnknown (steps : List Step) (extras : List Extra) : Prop :=
  (∃ s ∈ steps, ∃ shown, s.action = .unknown shown) ∨
  (∃ s ∈ steps, ∃ m, s.action = .mark m ∧
    ∃ shown, m.ofA = some (.unknown shown) ∨ m.ofB = some (.unknown shown)) ∨
  ∃ e ∈ extras, ∃ shown, e = .unknown shown

/-- Why steps and extras cannot be replayed: the first reason that comes up. -/
def firstFault? (steps : List Step) (extras : List Extra) : Option Fault :=
  (steps.findSome? fun s => s.action.fault?).or (extras.findSome? Extra.fault?)

theorem firstFault?_eq_none_iff {steps : List Step} {extras : List Extra} :
    firstFault? steps extras = none ↔
      (∀ s ∈ steps, s.action.Known) ∧ ∀ e ∈ extras, e.Known := by
  simp only [firstFault?, Option.or_eq_none_iff, List.findSome?_eq_none_iff,
    Action.fault?_eq_none_iff, Extra.fault?_eq_none_iff]

theorem asksUnknown_iff {steps : List Step} {extras : List Extra} :
    AsksUnknown steps extras ↔ firstFault? steps extras ≠ none := by
  rw [AsksUnknown, ne_eq, firstFault?_eq_none_iff, not_and_or]
  simp only [not_forall, exists_prop, Action.not_known_iff, Extra.not_known_iff, and_or_left,
    exists_or, or_assoc]

/-- The first fault that comes up is of something of no known kind. -/
theorem ofUnknown_of_firstFault? {steps : List Step} {extras : List Extra}
    (h : firstFault? steps extras = some fault) : fault.OfUnknown := by
  rcases Option.or_eq_some_iff.mp h with h | ⟨-, h⟩
  · obtain ⟨s, -, hs⟩ := List.exists_of_findSome?_eq_some h
    exact Action.ofUnknown_of_fault? hs
  · obtain ⟨e, -, he⟩ := List.exists_of_findSome?_eq_some h
    cases e with
    | unknown shown =>
      cases he
      exact .extra shown
    | _ => cases he

theorem throughConclusion_failsBy (style : Style) (p : Proposition K) (given : List (Element K))
    (steps : List Step) (more : Nat) :
    FailsBy (Fault.DueTo (steps.findSome? fun s => s.action.fault?)
        (LabelsReach given (requests steps) more))
      (throughConclusion style p given steps).result := by
  have hstart := (transcript_start p given).later (k := (0 : Nat)) (by omega)
  refine Run.failsBy_bind ?_ fun _ _ => Run.failsBy_bind ?_ fun _ _ => .of_ok ⟨_, rfl⟩
  · intro fault hfault
    refine .noLabel (Figure.readLabels_failsBy given fault hfault) fun hreach => ?_
    have hread := (Figure.readLabels_eq_ok_iff given).mpr hreach.legible
    exact nomatch hread.symm.trans hfault
  · refine FailsBy.mono (performAll_failsBy more hstart (Int.self_le_toNat _)) fun fault h => ?_
    exact h.mono id LabelsReach.suffice

/-- Why a replay fails: for the first thing that cannot be read, or where labels do not reach. -/
theorem run_failsBy (style : Style) (p : Proposition K) (given : List (Element K))
    (steps : List Step) (extras : List Extra) :
    FailsBy (Fault.DueTo (firstFault? steps extras)
        (LabelsReach given (requests steps) extras.length))
      (run style p given steps extras).result := by
  have hmeets := throughConclusion_meets style p given steps extras.length
  refine Run.failsBy_bind ?_ fun r hr => Run.failsBy_bind ?_ fun _ _ => .of_ok ⟨_, rfl⟩
  · refine (throughConclusion_failsBy style p given steps extras.length).mono fun fault h =>
      h.mono (fun hsteps => ?_) id
    rw [firstFault?, hsteps]
    rfl
  · obtain ⟨htranscript, htop⟩ := hmeets.2 r hr
    obtain ⟨-, u, hu, -⟩ := throughConclusion_eq_ok_iff.mp hr
    -- The steps have been performed, so all of them could be read.
    have hread : steps.findSome? (fun s => s.action.fault?) = none :=
      List.findSome?_eq_none_iff.mpr fun s hs =>
        s.action.fault?_eq_none_iff.mpr (known_of_performAll hu s hs)
    refine (performExtras_failsBy htranscript (by omega) htop).mono fun fault h =>
      h.mono (fun hextras => ?_) fun hreach => hreach.suffice.capacity
    rw [firstFault?, hread, hextras]
    rfl

/-- What has been replayed could be read. -/
theorem firstFault?_of_run {p : Proposition K} {given : List (Element K)} {steps : List Step}
    {extras : List Extra} (h : (run style p given steps extras).result = .ok r) :
    firstFault? steps extras = none := by
  obtain ⟨u, hu, hextras⟩ := exists_concluded_of_run h
  obtain ⟨-, v, hv, -⟩ := throughConclusion_eq_ok_iff.mp hu
  exact firstFault?_eq_none_iff.mpr ⟨known_of_performAll hv, known_of_performExtras hextras⟩

/-- Where labels reach, the first fault that comes up decides. -/
theorem run_eq_error_iff (style : Style) (p : Proposition K) {given : List (Element K)}
    {steps : List Step} {extras : List Extra}
    (hlabels : LabelsReach given (requests steps) extras.length) :
    (run style p given steps extras).result = .error fault ↔
      firstFault? steps extras = some fault := by
  have hfails := run_failsBy style p given steps extras
  cases hrun : (run style p given steps extras).result with
  | ok r =>
    rw [firstFault?_of_run hrun]
    exact iff_of_false (nomatch ·) (nomatch ·)
  | error other =>
    rw [(hfails other hrun).eq_some hlabels, Except.error.injEq, Option.some.injEq]

/-- **A replay fails for what is of no known kind, as far as labels reach.**  There it fails with such a
fault exactly when a step, a selector of a marking or an extra is of no known kind, and has a result in all
other cases, whatever the figure, the definition and the ids are.  Its fault is the first that comes up.
Anywhere else a replay with a result has asked for nothing unknown, and the fault of another is the first
that comes up, or it says that the number of a round is too long. -/
theorem fails_iff_asksUnknown (style : Style) (p : Proposition K) (given : List (Element K))
    (steps : List Step) (extras : List Extra) :
    (LabelsReach given (requests steps) extras.length →
      ((∃ fault, (run style p given steps extras).result = .error fault ∧ fault.OfUnknown) ↔
        AsksUnknown steps extras) ∧
      ((∃ r, (run style p given steps extras).result = .ok r) ↔ ¬ AsksUnknown steps extras) ∧
      ∀ fault, (run style p given steps extras).result = .error fault ↔
        firstFault? steps extras = some fault) ∧
    (∀ r, (run style p given steps extras).result = .ok r → ¬ AsksUnknown steps extras) ∧
    ∀ fault, (run style p given steps extras).result = .error fault →
      firstFault? steps extras = some fault ∨ fault.OfLength := by
  have hresult : ∀ r, (run style p given steps extras).result = .ok r →
      ¬ AsksUnknown steps extras := by
    intro r hr hasks
    exact asksUnknown_iff.mp hasks (firstFault?_of_run hr)
  refine ⟨fun hlabels => ?_, hresult, fun fault hfault => ?_⟩
  · have herror : ∀ fault, (run style p given steps extras).result = .error fault ↔
        firstFault? steps extras = some fault := fun _ => run_eq_error_iff style p hlabels
    refine ⟨⟨fun ⟨fault, hfault, _⟩ => ?_, fun hasks => ?_⟩,
      ⟨fun ⟨r, hr⟩ => hresult r hr, fun hnone => ?_⟩, herror⟩
    · rw [asksUnknown_iff, (herror fault).mp hfault]
      exact Option.some_ne_none fault
    · -- Something unknown comes up, and the first of it is the fault.
      obtain ⟨fault, hfirst⟩ := Option.ne_none_iff_exists'.mp (asksUnknown_iff.mp hasks)
      exact ⟨fault, (herror fault).mpr hfirst, ofUnknown_of_firstFault? hfirst⟩
    · -- Nothing unknown is asked for, so the run goes through.
      rw [asksUnknown_iff, not_not, firstFault?_eq_none_iff] at hnone
      exact exists_run style p extras hnone.1 hnone.2 hlabels
  · exact (run_failsBy style p given steps extras fault hfault).eq_some_or_ofLength

/-- A selector of the first step comes up before the second step, whose turn never comes.  Without both
steps there is a result. -/
theorem fails_iff_asksUnknown_selector :
    let p : Proposition Float := Book.Triangle.proposition
    let steps : List Step :=
      [{ action := .mark { ofB := some (.unknown (.int 5)) } }, { action := .unknown .null }]
    LabelsReach p.given (requests steps) 1 ∧ AsksUnknown steps [.unknown .null] ∧
      (run {} p p.given steps [.unknown .null]).result = .error (.unknownSelector (.int 5)) ∧
      ∃ r, (run {} p p.given p.steps).result = .ok r := by
  intro p steps
  have hlabels : LabelsReach p.given (requests steps) 1 := by decide +kernel
  obtain ⟨hunknown, -⟩ := fails_iff_asksUnknown {} p p.given steps [.unknown .null]
  obtain ⟨hasks, -, hfirst⟩ := hunknown hlabels
  have herror := (hfirst (.unknownSelector (.int 5))).mpr rfl
  obtain ⟨hknown, -⟩ := fails_iff_asksUnknown {} p p.given p.steps []
  obtain ⟨-, hresult, -⟩ := hknown (by decide +kernel)
  refine ⟨hlabels, hasks.mp ⟨_, herror, .selector _⟩, herror, hresult.mpr ?_⟩
  rw [asksUnknown_iff, not_not]
  rfl

/-- A label that cannot be read ends a replay before its first step. -/
theorem run_of_not_readable (style : Style) (p : Proposition K) {label : String}
    (h : ¬ Label.Readable label) (place : Coord K) (given : List (Element K)) (steps : List Step)
    (extras : List Extra) :
    (run style p (Point.given label place :: given) steps extras).result =
      .error (.roundTooLong (Label.digitCount label)) := by
  have hread : Figure.readLabels (Point.given label place :: given) =
      .error (.roundTooLong (Label.digitCount label)) := by
    show (Label.index? label >>= fun _ => .ok ()) >>= _ = _
    rw [Label.index?_of_not_readable h]
    rfl
  rw [run, Run.result_bind, throughConclusion, Run.result_bind]
  show (Figure.readLabels _ >>= _) >>= _ = _
  rw [hread]
  rfl

/-- A given point whose label has one digit too many ends a replay without steps. -/
theorem no_result_for_long_round :
    let label := String.ofList ('A' :: (List.replicate Text.digitLimit '0' ++ ['1']))
    let given : List (Element Float) := [Point.given label ⟨0.0, 0.0⟩]
    let p : Proposition Float := { id := 1, title := "", given := given, steps := [] }
    ¬ AsksUnknown [] [] ∧ (run {} p given []).result = .error (.roundTooLong (Text.digitLimit + 1)) ∧
      ¬ ∃ r, (run {} p given []).result = .ok r := by
  intro label given p
  have hdigits : (List.replicate Text.digitLimit '0' ++ ['1']).all Char.isDigit = true := by
    rw [List.all_append, List.all_replicate]
    rfl
  have hcount : Label.digitCount label = Text.digitLimit + 1 := by
    rw [Label.digitCount_of_toList String.toList_ofList rfl hdigits, List.length_append,
      List.length_replicate]
    rfl
  have hlong : ¬ Label.Readable label := by
    rw [Label.Readable, hcount]
    exact Nat.not_succ_le_self _
  have hrun := run_of_not_readable {} p hlong ⟨0.0, 0.0⟩ [] [] []
  rw [hcount] at hrun
  refine ⟨fun hasks => asksUnknown_iff.mp hasks rfl, hrun, ?_⟩
  rintro ⟨r, hr⟩
  rw [hrun] at hr
  cases hr

end Replay

end RulerCompass
