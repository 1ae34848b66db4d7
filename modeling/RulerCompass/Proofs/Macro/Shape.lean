import RulerCompass.Proofs.Macro.Outcome

/-!
# What a macro draws

A macro that lacks an input, or a triangle on one point, gives the unchanged outcome.  Otherwise its
outcome is settled up to the places of the new points: `exists_of_triangleOn`, `exists_of_transferOn`
and `exists_of_cutOffOn` say which elements have been added, in which scene, and what is asserted.
-/

namespace RulerCompass.Macro

variable {K : Type} [Scalar K] {style : Style} {s : Scene K} {extend : Bool} {labels : OutputLabels}
  {o : Outcome K}

/-! ### On points of the figure -/

theorem exists_of_triangleOn {a b : Point K} {aId bId : String}
    (ho : (triangleOn style s extend labels a b aId bId).result = .ok o) :
    o = .unchanged s ∨ ∃ place r,
      s.figure.addPoint style place .intersection (MacroCall.outputLabel? labels "apex") = .ok r ∧
      let sideA := Scene.drawSegment style { s with figure := r.1 } extend r.2.id aId
      let sideB := sideA.1.drawSegment style extend r.2.id bId
      o.scene = sideB.1 ∧ o.added = [.point r.2, .segment sideA.2, .segment sideB.2] ∧
        o.assertions = [sideAssertion a b r.2, sideAssertion b a r.2] := by
  obtain ⟨place?, -, ho⟩ := Run.exists_of_bind_eq_ok ho
  cases place? with
  | none =>
    cases ho
    exact Or.inl rfl
  | some place =>
    obtain ⟨r, hr, ho⟩ := Run.exists_of_bind_eq_ok ho
    cases ho
    exact Or.inr ⟨place, r, hr, rfl, rfl, rfl⟩

theorem exists_of_transferOn {target start stop : Point K} {targetId startId stopId : String}
    (ho : (transferOn style s extend labels target start stop targetId startId stopId).result =
      .ok o) :
    ∃ place r,
      s.figure.addPoint style place .intersection (MacroCall.outputLabel? labels "result") = .ok r ∧
      let side := Scene.drawSegment style { s with figure := r.1 } extend targetId r.2.id
      o.scene = side.1 ∧ o.added = [.point r.2, .segment side.2] ∧
        o.assertions = [transferAssertion target start stop r.2 targetId startId stopId] := by
  obtain ⟨r, hr, ho⟩ := Run.exists_of_bind_eq_ok ho
  obtain ⟨ghosts, -, ho⟩ := Run.exists_of_bind_eq_ok ho
  cases ho
  exact ⟨_, r, hr, rfl, rfl, rfl⟩

/-- The inner transfer is kept unless the cut begins where the less segment does. -/
theorem exists_of_cutOffOn {cut target start stop : Point K} {cutId startId stopId : String}
    (ho : (cutOffOn style s extend labels cut target start stop cutId startId stopId).result =
      .ok o) :
    ∃ inner moved kept place r,
      innerLabels s.figure labels = .ok inner ∧
      (transferOn style s extend inner cut start stop cutId startId stopId).result = .ok moved ∧
      kept = (if start.position.distance cut.position < Scalar.epsilon then .unchanged s else moved) ∧
      kept.scene.figure.addPoint style place .intersection
        (MacroCall.outputLabel? labels "result") = .ok r ∧
      o.scene = { kept.scene with figure := r.1 } ∧ o.added = kept.added ++ [.point r.2] ∧
        o.assertions = kept.assertions ++ [cutAssertion cut target start stop r.2 cutId startId stopId]
    := by
  obtain ⟨inner, hinner, ho⟩ := Run.exists_of_bind_eq_ok ho
  obtain ⟨moved, hmoved, ho⟩ := Run.exists_of_bind_eq_ok ho
  obtain ⟨r, hr, ho⟩ := Run.exists_of_bind_eq_ok ho
  cases ho
  exact ⟨inner, moved, _, _, r, hinner, hmoved, rfl, hr, rfl, rfl, rfl⟩

/-! ### Inputs that are there -/

section Finds

variable {K : Type} {m : Macro} {inputs : List String} {f g : Figure K}

/-- Each input that a given point is moved to is a point of the figure. -/
def Finds (m : Macro) (inputs : List String) (f : Figure K) : Prop :=
  ∀ pair ∈ m.givenIds.zip inputs, (f.point? pair.2).isSome

instance : Decidable (m.Finds inputs f) :=
  inferInstanceAs (Decidable (∀ pair ∈ m.givenIds.zip inputs, (f.point? pair.2).isSome))

theorem Finds.mono (h : m.Finds inputs f) (hfg : f.GrowsTo g) : m.Finds inputs g := fun pair hpair =>
  hfg.isSome_point? (h pair hpair)

theorem finds_of_forall_mem (h : ∀ id ∈ inputs, (f.point? id).isSome) : m.Finds inputs f :=
  fun pair hpair => h pair.2 (List.of_mem_zip hpair).2

end Finds

/-! ### On inputs -/

/-- The macro has all its inputs, and this is its outcome. -/
inductive Runs (style : Style) (s : Scene K) (extend : Bool) (labels : OutputLabels) :
    Macro → List String → Outcome K → Prop
  | triangle {aId bId : String} {rest : List String} {a b : Point K} {o : Outcome K}
      (ha : s.figure.point? aId = some a) (hb : s.figure.point? bId = some b)
      (ho : (triangleOn style s extend labels a b aId bId).result = .ok o) :
      Runs style s extend labels .triangle (aId :: bId :: rest) o
  | transfer {targetId startId stopId : String} {rest : List String} {target start stop : Point K}
      {o : Outcome K} (htarget : s.figure.point? targetId = some target)
      (hstart : s.figure.point? startId = some start) (hstop : s.figure.point? stopId = some stop)
      (ho : (transferOn style s extend labels target start stop targetId startId stopId).result =
        .ok o) :
      Runs style s extend labels .transfer (targetId :: startId :: stopId :: rest) o
  | cutOff {cutId targetId startId stopId : String} {rest : List String}
      {cut target start stop : Point K} {o : Outcome K} (hcut : s.figure.point? cutId = some cut)
      (htarget : s.figure.point? targetId = some target)
      (hstart : s.figure.point? startId = some start) (hstop : s.figure.point? stopId = some stop)
      (ho : (cutOffOn style s extend labels cut target start stop cutId startId stopId).result =
        .ok o) :
      Runs style s extend labels .cutOff (cutId :: targetId :: startId :: stopId :: rest) o

variable {m : Macro} {inputs : List String}

theorem Runs.finds (h : Runs style s extend labels m inputs o) : m.Finds inputs s.figure := by
  cases h with
  | triangle ha hb _ => simp [Finds, givenIds, ha, hb]
  | transfer htarget hstart hstop _ => simp [Finds, givenIds, htarget, hstart, hstop]
  | cutOff hcut htarget hstart hstop _ => simp [Finds, givenIds, hcut, htarget, hstart, hstop]

/-- A macro that has all its inputs runs. -/
theorem runs_of_finds (hcount : m.inputCount ≤ inputs.length) (hfinds : m.Finds inputs s.figure)
    (ho : (m.execute style s extend labels inputs).result = .ok o) :
    Runs style s extend labels m inputs o := by
  cases m with
  | triangle =>
    -- Too few inputs contradict the count; with enough of them the points are looked up in turn.
    rcases inputs with _ | ⟨aId, _ | ⟨bId, rest⟩⟩
    · exact absurd hcount (by decide)
    · exact absurd hcount (by simp [inputCount, inputNames])
    · simp only [Finds, givenIds, List.zip_cons_cons, List.forall_mem_cons,
        Option.isSome_iff_exists] at hfinds
      obtain ⟨⟨a, ha⟩, ⟨b, hb⟩, -⟩ := hfinds
      exact .triangle ha hb (by simpa only [execute, drawTriangle, ha, hb] using ho)
  | transfer =>
    rcases inputs with _ | ⟨targetId, _ | ⟨startId, _ | ⟨stopId, rest⟩⟩⟩
    · exact absurd hcount (by decide)
    · exact absurd hcount (by simp [inputCount, inputNames])
    · exact absurd hcount (by simp [inputCount, inputNames])
    · simp only [Finds, givenIds, List.zip_cons_cons, List.forall_mem_cons,
        Option.isSome_iff_exists] at hfinds
      obtain ⟨⟨target, ht⟩, ⟨start, hs⟩, ⟨stop, hp⟩, -⟩ := hfinds
      exact .transfer ht hs hp (by simpa only [execute, drawTransfer, ht, hs, hp] using ho)
  | cutOff =>
    rcases inputs with _ | ⟨cutId, _ | ⟨targetId, _ | ⟨startId, _ | ⟨stopId, rest⟩⟩⟩⟩
    · exact absurd hcount (by decide)
    · exact absurd hcount (by simp [inputCount, inputNames])
    · exact absurd hcount (by simp [inputCount, inputNames])
    · exact absurd hcount (by simp [inputCount, inputNames])
    · simp only [Finds, givenIds, List.zip_cons_cons, List.forall_mem_cons,
        Option.isSome_iff_exists] at hfinds
      obtain ⟨⟨cut, hc⟩, ⟨target, ht⟩, ⟨start, hs⟩, ⟨stop, hp⟩, -⟩ := hfinds
      exact .cutOff hc ht hs hp (by simpa only [execute, drawCutOff, hc, ht, hs, hp] using ho)

/-- Without one of its inputs a macro does nothing. -/
theorem execute_of_not_finds (h : m.inputCount ≤ inputs.length → ¬ m.Finds inputs s.figure) :
    m.execute style s extend labels inputs = pure (.unchanged s) := by
  cases m with
  | triangle =>
    rw [execute]
    unfold drawTriangle
    split
    · -- All inputs are points, so the macro would have found them.
      split
      · rename_i ha hb
        exact absurd (by simp [Finds, givenIds, ha, hb]) (h (by simp [inputCount, inputNames]))
      · rfl
    · rfl
  | transfer =>
    rw [execute]
    unfold drawTransfer
    split
    · split
      · rename_i htarget hstart hstop
        exact absurd (by simp [Finds, givenIds, htarget, hstart, hstop])
          (h (by simp [inputCount, inputNames]))
      · rfl
    · rfl
  | cutOff =>
    rw [execute]
    unfold drawCutOff
    split
    · split
      · rename_i hcut htarget hstart hstop
        exact absurd (by simp [Finds, givenIds, hcut, htarget, hstart, hstop])
          (h (by simp [inputCount, inputNames]))
      · rfl
    · rfl

theorem eq_unchanged_or_runs (ho : (m.execute style s extend labels inputs).result = .ok o) :
    o = .unchanged s ∨ Runs style s extend labels m inputs o := by
  by_cases h : m.inputCount ≤ inputs.length ∧ m.Finds inputs s.figure
  · exact Or.inr (runs_of_finds h.1 h.2 ho)
  · rw [execute_of_not_finds fun hcount hfinds => h ⟨hcount, hfinds⟩] at ho
    exact Or.inl (Except.ok.inj ho).symm

/-- A macro that has added nothing has left no trace at all. -/
theorem eq_unchanged_of_added_eq_nil
    (ho : (m.execute style s extend labels inputs).result = .ok o) (hadded : o.added = []) :
    o = .unchanged s := by
  rcases eq_unchanged_or_runs ho with h | h
  · exact h
  · -- A run of any macro adds its result at least.
    cases h with
    | triangle ha hb ho =>
      rcases exists_of_triangleOn ho with h | ⟨place, r, -, -, h, -⟩
      · exact h
      · rw [h] at hadded
        cases hadded
    | transfer ht hs hp ho =>
      obtain ⟨place, r, -, -, h, -⟩ := exists_of_transferOn ho
      rw [h] at hadded
      cases hadded
    | cutOff hc ht hs hp ho =>
      obtain ⟨inner, moved, kept, place, r, -, -, -, -, -, h, -⟩ := exists_of_cutOffOn ho
      rw [h] at hadded
      exact absurd hadded (List.append_ne_nil_of_right_ne_nil _ (List.cons_ne_nil _ _))

end RulerCompass.Macro
