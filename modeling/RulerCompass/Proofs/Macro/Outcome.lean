import RulerCompass.Proofs.Action.Requests
import RulerCompass.Proofs.Label.Index
import RulerCompass.Proofs.Scene.Moves

/-!
# What a macro leaves behind

A macro never fails while there are labels for its points.  Its outcome is reached by moves of the
scene: what it has added comes after all that was drawn before, points and segments between points that
are there by then, and its crossings come after those known before.  An outcome that has added nothing has changed
nothing and proved nothing, so it can be passed over.
-/

namespace RulerCompass.Macro

variable {K : Type} [Scalar K] (style : Style)

/-- The outcome of a macro in a scene. -/
structure Outcome.Follows (s : Scene K) (o : Outcome K) : Prop where
  draws : s.Draws style o.scene o.added
  scene_eq : o.added = [] → o.scene = s
  assertions_eq_nil : o.added = [] → o.assertions = []

theorem Outcome.follows_unchanged (s : Scene K) : Follows style s (unchanged s) :=
  ⟨.nothing s, fun _ => rfl, fun _ => rfl⟩

variable {style} in
theorem Outcome.Follows.nextLabel_le {s : Scene K} {o : Outcome K} (h : Follows style s o) :
    s.figure.nextLabel ≤ o.scene.figure.nextLabel := h.draws.leads.nextLabel_le

variable {p : Prop} (s : Scene K) (extend : Bool) (labels : OutputLabels) (inputs : List String)

theorem apex?_meets (a b : Coord K) (aId bId : String) :
    Meets p (apex? style a b aId bId).result fun _ => True := meets_ok_true

/-! ### The triangle -/

theorem triangleOn_meets (a b : Point K) {aId bId : String}
    (ha : (s.figure.point? aId).isSome) (hb : (s.figure.point? bId).isSome) :
    Meets (s.figure.HasLabel (MacroCall.outputLabel? labels Macro.triangle.resultName))
      (triangleOn style s extend labels a b aId bId).result (Outcome.Follows style s) := by
  -- The apex is a crossing of two circles, or there is none.
  refine Run.meets_bind (apex?_meets style _ _ aId bId) fun place? _ => ?_
  cases place? with
  | none => exact meets_ok (Outcome.follows_unchanged style s)
  | some place =>
    refine Run.meets_bind (s.figure.addPoint_meets style place .intersection _).with_eq
      fun r ⟨hr, _⟩ => ?_
    have hpoint := (Scene.Draws.nothing s).point hr
    have hapex := Figure.isSome_point?_drawn style _ hr
    have hsideA := hpoint.segment extend hapex (hpoint.isSome_point? ha)
    have hgrows := (Scene.leads_drawSegment style { s with figure := r.1 } extend r.2.id aId).growsTo
    have hsideB := hsideA.segment extend (hgrows.isSome_point? hapex) (hsideA.isSome_point? hb)
    exact meets_ok ⟨hsideB, (nomatch ·), (nomatch ·)⟩

theorem drawTriangle_meets :
    Meets (s.figure.HasLabel (MacroCall.outputLabel? labels Macro.triangle.resultName))
      (drawTriangle style s extend labels inputs).result (Outcome.Follows style s) := by
  unfold drawTriangle
  split
  · split
    · exact triangleOn_meets style s extend labels _ _ (by simp [*]) (by simp [*])
    · exact meets_ok (Outcome.follows_unchanged style s)
  · exact meets_ok (Outcome.follows_unchanged style s)

/-! ### The transfer -/

theorem transferGhosts_meets (target start : Coord K) (length : K) :
    Meets p (transferGhosts style target start length).result fun _ => True := by
  rw [transferGhosts]
  split
  · refine Run.meets_bind (apex?_meets style target start "A" "B") fun apex _ => ?_
    exact meets_ok_true
  · exact meets_ok_true

theorem transferOn_meets (target start stop : Point K) {targetId : String}
    (ht : (s.figure.point? targetId).isSome) (startId stopId : String) :
    Meets (s.figure.HasLabel (MacroCall.outputLabel? labels Macro.transfer.resultName))
      (transferOn style s extend labels target start stop targetId startId stopId).result
      (fun o => Outcome.Follows style s o ∧ o.added ≠ [] ∧
        o.scene.figure.nextLabel = Label.advanced s.figure.nextLabel
          (MacroCall.outputLabel? labels Macro.transfer.resultName)) := by
  refine Run.meets_bind (s.figure.addPoint_meets style _ .intersection _).with_eq
    fun r ⟨hr, hnext⟩ => ?_
  refine Run.meets_bind (transferGhosts_meets style _ _ _) fun ghosts _ => ?_
  have hpoint := (Scene.Draws.nothing s).point hr
  have hsegment := hpoint.segment extend (hpoint.isSome_point? ht)
    (Figure.isSome_point?_drawn style _ hr)
  exact meets_ok ⟨⟨hsegment, (nomatch ·), (nomatch ·)⟩, List.cons_ne_nil _ _, hnext⟩

theorem drawTransfer_meets :
    Meets (s.figure.HasLabel (MacroCall.outputLabel? labels Macro.transfer.resultName))
      (drawTransfer style s extend labels inputs).result (Outcome.Follows style s) := by
  unfold drawTransfer
  split
  · split
    · exact (transferOn_meets style s extend labels _ _ _ (by simp [*]) _ _).mono fun _ => And.left
    · exact meets_ok (Outcome.follows_unchanged style s)
  · exact meets_ok (Outcome.follows_unchanged style s)

/-- A transfer on three points that are there draws something. -/
theorem added_ne_nil_of_drawTransfer {targetId startId stopId : String} {o : Outcome K}
    (htarget : (s.figure.point? targetId).isSome) (hstart : (s.figure.point? startId).isSome)
    (hstop : (s.figure.point? stopId).isSome)
    (ho : (drawTransfer style s extend labels [targetId, startId, stopId]).result = .ok o) :
    o.added ≠ [] := by
  obtain ⟨target, ht⟩ := Option.isSome_iff_exists.mp htarget
  obtain ⟨start, hs⟩ := Option.isSome_iff_exists.mp hstart
  obtain ⟨stop, hp⟩ := Option.isSome_iff_exists.mp hstop
  simp only [drawTransfer, ht, hs, hp] at ho
  exact ((transferOn_meets style s extend labels target start stop htarget startId stopId).2 o ho).2.1

/-! ### The cut -/

section InnerLabels

variable {K : Type} {labels : OutputLabels} {f : Figure K}

/-- The inner point gets the next label, or the one after it when the next one is asked for. -/
theorem innerLabels_meets :
    Meets (f.Room 2 (MacroCall.outputLabel? labels Macro.cutOff.resultName)) (innerLabels f labels)
      fun _ => True := by
  rw [innerLabels]
  split
  · exact meets_ok_true
  · refine Meets.bind (Label.ofIndex_meets fun hroom => ?_) fun label _ => ?_
    · -- The next label, and the one after it where the result reserves the next.
      exact hroom.lt_capacity Nat.two_pos
    · split
      · refine Meets.bind (Label.ofIndex_meets fun hroom => ?_) fun next _ => meets_ok_true
        have hcounter := hroom.counter
        have hcapacity := hroom.capacity
        omega
      · exact meets_ok_true

/-- The label of the inner point is automatic, or the one after the label that is asked for. -/
theorem innerLabel_cases {inner : OutputLabels} (hcounter : 0 ≤ f.nextLabel)
    (h : innerLabels f labels = .ok inner) :
    (MacroCall.outputLabel? inner Macro.transfer.resultName = none ∧
        MacroCall.outputLabel? labels Macro.cutOff.resultName ≠ some (Label.text f.nextLabel.toNat)) ∨
      (f.nextLabel + 1 < Label.capacity ∧
        MacroCall.outputLabel? inner Macro.transfer.resultName =
          some (Label.text (f.nextLabel.toNat + 1)) ∧
        MacroCall.outputLabel? labels Macro.cutOff.resultName =
          some (Label.text f.nextLabel.toNat)) := by
  simp only [resultName]
  rw [innerLabels] at h
  cases hown : MacroCall.outputLabel? labels "result" with
  | none =>
    -- No label is reserved.
    rw [hown] at h
    cases h
    refine Or.inl ⟨rfl, fun hnext => ?_⟩
    cases hnext
  | some reserved =>
    rw [hown] at h
    obtain ⟨label, hlabel, h⟩ := exists_of_bind_eq_ok h
    obtain ⟨-, rfl⟩ := (Label.ofIndex_eq_ok_iff hcounter).mp hlabel
    split at h
    · -- The next label is reserved, so the inner point takes the one after it.
      rename_i hreserved
      obtain ⟨after, hlabel, h⟩ := exists_of_bind_eq_ok h
      obtain ⟨hcapacity, rfl⟩ := (Label.ofIndex_eq_ok_iff (by omega)).mp hlabel
      cases h
      refine Or.inr ⟨hcapacity, ?_, congrArg some hreserved.symm⟩
      rw [Int.toNat_add hcounter (by decide)]
      rfl
    · -- Another label is reserved, so nothing changes for the inner point.
      rename_i hreserved
      cases h
      exact Or.inl ⟨rfl, fun hsame => hreserved (Option.some.inj hsame).symm⟩

/-- There is a label for the inner point. -/
theorem hasLabel_of_innerLabels {inner : OutputLabels} (h : innerLabels f labels = .ok inner)
    (hroom : f.Room 2 (MacroCall.outputLabel? labels Macro.cutOff.resultName)) :
    f.HasLabel (MacroCall.outputLabel? inner Macro.transfer.resultName) := by
  rcases innerLabel_cases hroom.counter h with ⟨hnone, -⟩ | ⟨hafter, hsome, -⟩
  · rw [hnone]
    exact hroom.lt_capacity Nat.two_pos
  · have hcounter := hroom.counter
    rw [hsome]
    exact Label.readable_text_iff.mpr (by omega)

/-- And then there still is one for the result, whether or not the inner point has been kept. -/
theorem hasLabel_after_innerLabels {inner : OutputLabels} {g : Figure K}
    (h : innerLabels f labels = .ok inner)
    (hg : g.nextLabel = f.nextLabel ∨
      g.nextLabel = Label.advanced f.nextLabel (MacroCall.outputLabel? inner Macro.transfer.resultName))
    (hroom : f.Room 2 (MacroCall.outputLabel? labels Macro.cutOff.resultName)) :
    g.HasLabel (MacroCall.outputLabel? labels Macro.cutOff.resultName) := by
  cases hlabel : MacroCall.outputLabel? labels Macro.cutOff.resultName with
  | some label => exact hroom.readable label hlabel
  | none =>
    have hcounter := hroom.counter
    have hcapacity := hroom.capacity
    -- Without a label that is asked for, the inner point spends the next one.
    have hinner : MacroCall.outputLabel? inner Macro.transfer.resultName = none := by
      rcases innerLabel_cases hcounter h with ⟨hnone, -⟩ | ⟨-, -, hsome⟩
      · exact hnone
      · rw [hlabel] at hsome
        cases hsome
    rw [hinner, Label.advanced] at hg
    show 0 ≤ g.nextLabel ∧ g.nextLabel < Label.capacity
    omega

end InnerLabels

theorem cutOffOn_meets (cut target start stop : Point K) {cutId : String}
    (hcut : (s.figure.point? cutId).isSome) (startId stopId : String) :
    Meets (s.figure.Room 2 (MacroCall.outputLabel? labels Macro.cutOff.resultName))
      (cutOffOn style s extend labels cut target start stop cutId startId stopId).result
      (Outcome.Follows style s) := by
  refine Run.meets_bind innerLabels_meets.with_eq fun inner ⟨hinner, _⟩ => ?_
  have htransfer := transferOn_meets style s extend inner cut start stop hcut startId stopId
  refine Run.meets_bind (htransfer.imp (hasLabel_of_innerLabels hinner)) fun moved hmoved => ?_
  -- The inner transfer is kept unless its target already is the start of the segment.
  have hkept : ∀ kept, kept = (if start.position.distance cut.position < Scalar.epsilon
      then Outcome.unchanged s else moved) → Outcome.Follows style s kept ∧
        (kept.scene.figure.nextLabel = s.figure.nextLabel ∨
          kept.scene.figure.nextLabel = Label.advanced s.figure.nextLabel
            (MacroCall.outputLabel? inner Macro.transfer.resultName)) := by
    rintro kept rfl
    split
    · exact ⟨Outcome.follows_unchanged style s, Or.inl rfl⟩
    · exact ⟨hmoved.1, Or.inr hmoved.2.2⟩
  generalize hif : (if start.position.distance cut.position < Scalar.epsilon
    then Outcome.unchanged s else moved) = kept
  obtain ⟨hfollows, hnext⟩ := hkept kept hif.symm
  refine Run.meets_bind ((kept.scene.figure.addPoint_meets style _ .intersection _).imp
    (hasLabel_after_innerLabels hinner hnext)).with_eq fun r ⟨hr, _⟩ => ?_
  have hadded : kept.added ++ [Element.point r.2] ≠ [] :=
    List.append_ne_nil_of_right_ne_nil _ (List.cons_ne_nil _ _)
  exact meets_ok ⟨hfollows.draws.point hr, fun h => absurd h hadded, fun h => absurd h hadded⟩

theorem drawCutOff_meets :
    Meets (s.figure.Room 2 (MacroCall.outputLabel? labels Macro.cutOff.resultName))
      (drawCutOff style s extend labels inputs).result (Outcome.Follows style s) := by
  unfold drawCutOff
  split
  · split
    · exact cutOffOn_meets style s extend labels _ _ _ _ (by simp [*]) _ _
    · exact meets_ok (Outcome.follows_unchanged style s)
  · exact meets_ok (Outcome.follows_unchanged style s)

/-! ### Every macro -/

/-- No macro fails while there are labels for its points, and none proves something without drawing. -/
theorem execute_meets (m : Macro) :
    Meets (s.figure.Room m.mostPoints (MacroCall.outputLabel? labels m.resultName))
      (m.execute style s extend labels inputs).result (Outcome.Follows style s) := by
  cases m with
  | triangle =>
    exact (drawTriangle_meets style s extend labels inputs).imp fun h => h.hasLabel Nat.one_pos
  | transfer =>
    exact (drawTransfer_meets style s extend labels inputs).imp fun h => h.hasLabel Nat.one_pos
  | cutOff => exact drawCutOff_meets style s extend labels inputs

/-! ### Faults of macros -/

section Faults

variable {style} {s} {extend} {labels} (hcounter : 0 ≤ s.figure.nextLabel)
include hcounter

theorem triangleOn_failsBy (a b : Point K) (aId bId : String) :
    FailsBy Fault.OfLength (triangleOn style s extend labels a b aId bId).result := by
  refine Run.failsBy_bind (.of_ok ⟨_, rfl⟩) fun place? _ => ?_
  cases place? with
  | none => exact .of_ok ⟨_, rfl⟩
  | some place =>
    refine Run.failsBy_bind (Figure.addPoint_failsBy style hcounter place .intersection _) fun r _ => ?_
    exact .of_ok ⟨_, rfl⟩

theorem transferOn_failsBy (target start stop : Point K) (targetId startId stopId : String) :
    FailsBy Fault.OfLength
      (transferOn style s extend labels target start stop targetId startId stopId).result := by
  refine Run.failsBy_bind (Figure.addPoint_failsBy style hcounter _ .intersection _) fun r _ => ?_
  have hghosts := (transferGhosts_meets (p := True) style target.position start.position
    (start.position.distance stop.position)).1 trivial
  exact Run.failsBy_bind (.of_ok hghosts) fun ghosts _ => .of_ok ⟨_, rfl⟩

omit [Scalar K] hcounter in
theorem innerLabels_failsBy {f : Figure K} (hcounter : 0 ≤ f.nextLabel) :
    FailsBy Fault.OfLength (innerLabels f labels) := by
  rw [innerLabels]
  split
  · exact .of_ok ⟨_, rfl⟩
  · refine (Label.ofIndex_failsBy hcounter).bind fun label _ => ?_
    split
    · refine (Label.ofIndex_failsBy ?_).bind fun next _ => .of_ok ⟨_, rfl⟩
      omega
    · exact .of_ok ⟨_, rfl⟩

theorem cutOffOn_failsBy (cut target start stop : Point K) {cutId : String}
    (hcut : (s.figure.point? cutId).isSome) (startId stopId : String) :
    FailsBy Fault.OfLength
      (cutOffOn style s extend labels cut target start stop cutId startId stopId).result := by
  refine Run.failsBy_bind (innerLabels_failsBy hcounter) fun inner _ => ?_
  refine Run.failsBy_bind ?_ fun moved hmoved => ?_
  · exact transferOn_failsBy hcounter cut start stop cutId startId stopId
  have hfollows := ((transferOn_meets style s extend inner cut start stop hcut startId stopId).2
    moved hmoved).1
  refine Run.failsBy_bind (Figure.addPoint_failsBy style ?_ _ .intersection _) fun r _ => .of_ok ⟨_, rfl⟩
  split
  · exact hcounter
  · exact Int.le_trans hcounter hfollows.nextLabel_le

/-- A macro fails for the length of a label only. -/
theorem execute_failsBy (m : Macro) (inputs : List String) :
    FailsBy Fault.OfLength (m.execute style s extend labels inputs).result := by
  -- Whatever is missing ends a macro quietly; only a run can fail, and only for a label.
  cases m with
  | triangle =>
    rw [execute]
    unfold drawTriangle
    split
    · split
      · exact triangleOn_failsBy hcounter _ _ _ _
      · exact .of_ok ⟨_, rfl⟩
    · exact .of_ok ⟨_, rfl⟩
  | transfer =>
    rw [execute]
    unfold drawTransfer
    split
    · split
      · exact transferOn_failsBy hcounter _ _ _ _ _ _
      · exact .of_ok ⟨_, rfl⟩
    · exact .of_ok ⟨_, rfl⟩
  | cutOff =>
    rw [execute]
    unfold drawCutOff
    split
    · split
      · exact cutOffOn_failsBy hcounter _ _ _ _ (by simp [*]) _ _
      · exact .of_ok ⟨_, rfl⟩
    · exact .of_ok ⟨_, rfl⟩

end Faults

end RulerCompass.Macro
