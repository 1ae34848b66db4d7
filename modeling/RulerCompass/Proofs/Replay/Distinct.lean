import RulerCompass.Proofs.Macro.Build
import RulerCompass.Proofs.Replay.Success

/-!
# Replays without shared ids

Which labels the counter has passed when a step asks for one by name depends on what has failed before,
but a bound can be read off the steps.  Where every label that is asked for lies above this bound, a
replay shares no id, whichever of its steps fail; and extras ask for no labels at all.
-/

namespace RulerCompass

variable {K : Type} {style : Style} {extend : Bool}

/-! ### Labels asked for -/

/-- The label that the action asks for can be read and lies above this bound. -/
def Action.AsksAbove (top : Nat) (a : Action) : Prop :=
  ∀ label ∈ a.request.label?, Label.Readable label ∧ ∃ n ∈ Label.number? label, top ≤ n

instance (top : Nat) : DecidablePred (Action.AsksAbove top) := fun a =>
  inferInstanceAs (Decidable (∀ label ∈ a.request.label?,
    Label.Readable label ∧ ∃ n ∈ Label.number? label, top ≤ n))

/-- Each step asks for a label above the bound at which the steps before it have arrived. -/
def AsksInOrder : Nat → List Step → Prop
  | _, [] => True
  | top, step :: steps =>
    step.action.AsksAbove top ∧ AsksInOrder (step.action.request.ceiling top) steps

instance decidableAsksInOrder : (top : Nat) → DecidablePred (AsksInOrder top)
  | _, [] => isTrue trivial
  | top, step :: steps =>
    have := decidableAsksInOrder (step.action.request.ceiling top) steps
    inferInstanceAs (Decidable (step.action.AsksAbove top ∧ AsksInOrder _ steps))

/-- A label above the counter belongs to no point. -/
theorem Figure.Distinct.free_of_asksAbove {f : Figure K} (hf : f.Distinct) {top : Nat} {a : Action}
    (htop : f.nextLabel ≤ top) (ha : a.AsksAbove top) :
    ∀ label ∈ a.request.label?, pointId label ∉ f.pointIds := by
  intro label hlabel
  obtain ⟨hreadable, n, hn, hle⟩ := ha label hlabel
  exact hf.pointId_notMem_pointIds (Label.index?_eq_ok_iff.mpr ⟨hreadable, hn⟩) (by omega)

/-! ### One action -/

variable [Scalar K]

namespace Scene

variable {s t : Scene K} {top : Nat}

theorem distinct_mark {c : Crossing K} {label? : Option String} {out : Scene K × Point K}
    (h : s.mark style c label? = .ok out) (hs : s.figure.Distinct)
    (hfree : ∀ label ∈ label?, pointId label ∉ s.figure.pointIds) : out.1.figure.Distinct := by
  obtain ⟨r, hr, h⟩ := exists_of_bind_eq_ok h
  cases h
  exact hs.addPoint hfree hr

/-- **An action keeps the figure distinct**, whether or not it can be performed, when it asks for a label
above the counter or for none. -/
theorem distinct_act {a : Action} (h : s.act style extend a = .ok t) (hs : s.figure.Distinct)
    (htop : s.figure.nextLabel ≤ top) (ha : a.AsksAbove top) : t.figure.Distinct := by
  -- The label that is asked for is above all numbers in use, so its id is free.
  have hfree := hs.free_of_asksAbove htop ha
  cases a with
  | straightedge fromId toId =>
    cases h
    exact hs.addSegment style fromId toId
  | compass centerId radiusPointId =>
    cases h
    exact hs.addCircle style centerId radiusPointId
  | mark m =>
    obtain ⟨c?, -, h⟩ := exists_of_bind_eq_ok h
    cases c? with
    | none =>
      rw [eq_skipped_of_skip h]
      exact hs.skipped m.label
    | some c =>
      obtain ⟨out, hout, h⟩ := exists_of_bind_eq_ok h
      cases h
      exact distinct_mark hout hs hfree
  | call c =>
    rw [act] at h
    split at h
    · rename_i m hm
      obtain ⟨o, ho, h⟩ := exists_of_bind_eq_ok h
      cases h
      rw [Action.request_call hm] at hfree
      exact (Macro.builds_of_execute ho).distinct hs hfree
    · cases h
      exact hs
  | unknown shown => cases h

theorem distinct_actAll {steps : List Step} (h : s.actAll style extend steps = .ok t)
    (hs : s.figure.Distinct) (htop : s.figure.nextLabel ≤ top) (hsteps : AsksInOrder top steps) :
    t.figure.Distinct := by
  induction steps generalizing s top with
  | nil =>
    cases h
    exact hs
  | cons step steps ih =>
    obtain ⟨u, hu, h⟩ := exists_of_bind_eq_ok h
    exact ih h (distinct_act hu hs htop hsteps.1) (nextLabel_act_le hu hs.counter htop) hsteps.2

end Scene

/-! ### Replays -/

namespace Replay

variable {p : Proposition K} {given : List (Element K)} {steps : List Step} {extras : List Extra}
  {r r' : Replay K}

/-- Extras take automatic labels only. -/
theorem distinct_performExtra {now : Int} {e : Extra} (h : r.performExtra style now e = .ok r')
    (hr : r.scene.figure.Distinct) : r'.scene.figure.Distinct := by
  cases e with
  | circle centerId radiusPointId =>
    cases h
    exact hr.addCircle style centerId radiusPointId
  | segment fromId toId =>
    cases h
    exact hr.addSegment style fromId toId
  | mark ofA ofB which =>
    rw [performExtra] at h
    split at h
    · obtain ⟨point, hmark⟩ := scene_markAt h
      -- Extras ask for no label.
      refine Scene.distinct_mark hmark hr fun label hlabel => ?_
      cases hlabel
    · obtain ⟨s, hs, h⟩ := exists_of_bind_eq_ok h
      cases h
      rw [Scene.eq_skipped_of_skip hs]
      exact hr.skipped none
  | unknown shown => cases h

/-- **A replay shares no id** when the given elements share none and the labels that the steps ask for
are in order. -/
theorem distinct_run (hgiven : (Figure.ofGiven given).Distinct)
    (hsteps : AsksInOrder (Figure.ofGiven given).nextLabel.toNat steps)
    (h : (run style p given steps extras).result = .ok r) : r.scene.figure.Distinct := by
  obtain ⟨u, hu, hextras⟩ := exists_of_run h
  have hsteps : u.scene.figure.Distinct :=
    Scene.distinct_actAll (scene_performAll hu) hgiven (Int.self_le_toNat _) hsteps
  refine performExtras_keeps (I := fun u => u.scene.figure.Distinct) (fun u hu => ?_) ?_ hextras hsteps
  · rw [Scene.searchAll_figure]
    exact hu
  · intro u e v hv hu
    exact distinct_performExtra hv hu

end Replay

end RulerCompass
