import RulerCompass.Proofs.Meets
import RulerCompass.Replay

/-!
# What a step can come to

`Attempted` lists the outcomes of a step: what it leaves behind, why it came to this, and its flag.
All that is said about single steps follows from this list, so that the definition of a step is opened
only once.  A list of steps is its first step before the others, and extras begin with a replay that is
made ready for them.
-/

namespace RulerCompass.Replay

variable {K : Type} [Scalar K]

/-- The outcomes of an action, with its flag. -/
inductive Attempted (style : Style) (extend : Bool) (index : Nat) (r : Replay K) :
    Action → Bool → Replay K → Prop
  | segment (fromId toId : String) :
      Attempted style extend index r (.straightedge fromId toId) true
        { r with scene := (r.scene.drawSegment style extend fromId toId).1 }
  | circle (centerId radiusPointId : String) :
      Attempted style extend index r (.compass centerId radiusPointId) true
        { r with scene := (r.scene.drawCircle style extend centerId radiusPointId).1 }
  | marked {m : Marking} {c : Crossing K} {s : Scene K} {point : Point K}
      (hc : Crossing.match? m r.scene.crossings r.scene.figure = .ok (some c))
      (hs : r.scene.mark style c m.label = .ok (s, point)) :
      Attempted style extend index r (.mark m) true
        (prove { r with scene := s } (c.radiusAssertions point.id s.figure) index)
  | skipped {m : Marking} {s : Scene K}
      (hc : Crossing.match? m r.scene.crossings r.scene.figure = .ok none)
      (hs : r.scene.skip m.label = .ok s) :
      Attempted style extend index r (.mark m) false { r with scene := s }
  | called {c : MacroCall} {m : Macro} {o : Macro.Outcome K} {layers : List (GhostLayer K)}
      (hm : Macro.ofProp? c.propId = some m)
      (ho : (m.execute style r.scene extend c.outputLabels c.inputs).result = .ok o)
      (hadded : o.added ≠ [])
      (hlayers : (Hidden.layers style c.propId c.inputs o.scene.figure index).result = .ok layers) :
      Attempted style extend index r (.call c) true
        { prove { r with scene := o.scene } o.assertions index with ghosts := r.ghosts ++ layers }
  | refused {c : MacroCall} {m : Macro} {o : Macro.Outcome K}
      (hm : Macro.ofProp? c.propId = some m)
      (ho : (m.execute style r.scene extend c.outputLabels c.inputs).result = .ok o)
      (hadded : o.added = []) :
      Attempted style extend index r (.call c) false r
  | unnamed {c : MacroCall} (hm : Macro.ofProp? c.propId = none) :
      Attempted style extend index r (.call c) false r

variable {style : Style} {propId : Int} {extend : Bool} {r : Replay K}

theorem attempted_of_attempt {index : Nat} {a : Action} {out : Bool × Replay K}
    (h : (r.attempt style propId extend index a).result = .ok out) :
    Attempted style extend index r a out.1 out.2 := by
  cases a with
  | straightedge fromId toId =>
    cases h
    exact .segment fromId toId
  | compass centerId radiusPointId =>
    cases h
    exact .circle centerId radiusPointId
  | mark m =>
    obtain ⟨c?, hc, h⟩ := Run.exists_of_bind_eq_ok h
    cases c? with
    | none =>
      obtain ⟨_, -, h⟩ := Run.exists_of_bind_eq_ok h
      obtain ⟨s, hs, h⟩ := Run.exists_of_bind_eq_ok h
      cases h
      exact .skipped hc hs
    -- The crossing is marked, and the facts of its radii are recorded.
    | some c =>
      obtain ⟨u, hu, h⟩ := Run.exists_of_bind_eq_ok h
      cases h
      obtain ⟨⟨s, point⟩, hs, hu⟩ := exists_of_bind_eq_ok hu
      cases hu
      exact .marked hc hs
  | call c =>
    rw [attempt] at h
    split at h
    · rename_i hm
      cases h
      exact .unnamed hm
    · rename_i m hm
      obtain ⟨o, ho, h⟩ := Run.exists_of_bind_eq_ok h
      split at h
      · rename_i hempty
        cases h
        exact .refused hm ho (List.isEmpty_iff.mp hempty)
      · -- Something has been added, so there are layers to show as well.
        rename_i hempty
        obtain ⟨layers, hlayers, h⟩ := Run.exists_of_bind_eq_ok h
        cases h
        exact .called hm ho (fun hnil => hempty (List.isEmpty_iff.mpr hnil)) hlayers
  | unknown shown => cases h

/-- A crossing that is found and marked makes the step succeed. -/
theorem attempt_mark {index : Nat} {m : Marking} {c : Crossing K} {s : Scene K} {point : Point K}
    (hc : Crossing.match? m r.scene.crossings r.scene.figure = .ok (some c))
    (hs : r.scene.mark style c m.label = .ok (s, point)) :
    (r.attempt style propId extend index (.mark m)).result =
      .ok (true, prove { r with scene := s } (c.radiusAssertions point.id s.figure) index) := by
  have hmatch : (Crossing.matching style m r.scene.crossings r.scene.figure).result = .ok (some c) := hc
  have hmark : r.markAt style c m.label index =
      .ok (prove { r with scene := s } (c.radiusAssertions point.id s.figure) index) := by
    simp only [markAt, hs]
    rfl
  rw [attempt, Run.result_bind, hmatch]
  show (Run.ofExcept (r.markAt style c m.label index) >>= fun u => pure (true, u)).result = _
  rw [Run.result_bind, Run.result_ofExcept, hmark]
  rfl

/-! ### Steps one after the other -/

theorem performAll_cons (first : Nat) (step : Step) (steps : List Step) (r : Replay K) :
    performAll style propId extend first (step :: steps) r =
      r.perform style propId extend (step, first) >>=
        performAll style propId extend (first + 1) steps := by
  rw [performAll, List.zipIdx_cons, List.foldlM_cons]
  rfl

theorem performAll_append (first : Nat) (steps more : List Step) (r : Replay K) :
    performAll style propId extend first (steps ++ more) r =
      performAll style propId extend first steps r >>=
        performAll style propId extend (first + steps.length) more := by
  rw [performAll, List.zipIdx_append, List.foldlM_append]
  rfl

/-! ### Extras one after the other -/

/-- The replay when its extras begin: segments that have not been prolonged so far now are. -/
def readied (extend : Bool) (r : Replay K) : Replay K :=
  if extend then r else { r with scene := r.scene.searchAll true }

theorem facts_readied (extend : Bool) (r : Replay K) : (r.readied extend).facts = r.facts := by
  cases extend <;> rfl

/-- What the search keeps still holds when the extras begin. -/
theorem readied_keeps {I : Replay K → Prop}
    (hsearch : ∀ r : Replay K, I r → I { r with scene := r.scene.searchAll true }) (hr : I r) :
    I (r.readied extend) := by
  cases extend with
  | true => exact hr
  | false => exact hsearch r hr

theorem performExtras_of_ne_nil {now : Int} {extras : List Extra} (h : extras ≠ []) :
    r.performExtras style extend now extras =
      extras.foldlM (performExtra style now) (r.readied extend) := by
  rw [performExtras, if_neg (mt List.isEmpty_iff.mp h)]
  rfl

/-- Without extras nothing is searched. -/
theorem performExtras_eq_ok {now : Int} {extras : List Extra} {r' : Replay K}
    (h : r.performExtras style extend now extras = .ok r') :
    r' = r ∨ extras.foldlM (performExtra style now) (r.readied extend) = .ok r' := by
  by_cases hextras : extras = []
  · subst hextras
    exact Or.inl (Except.ok.inj h).symm
  · rw [performExtras_of_ne_nil hextras] at h
    exact Or.inr h

end RulerCompass.Replay
