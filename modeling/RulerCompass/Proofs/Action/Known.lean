import RulerCompass.Ghost.Hidden
import RulerCompass.Proofs.Meets

/-!
# Actions that ask for something

An action or selector read from outside may be of no known kind, and that is the only reason for
which the choice of a crossing fails.  The steps of the book are all of a known kind.
-/

namespace RulerCompass

/-! ### Known kinds -/

/-- The selector describes an element, which may be missing. -/
def Selector.Known : Selector → Prop
  | .unknown _ => False
  | _ => True

/-- All selectors of the marking describe elements. -/
def Marking.Known (m : Marking) : Prop := (∀ s ∈ m.ofA, s.Known) ∧ ∀ s ∈ m.ofB, s.Known

/-- The action asks for one of the four operations. -/
def Action.Known : Action → Prop
  | .mark m => m.Known
  | .unknown _ => False
  | _ => True

/-- The extra is one of the three that there are. -/
def Extra.Known : Extra → Prop
  | .unknown _ => False
  | _ => True

instance : DecidablePred Selector.Known
  | .unknown _ => isFalse id
  | .named _ => isTrue trivial
  | .circle .. => isTrue trivial
  | .segment .. => isTrue trivial

instance : DecidablePred Marking.Known := fun _ => inferInstanceAs (Decidable (_ ∧ _))

instance : DecidablePred Action.Known
  | .mark m => inferInstanceAs (Decidable m.Known)
  | .unknown _ => isFalse id
  | .straightedge .. => isTrue trivial
  | .compass .. => isTrue trivial
  | .call _ => isTrue trivial

instance : DecidablePred Extra.Known
  | .unknown _ => isFalse id
  | .circle .. => isTrue trivial
  | .segment .. => isTrue trivial
  | .mark .. => isTrue trivial

/-! ### Resolving selectors -/

variable {K : Type} (f : Figure K)

theorem Selector.resolve_meets (s : Selector) :
    Meets s.Known (s.resolve f) fun _ => True := by
  cases s with
  | unknown shown => exact meets_error id
  | _ => exact meets_ok_true

theorem Selector.resolveOption_meets (s : Option Selector) :
    Meets (∀ t ∈ s, t.Known) (resolveOption f s) fun _ => True := by
  cases s with
  | none => exact meets_ok_true
  | some t => exact (t.resolve_meets f).imp fun h => h t rfl

variable {f} in
theorem Selector.known_of_resolveOption {s : Option Selector} {id? : Option String}
    (h : resolveOption f s = .ok id?) : ∀ t ∈ s, t.Known := by
  rintro t rfl
  cases t with
  | unknown shown => cases h
  | _ => trivial

/-! ### Choosing a crossing -/

namespace Crossing

variable (m : Marking) (cs : List (Crossing K))

theorem eligible_meets : Meets m.Known (eligible m cs f) fun _ => True := by
  refine ((Selector.resolveOption_meets f m.ofA).imp fun h => h.1).bind fun a _ => ?_
  refine ((Selector.resolveOption_meets f m.ofB).imp fun h => h.2).bind fun b _ => ?_
  split
  · exact meets_ok_true
  · split <;> exact meets_ok_true

/-- A choice between crossings fails for selectors of no known kind only. -/
theorem match?_meets [Scalar K] : Meets m.Known (match? m cs f) fun _ => True := by
  refine (eligible_meets f m cs).bind fun cs _ => ?_
  split <;> exact meets_ok_true

variable {f m cs}

theorem known_of_match? [Scalar K] {c? : Option (Crossing K)} (h : match? m cs f = .ok c?) :
    m.Known := by
  obtain ⟨es, hes, -⟩ := exists_of_bind_eq_ok h
  obtain ⟨a, ha, hes⟩ := exists_of_bind_eq_ok hes
  obtain ⟨b, hb, -⟩ := exists_of_bind_eq_ok hes
  exact ⟨Selector.known_of_resolveOption ha, Selector.known_of_resolveOption hb⟩

end Crossing

/-! ### Prolongations -/

theorem Figure.segmentEndingIn?_meets (pointId : String) (ss : List Selector) :
    Meets (∀ s ∈ ss, s.Known) (f.segmentEndingIn? pointId ss) fun _ => True := by
  induction ss with
  | nil => exact meets_ok_true
  | cons s rest ih =>
    refine ((s.resolve_meets f).imp fun h => h s List.mem_cons_self).bind fun id _ => ?_
    split
    · exact meets_ok_true
    · exact ih.imp fun h t ht => h t (List.mem_cons_of_mem s ht)

/-- The selectors of a known marking are those that its prolongation looks at. -/
theorem Marking.Known.of_mem {m : Marking} (h : m.Known) :
    ∀ s ∈ m.ofA.toList ++ m.ofB.toList, s.Known := by
  intro s hs
  rcases List.mem_append.mp hs with hs | hs
  · exact h.1 s (Option.mem_toList.mp hs)
  · exact h.2 s (Option.mem_toList.mp hs)

theorem Marking.prolongationColor_meets (style : Style) (m : Marking) (beyondId : String) :
    Meets m.Known (m.prolongationColor style f beyondId) fun _ => True :=
  ((f.segmentEndingIn?_meets beyondId _).imp Known.of_mem).bind fun _ _ => meets_ok_true

theorem Marking.prolongation?_meets (style : Style) (m : Marking) (marked : Point K) :
    Meets m.Known (m.prolongation? style f marked) fun _ => True := by
  rw [prolongation?]
  cases m.beyond? with
  | none => exact meets_ok_true
  | some beyondId =>
    dsimp only
    cases f.point? beyondId with
    | none => exact meets_ok_true
    | some p =>
      refine (m.prolongationColor_meets f style beyondId).bind fun color _ => ?_
      exact meets_ok_true

/-! ### The book -/

/-- The steps of the book are all of a known kind. -/
theorem Book.known_of_mem [Scalar K] {p : Proposition K} (hp : p ∈ Book.propositions) :
    ∀ s ∈ p.steps, s.action.Known := by
  have hsteps : p.steps ∈ [Triangle.steps, Transfer.steps, CutOff.steps, SideAngleSide.steps,
    BaseAngles.steps, EqualSides.steps, Uniqueness.steps] := List.mem_map_of_mem hp
  revert hsteps
  generalize p.steps = steps
  revert steps
  decide

end RulerCompass
