import Mathlib.Logic.Relation
import RulerCompass.Ledger.Fact

/-!
# Chains of equations

Some equations chain two keys when a walk over their sides leads from one to the other.
`chained_concat_iff` says what one more equation adds: a walk that uses it can be cut at its two
sides.  Equations are irredundant when none is chained by the others; an equation whose sides were
not chained before keeps them irredundant (`Irredundant.concat`), for it could only replace another
one in a walk between its own sides.
-/

namespace RulerCompass

/-- The keys are the two sides of one of the equations, in either order. -/
def Joined (es : List Equation) (x y : String) : Prop :=
  ∃ e ∈ es, (e.left.key = x ∧ e.right.key = y) ∨ (e.left.key = y ∧ e.right.key = x)

/-- A finite chain of keys leads from `x` to `y`, each joined to the next. -/
def Chained (es : List Equation) (x y : String) : Prop := Relation.ReflTransGen (Joined es) x y

variable {es es' : List Equation} {e : Equation} {x y z : String}

theorem Joined.symm (h : Joined es x y) : Joined es y x := by
  obtain ⟨e, he, h⟩ := h
  exact ⟨e, he, h.symm⟩

namespace Chained

theorem refl (x : String) : Chained es x x := Relation.ReflTransGen.refl

theorem trans (h : Chained es x y) (h' : Chained es y z) : Chained es x z :=
  Relation.ReflTransGen.trans h h'

theorem symm (h : Chained es x y) : Chained es y x := by
  have : Std.Symm (Joined es) := ⟨fun _ _ => Joined.symm⟩
  exact Relation.ReflTransGen.stdSymm.symm x y h

theorem of_mem (he : e ∈ es) : Chained es e.left.key e.right.key :=
  Relation.ReflTransGen.single ⟨e, he, Or.inl ⟨rfl, rfl⟩⟩

/-- Chains are carried over by any equations that chain the sides of each equation. -/
theorem of_sides (h : Chained es x y) (hes : ∀ e ∈ es, Chained es' e.left.key e.right.key) :
    Chained es' x y := by
  induction h with
  | refl => exact refl _
  | tail _ hj ih =>
    obtain ⟨e, he, ⟨rfl, rfl⟩ | ⟨rfl, rfl⟩⟩ := hj
    · exact ih.trans (hes e he)
    · exact ih.trans (hes e he).symm

theorem mono (h : Chained es x y) (hsub : es ⊆ es') : Chained es' x y :=
  h.of_sides fun _ he => of_mem (hsub he)

/-- A function that agrees on the sides of each equation agrees along chains. -/
theorem apply_eq {α : Type} {g : String → α} (h : Chained es x y)
    (hg : ∀ e ∈ es, g e.left.key = g e.right.key) : g x = g y := by
  induction h with
  | refl => rfl
  | tail _ hj ih =>
    obtain ⟨e, he, ⟨rfl, rfl⟩ | ⟨rfl, rfl⟩⟩ := hj
    · exact ih.trans (hg e he)
    · exact ih.trans (hg e he).symm

end Chained

/-- A chain that uses one more equation runs from `x` to one of its sides and from the other side
to `y`. -/
theorem chained_concat_iff : Chained (es ++ [e]) x y ↔ Chained es x y ∨
    (Chained es x e.left.key ∧ Chained es e.right.key y) ∨
    (Chained es x e.right.key ∧ Chained es e.left.key y) := by
  have hsub : es ⊆ es ++ [e] := List.subset_append_left _ _
  have he : Chained (es ++ [e]) e.left.key e.right.key := .of_mem (by simp)
  constructor
  · intro h
    induction h with
    | refl => exact Or.inl (.refl _)
    | tail _ hj ih =>
      obtain ⟨d, hd, hj⟩ := hj
      rcases List.mem_append.mp hd with hd | hd
      · -- a step over an old equation prolongs the last part
        have hstep : Chained es _ _ := Relation.ReflTransGen.single ⟨d, hd, hj⟩
        rcases ih with ih | ⟨h1, h2⟩ | ⟨h1, h2⟩
        · exact Or.inl (ih.trans hstep)
        · exact Or.inr (Or.inl ⟨h1, h2.trans hstep⟩)
        · exact Or.inr (Or.inr ⟨h1, h2.trans hstep⟩)
      · -- a step over the new equation ends at a side, where a second use undoes the first
        obtain rfl := List.mem_singleton.mp hd
        obtain ⟨rfl, rfl⟩ | ⟨rfl, rfl⟩ := hj
        · rcases ih with ih | ⟨h1, -⟩ | ⟨h1, -⟩
          · exact Or.inr (Or.inl ⟨ih, .refl _⟩)
          · exact Or.inr (Or.inl ⟨h1, .refl _⟩)
          · exact Or.inl h1
        · rcases ih with ih | ⟨h1, -⟩ | ⟨h1, -⟩
          · exact Or.inr (Or.inr ⟨ih, .refl _⟩)
          · exact Or.inl h1
          · exact Or.inr (Or.inr ⟨h1, .refl _⟩)
  · rintro (h | ⟨h1, h2⟩ | ⟨h1, h2⟩)
    · exact h.mono hsub
    · exact ((h1.mono hsub).trans he).trans (h2.mono hsub)
    · exact ((h1.mono hsub).trans he.symm).trans (h2.mono hsub)

/-! ### Irredundant equations -/

/-- The sides of no equation are chained by the other ones. -/
def Irredundant (es : List Equation) : Prop :=
  ∀ i (h : i < es.length), ¬ Chained (es.eraseIdx i) es[i].left.key es[i].right.key

theorem irredundant_nil : Irredundant [] := fun _ h => absurd h (Nat.not_lt_zero _)

/-- If `e` completes a chain between the sides of `d`, then `d` completes one between those of
`e`. -/
theorem Chained.exchange {d : Equation} (h : Chained (es ++ [e]) d.left.key d.right.key)
    (hd : ¬ Chained es d.left.key d.right.key) (hsub : es ⊆ es') (hmem : d ∈ es') :
    Chained es' e.left.key e.right.key := by
  have hd' : Chained es' d.left.key d.right.key := .of_mem hmem
  rcases chained_concat_iff.mp h with h | ⟨h1, h2⟩ | ⟨h1, h2⟩
  · exact absurd h hd
  · exact ((h1.mono hsub).symm.trans hd').trans (h2.mono hsub).symm
  · exact ((h2.mono hsub).trans hd'.symm).trans (h1.mono hsub)

theorem Irredundant.concat (hes : Irredundant es) (he : ¬ Chained es e.left.key e.right.key) :
    Irredundant (es ++ [e]) := by
  intro i hi hc
  rw [List.length_append, List.length_singleton] at hi
  rcases Nat.lt_succ_iff_lt_or_eq.mp hi with hlt | rfl
  · rw [List.eraseIdx_append_of_lt_length hlt, List.getElem_append_left hlt] at hc
    exact he (hc.exchange (hes i hlt) List.eraseIdx_subset (List.getElem_mem hlt))
  · rw [List.eraseIdx_append_of_length_le (Nat.le_refl _)] at hc
    simp only [Nat.sub_self, List.eraseIdx_zero, List.tail_cons, List.append_nil,
      List.getElem_concat_length] at hc
    exact he hc

/-! ### Kinds of keys -/

/-- The mark in front of a key tells distances from angles. -/
theorem distance_key_ne_angle_key (d : Distance) (a : Angle) :
    (Relation.distance d).key ≠ (Relation.angle a).key := by
  intro h
  have := congrArg String.toList h
  simp [Relation.key] at this

/-- Chains never lead from distances to angles. -/
theorem not_chained_distance_angle (d : Distance) (a : Angle) :
    ¬ Chained es (Relation.distance d).key (Relation.angle a).key := by
  intro h
  have hkind := h.apply_eq (g := fun k => ∃ d : Distance, (Relation.distance d).key = k) ?_
  · obtain ⟨d', hd'⟩ := hkind.mp ⟨d, rfl⟩
    exact distance_key_ne_angle_key d' a hd'
  · rintro (⟨l, r⟩ | ⟨l, r⟩) -
    · exact propext ⟨fun _ => ⟨r, rfl⟩, fun _ => ⟨l, rfl⟩⟩
    · exact propext ⟨fun ⟨d, hd⟩ => absurd hd (distance_key_ne_angle_key d l),
        fun ⟨d, hd⟩ => absurd hd (distance_key_ne_angle_key d r)⟩

end RulerCompass
