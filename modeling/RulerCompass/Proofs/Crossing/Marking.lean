import RulerCompass.Crossing.Choice
import RulerCompass.Crossing.Definition15
import RulerCompass.Proofs.Meets

/-!
# What is marked

The crossing that a step takes is one of those it was offered, and the selectors of the step have
resolved to its two parents.  Definition 15 then speaks about those parents that are circles.
-/

namespace RulerCompass.Crossing

variable {K : Type} {f : Figure K} {m : Marking} {cs : List (Crossing K)} {c : Crossing K}

/-- The ids of the two elements that meet. -/
def parents (c : Crossing K) : List String := [c.ofA, c.ofB]

theorem Joins.mem_parents {a b : String} (h : c.Joins a b) : a ∈ c.parents ∧ b ∈ c.parents := by
  rcases h with ⟨ha, hb⟩ | ⟨hb, ha⟩
  · simp [parents, ha, hb]
  · simp [parents, ha, hb]

/-! ### The highest crossing -/

section Highest

variable [Scalar K]

theorem highestFrom_mem (best : Crossing K) (cs : List (Crossing K)) :
    highestFrom best cs ∈ best :: cs := by
  induction cs generalizing best with
  | nil => exact List.mem_singleton_self best
  | cons d cs ih =>
    have hrest := ih (if best.y < d.y then d else best)
    rw [highestFrom, List.foldl_cons]
    rcases List.mem_cons.mp hrest with heq | hmem
    · rw [highestFrom] at heq
      rw [heq]
      -- The highest is the one that was best so far, or this one where it is higher.
      by_cases hlt : best.y < d.y
      · simp [hlt]
      · simp [hlt]
    · exact List.mem_cons_of_mem _ (List.mem_cons_of_mem _ hmem)

theorem mem_of_highest? (h : highest? cs = some c) : c ∈ cs := by
  cases cs with
  | nil => cases h
  | cons d cs =>
    rw [highest?] at h
    cases h
    exact highestFrom_mem d cs

end Highest

/-! ### The choice -/

theorem exists_of_resolveOption {s? : Option Selector} {id : String}
    (h : Selector.resolveOption f s? = .ok (some id)) :
    ∃ s, s? = some s ∧ s.resolve f = .ok (some id) := by
  cases s? with
  | none => cases h
  | some s => exact ⟨s, rfl, h⟩

/-- The step names no elements, or two whose crossing this is. -/
def Suits (f : Figure K) (m : Marking) (c : Crossing K) : Prop :=
  (m.ofA = none ∧ m.ofB = none) ∨ ∃ a b p q, m.ofA = some a ∧ m.ofB = some b ∧
    a.resolve f = .ok (some p) ∧ b.resolve f = .ok (some q) ∧ c.Joins p q

/-- A step chooses among the crossings that suit it. -/
theorem mem_eligible_iff {es : List (Crossing K)} (h : eligible m cs f = .ok es) :
    c ∈ es ↔ c ∈ cs ∧ c.Suits f m := by
  obtain ⟨a?, ha, h⟩ := exists_of_bind_eq_ok h
  obtain ⟨b?, hb, h⟩ := exists_of_bind_eq_ok h
  -- Without selectors all crossings suit; else both are resolved and the ids are compared.
  by_cases hnone : m.ofA.isNone ∧ m.ofB.isNone
  · rw [if_pos hnone] at h
    cases h
    have hfree : m.ofA = none ∧ m.ofB = none :=
      hnone.imp Option.isNone_iff_eq_none.mp Option.isNone_iff_eq_none.mp
    exact ⟨fun hc => ⟨hc, Or.inl hfree⟩, And.left⟩
  · rw [if_neg hnone] at h
    constructor
    · intro hc
      cases a? with
      | none =>
        cases h
        cases hc
      | some p =>
        cases b? with
        | none =>
          cases h
          cases hc
        | some q =>
          cases h
          obtain ⟨a, hofA, hp⟩ := exists_of_resolveOption ha
          obtain ⟨b, hofB, hq⟩ := exists_of_resolveOption hb
          obtain ⟨hmem, hjoins⟩ := List.mem_filter.mp hc
          exact ⟨hmem, Or.inr ⟨a, b, p, q, hofA, hofB, hp, hq, of_decide_eq_true hjoins⟩⟩
    · -- Suiting a marking that has selectors means to join what both of them describe.
      rintro ⟨hc, ⟨hofA, hofB⟩ | ⟨a, b, p, q, hofA, hofB, hp, hq, hjoins⟩⟩
      · rw [hofA, hofB] at hnone
        exact absurd ⟨rfl, rfl⟩ hnone
      · -- The selectors are resolved to the same ids as before, since resolving is a function.
        rw [hofA] at ha
        rw [hofB] at hb
        obtain rfl : some p = a? := Except.ok.inj (hp.symm.trans ha)
        obtain rfl : some q = b? := Except.ok.inj (hq.symm.trans hb)
        cases h
        exact List.mem_filter.mpr ⟨hc, decide_eq_true hjoins⟩

/-- The crossing that a step takes is one that suits it. -/
theorem suits_of_match? [Scalar K] (h : match? m cs f = .ok (some c)) : c ∈ cs ∧ c.Suits f m := by
  obtain ⟨es, hes, h⟩ := exists_of_bind_eq_ok h
  refine (mem_eligible_iff hes).mp ?_
  cases hr : restriction m with
  | none =>
    simp only [hr] at h
    exact mem_of_highest? (Except.ok.inj h)
  | some beyondId =>
    simp only [hr] at h
    exact List.mem_of_find?_eq_some (Except.ok.inj h)

/-- The step is offered the crossing, and its selectors have resolved to parents of it. -/
structure Offered (f : Figure K) (m : Marking) (cs : List (Crossing K)) (c : Crossing K) : Prop where
  mem : c ∈ cs
  resolves : ∀ s ∈ m.ofA.toList ++ m.ofB.toList, ∃ id ∈ c.parents, s.resolve f = .ok (some id)

/-- What a step takes is what it was offered. -/
theorem offered_of_match? [Scalar K] (h : match? m cs f = .ok (some c)) : Offered f m cs c := by
  obtain ⟨hmem, hsuits⟩ := suits_of_match? h
  refine ⟨hmem, fun s hs => ?_⟩
  rcases hsuits with ⟨hofA, hofB⟩ | ⟨a, b, p, q, hofA, hofB, hp, hq, hjoins⟩
  · rw [hofA, hofB] at hs
    cases hs
  · rw [hofA, hofB] at hs
    have hs' : s = a ∨ s = b := by simpa using hs
    rcases hs' with rfl | rfl
    · exact ⟨p, hjoins.mem_parents.1, hp⟩
    · exact ⟨q, hjoins.mem_parents.2, hq⟩

/-! ### Definition 15 -/

/-- The equation of a point on a circle. -/
def radiusEquation (d : Circle) (marked : String) : Equation :=
  .distances (.between d.centerId marked) (.between d.centerId d.radiusPointId)

/-- What is said about the marked point is about a parent that is a circle, which is cited. -/
theorem exists_of_mem_radiusAssertions {marked : String} {a : Assertion}
    (h : a ∈ c.radiusAssertions marked f) :
    ∃ id ∈ c.parents, ∃ d, f.circle? id = some d ∧ a.equation = radiusEquation d marked ∧
      a.citation = .def15 d.id := by
  obtain ⟨id, hid, h⟩ := List.mem_filterMap.mp h
  obtain ⟨d, hd, rfl⟩ := Option.map_eq_some_iff.mp h
  exact ⟨id, hid, d, hd, rfl, rfl⟩

/-- The marked point is on each parent that is a circle, and no more is said. -/
theorem mem_radiusAssertions_iff {marked : String} {e : Equation} :
    e ∈ (c.radiusAssertions marked f).map Assertion.equation ↔
      ∃ id ∈ c.parents, ∃ d, f.circle? id = some d ∧ e = radiusEquation d marked := by
  constructor
  · intro he
    obtain ⟨a, ha, rfl⟩ := List.mem_map.mp he
    obtain ⟨id, hid, d, hd, heq, -⟩ := exists_of_mem_radiusAssertions ha
    exact ⟨id, hid, d, hd, heq⟩
  · rintro ⟨id, hid, d, hd, rfl⟩
    simp only [radiusAssertions, List.mem_map, List.mem_filterMap, Option.map_eq_some_iff]
    exact ⟨_, ⟨id, hid, d, hd, rfl⟩, rfl⟩

end RulerCompass.Crossing
