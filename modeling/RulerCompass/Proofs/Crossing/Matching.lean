import Mathlib.Data.Sym.Sym2
import RulerCompass.Proofs.Action.Known
import RulerCompass.Proofs.Scalar.Order

/-!
# Which crossing a step means

Two selectors name a pair of elements, and only the crossings of this pair matter to the choice: the
first one beyond the point that the step names, or else the earliest of the highest ones.  Crossings of
other pairs may come and go.
-/

namespace RulerCompass.Crossing

/-! ### The earliest of the highest crossings -/

section Highest

variable {K : Type} [Scalar K] {cs : List (Crossing K)} {c d : Crossing K}

/-- The crossing is above all before it in the list, and at least as high as all behind it. -/
def Tops (c : Crossing K) (cs : List (Crossing K)) : Prop :=
  ∃ before after, cs = before ++ c :: after ∧ (∀ d ∈ before, d.y < c.y) ∧ ∀ d ∈ after, d.y ≤ c.y

/-- A lower crossing in front makes no difference. -/
theorem Tops.cons (h : c.Tops cs) (hd : d.y < c.y) : c.Tops (d :: cs) := by
  obtain ⟨before, after, rfl, hbefore, hafter⟩ := h
  exact ⟨d :: before, after, rfl, List.forall_mem_cons.mpr ⟨hd, hbefore⟩, hafter⟩

end Highest

section Doubles

variable {cs : List (Crossing Float)} {b c d : Crossing Float}

/-- No crossing of the list has an undefined height. -/
def Ordered (cs : List (Crossing Float)) : Prop := ∀ c ∈ cs, c.y.isNaN = false

theorem Tops.mem (h : c.Tops cs) : c ∈ cs := by
  obtain ⟨before, after, rfl, -⟩ := h
  exact List.mem_append_right _ List.mem_cons_self

theorem Tops.le (h : c.Tops cs) (hcs : Ordered cs) (hd : d ∈ cs) : d.y ≤ c.y := by
  obtain ⟨before, after, rfl, hbefore, hafter⟩ := h
  rcases List.mem_append.mp hd with hd' | hd'
  · exact Double.le_of_lt (hbefore d hd')
  · rcases List.mem_cons.mp hd' with rfl | hd'
    · exact Double.le_refl (hcs d hd)
    · exact hafter d hd'

/-- Behind a crossing that is at least as high another one makes no difference. -/
theorem Tops.cons_cons (h : c.Tops (b :: cs)) (hcs : Ordered (b :: d :: cs)) (hd : d.y ≤ b.y) :
    c.Tops (b :: d :: cs) := by
  have hb : b.y.isNaN = false := hcs b List.mem_cons_self
  have hd' : d.y.isNaN = false := hcs d (List.mem_cons_of_mem _ List.mem_cons_self)
  obtain ⟨before, after, heq, hbefore, hafter⟩ := h
  -- The crossing put in is no higher than the first one, so it is passed over
  -- whether the first one is the top or stands before it.
  cases before with
  | nil =>
    obtain ⟨rfl, rfl⟩ := List.cons.inj heq
    exact ⟨[], d :: cs, rfl, nofun, List.forall_mem_cons.mpr ⟨hd, hafter⟩⟩
  | cons first before =>
    obtain ⟨rfl, rfl⟩ := List.cons.inj heq
    obtain ⟨hfirst, hbefore⟩ := List.forall_mem_cons.mp hbefore
    have hc : c.y.isNaN = false := hcs c (by simp)
    have hlt : d.y < c.y := Double.lt_of_le_of_lt hd' hb hc hd hfirst
    exact ⟨b :: d :: before, after, rfl,
      List.forall_mem_cons.mpr ⟨hfirst, List.forall_mem_cons.mpr ⟨hlt, hbefore⟩⟩, hafter⟩

/-- The scan for the highest crossing finds the earliest one. -/
theorem tops_highestFrom (best : Crossing Float) (cs : List (Crossing Float))
    (hcs : Ordered (best :: cs)) : (highestFrom best cs).Tops (best :: cs) := by
  induction cs generalizing best with
  | nil => exact ⟨[], [], rfl, nofun, nofun⟩
  | cons d cs ih =>
    obtain ⟨hbest, hrest⟩ := List.forall_mem_cons.mp hcs
    have hd : d.y.isNaN = false := hrest d List.mem_cons_self
    rw [highestFrom, List.foldl_cons]
    by_cases hlt : best.y < d.y
    · -- The later crossing is higher, and stays on top of the first one.
      rw [if_pos hlt]
      have htop := ih d hrest
      have htopnum := hrest _ htop.mem
      exact htop.cons (Double.lt_of_lt_of_le hbest hd htopnum hlt (htop.le hrest List.mem_cons_self))
    · -- The first one is as high at least, so the later one never counts.
      rw [if_neg hlt]
      have hcs' : Ordered (best :: cs) := List.forall_mem_cons.mpr
        ⟨hbest, fun c hc => hrest c (List.mem_cons_of_mem d hc)⟩
      exact (ih best hcs').cons_cons hcs (Double.le_of_not_lt hbest hd hlt)

end Doubles

/-! ### What may be picked -/

section Picks

variable {K : Type} [Scalar K]

/-- Nothing is picked from an empty list, and from others the earliest of the highest crossings. -/
def PicksHighest (cs : List (Crossing K)) : Option (Crossing K) → Prop
  | none => cs = []
  | some c => c.Tops cs

/-- The first crossing past a point is picked, and nothing when none is past it. -/
def PicksBeyond (f : Figure K) (beyondId : String) (cs : List (Crossing K)) :
    Option (Crossing K) → Prop
  | none => ∀ d ∈ cs, ¬ d.IsBeyond beyondId d.ofA d.ofB f
  | some c => ∃ before after, cs = before ++ c :: after ∧ c.IsBeyond beyondId c.ofA c.ofB f ∧
    ∀ d ∈ before, ¬ d.IsBeyond beyondId d.ofA d.ofB f

/-- The pick of a step from the crossings of its pair. -/
def Picks (m : Marking) (f : Figure K) (cs : List (Crossing K)) (pick : Option (Crossing K)) : Prop :=
  match m.beyond? with
  | some beyondId => PicksBeyond f beyondId cs pick
  | none => PicksHighest cs pick

theorem picksBeyond_find? (f : Figure K) (beyondId : String) (cs : List (Crossing K)) :
    PicksBeyond f beyondId cs (cs.find? fun c => c.IsBeyond beyondId c.ofA c.ofB f) := by
  cases h : cs.find? fun c => c.IsBeyond beyondId c.ofA c.ofB f with
  | none =>
    intro d hd
    simpa using List.find?_eq_none.mp h d hd
  | some c =>
    obtain ⟨hc, before, after, heq, hbefore⟩ := List.find?_eq_some_iff_append.mp h
    exact ⟨before, after, heq, of_decide_eq_true hc, fun d hd => by simpa using hbefore d hd⟩

theorem picksHighest_highest? {cs : List (Crossing Float)} (hcs : Ordered cs) :
    PicksHighest cs (highest? cs) := by
  cases cs with
  | nil => rfl
  | cons c cs => exact tops_highestFrom c cs hcs

/-- How a step picks from the crossings of its pair. -/
def pickFrom (m : Marking) (f : Figure K) (cs : List (Crossing K)) : Option (Crossing K) :=
  match m.beyond? with
  | some beyondId => cs.find? fun c => c.IsBeyond beyondId c.ofA c.ofB f
  | none => highest? cs

theorem picks_pickFrom (m : Marking) (f : Figure Float) {cs : List (Crossing Float)}
    (hcs : Ordered cs) : Picks m f cs (pickFrom m f cs) := by
  unfold Picks pickFrom
  cases m.beyond? with
  | some beyondId => exact picksBeyond_find? f beyondId cs
  | none => exact picksHighest_highest? hcs

end Picks

/-! ### Matching -/

section Match

variable {K : Type}

/-- The crossings whose parents are these two, in either order. -/
def between (p q : String) (cs : List (Crossing K)) : List (Crossing K) :=
  cs.filter fun c => s(c.ofA, c.ofB) = s(p, q)

theorem filter_joins (p q : String) (cs : List (Crossing K)) :
    cs.filter (fun c => decide (c.Joins p q)) = between p q cs := by
  refine List.filter_congr fun c _ => decide_eq_decide.mpr ?_
  exact Sym2.eq_iff.symm

variable [Scalar K] {m : Marking} {f : Figure K}

/-- A step without selectors looks at all crossings and picks by height. -/
theorem match?_of_nameless (ha : m.ofA = none) (hb : m.ofB = none) (cs : List (Crossing K)) :
    match? m cs f = .ok (highest? cs) := by
  simp only [match?, eligible, restriction, ha, hb]
  rfl

variable {a b : Selector} (ha : m.ofA = some a) (hb : m.ofB = some b)

include ha hb

/-- With two selectors that resolve, a step looks at the crossings of their pair only. -/
theorem match?_of_resolve {p q : String} (hp : a.resolve f = .ok (some p))
    (hq : b.resolve f = .ok (some q)) (cs : List (Crossing K)) :
    match? m cs f = .ok (pickFrom m f (between p q cs)) := by
  have heligible : eligible m cs f = .ok (between p q cs) := by
    simp only [eligible, ha, hb, Selector.resolveOption, hp, hq, ← filter_joins]
    rfl
  have hrestriction : restriction m = m.beyond? := by
    simp [restriction, ha]
  simp only [match?, heligible, hrestriction, pickFrom]
  cases m.beyond? <;> rfl

/-- When a selector does not resolve, nothing is picked. -/
theorem match?_of_unresolved {p? q? : Option String} (hp : a.resolve f = .ok p?)
    (hq : b.resolve f = .ok q?) (h : p? = none ∨ q? = none) (cs : List (Crossing K)) :
    match? m cs f = .ok none := by
  have heligible : eligible m cs f = .ok [] := by
    simp only [eligible, ha, hb, Selector.resolveOption, hp, hq]
    rcases h with rfl | rfl
    · rfl
    · cases p? <;> rfl
  simp only [match?, heligible]
  cases restriction m <;> rfl

end Match

/-- **A step picks exactly and locally.**  Take a list of crossings none of which has an undefined height.
A step with two selectors that describe elements always gets an answer.  It gets no crossing when a
selector does not resolve.  Otherwise it gets the first crossing of the pair past the point that the step
names, or without such a point the earliest of the highest crossings of the pair; and it gets the same from
every list with the same crossings of this pair, whatever crossings of other pairs have been put in, taken
out or moved.  A step without selectors gets the earliest of the highest of all crossings. -/
theorem match_exact (f : Figure Float) (cs : List (Crossing Float)) (hcs : Ordered cs) :
    (∀ (m : Marking) (a b : Selector), m.ofA = some a → m.ofB = some b → a.Known → b.Known →
      ((a.resolve f = .ok none ∨ b.resolve f = .ok none) ∧ match? m cs f = .ok none) ∨
        ∃ p q, a.resolve f = .ok (some p) ∧ b.resolve f = .ok (some q) ∧
          ∃ pick, Picks m f (between p q cs) pick ∧
            ∀ cs', between p q cs' = between p q cs → match? m cs' f = .ok pick) ∧
      ∀ m : Marking, m.ofA = none → m.ofB = none →
        ∃ pick, match? m cs f = .ok pick ∧ PicksHighest cs pick := by
  refine ⟨fun m a b ha hb hknownA hknownB => ?_, fun m ha hb =>
    ⟨highest? cs, match?_of_nameless ha hb cs, picksHighest_highest? hcs⟩⟩
  obtain ⟨p?, hp⟩ := (a.resolve_meets f).1 hknownA
  obtain ⟨q?, hq⟩ := (b.resolve_meets f).1 hknownB
  -- Each selector may describe no element; then nothing suits.
  cases p? with
  | none => exact Or.inl ⟨Or.inl hp, match?_of_unresolved ha hb hp hq (Or.inl rfl) cs⟩
  | some p =>
    cases q? with
    | none => exact Or.inl ⟨Or.inr hq, match?_of_unresolved ha hb hp hq (Or.inr rfl) cs⟩
    | some q =>
      have hpair : Ordered (between p q cs) := fun c hc => hcs c (List.mem_of_mem_filter hc)
      refine Or.inr ⟨p, q, hp, hq, pickFrom m f (between p q cs), picks_pickFrom m f hpair, ?_⟩
      intro cs' hsame
      rw [match?_of_resolve ha hb hp hq, hsame]

/-- Two circles about the ends of a line cross twice.  Crossings of other pairs that are higher, and one of
the same pair on the same level, do not keep the upper one from being picked, from this list and from
another one with the other pairs elsewhere. -/
theorem match_exact_circles :
    let f : Figure Float := Figure.ofGiven [Point.given "A" ⟨0.0, 0.0⟩, Point.given "B" ⟨1.0, 0.0⟩,
      .circle ⟨"cir-1", "pt-A", "pt-B", "", .compass⟩, .circle ⟨"cir-2", "pt-B", "pt-A", "", .compass⟩]
    let m : Marking := { ofA := some (.circle "pt-A" "pt-B"), ofB := some (.named "cir-2") }
    let lower : Crossing Float := ⟨0.5, -0.875, "cir-2", "cir-1", 1⟩
    let upper : Crossing Float := ⟨0.5, 0.875, "cir-2", "cir-1", 0⟩
    let level : Crossing Float := ⟨7.0, 0.875, "cir-1", "cir-2", 0⟩
    let high : Crossing Float := ⟨0.0, 9.0, "cir-1", "seg-1", 0⟩
    let higher : Crossing Float := ⟨1.0, 10.0, "seg-1", "cir-2", 1⟩
    Ordered [high, lower, upper, higher, level] ∧
      upper.Tops (between "cir-1" "cir-2" [high, lower, upper, higher, level]) ∧
      match? m [high, lower, upper, higher, level] f = .ok (some upper) ∧
      match? m [lower, higher, upper, level, high, high] f = .ok (some upper) := by
  intro f m lower upper level high higher
  have hcs : Ordered [high, lower, upper, higher, level] := by
    unfold Ordered
    decide +kernel
  have hfirst : Selector.resolve f (.circle "pt-A" "pt-B") = .ok (some "cir-1") := rfl
  have hsecond : Selector.resolve f (.named "cir-2") = .ok (some "cir-2") := rfl
  have hupper : (match? m [high, lower, upper, higher, level] f).toOption = some (some upper) := by
    decide +kernel
  obtain ⟨hpair, -⟩ := match_exact f _ hcs
  rcases hpair m _ _ rfl rfl trivial trivial with ⟨hnone, -⟩ | ⟨p, q, hp, hq, pick, hpick, hlocal⟩
  · rw [hfirst, hsecond] at hnone
    rcases hnone with hnone | hnone <;> cases hnone
  · rw [hfirst] at hp
    rw [hsecond] at hq
    cases hp
    cases hq
    have hhere := hlocal [high, lower, upper, higher, level] rfl
    rw [hhere] at hupper
    obtain rfl := Option.some.inj hupper
    have hthere := hlocal [lower, higher, upper, level, high, high] (by decide +kernel)
    exact ⟨hcs, hpick, hhere, hthere⟩

end RulerCompass.Crossing
