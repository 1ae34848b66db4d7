import Mathlib.Data.Sym.Sym2
import RulerCompass.Gesture
import RulerCompass.Proofs.Crossing.Marking
import RulerCompass.Proofs.Replay.Attempt
import RulerCompass.Proofs.Scene.Moves

/-!
# Gestures and replays agree

A step is read twice.  A replay performs it on the figure before it, and a gesture of the user is
compared with it in the figure that has the new element already.  Both readings ask for the same:
drawing only appends, so a selector that has found an element finds it again afterwards.
-/

namespace RulerCompass

variable {K : Type} {f g : Figure K} {m : Marking} {c : Crossing K}

/-! ### Selectors in a growing figure -/

namespace Figure.GrowsTo

variable (hfg : f.GrowsTo g)
include hfg

/-- A selector takes the first element that it describes, and what is drawn later comes last. -/
theorem resolve {s : Selector} {id : String} (h : s.resolve f = .ok (some id)) :
    s.resolve g = .ok (some id) := by
  cases s with
  | named name =>
    obtain ⟨e, he, rfl⟩ := Option.map_eq_some_iff.mp (Except.ok.inj h)
    -- What comes first in the smaller figure comes first in the larger one.
    have hg : g.element? name = some e := List.IsPrefix.find?_eq_some hfg he
    rw [Selector.resolve, hg, Option.map_some]
  | circle centerId radiusPointId =>
    obtain ⟨d, hd, rfl⟩ := Option.map_eq_some_iff.mp (Except.ok.inj h)
    rw [Selector.resolve, List.IsPrefix.find?_eq_some hfg.circles_prefix hd, Option.map_some]
  | segment fromId toId =>
    obtain ⟨d, hd, rfl⟩ := Option.map_eq_some_iff.mp (Except.ok.inj h)
    have hsegments : f.segments <+: g.segments := List.IsPrefix.filterMap _ hfg
    rw [Selector.resolve, List.IsPrefix.find?_eq_some hsegments hd, Option.map_some]
  | unknown shown => cases h

theorem suits (h : c.Suits f m) : c.Suits g m := by
  rcases h with hfree | ⟨a, b, p, q, hofA, hofB, hp, hq, hjoins⟩
  · exact Or.inl hfree
  · exact Or.inr ⟨a, b, p, q, hofA, hofB, hfg.resolve hp, hfg.resolve hq, hjoins⟩

end Figure.GrowsTo

/-! ### What is accepted -/

/-- A mark asks for a point on a crossing: any crossing when it names no elements, and otherwise one that
suits it. -/
theorem Marking.accepts_iff {e : Element K} {c? : Option (Crossing K)} :
    m.accepts f e c? = .ok true ↔ ∃ p : Point K, e = .point p ∧ p.origin = .intersection ∧
      ((m.ofA = none ∧ m.ofB = none) ∨ ∃ c, c? = some c ∧ c.Suits f m) := by
  constructor
  · intro h
    unfold accepts at h
    split at h
    · rename_i p
      split at h
      · cases h
      · rename_i horigin
        refine ⟨p, rfl, not_not.mp horigin, ?_⟩
        -- Without selectors any crossing will do; else both have to be resolved.
        split at h
        · exact Or.inl ⟨‹_›, ‹_›⟩
        · rename_i a b c hofA hofB
          obtain ⟨x?, hx, h⟩ := exists_of_bind_eq_ok h
          obtain ⟨y?, hy, h⟩ := exists_of_bind_eq_ok h
          cases x? with
          | none => cases h
          | some x =>
            cases y? with
            | none => cases h
            | some y =>
              have hjoins : c.Joins x y := of_decide_eq_true (Except.ok.inj h)
              exact Or.inr ⟨c, rfl, Or.inr ⟨a, b, x, y, hofA, hofB, hx, hy, hjoins⟩⟩
        · cases h
    · cases h
  · rintro ⟨p, rfl, horigin, ⟨hofA, hofB⟩ | ⟨c, rfl, hsuits⟩⟩
    · simp only [accepts, horigin, hofA, hofB]
      rfl
    · rcases hsuits with ⟨hofA, hofB⟩ | ⟨a, b, x, y, hofA, hofB, hx, hy, hjoins⟩
      · simp only [accepts, horigin, hofA, hofB]
        rfl
      · simp only [accepts, horigin, hofA, hofB, hx, hy]
        exact congrArg Except.ok (decide_eq_true hjoins)

/-- A step of the compass asks for a circle, with its centre and its other point told apart. -/
theorem Action.accepts_compass_iff {p q : String} {e : Element K} {c? : Option (Crossing K)} :
    (Action.compass p q).accepts f e c? = .ok true ↔
      ∃ d : Circle, e = .circle d ∧ (d.centerId, d.radiusPointId) = (p, q) := by
  cases e <;> simp [accepts]

/-- A step of the straightedge asks for a segment, whichever way round. -/
theorem Action.accepts_straightedge_iff {p q : String} {e : Element K} {c? : Option (Crossing K)} :
    (Action.straightedge p q).accepts f e c? = .ok true ↔
      ∃ d : Segment, e = .segment d ∧ s(d.fromId, d.toId) = s(p, q) := by
  cases e with
  | segment d =>
    constructor
    · intro h
      exact ⟨d, rfl, Sym2.eq_iff.mpr (of_decide_eq_true (Except.ok.inj h))⟩
    · rintro ⟨_, ⟨⟩, hjoins⟩
      exact congrArg Except.ok (decide_eq_true (Sym2.eq_iff.mp hjoins))
  | _ => simp [accepts]

/-! ### What is performed -/

variable [Scalar K] {style : Style} {cs : List (Crossing K)}

/-- A step by hand, on a figure with unmarked crossings: the figure that it leads to, the element that it
draws, and the crossing that it marks.  Which crossing stands beside a line or circle does not matter. -/
inductive Draws (style : Style) (f : Figure K) (cs : List (Crossing K)) :
    Action → Figure K → Element K → Option (Crossing K) → Prop
  | straightedge (fromId toId : String) (c? : Option (Crossing K)) :
      Draws style f cs (.straightedge fromId toId) (f.addSegment style fromId toId).1
        (.segment (f.addSegment style fromId toId).2) c?
  | compass (centerId radiusPointId : String) (c? : Option (Crossing K)) :
      Draws style f cs (.compass centerId radiusPointId)
        (f.addCircle style centerId radiusPointId).1
        (.circle (f.addCircle style centerId radiusPointId).2) c?
  | mark {m : Marking} {c : Crossing K} {g : Figure K} {p : Point K}
      (hc : Crossing.match? m cs f = .ok (some c))
      (hp : f.addPoint style c.position .intersection m.label = .ok (g, p)) :
      Draws style f cs (.mark m) g (.point p) (some c)

/-- What is drawn is accepted in the figure that it has led to. -/
theorem accepts_of_draws {a : Action} {e : Element K} {c? : Option (Crossing K)}
    (h : Draws style f cs a g e c?) : a.accepts g e c? = .ok true := by
  cases h with
  | straightedge fromId toId => exact Action.accepts_straightedge_iff.mpr ⟨_, rfl, rfl⟩
  | compass centerId radiusPointId => exact Action.accepts_compass_iff.mpr ⟨_, rfl, rfl⟩
  | mark hc hp =>
    have hgrows : f.GrowsTo g := .of_append (f.addPoint_elements style hp)
    have hsuits := hgrows.suits (Crossing.suits_of_match? hc).2
    exact Marking.accepts_iff.mpr ⟨_, rfl, Figure.origin_of_addPoint hp, Or.inr ⟨_, rfl, hsuits⟩⟩

/-- These are the steps in which a replay succeeds without a macro. -/
theorem draws_iff_attempt (propId : Int) (extend : Bool) (index : Nat) (r : Replay K) {a : Action}
    (ha : ∀ call, a ≠ .call call) (g : Figure K) :
    (∃ e c?, Draws style r.scene.figure r.scene.crossings a g e c?) ↔
      ∃ r', (r.attempt style propId extend index a).result = .ok (true, r') ∧
        r'.scene.figure = g := by
  constructor
  · rintro ⟨e, c?, h⟩
    cases h with
    | straightedge fromId toId => exact ⟨_, rfl, rfl⟩
    | compass centerId radiusPointId => exact ⟨_, rfl, rfl⟩
    | @mark m c g p hc hp =>
      -- The point is the one the attempt makes, since marking depends on the figure alone.
      have hs : r.scene.mark style c m.label =
          .ok (⟨g, Crossing.without r.scene.crossings c⟩, p) := by
        rw [Scene.mark, hp]
        rfl
      exact ⟨_, Replay.attempt_mark hc hs, rfl⟩
  · rintro ⟨r', hr, rfl⟩
    cases Replay.attempted_of_attempt hr with
    | segment fromId toId => exact ⟨_, none, .straightedge fromId toId none⟩
    | circle centerId radiusPointId => exact ⟨_, none, .compass centerId radiusPointId none⟩
    | marked hc hs =>
      obtain ⟨⟨g, p⟩, hp, hs⟩ := exists_of_bind_eq_ok hs
      cases hs
      exact ⟨_, _, .mark hc hp⟩
    | called => exact absurd rfl (ha _)

/-- **What a replay draws is accepted as a gesture.**  Take a step that is not a macro.  When it is
drawn, on whatever figure and unmarked crossings, then what has been drawn and the crossing that has been
marked are accepted for it in the figure that has them; and it is drawn in this way exactly when a replay
succeeds in it.  Nothing is accepted for the compass but circles about its centre through its point, and
nothing for the straightedge but segments between its two points. -/
theorem accepts_what_is_drawn (style : Style) :
    (∀ (f g : Figure K) (cs : List (Crossing K)) (a : Action) (e : Element K)
      (c? : Option (Crossing K)), Draws style f cs a g e c? → a.accepts g e c? = .ok true) ∧
    (∀ (propId : Int) (extend : Bool) (index : Nat) (r : Replay K) (a : Action) (g : Figure K),
      (∀ call, a ≠ .call call) →
        ((∃ e c?, Draws style r.scene.figure r.scene.crossings a g e c?) ↔
          ∃ r', (r.attempt style propId extend index a).result = .ok (true, r') ∧
            r'.scene.figure = g)) ∧
    (∀ (p q : String) (f : Figure K) (e : Element K) (c? : Option (Crossing K)),
      (Action.compass p q).accepts f e c? = .ok true ↔
        ∃ d : Circle, e = .circle d ∧ (d.centerId, d.radiusPointId) = (p, q)) ∧
    ∀ (p q : String) (f : Figure K) (e : Element K) (c? : Option (Crossing K)),
      (Action.straightedge p q).accepts f e c? = .ok true ↔
        ∃ d : Segment, e = .segment d ∧ s(d.fromId, d.toId) = s(p, q) := by
  refine ⟨?_, ?_, ?_, ?_⟩
  · intro f g cs a e c? h
    exact accepts_of_draws h
  · intro propId extend index r a g ha
    exact draws_iff_attempt propId extend index r ha g
  · intro p q f e c?
    exact Action.accepts_compass_iff
  · intro p q f e c?
    exact Action.accepts_straightedge_iff

/-- The circle about A through B and the circle about B through A are drawn and cross above the line.
A mark names the first circle by its points and the second by its id; the new point is accepted for it,
and a replay succeeds in it.  The line from B to A is accepted for the line from A to B, but the first
circle is not accepted for the second. -/
theorem accepts_what_is_drawn_circles :
    let A : Element Float := Point.given "A" ⟨0.0, 0.0⟩
    let B : Element Float := Point.given "B" ⟨1.0, 0.0⟩
    let first : Circle := ⟨"cir-1", "pt-A", "pt-B", "", .compass⟩
    let second : Circle := ⟨"cir-2", "pt-B", "pt-A", "", .compass⟩
    let f : Figure Float := Figure.ofGiven [A, B, .circle first, .circle second]
    let c : Crossing Float := ⟨0.5, 0.875, "cir-2", "cir-1", 0⟩
    let m : Marking := { ofA := some (.circle "pt-A" "pt-B"), ofB := some (.named "cir-2") }
    let r : Replay Float := { scene := ⟨f, [c]⟩ }
    (∃ g p, Draws {} f [c] (.mark m) g (.point p) (some c) ∧ g.elements = f.elements ++ [.point p] ∧
      (Action.mark m).accepts g (.point p) (some c) = .ok true ∧
      ∃ r', (r.attempt {} 1 false 2 (.mark m)).result = .ok (true, r') ∧ r'.scene.figure = g) ∧
      (Action.straightedge "pt-A" "pt-B").accepts f
        (.segment ⟨"seg-1", "pt-B", "pt-A", "", .straightedge⟩) none = .ok true ∧
      (Action.compass "pt-B" "pt-A").accepts f (.circle first) none ≠ .ok true := by
  intro A B first second f c m r
  obtain ⟨haccepts, hattempts, hcompass, hstraightedge⟩ := accepts_what_is_drawn (K := Float) {}
  have hc : Crossing.match? m [c] f = .ok (some c) := rfl
  have hroom : f.Room 1 m.label := by decide +kernel
  obtain ⟨⟨g, p⟩, hp⟩ :=
    (f.addPoint_meets {} c.position .intersection m.label).1 (hroom.hasLabel Nat.one_pos)
  have h : Draws {} f [c] (.mark m) g (.point p) (some c) := .mark hc hp
  have helements : g.elements = f.elements ++ [.point p] := by
    cases h with
    | mark _ hp => exact f.addPoint_elements {} hp
  refine ⟨⟨g, p, h, helements, haccepts f g [c] (.mark m) (.point p) (some c) h, ?_⟩, ?_, ?_⟩
  · exact (hattempts 1 false 2 r (.mark m) g nofun).mp ⟨_, _, h⟩
  · exact (hstraightedge "pt-A" "pt-B" f _ none).mpr ⟨_, rfl, Sym2.eq_swap⟩
  · -- The circle has its points the other way round.
    intro h
    obtain ⟨d, hd, hpair⟩ := (hcompass "pt-B" "pt-A" f _ none).mp h
    cases hd
    exact absurd hpair (by decide)

end RulerCompass
