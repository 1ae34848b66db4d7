import RulerCompass.Crossing.Choice
import RulerCompass.Proofs.Scalar.Exact

/-!
# Past an end of a segment

Whether a crossing lies past an end of a segment is seen from the other end, and which end is the other one
is told by position and not by id.  For ends apart from each other it is the same whichever of them the
segment starts from.  Of ends that are near each other the second one counts as the first: it is then its
own other end, and nothing lies past it.

Read at the real numbers, no crossing lies past both ends (`not_beyond_both_ends`).
-/

namespace RulerCompass

/-! ### Turned segments -/

/-- The segment with its ends exchanged. -/
def Segment.turned (s : Segment) : Segment := { s with fromId := s.toId, toId := s.fromId }

variable {K : Type}

/-- A segment is turned, and any other element stays as it is. -/
def Element.turned : Element K → Element K
  | .segment s => .segment s.turned
  | e => e

namespace Figure

/-- The figure with the element at this place turned. -/
def turnAt (f : Figure K) (i : Nat) : Figure K :=
  { f with elements := f.elements.modify i Element.turned }

section TurnAt

variable {f : Figure K} {s : Segment} {i : Nat} (hi : f.elements[i]? = some (.segment s))
include hi

/-- All other elements stay where they are. -/
theorem exists_split_turnAt : ∃ before after, f.elements = before ++ .segment s :: after ∧
    (f.turnAt i).elements = before ++ .segment s.turned :: after := by
  obtain ⟨hlt, hget⟩ := List.getElem?_eq_some_iff.mp hi
  refine ⟨f.elements.take i, f.elements.drop (i + 1), ?_, ?_⟩
  · rw [← hget, List.getElem_cons_drop, List.take_append_drop]
  · rw [turnAt, List.modify_eq_take_cons_drop hlt, hget]
    rfl

theorem point?_turnAt (id : String) : (f.turnAt i).point? id = f.point? id := by
  obtain ⟨before, after, hf, hturned⟩ := exists_split_turnAt hi
  rw [point?, point?, points, points, hf, hturned, List.filterMap_append, List.filterMap_append]
  rfl

/-- A look-up finds what it found before, but for the turned segment. -/
theorem segment?_turnAt (id : String) : (f.turnAt i).segment? id = f.segment? id ∨
    f.segment? id = some s ∧ (f.turnAt i).segment? id = some s.turned := by
  obtain ⟨before, after, hf, hturned⟩ := exists_split_turnAt hi
  have hcons : ∀ t : Segment, List.filterMap (Element.segment? (K := K)) (.segment t :: after) =
      t :: after.filterMap Element.segment? := fun _ => rfl
  rw [segment?, segment?, segments, segments, hf, hturned, List.filterMap_append,
    List.filterMap_append, List.find?_append, List.find?_append, hcons, hcons]
  cases (before.filterMap Element.segment?).find? fun t => t.id = id with
  -- An earlier segment of that name is found in both figures.
  | some t => exact Or.inl rfl
  | none =>
    rw [Option.none_or, Option.none_or]
    have hturn : s.turned.id = s.id := rfl
    -- Only the first segment that has the name is found, so it matters whether this one has it.
    by_cases hid : s.id = id
    · rw [List.find?_cons_of_pos (by simp [hturn, hid]), List.find?_cons_of_pos (by simp [hid])]
      exact Or.inr ⟨rfl, rfl⟩
    · rw [List.find?_cons_of_neg (by simp [hturn, hid]), List.find?_cons_of_neg (by simp [hid])]
      exact Or.inl rfl

theorem parent?_turnAt (ofA ofB : String) :
    ((f.turnAt i).segment? ofA).or ((f.turnAt i).segment? ofB) =
        (f.segment? ofA).or (f.segment? ofB) ∨
      (f.segment? ofA).or (f.segment? ofB) = some s ∧
        ((f.turnAt i).segment? ofA).or ((f.turnAt i).segment? ofB) = some s.turned := by
  rcases segment?_turnAt hi ofA with hA | ⟨hA, hA'⟩
  · rw [hA]
    cases f.segment? ofA with
    | some t => exact Or.inl rfl
    | none => exact segment?_turnAt hi ofB
  · rw [hA, hA']
    exact Or.inr ⟨rfl, rfl⟩

end TurnAt

theorem span?_eq_some {f : Figure K} {s : Segment} {p q : Point K} (hp : f.point? s.fromId = some p)
    (hq : f.point? s.toId = some q) : f.span? s = some ⟨p.position, q.position⟩ := by
  rw [span?, hp, hq]
  rfl

end Figure

/-! ### Past an end -/

namespace Span

variable {l : Span ℝ} {p c : Coord ℝ}

/-- The end from which the end `p` is seen. -/
noncomputable def opposite (l : Span ℝ) (p : Coord ℝ) : Coord ℝ :=
  if p.Near l.start then l.stop else l.start

/-- The position lies past the end `p`. -/
def Past (l : Span ℝ) (p c : Coord ℝ) : Prop := 0 < (p - l.opposite p).dot (c - p)

theorem opposite_start : l.opposite l.start = l.stop := if_pos l.start.near_self

theorem opposite_stop (hl : ¬ l.start.Near l.stop) : l.opposite l.stop = l.start :=
  if_neg (mt (Coord.near_comm _ _).mp hl)

/-- Nothing lies past the second of two ends that are near each other. -/
theorem not_past_stop (hl : l.start.Near l.stop) : ¬ l.Past l.stop c := by
  have hself : l.opposite l.stop = l.stop := if_pos ((Coord.near_comm _ _).mp hl)
  have hdot : (l.stop - l.stop).dot (c - l.stop) = 0 := by
    show (l.stop.x - l.stop.x) * _ + (l.stop.y - l.stop.y) * _ = (0 : ℝ)
    rw [sub_self, sub_self, zero_mul, zero_mul, add_zero]
  rw [Past, hself, hdot]
  exact lt_irrefl 0

/-- A position cannot be past both ends: the two products add up to a square with a minus sign. -/
theorem not_past_both (l : Span ℝ) (c : Coord ℝ) : ¬ (l.Past l.start c ∧ l.Past l.stop c) := by
  rintro ⟨hstart, hstop⟩
  by_cases hl : l.start.Near l.stop
  · -- Ends close to each other: the direction is that of the start, and the stop is never passed.
    exact not_past_stop hl hstop
  · rw [Past, opposite_start] at hstart
    rw [Past, opposite_stop hl] at hstop
    have hsum : (l.start - l.stop).dot (c - l.start) + (l.stop - l.start).dot (c - l.stop) =
        -((l.start.x - l.stop.x) ^ 2 + (l.start.y - l.stop.y) ^ 2) := by
      show (l.start.x - l.stop.x) * (c.x - l.start.x) + (l.start.y - l.stop.y) * (c.y - l.start.y) +
        ((l.stop.x - l.start.x) * (c.x - l.stop.x) + (l.stop.y - l.start.y) * (c.y - l.stop.y)) = _
      ring
    -- The two dot products add up to minus the square of the length.
    have hsquare : 0 ≤ (l.start.x - l.stop.x) ^ 2 + (l.start.y - l.stop.y) ^ 2 :=
      add_nonneg (sq_nonneg _) (sq_nonneg _)
    linarith

/-- Ends that are apart have the same opposite ends when the segment is turned. -/
theorem past_turned (hl : ¬ l.start.Near l.stop) (hp : p = l.start ∨ p = l.stop) :
    Past ⟨l.stop, l.start⟩ p c ↔ l.Past p c := by
  have hback : ¬ l.stop.Near l.start := mt (Coord.near_comm _ _).mp hl
  have hopposite : opposite ⟨l.stop, l.start⟩ p = l.opposite p := by
    rcases hp with rfl | rfl
    · rw [opposite_start]
      exact if_neg hl
    · rw [opposite_stop hl]
      exact if_pos l.stop.near_self
  rw [Past, Past, hopposite]

end Span

namespace Crossing

variable {f : Figure ℝ} {s : Segment} {c : Crossing ℝ} {ofA ofB id : String}

theorem isBeyond_iff {l : Span ℝ} {p : Point ℝ} (hs : (f.segment? ofA).or (f.segment? ofB) = some s)
    (hl : f.span? s = some l) (hp : f.point? id = some p) :
    c.IsBeyond id ofA ofB f ↔ l.Past p.position c.position := by
  rw [IsBeyond, hs, hp]
  simp only [hl, Scalar.zero_real]
  rfl

/-- **No crossing is past both ends** of the segment among its parents, however near the ends are to each
other.  While they are apart in some coordinate, it makes no difference from which of them the segment
starts. -/
theorem not_beyond_both_ends :
    (∀ (f : Figure ℝ) (s : Segment) (p q : Point ℝ) (c : Crossing ℝ) (ofA ofB : String),
      (f.segment? ofA).or (f.segment? ofB) = some s →
      f.point? s.fromId = some p → f.point? s.toId = some q →
      ¬ (c.IsBeyond s.fromId ofA ofB f ∧ c.IsBeyond s.toId ofA ofB f)) ∧
    ∀ (f : Figure ℝ) (i : Nat) (s : Segment) (p q : Point ℝ) (c : Crossing ℝ) (ofA ofB id : String),
      f.elements[i]? = some (.segment s) →
      f.point? s.fromId = some p → f.point? s.toId = some q →
      (Scalar.tolerance ≤ |p.x - q.x| ∨ Scalar.tolerance ≤ |p.y - q.y|) →
      id = s.fromId ∨ id = s.toId →
      (c.IsBeyond id ofA ofB (f.turnAt i) ↔ c.IsBeyond id ofA ofB f) := by
  refine ⟨fun f s p q c ofA ofB hs hp hq => ?_, fun f i s p q c ofA ofB id hi hp hq hapart hid => ?_⟩
  · have hl := Figure.span?_eq_some hp hq
    rw [isBeyond_iff hs hl hp, isBeyond_iff hs hl hq]
    exact Span.not_past_both ⟨p.position, q.position⟩ c.position
  · have hpoint := Figure.point?_turnAt hi
    rcases Figure.parent?_turnAt hi ofA ofB with hsame | ⟨hs, hturned⟩
    · -- The parent is another segment, and its ends are where they were.
      have hspan : (f.turnAt i).span? = f.span? := by
        funext t
        rw [Figure.span?, Figure.span?, hpoint, hpoint]
      rw [IsBeyond, IsBeyond, hsame, hpoint, hspan]
    · have hl := Figure.span?_eq_some hp hq
      have hl' : (f.turnAt i).span? s.turned = some ⟨q.position, p.position⟩ :=
        Figure.span?_eq_some ((hpoint _).trans hq) ((hpoint _).trans hp)
      -- The parent is the segment turned around; its ends are not close, so they are told apart.
      have hfar : ¬ p.position.Near q.position := (Coord.not_near_iff _ _).mpr hapart
      rcases hid with rfl | rfl
      · rw [isBeyond_iff hturned hl' ((hpoint _).trans hp), isBeyond_iff hs hl hp]
        exact Span.past_turned (l := ⟨p.position, q.position⟩) hfar (Or.inl rfl)
      · rw [isBeyond_iff hturned hl' ((hpoint _).trans hq), isBeyond_iff hs hl hq]
        exact Span.past_turned (l := ⟨p.position, q.position⟩) hfar (Or.inr rfl)

/-- A crossing on the line of a segment, behind its second end. -/
theorem not_beyond_both_ends_two_points :
    let a : Point ℝ := ⟨"pt-A", 0, 0, "A", "#000", .given⟩
    let b : Point ℝ := ⟨"pt-B", 2, 0, "B", "#000", .given⟩
    let f : Figure ℝ := ⟨[.point a, .point b, .segment ⟨"seg-AB", "pt-A", "pt-B", "#000", .given⟩], 2, 0⟩
    let c : Crossing ℝ := ⟨3, 0, "cir-1", "seg-AB", 1⟩
    ¬ (c.IsBeyond "pt-A" "cir-1" "seg-AB" f ∧ c.IsBeyond "pt-B" "cir-1" "seg-AB" f) ∧
      (c.IsBeyond "pt-B" "cir-1" "seg-AB" (f.turnAt 2) ↔ c.IsBeyond "pt-B" "cir-1" "seg-AB" f) := by
  intro a b f c
  have hs : (f.segment? "cir-1").or (f.segment? "seg-AB") =
      some ⟨"seg-AB", "pt-A", "pt-B", "#000", .given⟩ := rfl
  have ha : f.point? "pt-A" = some a := rfl
  have hb : f.point? "pt-B" = some b := rfl
  have hapart : Scalar.tolerance ≤ |a.x - b.x| := by
    show Scalar.tolerance ≤ |(0 : ℝ) - 2|
    rw [Scalar.tolerance_real]
    norm_num
  exact ⟨not_beyond_both_ends.1 f _ a b c "cir-1" "seg-AB" hs ha hb,
    not_beyond_both_ends.2 f 2 _ a b c "cir-1" "seg-AB" "pt-B" rfl ha hb (Or.inl hapart) (Or.inr rfl)⟩

end Crossing

end RulerCompass
