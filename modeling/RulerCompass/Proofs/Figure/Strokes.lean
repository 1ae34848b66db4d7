import RulerCompass.Proofs.Figure.Distinct

/-!
# Drawing by strokes

A figure is drawn stroke by stroke.  Each kind of element has a counter that numbers what is drawn next:
points by their labels, segments and circles by how many there are.  A stroke that leaves the label to
the counter takes the next number of its kind and moves no counter back; it is refused only when labels
have run out.
-/

namespace RulerCompass

variable {K : Type}

/-! ### Counters -/

/-- The kinds of ids that are made by counting. -/
inductive Counter where
  | label
  | segment
  | circle
  deriving DecidableEq

/-- The id that a counter makes from a number. -/
def Counter.id : Counter → Nat → String
  | label, n => pointId (Label.text n)
  | segment, n => segmentId n
  | circle, n => circleId n

/-- The counter comes to make an id from this number; labels reach up to the capacity. -/
def Counter.Makes : Counter → Nat → Prop
  | label, n => n < Label.capacity
  | _, _ => True

theorem Counter.Makes.mono {c : Counter} {m n : Nat} (h : c.Makes n) (hmn : m ≤ n) : c.Makes m := by
  cases c with
  | label => exact Nat.lt_of_le_of_lt hmn h
  | segment => trivial
  | circle => trivial

/-- Ids of different kinds or numbers differ. -/
theorem Counter.id_injective {c d : Counter} {m n : Nat} (h : c.id m = d.id n) : c = d ∧ m = n := by
  cases c <;> cases d
  case label.label =>
    -- Labels of different numbers differ, since they are read back; the other ids show their number.
    have hindex := congrArg Label.number? (pointId_injective h)
    rw [Label.number?_text, Label.number?_text] at hindex
    exact ⟨rfl, Option.some.inj hindex⟩
  case segment.segment => exact ⟨rfl, segmentId_injective h⟩
  case circle.circle => exact ⟨rfl, circleId_injective h⟩
  case label.segment => exact absurd h (pointId_ne_seg _ _)
  case segment.label => exact absurd h.symm (pointId_ne_seg _ _)
  case label.circle => exact absurd h (pointId_ne_circleId _ _)
  case circle.label => exact absurd h.symm (pointId_ne_circleId _ _)
  case segment.circle => exact absurd h (seg_ne_circleId _ _)
  case circle.segment => exact absurd h.symm (seg_ne_circleId _ _)

/-- The number that a counter uses next. -/
def Figure.next (f : Figure K) : Counter → Nat
  | .label => f.nextLabel.toNat
  | .segment => f.segments.length + 1
  | .circle => f.circles.length + 1

/-! ### Strokes -/

/-- One operation on a figure.  To skip a point moves the counters as if it had been drawn. -/
inductive Stroke (K : Type) where
  | point (place : Coord K) (origin : Origin) (label? : Option String := none)
  | segment (fromId toId : String)
  | circle (centerId radiusPointId : String)
  | skip (label? : Option String := none)

namespace Stroke

/-- No point is drawn with a label of its own. -/
def Automatic : Stroke K → Prop
  | point _ _ label? => label? = none
  | _ => True

/-- The counter that numbers what the stroke draws. -/
def counter? : Stroke K → Option Counter
  | point .. => some .label
  | segment .. => some .segment
  | circle .. => some .circle
  | skip _ => none

/-- What the stroke asks of the label counter. -/
def request : Stroke K → Request
  | point _ _ label? => ⟨label?, 1⟩
  | skip label? => ⟨label?, 1⟩
  | _ => {}

instance : DecidablePred (Automatic (K := K))
  | point _ _ label? => inferInstanceAs (Decidable (label? = none))
  | segment .. => isTrue trivial
  | circle .. => isTrue trivial
  | skip _ => isTrue trivial

end Stroke

namespace Figure

variable (style : Style)

/-- The figure after a stroke. -/
def draw (f : Figure K) : Stroke K → Except Fault (Figure K)
  | .point place origin label? => do
    let (g, _) ← f.addPoint style place origin label?
    return g
  | .segment fromId toId => .ok (f.addSegment style fromId toId).1
  | .circle centerId radiusPointId => .ok (f.addCircle style centerId radiusPointId).1
  | .skip label? => f.skipPoint label?

/-- The figure after some strokes. -/
def drawAll (f : Figure K) (strokes : List (Stroke K)) : Except Fault (Figure K) :=
  strokes.foldlM (draw style) f

/-- The figure after some strokes on given elements, which are read first. -/
def drawOn (given : List (Element K)) (strokes : List (Stroke K)) : Except Fault (Figure K) := do
  let f ← readGiven given
  f.drawAll style strokes

variable {style} {f g : Figure K}

theorem drawAll_cons {s : Stroke K} (h : f.draw style s = .ok g) (strokes : List (Stroke K)) :
    f.drawAll style (s :: strokes) = g.drawAll style strokes := by
  rw [drawAll, List.foldlM_cons, h]
  rfl

theorem drawOn_eq_ok_iff {given : List (Element K)} {strokes : List (Stroke K)} :
    drawOn style given strokes = .ok f ↔
      (ofGiven given).Legible ∧ (ofGiven given).drawAll style strokes = .ok f := by
  constructor
  · intro h
    obtain ⟨_, hread, h⟩ := exists_of_bind_eq_ok h
    obtain ⟨_, hlabels, hread⟩ := exists_of_bind_eq_ok hread
    cases hread
    exact ⟨(readLabels_eq_ok_iff given).mp hlabels, h⟩
  · rintro ⟨hlegible, h⟩
    rw [drawOn, readGiven, (readLabels_eq_ok_iff given).mpr hlegible]
    exact h

/-! ### The label counter -/

/-- A stroke is done while there is a label for it.  No stroke takes the counter back, or further than it
has asked for. -/
theorem draw_meets (f : Figure K) (s : Stroke K) :
    Meets (f.Room s.request.count s.request.label?) (f.draw style s) fun g =>
      f.nextLabel ≤ g.nextLabel ∧ ∀ top : Nat, f.nextLabel ≤ top → g.nextLabel ≤ s.request.ceiling top := by
  cases s with
  | point place origin label? =>
    have hpoint := f.addPoint_meets style place origin label?
    refine (hpoint.imp fun hroom => hroom.hasLabel Nat.one_pos).bind fun r hr => ?_
    refine meets_ok ?_
    rw [hr]
    exact ⟨Label.le_advanced f.nextLabel label?, fun _ => Request.advanced_le_ceiling label?⟩
  | segment fromId toId => exact meets_ok ⟨Int.le_refl _, fun _ => Request.le_ceiling _⟩
  | circle centerId radiusPointId => exact meets_ok ⟨Int.le_refl _, fun _ => Request.le_ceiling _⟩
  | skip label? =>
    refine ((f.skipPoint_meets label?).imp Room.readable).mono fun g hg => ?_
    rw [hg]
    exact ⟨f.le_skipped_nextLabel label?, fun _ => Request.advanced_le_ceiling label?⟩

theorem nextLabel_le_of_draw {s : Stroke K} (h : f.draw style s = .ok g) :
    f.nextLabel ≤ g.nextLabel := ((f.draw_meets s).2 g h).1

/-- **Strokes are done while the labels suffice**, and none takes the counter back. -/
theorem drawAll_meets (strokes : List (Stroke K)) (hcounter : 0 ≤ f.nextLabel) {top : Nat}
    (htop : f.nextLabel ≤ top) :
    Meets (LabelsSuffice top (strokes.map Stroke.request) 0) (f.drawAll style strokes) fun g =>
      f.nextLabel ≤ g.nextLabel := by
  induction strokes generalizing f top with
  | nil => exact meets_ok (Int.le_refl _)
  | cons s strokes ih =>
    rw [drawAll, List.foldlM_cons]
    refine ((f.draw_meets s).imp fun h => h.room hcounter htop).bind fun g ⟨hle, hceiling⟩ => ?_
    have hrest := ih (Int.le_trans hcounter hle) (hceiling top htop)
    exact (hrest.imp LabelsSuffice.rest).mono fun h hh => Int.le_trans hle hh

theorem nextLabel_le_of_drawAll {strokes : List (Stroke K)} (hcounter : 0 ≤ f.nextLabel)
    (h : f.drawAll style strokes = .ok g) : f.nextLabel ≤ g.nextLabel :=
  (drawAll_meets strokes hcounter (Int.self_le_toNat _)).2 g h

/-- Given elements that can be read are drawn on while the labels suffice. -/
theorem exists_drawOn {given : List (Element K)} {strokes : List (Stroke K)}
    (h : LabelsReach given (strokes.map Stroke.request) 0) : ∃ f, drawOn style given strokes = .ok f := by
  obtain ⟨f, hf⟩ := (drawAll_meets strokes (ofGiven_nextLabel_nonneg given)
    (Int.self_le_toNat _)).1 h.suffice
  exact ⟨f, drawOn_eq_ok_iff.mpr ⟨h.legible, hf⟩⟩

/-! ### Numbers -/

/-- What a stroke with automatic labels does: it draws at most one element, calls it by the next number
of its kind, and moves that counter on by one. -/
structure Drawn (f g : Figure K) (c? : Option Counter) (new : List (Element K)) : Prop where
  elements : g.elements = f.elements ++ new
  ids : new.map Element.id = c?.toList.map fun c => c.id (f.next c)
  makes : ∀ c ∈ c?, c.Makes (f.next c)
  next_le : ∀ c, f.next c ≤ g.next c
  next_eq : ∀ c ∈ c?, g.next c = f.next c + 1

/-- **A stroke with automatic labels** takes the next number of its kind. -/
theorem exists_drawn (hf : 0 ≤ f.nextLabel) {s : Stroke K} (hs : s.Automatic)
    (h : f.draw style s = .ok g) : ∃ new, f.Drawn g s.counter? new := by
  cases s with
  -- A point counts its label, a segment and a circle their kind; passing over draws nothing.
  | point place origin label? =>
    obtain rfl : label? = none := hs
    obtain ⟨r, hr, h⟩ := exists_of_bind_eq_ok h
    cases h
    obtain ⟨label, hlabel, rfl⟩ := f.exists_label_of_addPoint style hr
    obtain ⟨hcapacity, rfl⟩ := (Label.ofIndex_eq_ok_iff hf).mp hlabel
    refine ⟨_, rfl, rfl, ?_, ?_, ?_⟩
    · rintro _ ⟨⟩
      exact (Int.toNat_lt hf).mpr hcapacity
    · intro c
      cases c <;> simp [next, segments, circles, Element.segment?, Element.circle?, Label.advanced]
    · rintro _ ⟨⟩
      simp only [next, Label.advanced]
      omega
  | segment fromId toId =>
    cases h
    refine ⟨_, rfl, rfl, ?_, ?_, ?_⟩
    · rintro _ ⟨⟩
      trivial
    · intro c
      cases c <;> simp [next, addSegment, segments, circles, Element.segment?, Element.circle?]
    · rintro _ ⟨⟩
      simp [next, addSegment, segments, Element.segment?]
  | circle centerId radiusPointId =>
    cases h
    refine ⟨_, rfl, rfl, ?_, ?_, ?_⟩
    · rintro _ ⟨⟩
      trivial
    · intro c
      cases c <;> simp [next, addCircle, segments, circles, Element.segment?, Element.circle?]
    · rintro _ ⟨⟩
      simp [next, addCircle, circles, Element.circle?]
  | skip label? =>
    obtain rfl := (f.skipPoint_meets label?).2 g h
    refine ⟨[], (List.append_nil _).symm, rfl, ?_, ?_, ?_⟩
    · rintro _ ⟨⟩
    · intro c
      cases c with
      | label => exact Int.toNat_le_toNat (f.le_skipped_nextLabel label?)
      | segment => exact Nat.le_refl _
      | circle => exact Nat.le_refl _
    · rintro _ ⟨⟩

end Figure

end RulerCompass
