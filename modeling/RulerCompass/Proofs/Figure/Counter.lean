import RulerCompass.Proofs.Label.Index
import RulerCompass.Scene

/-!
# The label counter

The counter of a given figure is not negative and no operation lowers it.  So drawing never fails as long
as the counter has not run through all labels and the labels that are asked for can be read.  Where the
counter comes to is bounded by what is asked of it: each request moves it past the label that is asked
for, or by as many labels as there are points at most.
-/

namespace RulerCompass

variable {K : Type} (style : Style)

/-! ### Figures -/

namespace Figure

/-- Labels continue after those of the given points, from the first one at least. -/
theorem ofGiven_nextLabel_nonneg (given : List (Element K)) : 0 ≤ (ofGiven given).nextLabel := by
  refine List.foldlRecOn given _ (Int.le_refl 0) fun next hnext e _ => ?_
  split
  · exact hnext
  · exact Int.le_trans hnext (Int.le_max_left next _)

/-- The labels of all points can be read. -/
def Legible (f : Figure K) : Prop := ∀ p ∈ f.points, Label.Readable p.label

instance (f : Figure K) : Decidable f.Legible :=
  inferInstanceAs (Decidable (∀ p ∈ f.points, Label.Readable p.label))

/-- Given elements are read when the labels of their points are. -/
theorem readLabels_eq_ok_iff (given : List (Element K)) :
    readLabels given = .ok () ↔ (ofGiven given).Legible := by
  show (given.filterMap Element.point?).forM _ = _ ↔ ∀ p ∈ given.filterMap Element.point?, _
  induction given.filterMap Element.point? with
  | nil => exact iff_of_true rfl fun _ h => nomatch h
  | cons p ps ih =>
    rw [List.forM_eq_forM, List.forM_cons, List.forall_mem_cons, ← ih]
    by_cases hp : Label.Readable p.label
    · rw [Label.index?_eq_ok_iff.mpr ⟨hp, rfl⟩]
      exact (and_iff_right hp).symm
    · rw [Label.index?_of_not_readable hp]
      exact ⟨(nomatch ·), fun h => absurd h.1 hp⟩

theorem readLabels_meets (given : List (Element K)) :
    Meets (ofGiven given).Legible (readLabels given) fun _ => True :=
  .of_ok fun h => ⟨(), (readLabels_eq_ok_iff given).mpr h⟩

theorem readLabels_failsBy (given : List (Element K)) : FailsBy Fault.OfLength (readLabels given) := by
  show FailsBy _ ((given.filterMap Element.point?).forM _)
  induction given.filterMap Element.point? with
  | nil => exact .of_ok ⟨(), rfl⟩
  | cons p ps ih =>
    rw [List.forM_eq_forM, List.forM_cons]
    refine FailsBy.bind ?_ fun _ _ => ih
    show FailsBy _ (Label.index? p.label >>= fun _ => .ok ())
    exact (Label.index?_failsBy p.label).bind fun n? _ => .of_ok ⟨_, rfl⟩

theorem readGiven_meets (given : List (Element K)) :
    Meets (ofGiven given).Legible (readGiven given) fun f => f = ofGiven given :=
  (readLabels_meets given).bind fun _ _ => meets_ok rfl

/-- There is a label for one more point: the one that is asked for can be read, or else the next one can
be written. -/
def HasLabel (f : Figure K) : Option String → Prop
  | none => 0 ≤ f.nextLabel ∧ f.nextLabel < Label.capacity
  | some label => Label.Readable label

/-- There are labels for so many more points, and the label that is asked for can be read. -/
structure Room (f : Figure K) (count : Nat) (label? : Option String) : Prop where
  counter : 0 ≤ f.nextLabel
  capacity : f.nextLabel + count ≤ Label.capacity
  readable : ∀ label ∈ label?, Label.Readable label

instance (f : Figure K) (count : Nat) (label? : Option String) : Decidable (f.Room count label?) :=
  decidable_of_iff (0 ≤ f.nextLabel ∧ f.nextLabel + count ≤ Label.capacity ∧
      ∀ label ∈ label?, Label.Readable label)
    ⟨fun h => ⟨h.1, h.2.1, h.2.2⟩, fun h => ⟨h.counter, h.capacity, h.readable⟩⟩

variable {f : Figure K} {label? : Option String}

theorem HasLabel.readable (h : f.HasLabel label?) : ∀ label ∈ label?, Label.Readable label := by
  rintro label rfl
  exact h

theorem Room.lt_capacity {count : Nat} (h : f.Room count label?) (hcount : 0 < count) :
    0 ≤ f.nextLabel ∧ f.nextLabel < Label.capacity := by
  have hcapacity := h.capacity
  exact ⟨h.counter, by omega⟩

theorem Room.hasLabel {count : Nat} (h : f.Room count label?) (hcount : 0 < count) :
    f.HasLabel label? := by
  cases label? with
  | none => exact h.lt_capacity hcount
  | some label => exact h.readable label rfl

variable (f)

/-- A point can be drawn while there is a label for it. -/
theorem addPoint_meets (place : Coord K) (origin : Origin) (label? : Option String) :
    Meets (f.HasLabel label?) (f.addPoint style place origin label?) fun r =>
      r.1.nextLabel = Label.advanced f.nextLabel label? := by
  have hnext := (Label.advance_meets f.nextLabel label?).imp (HasLabel.readable (f := f))
  cases label? with
  | none =>
    refine (Label.ofIndex_meets id).bind fun label _ => hnext.bind fun next hnext => ?_
    exact meets_ok hnext.symm
  | some label => exact hnext.bind fun next hnext => meets_ok hnext.symm

variable {f} in
theorem addPoint_failsBy (hcounter : 0 ≤ f.nextLabel) (place : Coord K) (origin : Origin)
    (label? : Option String) : FailsBy Fault.OfLength (f.addPoint style place origin label?) := by
  have hnext := Label.advance_failsBy f.nextLabel label?
  cases label? with
  | none =>
    refine (Label.ofIndex_failsBy hcounter).bind fun label _ => hnext.bind fun next _ => ?_
    exact .of_ok ⟨_, rfl⟩
  | some label => exact hnext.bind fun next _ => .of_ok ⟨_, rfl⟩

/-- The figure after a point that is passed over. -/
def skipped (label? : Option String) : Figure K :=
  { f with nextLabel := Label.advanced f.nextLabel label?, nextColor := f.nextColor + 1 }

theorem skipPoint_meets (label? : Option String) :
    Meets (∀ label ∈ label?, Label.Readable label) (f.skipPoint label?) fun g =>
      g = f.skipped label? :=
  (Label.advance_meets f.nextLabel label?).bind fun _ hnext => meets_ok (hnext ▸ rfl)

theorem skipPoint_failsBy (label? : Option String) : FailsBy Fault.OfLength (f.skipPoint label?) :=
  (Label.advance_failsBy f.nextLabel label?).bind fun _ _ => .of_ok ⟨_, rfl⟩

@[simp] theorem addCircle_nextLabel (centerId radiusPointId : String) :
    (f.addCircle style centerId radiusPointId).1.nextLabel = f.nextLabel := rfl

@[simp] theorem addSegment_nextLabel (fromId toId : String) :
    (f.addSegment style fromId toId).1.nextLabel = f.nextLabel := rfl

theorem le_skipped_nextLabel (label? : Option String) :
    f.nextLabel ≤ (f.skipped label?).nextLabel := Label.le_advanced _ _

end Figure

/-! ### Requests -/

/-- What is asked of the counter: a label by name, and labels for so many points at most. -/
structure Request where
  label? : Option String := none
  count : Nat := 0

/-- A bound of the counter after a request, from one before it. -/
def Request.ceiling (top : Nat) (r : Request) : Nat := max top (Label.requested r.label?) + r.count

theorem Request.add_count_le_ceiling (top : Nat) (r : Request) : top + r.count ≤ r.ceiling top := by
  rw [ceiling]
  omega

theorem Request.le_ceiling (r : Request) {i : Int} {top : Nat} (h : i ≤ top) : i ≤ r.ceiling top := by
  have hceiling := r.add_count_le_ceiling top
  omega

/-- One point, made or passed over, keeps the counter within the bound. -/
theorem Request.advanced_le_ceiling (label? : Option String) {i : Int} {top : Nat} (h : i ≤ top) :
    Label.advanced i label? ≤ Request.ceiling top ⟨label?, 1⟩ := by
  have hnext := Label.advanced_le i label?
  rw [ceiling]
  dsimp only
  omega

/-- A bound of the counter after all requests. -/
def ceilings (top : Nat) (requests : List Request) : Nat := requests.foldl Request.ceiling top

theorem le_ceilings (top : Nat) (requests : List Request) : top ≤ ceilings top requests := by
  induction requests generalizing top with
  | nil => exact Nat.le_refl top
  | cons r requests ih =>
    have hfirst := r.add_count_le_ceiling top
    exact Nat.le_trans (by omega) (ih (r.ceiling top))

/-- From a counter of at most `top` on there are labels for all requests and for so many points more, and
the labels that are asked for can be read. -/
structure LabelsSuffice (top : Nat) (requests : List Request) (more : Nat) : Prop where
  readable : ∀ r ∈ requests, ∀ label ∈ r.label?, Label.Readable label
  capacity : ceilings top requests + more ≤ Label.capacity

namespace LabelsSuffice

variable {top more : Nat} {r : Request} {requests : List Request}

instance : Decidable (LabelsSuffice top requests more) :=
  decidable_of_iff ((∀ r ∈ requests, ∀ label ∈ r.label?, Label.Readable label) ∧
      ceilings top requests + more ≤ Label.capacity)
    ⟨fun h => ⟨h.1, h.2⟩, fun h => ⟨h.readable, h.capacity⟩⟩

/-- There is room for the first request. -/
theorem room {f : Figure K} (h : LabelsSuffice top (r :: requests) more) (hcounter : 0 ≤ f.nextLabel)
    (htop : f.nextLabel ≤ top) : f.Room r.count r.label? where
  counter := hcounter
  capacity := by
    have hfirst := r.add_count_le_ceiling top
    have hrest := le_ceilings (r.ceiling top) requests
    have hcapacity : ceilings (r.ceiling top) requests + more ≤ Label.capacity := h.capacity
    omega
  readable := h.readable r List.mem_cons_self

theorem rest (h : LabelsSuffice top (r :: requests) more) :
    LabelsSuffice (r.ceiling top) requests more where
  readable s hs := h.readable s (List.mem_cons_of_mem r hs)
  capacity := h.capacity

end LabelsSuffice

/-- The given labels can be read, and from there on the labels suffice. -/
structure LabelsReach (given : List (Element K)) (requests : List Request) (more : Nat) : Prop where
  legible : (Figure.ofGiven given).Legible
  suffice : LabelsSuffice (Figure.ofGiven given).nextLabel.toNat requests more

instance (given : List (Element K)) (requests : List Request) (more : Nat) :
    Decidable (LabelsReach given requests more) :=
  decidable_of_iff ((Figure.ofGiven given).Legible ∧
      LabelsSuffice (Figure.ofGiven given).nextLabel.toNat requests more)
    ⟨fun h => ⟨h.1, h.2⟩, fun h => ⟨h.legible, h.suffice⟩⟩

/-! ### Scenes -/

namespace Scene

variable (s : Scene K)

/-- The scene after a point that is passed over. -/
def skipped (label? : Option String) : Scene K := { s with figure := s.figure.skipped label? }

theorem skip_meets (label? : Option String) :
    Meets (∀ label ∈ label?, Label.Readable label) (s.skip label?) fun t => t = s.skipped label? :=
  (s.figure.skipPoint_meets label?).bind fun _ hf => meets_ok (hf ▸ rfl)

theorem skip_failsBy (label? : Option String) : FailsBy Fault.OfLength (s.skip label?) :=
  (s.figure.skipPoint_failsBy label?).bind fun _ _ => .of_ok ⟨_, rfl⟩

variable {s} in
theorem eq_skipped_of_skip {t : Scene K} {label? : Option String} (h : s.skip label? = .ok t) :
    t = s.skipped label? := (s.skip_meets label?).2 t h

theorem le_skipped_nextLabel (label? : Option String) :
    s.figure.nextLabel ≤ (s.skipped label?).figure.nextLabel :=
  s.figure.le_skipped_nextLabel label?

variable [Scalar K]

@[simp] theorem search_figure (extend : Bool) (e : Element K) :
    (s.search extend e).figure = s.figure := rfl

@[simp] theorem searchAll_figure (extend : Bool) : (s.searchAll extend).figure = s.figure := by
  rw [searchAll]
  induction s.figure.elements generalizing s with
  | nil => rfl
  | cons e es ih =>
    rw [List.foldl_cons, ih, search_figure]

@[simp] theorem drawCircle_nextLabel (extend : Bool) (centerId radiusPointId : String) :
    (s.drawCircle style extend centerId radiusPointId).1.figure.nextLabel = s.figure.nextLabel :=
  s.figure.addCircle_nextLabel style centerId radiusPointId

@[simp] theorem drawSegment_nextLabel (extend : Bool) (fromId toId : String) :
    (s.drawSegment style extend fromId toId).1.figure.nextLabel = s.figure.nextLabel :=
  s.figure.addSegment_nextLabel style fromId toId

theorem mark_meets (c : Crossing K) (label? : Option String) :
    Meets (s.figure.HasLabel label?) (s.mark style c label?) fun r =>
      r.1.figure.nextLabel = Label.advanced s.figure.nextLabel label? :=
  (s.figure.addPoint_meets style c.position .intersection label?).bind fun _ hr => meets_ok hr

variable {s} in
theorem mark_failsBy (hcounter : 0 ≤ s.figure.nextLabel) (c : Crossing K) (label? : Option String) :
    FailsBy Fault.OfLength (s.mark style c label?) :=
  (Figure.addPoint_failsBy style hcounter c.position .intersection label?).bind fun _ _ =>
    .of_ok ⟨_, rfl⟩

end Scene

end RulerCompass
