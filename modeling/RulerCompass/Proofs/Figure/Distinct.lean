import RulerCompass.Proofs.Figure.Names
import RulerCompass.Proofs.Label.Index

/-!
# Figures without shared ids

The ids of drawn things come from three sources: labels for points, and counting for segments and
circles.  In a distinct figure no id is shared, and what has been drawn stands below the counters: the
numbers of labels below the label counter, the numbers of segments and circles not above how many
there are.  So a new segment or circle, a point with an automatic label and one with a label of its own
that no point bears yet keep the figure distinct.
-/

namespace RulerCompass

variable {K : Type} {style : Style}

/-- The id of the segment that is drawn with this number. -/
def segmentId (n : Nat) : String := "seg-" ++ toString n

theorem segmentId_injective : Function.Injective segmentId := by
  intro m n h
  exact Nat.repr_inj.mp ((String.append_right_inj "seg-").mp h)

/-! ### Ids of different kinds -/

theorem pointId_ne_seg (label s : String) : pointId label ≠ "seg-" ++ s := by
  intro h
  have hfirst := congrArg String.toList h
  simp [pointId] at hfirst

theorem pointId_ne_circleId (label : String) (n : Nat) : pointId label ≠ circleId n := by
  intro h
  have hfirst := congrArg String.toList h
  simp [pointId, circleId] at hfirst

namespace Figure

/-- The ids of all elements. -/
def ids (f : Figure K) : List String := f.elements.map Element.id

/-- The element is called as one of its kind, by a number below the counters if it has one. -/
def Counts (f : Figure K) : Element K → Prop
  | .point p => p.id = pointId p.label ∧ ∀ n, Label.index? p.label = .ok (some n) → (n : Int) < f.nextLabel
  | .segment s => (∃ name, s.id = "seg-" ++ name) ∧ ∀ n, s.id = segmentId n → n ≤ f.segments.length
  | .circle c => ∃ n, c.id = circleId n ∧ n ≤ f.circles.length

/-- No id is shared, and the counters have passed all that is drawn. -/
structure Distinct (f : Figure K) : Prop where
  nodup : f.ids.Nodup
  counts : ∀ e ∈ f.elements, f.Counts e
  counter : 0 ≤ f.nextLabel

variable {f g : Figure K}

/-! ### What is drawn -/

/-- Counters that go on have still passed what is drawn. -/
theorem Counts.mono {e : Element K} (h : f.Counts e) (hlabel : f.nextLabel ≤ g.nextLabel)
    (hsegments : f.segments.length ≤ g.segments.length)
    (hcircles : f.circles.length ≤ g.circles.length) : g.Counts e := by
  cases e with
  | point p => exact ⟨h.1, fun n hn => Int.lt_of_lt_of_le (h.2 n hn) hlabel⟩
  | segment s => exact ⟨h.1, fun n hn => Nat.le_trans (h.2 n hn) hsegments⟩
  | circle c =>
    obtain ⟨n, hid, hn⟩ := h
    exact ⟨n, hid, Nat.le_trans hn hcircles⟩

/-- The counter moves past the label of each new point that has a number. -/
theorem lt_nextLabel_of_addPoint (hcounter : 0 ≤ f.nextLabel) {place : Coord K} {origin : Origin}
    {label? : Option String} {r : Figure K × Point K}
    (hr : f.addPoint style place origin label? = .ok r) {n : Nat}
    (hn : Label.index? r.2.label = .ok (some n)) : (n : Int) < r.1.nextLabel := by
  obtain ⟨label, hlabel, rfl⟩ := f.exists_label_of_addPoint style hr
  cases label? with
  | none =>
    -- The number read from an automatic label is the counter that gave it.
    have hindex := Label.index?_of_ofIndex hcounter hlabel
    obtain rfl := Option.some.inj (Except.ok.inj (hindex.symm.trans hn))
    show (f.nextLabel.toNat : Int) < f.nextLabel + 1
    omega
  | some asked =>
    cases hlabel
    exact Label.lt_advanced (Label.number?_of_index? hn)

theorem mem_pointIds {id : String} : id ∈ f.pointIds ↔ ∃ p, .point p ∈ f.elements ∧ p.id = id := by
  simp only [pointIds, points, List.mem_map, List.mem_filterMap]
  constructor
  · rintro ⟨p, ⟨e, he, hp⟩, rfl⟩
    cases e <;> cases hp
    exact ⟨p, he, rfl⟩
  · rintro ⟨p, hp, rfl⟩
    exact ⟨p, ⟨_, hp, rfl⟩, rfl⟩

/-- No point bears a label whose number the counter has not passed. -/
theorem pointId_notMem_of_counts (hcounts : ∀ p, .point p ∈ f.elements → f.Counts (.point p))
    {label : String} {n : Nat} (hn : Label.index? label = .ok (some n)) (hle : f.nextLabel ≤ n) :
    pointId label ∉ f.pointIds := by
  intro hmem
  obtain ⟨p, hp, hid⟩ := mem_pointIds.mp hmem
  obtain ⟨hname, hbelow⟩ := hcounts p hp
  obtain rfl : p.label = label := pointId_injective (hname.symm.trans hid)
  have hlt := hbelow n hn
  omega

/-- A figure to which one new element has been added is distinct, when the element is called as one
of its kind by an id that is free. -/
theorem Distinct.concat (h : f.Distinct) {e : Element K} (he : g.elements = f.elements ++ [e])
    (hlabel : f.nextLabel ≤ g.nextLabel) (hcounts : g.Counts e) (hfree : e.id ∉ f.ids) :
    g.Distinct where
  nodup := by
    rw [ids, he, List.map_append, List.map_singleton, List.nodup_append]
    refine ⟨h.nodup, List.nodup_singleton _, ?_⟩
    intro a ha b hb hab
    rw [List.mem_singleton.mp hb] at hab
    exact hfree (hab ▸ ha)
  counts := by
    have hgrows : f.GrowsTo g := .of_append he
    have hsegments : f.segments <+: g.segments := List.IsPrefix.filterMap _ hgrows
    intro d hd
    rw [he, List.mem_append, List.mem_singleton] at hd
    rcases hd with hd | rfl
    · exact (h.counts d hd).mono hlabel hsegments.length_le hgrows.circles_prefix.length_le
    · exact hcounts
  counter := Int.le_trans h.counter hlabel

namespace Distinct

variable (h : f.Distinct)
include h

/-! ### Ids that are free -/

theorem pointId_notMem_ids {label : String} (hlabel : pointId label ∉ f.pointIds) :
    pointId label ∉ f.ids := by
  intro hmem
  obtain ⟨e, he, hid⟩ := List.mem_map.mp hmem
  have hcounts := h.counts e he
  cases e with
  | point p => exact hlabel (mem_pointIds.mpr ⟨p, he, hid⟩)
  | segment s =>
    obtain ⟨⟨name, hname⟩, -⟩ := hcounts
    exact pointId_ne_seg label name (hid.symm.trans hname)
  | circle c =>
    obtain ⟨n, hn, -⟩ := hcounts
    exact pointId_ne_circleId label n (hid.symm.trans hn)

theorem pointId_notMem_pointIds {label : String} {n : Nat} (hn : Label.index? label = .ok (some n))
    (hle : f.nextLabel ≤ n) : pointId label ∉ f.pointIds :=
  pointId_notMem_of_counts (fun p => h.counts (.point p)) hn hle

theorem segmentId_notMem_ids : segmentId (f.segments.length + 1) ∉ f.ids := by
  intro hmem
  obtain ⟨e, he, hid⟩ := List.mem_map.mp hmem
  have hcounts := h.counts e he
  cases e with
  | point p => exact pointId_ne_seg _ _ (hcounts.1.symm.trans hid)
  | segment s =>
    have hle := hcounts.2 _ hid
    omega
  | circle c =>
    obtain ⟨n, hn, -⟩ := hcounts
    exact seg_ne_circleId _ n (hid.symm.trans hn)

theorem circleId_notMem_ids : circleId (f.circles.length + 1) ∉ f.ids := by
  intro hmem
  obtain ⟨e, he, hid⟩ := List.mem_map.mp hmem
  have hcounts := h.counts e he
  cases e with
  | point p => exact pointId_ne_circleId _ _ (hcounts.1.symm.trans hid)
  | segment s =>
    obtain ⟨⟨name, hname⟩, -⟩ := hcounts
    exact seg_ne_circleId name _ (hname.symm.trans hid)
  | circle c =>
    obtain ⟨n, hn, hle⟩ := hcounts
    have hsame := circleId_injective (hn.symm.trans hid)
    omega

/-! ### Drawing -/

/-- **A point keeps the figure distinct** when it gets the next label, or a label that is free. -/
theorem addPoint {place : Coord K} {origin : Origin} {label? : Option String}
    {r : Figure K × Point K} (hfree : ∀ label ∈ label?, pointId label ∉ f.pointIds)
    (hr : f.addPoint style place origin label? = .ok r) : r.1.Distinct := by
  have helements := f.addPoint_elements style hr
  have hlabel : f.nextLabel ≤ r.1.nextLabel := nextLabel_le_of_addPoint hr
  have hbelow : ∀ n, Label.index? r.2.label = .ok (some n) → (n : Int) < r.1.nextLabel :=
    fun n hn => lt_nextLabel_of_addPoint h.counter hr hn
  obtain ⟨label, hgets, rfl⟩ := f.exists_label_of_addPoint style hr
  refine h.concat helements hlabel ⟨rfl, hbelow⟩ (h.pointId_notMem_ids ?_)
  -- An automatic label has the number of the counter, which is above all numbers in use;
  -- one that is asked for is free by assumption.
  cases label? with
  | none =>
    have hindex := Label.index?_of_ofIndex h.counter hgets
    have hcounter := h.counter
    exact h.pointId_notMem_pointIds hindex (by omega)
  | some asked =>
    cases hgets
    exact hfree label rfl

theorem addSegment (style : Style) (fromId toId : String) :
    (f.addSegment style fromId toId).1.Distinct := by
  have hcount : (f.addSegment style fromId toId).1.segments.length = f.segments.length + 1 := by
    simp [segments, Figure.addSegment, Element.segment?]
  refine h.concat rfl (Int.le_refl _) ⟨⟨_, rfl⟩, fun n hn => ?_⟩ h.segmentId_notMem_ids
  rw [hcount, ← segmentId_injective hn]

theorem addCircle (style : Style) (centerId radiusPointId : String) :
    (f.addCircle style centerId radiusPointId).1.Distinct := by
  have hcount : (f.addCircle style centerId radiusPointId).1.circles.length =
      f.circles.length + 1 := by
    simp [circles, Figure.addCircle, Element.circle?]
  refine h.concat rfl (Int.le_refl _) ⟨f.circles.length + 1, rfl, ?_⟩ h.circleId_notMem_ids
  rw [hcount]

theorem skipped (label? : Option String) : (f.skipped label?).Distinct where
  nodup := h.nodup
  counts e he :=
    (h.counts e he).mono (f.le_skipped_nextLabel label?) (Nat.le_refl _) (Nat.le_refl _)
  counter := Int.le_trans h.counter (f.le_skipped_nextLabel label?)

end Distinct

/-! ### Given figures -/

/-- A counter that never goes back and passes `n` at one member of a list is past `n` at the end. -/
theorem lt_foldl_of_mem {α : Type} {next : Int → α → Int} (hle : ∀ i a, i ≤ next i a) {n : Int}
    {a : α} (hlt : ∀ i, n < next i a) {l : List α} (ha : a ∈ l) (start : Int) :
    n < l.foldl next start := by
  have hend : ∀ (l : List α) (i : Int), i ≤ l.foldl next i := by
    intro l i
    induction l generalizing i with
    | nil => exact Int.le_refl i
    | cons b l ih => exact Int.le_trans (hle i b) (ih (next i b))
  obtain ⟨before, after, rfl⟩ := List.append_of_mem ha
  rw [List.foldl_append, List.foldl_cons]
  exact Int.lt_of_lt_of_le (hlt _) (hend after _)

/-- Labels continue after every given one that has a number. -/
theorem lt_nextLabel_ofGiven {given : List (Element K)} {p : Point K} (hp : .point p ∈ given) {n : Nat}
    (hn : Label.index? p.label = .ok (some n)) : (n : Int) < (ofGiven given).nextLabel := by
  refine lt_foldl_of_mem (fun i e => ?_) (fun i => ?_) hp 0
  · split
    · exact Int.le_refl i
    · exact Int.le_max_left i _
  · simp only [Element.point?, Option.bind_some, Label.number?_of_index? hn]
    exact Int.lt_of_lt_of_le (Int.lt_succ n) (Int.le_max_right i _)

/-- Given elements that share no id and are called as their kinds. -/
theorem distinct_ofGiven {given : List (Element K)} (hids : (given.map Element.id).Nodup)
    (hpoints : ∀ p, .point p ∈ given → p.id = pointId p.label)
    (hsegments : ∀ s, .segment s ∈ given →
      (∃ name, s.id = "seg-" ++ name) ∧ ∀ n, s.id ≠ segmentId n)
    (hcircles : ∀ c, .circle c ∉ given) : (ofGiven given).Distinct where
  nodup := hids
  counts e he := by
    cases e with
    | point p => exact ⟨hpoints p he, fun n hn => lt_nextLabel_ofGiven he hn⟩
    | segment s =>
      obtain ⟨hname, hne⟩ := hsegments s he
      exact ⟨hname, fun n hn => absurd hn (hne n)⟩
    | circle c => exact absurd he (hcircles c)
  counter := ofGiven_nextLabel_nonneg given

/-- Moving points changes no id. -/
theorem Distinct.of_sameNames (hg : g.Distinct) (h : SameNames f.elements g.elements)
    (hlabel : f.nextLabel = g.nextLabel) : f.Distinct where
  nodup := by
    have hids : f.ids = g.ids := by
      have hunplaced : ∀ es : List (Element K), es.map Element.id =
          (es.map Element.unplaced).map Element.id := by
        intro es
        rw [List.map_map]
        congr 1
        funext e
        cases e <;> rfl
      rw [ids, ids, hunplaced, hunplaced g.elements, h]
    rw [hids]
    exact hg.nodup
  counts e he := by
    have hsegments : f.segments = g.segments := by
      rw [segments_eq_unplaced, segments_eq_unplaced, h]
    have hcircles : f.circles = g.circles := by
      rw [circles_eq_unplaced, circles_eq_unplaced, h]
    have hmem : e.unplaced ∈ g.elements.map Element.unplaced := h ▸ List.mem_map_of_mem he
    obtain ⟨d, hd, hsame⟩ := List.mem_map.mp hmem
    have hcounts := hg.counts d hd
    cases e with
    | point p =>
      cases d with
      | point q =>
        obtain ⟨hid, -, -, hname, -⟩ := Point.mk.inj (Element.point.inj hsame)
        rw [Counts, ← hid, ← hname, hlabel]
        exact hcounts
      | segment t => cases hsame
      | circle t => cases hsame
    | segment s =>
      cases d <;> cases hsame
      simpa only [Counts, hsegments] using hcounts
    | circle c =>
      cases d <;> cases hsame
      simpa only [Counts, hcircles] using hcounts
  counter := hlabel ▸ hg.counter

end Figure

end RulerCompass
