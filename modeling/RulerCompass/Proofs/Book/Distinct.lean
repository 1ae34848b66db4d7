import RulerCompass.Proofs.Book.Layouts
import RulerCompass.Proofs.Replay.Distinct

/-!
# The book shares no id

The given figures of the book name points by their labels and segments by their ends, and the steps ask
for labels in order.  So wherever the given points are moved, and whatever is drawn afterwards, no two
elements of a replay have one id.
-/

namespace RulerCompass

/-- The id of a segment that is called by letters is never reached by counting. -/
theorem ne_segmentId_of_any {name : String} (h : name.toList.any fun c => !c.isDigit) (n : Nat) :
    "seg-" ++ name ≠ segmentId n := by
  intro hid
  obtain rfl : name = toString n := (String.append_right_inj "seg-").mp hid
  obtain ⟨c, hc, hdigit⟩ := List.any_eq_true.mp h
  rw [Nat.toString_eq_repr, Nat.toList_repr] at hc
  simp [Nat.isDigit_of_mem_toDigits (by omega) (by omega) hc] at hdigit

namespace Book

section

variable {p : Proposition Float} (hp : p ∈ propositions)
include hp

theorem distinct_given : (Figure.ofGiven p.given).Distinct := by
  have hids : ∀ p ∈ propositions (K := Float), (p.given.map Element.id).Nodup := by decide +kernel
  have hpoints : ∀ p ∈ propositions (K := Float), ∀ q ∈ (Figure.ofGiven p.given).points,
      q.id = pointId q.label := by decide +kernel
  have hsegments : ∀ p ∈ propositions (K := Float), ∀ s ∈ (Figure.ofGiven p.given).segments,
      s.id = "seg-" ++ String.ofList (s.id.toList.drop 4) ∧
        (String.ofList (s.id.toList.drop 4)).toList.any fun c => !c.isDigit := by decide +kernel
  have hcircles : ∀ p ∈ propositions (K := Float), (Figure.ofGiven p.given).circles = [] := by
    decide +kernel
  refine Figure.distinct_ofGiven (hids p hp) (fun q hq => ?_) (fun s hs => ?_) fun c hc => ?_
  · exact hpoints p hp q (List.mem_filterMap.mpr ⟨_, hq, rfl⟩)
  · obtain ⟨hname, hletters⟩ := hsegments p hp s (Figure.mem_segments.mpr hs)
    -- The name goes on with letters, so no count of segments gives it.
    refine ⟨⟨_, hname⟩, fun n => ?_⟩
    rw [hname]
    exact ne_segmentId_of_any hletters n
  · have hmem : c ∈ (Figure.ofGiven p.given).circles := Figure.mem_circles.mpr hc
    rw [hcircles p hp] at hmem
    cases hmem

/-- The steps of the book ask for labels in order, whichever of them fail. -/
theorem asksInOrder_steps : AsksInOrder (Figure.ofGiven p.given).nextLabel.toNat p.steps := by
  have hall : ∀ p ∈ propositions (K := Float),
      AsksInOrder (Figure.ofGiven p.given).nextLabel.toNat p.steps := by decide +kernel
  exact hall p hp

end

/-- **The book shares no id.**  Every proposition has a replay wherever its given points are, points
that coincide included, and after any circles, lines and markings that follow, while there are labels for
those.  No two elements of the figure of any such replay have one id. -/
theorem ids_nodup (style : Style) {p : Proposition Float} (hp : p ∈ propositions)
    {layout : Positions Float → List (Element Float)} (hlayout : p.layout? = some layout)
    (positions : Positions Float) {extras : List Extra} (hextras : ∀ e ∈ extras, e.Known) :
    (26 + extras.length ≤ Label.capacity →
      ∃ r, (Replay.run style p (layout positions) p.steps extras).result = .ok r) ∧
    ∀ r, (Replay.run style p (layout positions) p.steps extras).result = .ok r →
      (r.scene.figure.elements.map Element.id).Nodup := by
  have hnames := sameNames_layout hp hlayout positions
  have hlabel := Figure.nextLabel_ofGiven_of_sameNames hnames
  have hgiven : (Figure.ofGiven (layout positions)).Distinct :=
    (distinct_given hp).of_sameNames hnames hlabel
  -- Placing the points leaves all names as they are, so the figure of the book decides.
  refine ⟨exists_run_layout hp hlayout positions style extras hextras, fun r hr => ?_⟩
  refine (Replay.distinct_run hgiven ?_ hr).nodup
  rw [hlabel]
  exact asksInOrder_steps hp

/-- The third proposition with `C` on `A`: the circle about `A` misses `AB`, so there is no `F`, and the
next point is `G`.  A line, its crossing with `AB` and a circle about the missing point follow. -/
theorem ids_nodup_missed_cut :
    let p : Proposition Float := CutOff.proposition
    let positions : Positions Float := Positions.ofMoves [("pt-C", ⟨-2.5, 0.5⟩)]
    let extras : List Extra :=
      [.segment "pt-D" "pt-E", .mark "seg-4" "seg-AB" 0, .circle "pt-F" "pt-A"]
    (∀ e ∈ extras, e.Known) ∧
      ∃ r, (Replay.run {} p (CutOff.layout positions) p.steps extras).result = .ok r ∧
        (r.scene.figure.elements.map Element.id).Nodup ∧
        r.scene.figure.elements.map Element.id =
          ["pt-A", "pt-B", "pt-C", "pt-D", "seg-AB", "seg-CD", "pt-E", "seg-3", "cir-1", "seg-4",
            "pt-G", "cir-2"] := by
  intro p positions extras
  have hp : p ∈ propositions := by simp [p, propositions]
  have hextras : ∀ e ∈ extras, e.Known := by decide
  have hlayout : p.layout? = some CutOff.layout := rfl
  obtain ⟨hresult, hnodup⟩ := ids_nodup {} hp hlayout positions hextras
  obtain ⟨r, hr⟩ := hresult (by decide +kernel)
  have hids : (Replay.run {} p (CutOff.layout positions) p.steps extras).result.toOption.map
      (fun r => r.scene.figure.elements.map Element.id) =
      some ["pt-A", "pt-B", "pt-C", "pt-D", "seg-AB", "seg-CD", "pt-E", "seg-3", "cir-1", "seg-4",
        "pt-G", "cir-2"] := by decide +kernel
  obtain ⟨r', hr', hids⟩ := exists_of_map_toOption_eq_some hids
  obtain rfl : r = r' := Except.ok.inj (hr.symm.trans hr')
  exact ⟨hextras, r, hr, hnodup r hr, hids⟩

end Book

end RulerCompass
