import RulerCompass.Book.Catalogue
import RulerCompass.Proofs.Figure.Distinct
import RulerCompass.Proofs.Replay.Grounded
import RulerCompass.Proofs.Replay.Sources
import RulerCompass.Proofs.Scene.Clear

/-!
# Points on circles

A crossing may have been found many steps before it is marked, and Definition 15 then looks up the
circles that meet there by their ids.  Where no two elements share an id, the circle that is found is one
that still meets something at the crossing.  So what the fact says about the new point is said about a
circle on which the point has been put.
-/

namespace RulerCompass

variable {K : Type}

namespace Figure

variable {f g : Figure K}

theorem GrowsTo.nodup_ids (hfg : f.GrowsTo g) (hg : g.ids.Nodup) : f.ids.Nodup :=
  hg.sublist (hfg.sublist.map Element.id)

theorem findsCircles_of_nodup (h : f.ids.Nodup) : f.FindsCircles where
  circle c hc := circle?_eq_some hc fun d hd hid =>
    Element.circle.inj (List.inj_on_of_nodup_map h (mem_circles.mp hd) (mem_circles.mp hc) hid)
  segment s hs := by
    refine List.find?_eq_none.mpr fun c hc hid => ?_
    have hid : c.id = s.id := by simpa using hid
    have hsame := List.inj_on_of_nodup_map h (mem_circles.mp hc) (mem_segments.mp hs) hid
    cases hsame

end Figure

variable [Scalar K]

namespace Replay

variable {style : Style} {p : Proposition K} {given : List (Element K)} {steps : List Step}
  {extras : List Extra} {r u v : Replay K} {f : Fact}

/-- Between two replays the point `q` has been put on the crossing `c` of the circle `d` with another
element, and the fact that has been entered equates its distance from the centre with the radius. -/
structure OnCircle (r : Replay K) (f : Fact) (u v : Replay K) (c : Crossing K) (d : Circle)
    (q : Point K) : Prop where
  entered : f ∉ u.facts ∧ f ∈ v.facts
  made : v.scene.figure.elements = u.scene.figure.elements ++ [.point q]
  crossing : c ∈ u.scene.crossings
  parent : d.id ∈ c.parents
  place : q.position = c.position
  current : c.Current r.scene.figure
  equation : f.equation =
    .distances (.between d.centerId q.id) (.between d.centerId d.radiusPointId)
  circle : d ∈ r.scene.figure.circles
  point : q ∈ r.scene.figure.points
  center : ∃ o ∈ r.scene.figure.points, o.id = d.centerId
  rim : ∃ o ∈ r.scene.figure.points, o.id = d.radiusPointId

/-- The fact has been entered in a turn that has put a point on the circle with this id. -/
def MarkedOn (style : Style) (p : Proposition K) (given : List (Element K)) (steps : List Step)
    (extras : List Extra) (r : Replay K) (f : Fact) (circleId : String) : Prop :=
  ∃ (u v : Replay K) (c : Crossing K) (d : Circle) (q : Point K),
    Turn style p given steps extras f.atStep u v ∧ d.id = circleId ∧ OnCircle r f u v c d q

theorem Turn.current (hzero : (0.0 : K) ≤ 0.0) {now : Int}
    (h : Turn style p given steps extras now u v) :
    ∀ c ∈ u.scene.crossings, c.Current u.scene.figure :=
  h.leads_start.current hzero fun _ hc => nomatch hc

/-- **A turn that cites a circle of the figure** has put a point on it. -/
theorem Turn.markedOn (hzero : (0.0 : K) ≤ 0.0) {now : Int}
    (h : Turn style p given steps extras now u v) (hf : f ∈ v.facts) (hnew : f ∉ u.facts)
    (hleads : v.scene.Leads style r.scene) (hids : r.scene.figure.ids.Nodup) {circleId : String}
    (hcited : f.citation = .def15 circleId)
    (hdrawn : ∀ centerId, circleId ≠ Macro.hiddenCircleId centerId) :
    MarkedOn style p given steps extras r f circleId := by
  obtain ⟨extend, as, hentry, has, rfl⟩ := h.exists_entry hf hnew
  cases hentry with
  | @marked c label? q hc hmark =>
    -- The fact is about the radius of a parent.
    obtain ⟨id, hid, d, hd, hequation, hcitation⟩ := Crossing.exists_of_mem_radiusAssertions has
    have hcircle : d.id = circleId := Citation.def15.inj (hcitation.symm.trans hcited)
    have hfound : d.id = id := by simpa using List.find?_some hd
    obtain ⟨a, ha, hscene⟩ := exists_of_bind_eq_ok hmark
    obtain ⟨hscene, hpoint⟩ := Prod.mk.inj (Except.ok.inj hscene)
    have hfigure : a.1 = v.scene.figure := congrArg Scene.figure hscene
    have helements := u.scene.figure.addPoint_elements style ha
    rw [hfigure, hpoint] at helements
    -- The circle that is found by its id is the one that meets something at the crossing.
    have hgrows := hleads.growsTo
    have hcurrent : c.Current v.scene.figure :=
      (h.current hzero c hc).growsTo (.of_append helements) hzero
    obtain ⟨hcenter, hrim⟩ := hcurrent.isSome_parent hzero
      (Figure.findsCircles_of_nodup (hgrows.nodup_ids hids)) hid hd
    have hmade : q ∈ v.scene.figure.points := by
      rw [Figure.mem_points, helements]
      exact List.mem_append_right _ (List.mem_singleton_self _)
    -- What is there at the mark is there at the end, since figures only grow.
    refine ⟨u, v, c, d, q, h, hcircle, ⟨hnew, hf⟩, helements, hc, hfound ▸ hid, ?_,
      hcurrent.growsTo hgrows hzero, hequation, ?_, ?_, ?_, ?_⟩
    · rw [← hpoint]
      exact Figure.position_of_addPoint ha
    · exact hgrows.circles_prefix.subset (List.mem_of_find?_eq_some hd)
    · exact (List.IsPrefix.filterMap _ hgrows).subset hmade
    · exact Figure.isSome_point?_iff.mp (hgrows.isSome_point? hcenter)
    · exact Figure.isSome_point?_iff.mp (hgrows.isSome_point? hrim)
  -- Facts of macros cite hidden circles.
  | called hruns =>
    obtain ⟨centerId, hhidden⟩ := hruns.exists_hidden_of_def15 has hcited
    exact absurd hhidden (hdrawn centerId)

omit [Scalar K] in
theorem citation_of_mem_start (hf : f ∈ (start p given).facts) : f.citation = .given := by
  rcases mem_facts_prove.mp hf with hf | hf
  · cases hf
  · have ha := Ledger.assertion_mem_of_mem_recordAll hf
    rcases List.mem_append.mp ha with ha | ha
    · obtain ⟨g, -, hg⟩ := List.mem_map.mp ha
      exact (congrArg Assertion.citation hg).symm
    · obtain ⟨g, -, hg⟩ := List.mem_map.mp ha
      exact (congrArg Assertion.citation hg).symm

/-- The fact was entered when the definition concluded. -/
def Concluded (style : Style) (p : Proposition K) (given : List (Element K)) (steps : List Step)
    (f : Fact) : Prop :=
  ∃ u : Replay K, (performAll style p.id p.prolongs 0 steps (start p given)).result = .ok u ∧
    f ∈ (u.ledger.recordAll p.conclusion steps.length).1

theorem concluded_or_markedOn (hzero : (0.0 : K) ≤ 0.0)
    (h : (run style p given steps extras).result = .ok r) (hids : r.scene.figure.ids.Nodup)
    (hf : f ∈ r.facts) {circleId : String} (hcited : f.citation = .def15 circleId)
    (hdrawn : ∀ centerId, circleId ≠ Macro.hiddenCircleId centerId) :
    Concluded style p given steps f ∨ MarkedOn style p given steps extras r f circleId := by
  rcases source_of_mem_facts h hf with hgiven | hconcluded | ⟨k, u, v, hturn, hnew, hmem, hleads⟩
  · rw [citation_of_mem_start hgiven] at hcited
    cases hcited
  · exact Or.inl hconcluded
  · exact Or.inr (hturn.markedOn hzero hmem hnew hleads hids hcited hdrawn)

end Replay

/-! ### Replays at doubles -/

/-- The circle that is cited, where Definition 15 is. -/
def Citation.circle? : Citation → Option String
  | def15 circleId => some circleId
  | _ => none

theorem Citation.circle?_eq_some_iff {cited : Citation} {circleId : String} :
    cited.circle? = some circleId ↔ cited = .def15 circleId := by
  cases cited <;> simp [circle?]

/-- No conclusion of the book cites Definition 15. -/
theorem Book.circle?_citation_conclusion {p : Proposition Float} (hp : p ∈ propositions) :
    ∀ a ∈ p.conclusion, a.citation.circle? = none := by
  have hall : ∀ p ∈ propositions (K := Float), ∀ a ∈ p.conclusion, a.citation.circle? = none := by
    decide +kernel
  exact hall p hp

namespace Replay

/-- **What Definition 15 is cited for holds of a circle that is there.**  Take a replay in whose final
figure no two elements share an id, and a fact that cites Definition 15 for a circle, other than those
that macros keep out of the figure.  Unless the definition itself concludes it, the fact was entered in
the turn of one step or extra.  That turn has put a point exactly on a crossing one of whose parents is
the circle with the cited id; the circle, its centre, its rim point and the new point are in the final
figure, and the fact says that the new point is as far from the centre as the rim point.  The conclusions
of the book leave no exception. -/
theorem def15_facts_on_circles (style : Style) (p : Proposition Float)
    (given : List (Element Float)) (steps : List Step) (extras : List Extra) {r : Replay Float}
    (h : (run style p given steps extras).result = .ok r) (hids : r.scene.figure.ids.Nodup) :
    ∀ f ∈ r.facts, ∀ circleId, f.citation = .def15 circleId →
      (∀ centerId, circleId ≠ Macro.hiddenCircleId centerId) →
        (Concluded style p given steps f ∨
          MarkedOn style p given steps extras r f circleId) ∧
        ((p.conclusion = [] ∨
            ∃ q ∈ Book.propositions (K := Float), p.conclusion = q.conclusion) →
          MarkedOn style p given steps extras r f circleId) := by
  intro f hf circleId hcited hdrawn
  have hzero : (0.0 : Float) ≤ 0.0 := by decide +kernel
  have hsource := concluded_or_markedOn hzero h hids hf hcited hdrawn
  refine ⟨hsource, fun hconclusion => hsource.resolve_left ?_⟩
  rintro ⟨u, -, hconcluded⟩
  have ha := Ledger.assertion_mem_of_mem_recordAll hconcluded
  -- Conclusions of the book cite no circle.
  rcases hconclusion with hnone | ⟨q, hq, hsame⟩
  · rw [hnone] at ha
    cases ha
  · rw [hsame] at ha
    have hcircle := Book.circle?_citation_conclusion hq f.assertion ha
    have hcircle' := Citation.circle?_eq_some_iff.mpr hcited
    exact Option.some_ne_none circleId (hcircle'.symm.trans hcircle)

/-- The first proposition up to its apex, and the far end of a diameter of its first circle: an extra
enters that `AD` equals `AB`. -/
theorem def15_facts_on_circles_diameter :
    let p : Proposition Float := Book.Triangle.proposition
    let steps := p.steps.take 3
    let extras : List Extra := [.mark "seg-AB" "cir-1" 1]
    ∃ r, (run {} p p.given steps extras).result = .ok r ∧ r.scene.figure.ids.Nodup ∧
      ∃ f ∈ r.facts, f.citation = .def15 "cir-1" ∧ f.atStep = 3 ∧
        f.equation = .distances (.between "pt-A" "pt-D") (.between "pt-A" "pt-B") ∧
        MarkedOn {} p p.given steps extras r f "cir-1" := by
  intro p steps extras
  have hchecked : (run {} p p.given steps extras).result.toOption.map (fun r =>
      (decide r.scene.figure.ids.Nodup, (r.facts.map fun f =>
        (f.citation.circle?, f.atStep, f.equation))[2]?)) =
      some (true, some (some "cir-1", 3,
        .distances (.between "pt-A" "pt-D") (.between "pt-A" "pt-B"))) := by decide +kernel
  obtain ⟨r, hr, hchecked⟩ := exists_of_map_toOption_eq_some hchecked
  obtain ⟨hids, hthird⟩ := Prod.mk.inj hchecked
  have hids := of_decide_eq_true hids
  rw [List.getElem?_map] at hthird
  obtain ⟨f, hf, hthird⟩ := Option.map_eq_some_iff.mp hthird
  obtain ⟨hcited, hthird⟩ := Prod.mk.inj hthird
  obtain ⟨hstep, hequation⟩ := Prod.mk.inj hthird
  have hcited := Citation.circle?_eq_some_iff.mp hcited
  have hmem := List.mem_of_getElem? hf
  have hdrawn : ∀ centerId, "cir-1" ≠ Macro.hiddenCircleId centerId := by
    intro centerId hsame
    have hfirst := congrArg String.toList hsame
    simp [Macro.hiddenCircleId] at hfirst
  have hbook : p ∈ Book.propositions (K := Float) := List.mem_of_getElem? (i := 0) rfl
  obtain ⟨-, hmarked⟩ :=
    def15_facts_on_circles {} p p.given steps extras hr hids f hmem "cir-1" hcited hdrawn
  exact ⟨r, hr, hids, f, hmem, hcited, hstep, hequation, hmarked (Or.inr ⟨p, hbook, rfl⟩)⟩

end Replay

end RulerCompass
