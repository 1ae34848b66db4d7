import RulerCompass.Proofs.Figure.Passed

/-!
# Figures whose points are well named

Points are looked up by ids, and ids are made from labels.  In a well-named figure each point has an id of
its own, the one that its label makes, and the counter has passed all labels.  A point with the next label,
or with a label of its own that no point bears, leaves the figure well named, whatever ids segments and
circles have.
-/

namespace RulerCompass.Figure

variable {K : Type} {style : Style} {f : Figure K}

/-- No two points share an id, each id is made from the label, and the counter has passed the labels. -/
structure WellNamed (f : Figure K) : Prop extends f.Passed where
  nodup : f.pointIds.Nodup
  named : ∀ p ∈ f.points, p.id = pointId p.label

theorem names_of_addPoint {place : Coord K} {origin : Origin} {label? : Option String}
    {r : Figure K × Point K} (hr : f.addPoint style place origin label? = .ok r) :
    r.2.id = pointId r.2.label ∧ ∀ label ∈ label?, r.2.label = label := by
  obtain ⟨label, hlabel, rfl⟩ := f.exists_label_of_addPoint style hr
  refine ⟨rfl, fun asked hasked => ?_⟩
  cases hasked
  exact hlabel

namespace WellNamed

variable (h : f.WellNamed)
include h

theorem counts (p : Point K) (hp : .point p ∈ f.elements) : f.Counts (.point p) :=
  ⟨h.named p (mem_points.mpr hp), h.below p (mem_points.mpr hp)⟩

theorem pointId_mem_pointIds {label : String} :
    pointId label ∈ f.pointIds ↔ ∃ p ∈ f.points, p.label = label := by
  rw [pointIds, List.mem_map]
  constructor
  · rintro ⟨p, hp, hid⟩
    exact ⟨p, hp, pointId_injective ((h.named p hp).symm.trans hid)⟩
  · rintro ⟨p, hp, rfl⟩
    exact ⟨p, hp, h.named p hp⟩

/-- A new point gets an id that is free. -/
theorem id_notMem_of_addPoint {place : Coord K} {origin : Origin} {label? : Option String}
    {r : Figure K × Point K} (hfree : ∀ label ∈ label?, pointId label ∉ f.pointIds)
    (hr : f.addPoint style place origin label? = .ok r) : r.2.id ∉ f.pointIds := by
  obtain ⟨hid, hasked⟩ := names_of_addPoint hr
  rw [hid]
  cases label? with
  | none =>
    intro hmem
    obtain ⟨p, hp, hsame⟩ := h.pointId_mem_pointIds.mp hmem
    exact h.label_ne_of_addPoint style hr p hp hsame.symm
  | some label =>
    rw [hasked label rfl]
    exact hfree label rfl

theorem addPoint {place : Coord K} {origin : Origin} {label? : Option String}
    {r : Figure K × Point K} (hfree : ∀ label ∈ label?, pointId label ∉ f.pointIds)
    (hr : f.addPoint style place origin label? = .ok r) : r.1.WellNamed := by
  refine { h.toPassed.addPoint style hr with nodup := ?_, named := fun p hp => ?_ }
  · rw [pointIds_of_addPoint hr, List.nodup_append]
    refine ⟨h.nodup, List.nodup_singleton _, ?_⟩
    intro id hid newId hnew hsame
    rw [hsame, List.mem_singleton.mp hnew] at hid
    exact h.id_notMem_of_addPoint hfree hr hid
  · rw [points_of_addPoint hr, List.mem_append, List.mem_singleton] at hp
    rcases hp with hp | rfl
    · exact h.named p hp
    · exact (names_of_addPoint hr).1

theorem addSegment (style : Style) (fromId toId : String) :
    (f.addSegment style fromId toId).1.WellNamed where
  toPassed := h.mono (points_addSegment f fromId toId) (Int.le_refl _)
  nodup := by
    rw [pointIds_addSegment]
    exact h.nodup
  named := by
    rw [points_addSegment]
    exact h.named

end WellNamed

end RulerCompass.Figure
