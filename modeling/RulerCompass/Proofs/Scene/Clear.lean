import RulerCompass.Proofs.Crossing.Marking
import RulerCompass.Proofs.Crossing.Search
import RulerCompass.Proofs.Figure.Names
import RulerCompass.Proofs.Macro.Shape
import RulerCompass.Proofs.Replay.Scenes

/-!
# Crossings clear of points

A search finds no crossing near a point, and marking a crossing drops all that lie near the new point.
So an action keeps the crossings clear of points unless it calls a macro: a macro puts its points where
it has computed them and leaves the crossings that are known there.  What it finds itself is clear of
its points, apart from the result of a cut, which is made last.
-/

namespace RulerCompass

variable {K : Type} {style : Style}

variable [Scalar K] {extend : Bool}

namespace Scene

variable {s t : Scene K} {spared : Point K → Prop}

/-- Only these points have crossings near them. -/
def ClearBut (spared : Point K → Prop) (s : Scene K) : Prop :=
  ∀ c ∈ s.crossings, ∀ q ∈ s.figure.points, c.position.Near q.position → spared q

/-! ### Moves -/

/-- After a move crossings lie near no other points, but for those that it makes. -/
theorem Move.clearBut (h : Move style s t) (hs : s.ClearBut spared)
    (hnew : ∀ q ∈ t.figure.points, q ∉ s.figure.points → spared q) : t.ClearBut spared := by
  intro c hc q hq hnear
  -- A new point is spared by assumption, and the search admits no crossing near a point.
  by_cases hold : q ∈ s.figure.points
  · -- Both were there before the move.
    by_cases hknown : c ∈ s.crossings
    · exact hs c hknown q hold hnear
    · cases h with
      | point h => exact absurd hc hknown
      | circle centerId radiusPointId => exact absurd hc hknown
      | segment fromId toId => exact absurd hc hknown
      | skip label? => exact absurd hc hknown
      | search extend he =>
        rcases List.mem_append.mp hc with hc | hc
        · exact absurd hc hknown
        · exact absurd hnear (s.figure.newCrossings_clear _ _ extend c hc q hold)
      | drop d => exact absurd ((List.mem_filter.mp hc).1) hknown
  · exact hnew q hq hold

theorem Leads.clearBut (h : s.Leads style t) (hs : s.ClearBut spared)
    (hnew : ∀ q ∈ t.figure.points, q ∉ s.figure.points → spared q) : t.ClearBut spared := by
  induction h with
  | refl => exact hs
  | tail hleads hmove ih =>
    have hgrows := hmove.growsTo
    have hstart := Leads.growsTo hleads
    refine hmove.clearBut (ih fun q hq hfresh => ?_) fun q hq hfresh => ?_
    · exact hnew q ((List.IsPrefix.filterMap _ hgrows).subset hq) hfresh
    · refine hnew q hq fun hold => hfresh ?_
      exact (List.IsPrefix.filterMap _ hstart).subset hold

/-- Moves that make no point keep the crossings clear. -/
theorem Leads.clearBut_of_points_eq (h : s.Leads style t) (hs : s.ClearBut spared)
    (hpoints : t.figure.points = s.figure.points) : t.ClearBut spared :=
  h.clearBut hs fun _ hq hfresh => absurd (hpoints ▸ hq) hfresh

theorem ClearBut.search (hs : s.ClearBut spared) (extend : Bool) (e : Element K) :
    (s.search extend e).ClearBut spared := by
  intro c hc q hq hnear
  rcases List.mem_append.mp hc with hc | hc
  · exact hs c hc q hq hnear
  · exact absurd hnear (s.figure.newCrossings_clear _ _ extend c hc q hq)

theorem ClearBut.searchEach (hs : s.ClearBut spared) (extend : Bool) (es : List (Element K)) :
    (es.foldl (fun s e => s.search extend e) s).ClearBut spared := by
  induction es generalizing s with
  | nil => exact hs
  | cons e es ih => exact ih (hs.search extend e)

theorem ClearBut.searchAll (hs : s.ClearBut spared) (extend : Bool) :
    (s.searchAll extend).ClearBut spared := hs.searchEach extend _

/-! ### Actions -/

theorem points_drawSegment (fromId toId : String) :
    (s.drawSegment style extend fromId toId).1.figure.points = s.figure.points := by
  rw [Figure.points, drawSegment_elements, List.filterMap_append]
  exact List.append_nil _

theorem points_drawCircle (centerId radiusPointId : String) :
    (s.drawCircle style extend centerId radiusPointId).1.figure.points = s.figure.points := by
  rw [Figure.points, drawCircle_elements, List.filterMap_append]
  exact List.append_nil _

/-- Marking a crossing drops the crossings near the new point. -/
theorem clearBut_mark {c : Crossing K} {label? : Option String} {out : Scene K × Point K}
    (h : s.mark style c label? = .ok out) (hs : s.ClearBut spared) : out.1.ClearBut spared := by
  obtain ⟨r, hr, h⟩ := exists_of_bind_eq_ok h
  cases h
  intro d hd q hq hnear
  obtain ⟨hd, hkept⟩ := List.mem_filter.mp hd
  rw [Figure.points_of_addPoint hr] at hq
  rcases List.mem_append.mp hq with hq | hq
  · exact hs d hd q hq hnear
  · rw [List.mem_singleton.mp hq, Figure.position_of_addPoint hr] at hnear
    simp [hnear] at hkept

theorem clearBut_skip {label? : Option String} (h : s.skip label? = .ok t) (hs : s.ClearBut spared) :
    t.ClearBut spared := by
  rw [eq_skipped_of_skip h]
  exact hs

theorem clearBut_drawSegment (fromId toId : String) (hs : s.ClearBut spared) :
    (s.drawSegment style extend fromId toId).1.ClearBut spared :=
  (s.leads_drawSegment style extend fromId toId).clearBut_of_points_eq hs
    (points_drawSegment fromId toId)

theorem clearBut_drawCircle (centerId radiusPointId : String) (hs : s.ClearBut spared) :
    (s.drawCircle style extend centerId radiusPointId).1.ClearBut spared :=
  (s.leads_drawCircle style extend centerId radiusPointId).clearBut_of_points_eq hs
    (points_drawCircle centerId radiusPointId)

/-- **An action without macros keeps the crossings clear of points**, whether it succeeds or not. -/
theorem clearBut_act {a : Action} (ha : ∀ c, a ≠ .call c) (h : s.act style extend a = .ok t)
    (hs : s.ClearBut spared) : t.ClearBut spared := by
  cases a with
  | straightedge fromId toId =>
    cases h
    exact clearBut_drawSegment fromId toId hs
  | compass centerId radiusPointId =>
    cases h
    exact clearBut_drawCircle centerId radiusPointId hs
  | mark m =>
    obtain ⟨c?, -, h⟩ := exists_of_bind_eq_ok h
    cases c? with
    | none => exact clearBut_skip h hs
    -- Marking drops all candidates near the new point.
    | some c =>
      obtain ⟨out, hout, h⟩ := exists_of_bind_eq_ok h
      cases h
      exact clearBut_mark hout hs
  | call c => exact absurd rfl (ha c)
  | unknown shown => cases h

/-- From one scene to the next the point has been drawn. -/
def Gains (s t : Scene K) (q : Point K) : Prop :=
  ∃ es, t.figure.elements = s.figure.elements ++ es ∧ .point q ∈ es

theorem Leads.gains (h : s.Leads style t) {q : Point K} (hq : q ∈ t.figure.points)
    (hfresh : q ∉ s.figure.points) : s.Gains t q := by
  obtain ⟨es, hes⟩ := h.growsTo
  refine ⟨es, hes.symm, ?_⟩
  rw [Figure.mem_points] at hq hfresh
  rw [← hes] at hq
  exact (List.mem_append.mp hq).resolve_left hfresh

/-- A point that is named only after some moves has been drawn by them. -/
theorem Leads.exists_gains (h : s.Leads style t) (id : String) (hid : id ∈ t.figure.pointIds)
    (hfresh : id ∉ s.figure.pointIds) : ∃ q, s.Gains t q ∧ q ∈ t.figure.points ∧ q.id = id := by
  obtain ⟨q, hq, rfl⟩ := List.mem_map.mp hid
  exact ⟨q, h.gains hq fun hold => hfresh (List.mem_map_of_mem hold), hq, rfl⟩

/-- A point that is drawn on a crossing is near to no earlier point, as the crossing was not. -/
theorem spared_of_mark {c : Crossing K} {label? : Option String} {out : Scene K × Point K}
    (h : s.mark style c label? = .ok out) (hs : s.ClearBut spared) (hc : c ∈ s.crossings) {q : Point K}
    (hq : s.Gains out.1 q) {q' : Point K} (hq' : q' ∈ s.figure.points)
    (hnear : q.position.Near q'.position) : spared q' := by
  obtain ⟨r, hr, h⟩ := exists_of_bind_eq_ok h
  cases h
  obtain ⟨es, hes, hmem⟩ := hq
  obtain rfl : es = [.point r.2] :=
    List.append_cancel_left (hes.symm.trans (s.figure.addPoint_elements style hr))
  -- The new point stands at the crossing, so what is near it is near the crossing.
  obtain rfl : q = r.2 := Element.point.inj (List.mem_singleton.mp hmem)
  rw [Figure.position_of_addPoint hr] at hnear
  exact hs c hc q' hq' hnear

omit [Scalar K] in
/-- What adds one circle or segment, or nothing, draws no point. -/
theorem not_gains_of_points_eq (hpoints : t.figure.points = s.figure.points) (q : Point K) :
    ¬ s.Gains t q := by
  rintro ⟨es, hes, hmem⟩
  rw [Figure.points, Figure.points, hes, List.filterMap_append] at hpoints
  have hnone : es.filterMap Element.point? = [] := List.append_right_eq_self.mp hpoints
  have hq : q ∈ es.filterMap Element.point? := List.mem_filterMap.mpr ⟨_, hmem, rfl⟩
  rw [hnone] at hq
  cases hq

theorem spared_of_act {a : Action} (ha : ∀ c, a ≠ .call c) (h : s.act style extend a = .ok t)
    (hs : s.ClearBut spared) {q : Point K} (hq : s.Gains t q) {q' : Point K}
    (hq' : q' ∈ s.figure.points) (hnear : q.position.Near q'.position) : spared q' := by
  cases a with
  | straightedge fromId toId =>
    cases h
    exact absurd hq (not_gains_of_points_eq (points_drawSegment fromId toId) q)
  | compass centerId radiusPointId =>
    cases h
    exact absurd hq (not_gains_of_points_eq (points_drawCircle centerId radiusPointId) q)
  | mark m =>
    obtain ⟨c?, hc, h⟩ := exists_of_bind_eq_ok h
    cases c? with
    | none =>
      rw [eq_skipped_of_skip h] at hq
      exact absurd hq (not_gains_of_points_eq rfl q)
    | some c =>
      obtain ⟨out, hout, h⟩ := exists_of_bind_eq_ok h
      cases h
      exact spared_of_mark hout hs (Crossing.offered_of_match? hc).mem hq hq' hnear
  | call c => exact absurd rfl (ha c)
  | unknown shown => cases h

/-! ### Macros -/

/-- What has been found since these crossings were known lies near no point. -/
def FindsClear (known : List (Crossing K)) (s : Scene K) : Prop :=
  ∃ found, s.crossings = known ++ found ∧
    ∀ c ∈ found, ∀ q ∈ s.figure.points, ¬ c.position.Near q.position

theorem findsNothing (s : Scene K) (f : Figure K) :
    FindsClear s.crossings { s with figure := f } := ⟨[], (List.append_nil _).symm, nofun⟩

theorem FindsClear.drawSegment {known : List (Crossing K)} (h : s.FindsClear known)
    (fromId toId : String) : (s.drawSegment style extend fromId toId).1.FindsClear known := by
  obtain ⟨found, hcrossings, hclear⟩ := h
  refine ⟨found ++ (s.figure.addSegment style fromId toId).1.newCrossings
    (.segment (s.figure.addSegment style fromId toId).2) s.crossings extend, ?_, ?_⟩
  · rw [← List.append_assoc, ← hcrossings]
    rfl
  · intro c hc q hq
    rcases List.mem_append.mp hc with hc | hc
    · rw [points_drawSegment] at hq
      exact hclear c hc q hq
    · exact Figure.newCrossings_clear _ _ _ extend c hc q hq

end Scene

/-- **What a macro finds** lies near no point, except for the result of a cut: that is made last, and a
crossing on the line of the inner transfer may lie there. -/
theorem Macro.found_clear {s : Scene K} {labels : OutputLabels} {m : Macro} {inputs : List String}
    {o : Outcome K} (ho : (m.execute style s extend labels inputs).result = .ok o) :
    ∃ found, o.scene.crossings = s.crossings ++ found ∧
      ∀ c ∈ found, ∀ q ∈ o.scene.figure.points, c.position.Near q.position →
        m = .cutOff ∧ o.added.getLast? = some (.point q) := by
  have hclear : o.scene.FindsClear s.crossings → ∃ found, o.scene.crossings = s.crossings ++ found ∧
      ∀ c ∈ found, ∀ q ∈ o.scene.figure.points, c.position.Near q.position →
        m = .cutOff ∧ o.added.getLast? = some (.point q) := by
    rintro ⟨found, hcrossings, hclear⟩
    exact ⟨found, hcrossings, fun c hc q hq hnear => absurd hnear (hclear c hc q hq)⟩
  rcases Macro.eq_unchanged_or_runs ho with rfl | hruns
  · exact hclear (Scene.findsNothing s s.figure)
  · -- Each search comes after the points of its own run, with one exception:
    -- the result of a cut is put in without a search, and it is the last element.
    cases hruns with
    | triangle ha hb ho =>
      rcases Macro.exists_of_triangleOn ho with rfl | ⟨place, r, hr, hscene, -, -⟩
      · exact hclear (Scene.findsNothing s s.figure)
      · refine hclear ?_
        rw [hscene]
        exact ((Scene.findsNothing s r.1).drawSegment _ _).drawSegment _ _
    | transfer ht hs hp ho =>
      obtain ⟨place, r, hr, hscene, -, -⟩ := Macro.exists_of_transferOn ho
      refine hclear ?_
      rw [hscene]
      exact (Scene.findsNothing s r.1).drawSegment _ _
    | cutOff hc ht hs hp ho =>
      obtain ⟨inner, moved, kept, place, r, -, hmoved, hkept, hr, hscene, hadded, -⟩ :=
        Macro.exists_of_cutOffOn ho
      obtain ⟨place', q, hq, hside, -, -⟩ := Macro.exists_of_transferOn hmoved
      have hfound : kept.scene.FindsClear s.crossings := by
        split at hkept
        · rw [hkept]
          exact Scene.findsNothing s s.figure
        · rw [hkept, hside]
          exact (Scene.findsNothing s q.1).drawSegment _ _
      obtain ⟨found, hcrossings, hfound⟩ := hfound
      refine ⟨found, by rw [hscene, hcrossings], fun c hc q hq hnear => ⟨rfl, ?_⟩⟩
      rw [hscene, Figure.points_of_addPoint hr] at hq
      -- Points of the inner run are there when the search is made.
      rcases List.mem_append.mp hq with hq | hq
      · exact absurd hnear (hfound c hc q hq)
      · -- The result comes after the search.
        rw [hadded, List.getLast?_concat, List.mem_singleton.mp hq]

end RulerCompass
