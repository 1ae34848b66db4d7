import Mathlib.Logic.Relation
import RulerCompass.Proofs.Figure.Counter
import RulerCompass.Proofs.Figure.Growth

/-!
# Moves of a scene

`Scene.Move` lists all that can happen to a scene in one go: something is drawn or passed over, the
crossings of something drawn are searched, or the crossings near a place are dropped.  Everything
that a construction does is a sequence of moves (`Scene.Leads`), so what each move keeps is kept by
macros, steps, hidden constructions and whole replays.
-/

namespace RulerCompass

variable {K : Type} (style : Style)

/-! ### Drawing appends -/

namespace Figure

variable (f : Figure K)

/-- The point that is drawn under a label. -/
def labelled (place : Coord K) (origin : Origin) (label : String) : Point K :=
  ⟨pointId label, place.x, place.y, label, f.pointColor style origin, origin⟩

/-- The label of a new point is the one asked for, or else the next automatic one. -/
def GetsLabel (label? : Option String) (label : String) : Prop :=
  match label? with
  | some asked => label = asked
  | none => Label.ofIndex f.nextLabel = .ok label

variable {f} in
theorem GetsLabel.unique {label? : Option String} {label label' : String}
    (h : f.GetsLabel label? label) (h' : f.GetsLabel label? label') : label = label' := by
  cases label? with
  | none => exact Except.ok.inj (h.symm.trans h')
  | some asked => exact h.trans h'.symm

/-- **All that drawing a point does.** -/
theorem exists_label_of_addPoint {place : Coord K} {origin : Origin} {label? : Option String}
    {r : Figure K × Point K} (h : f.addPoint style place origin label? = .ok r) :
    ∃ label, f.GetsLabel label? label ∧
      r = (⟨f.elements ++ [.point (f.labelled style place origin label)],
        Label.advanced f.nextLabel label?,
        f.nextColor + if origin = .given ∨ origin = .free then 0 else 1⟩,
        f.labelled style place origin label) := by
  -- The label is the one asked for, or that of the counter; then the counter is advanced.
  cases label? with
  | none =>
    obtain ⟨label, hlabel, h⟩ := exists_of_bind_eq_ok h
    obtain ⟨next, hnext, h⟩ := exists_of_bind_eq_ok h
    obtain ⟨-, rfl⟩ := Label.advance_eq_ok_iff.mp hnext
    cases h
    exact ⟨label, hlabel, rfl⟩
  | some label =>
    obtain ⟨_, hlabel, h⟩ := exists_of_bind_eq_ok h
    cases hlabel
    obtain ⟨next, hnext, h⟩ := exists_of_bind_eq_ok h
    obtain ⟨-, rfl⟩ := Label.advance_eq_ok_iff.mp hnext
    cases h
    exact ⟨label, rfl, rfl⟩

theorem addPoint_elements {place : Coord K} {origin : Origin} {label? : Option String}
    {r : Figure K × Point K} (h : f.addPoint style place origin label? = .ok r) :
    r.1.elements = f.elements ++ [.point r.2] := by
  obtain ⟨label, -, rfl⟩ := f.exists_label_of_addPoint style h
  rfl

variable {style f} in
theorem id_of_addPoint {place : Coord K} {origin : Origin} {label? : Option String}
    {r : Figure K × Point K} (h : f.addPoint style place origin label? = .ok r) {label : String}
    (hlabel : label? = some label) : r.2.id = pointId label := by
  subst hlabel
  obtain ⟨_, rfl, rfl⟩ := f.exists_label_of_addPoint style h
  rfl

variable {style f} in
theorem position_of_addPoint {place : Coord K} {origin : Origin} {label? : Option String}
    {r : Figure K × Point K} (h : f.addPoint style place origin label? = .ok r) :
    r.2.position = place := by
  obtain ⟨label, -, rfl⟩ := f.exists_label_of_addPoint style h
  rfl

variable {style f} in
theorem origin_of_addPoint {place : Coord K} {origin : Origin} {label? : Option String}
    {r : Figure K × Point K} (h : f.addPoint style place origin label? = .ok r) :
    r.2.origin = origin := by
  obtain ⟨label, -, rfl⟩ := f.exists_label_of_addPoint style h
  rfl

variable {style f} in
/-- A drawn point moves the label counter as one that is passed over. -/
theorem nextLabel_of_addPoint {place : Coord K} {origin : Origin} {label? : Option String}
    {r : Figure K × Point K} (h : f.addPoint style place origin label? = .ok r) :
    r.1.nextLabel = Label.advanced f.nextLabel label? := (f.addPoint_meets style _ _ _).2 r h

variable {style f} in
theorem nextLabel_le_of_addPoint {place : Coord K} {origin : Origin} {label? : Option String}
    {r : Figure K × Point K} (h : f.addPoint style place origin label? = .ok r) :
    f.nextLabel ≤ r.1.nextLabel := by
  rw [nextLabel_of_addPoint h]
  exact Label.le_advanced f.nextLabel label?

theorem addPoint_nextColor_le {place : Coord K} {origin : Origin} {label? : Option String}
    {r : Figure K × Point K} (h : f.addPoint style place origin label? = .ok r) :
    f.nextColor ≤ r.1.nextColor := by
  obtain ⟨label, -, rfl⟩ := f.exists_label_of_addPoint style h
  show f.nextColor ≤ f.nextColor + if origin = .given ∨ origin = .free then 0 else 1
  split <;> omega

/-- A drawn point is found, be it itself or an earlier one with its id. -/
theorem isSome_point?_drawn {place : Coord K} {origin : Origin} {label? : Option String}
    {r : Figure K × Point K} (h : f.addPoint style place origin label? = .ok r) :
    (r.1.point? r.2.id).isSome := by
  refine isSome_point?_iff.mpr ⟨r.2, ?_, rfl⟩
  rw [points, f.addPoint_elements style h, List.filterMap_append]
  exact List.mem_append_right _ (List.mem_singleton_self _)

end Figure

variable [Scalar K]

namespace Scene

variable {style} {s t u : Scene K}

/-! ### One move -/

/-- One change of a scene. -/
inductive Move (style : Style) : Scene K → Scene K → Prop
  | point {s : Scene K} {place : Coord K} {origin : Origin} {label? : Option String}
      {r : Figure K × Point K} (h : s.figure.addPoint style place origin label? = .ok r) :
      Move style s { s with figure := r.1 }
  | circle (s : Scene K) (centerId radiusPointId : String) :
      Move style s { s with figure := (s.figure.addCircle style centerId radiusPointId).1 }
  | segment (s : Scene K) (fromId toId : String) :
      Move style s { s with figure := (s.figure.addSegment style fromId toId).1 }
  | skip (s : Scene K) (label? : Option String) : Move style s (s.skipped label?)
  | search (s : Scene K) (extend : Bool) {e : Element K} (he : e ∈ s.figure.elements) :
      Move style s (s.search extend e)
  | drop (s : Scene K) (c : Crossing K) :
      Move style s { s with crossings := Crossing.without s.crossings c }

/-- No move takes back what has been drawn. -/
theorem Move.growsTo (h : Move style s t) : s.figure.GrowsTo t.figure := by
  cases h with
  | point h => exact .of_append (s.figure.addPoint_elements style h)
  | circle centerId radiusPointId => exact .of_append rfl
  | segment fromId toId => exact .of_append rfl
  | skip label? => exact .refl _
  | search extend he => exact .refl _
  | drop c => exact .refl _

/-- No move puts the label counter back. -/
theorem Move.nextLabel_le (h : Move style s t) : s.figure.nextLabel ≤ t.figure.nextLabel := by
  cases h with
  | point h => exact Figure.nextLabel_le_of_addPoint h
  | circle centerId radiusPointId => exact Int.le_refl _
  | segment fromId toId => exact Int.le_refl _
  | skip label? => exact s.le_skipped_nextLabel label?
  | search extend he => exact Int.le_refl _
  | drop c => exact Int.le_refl _

/-- No move puts the colour counter back. -/
theorem Move.nextColor_le (h : Move style s t) : s.figure.nextColor ≤ t.figure.nextColor := by
  cases h with
  | point h => exact s.figure.addPoint_nextColor_le style h
  | circle centerId radiusPointId => exact Int.le_add_of_nonneg_right Int.one_nonneg
  | segment fromId toId => exact Int.le_add_of_nonneg_right Int.one_nonneg
  | skip label? => exact Int.le_add_of_nonneg_right Int.one_nonneg
  | search extend he => exact Int.le_refl _
  | drop c => exact Int.le_refl _

/-! ### Sequences of moves -/

/-- A sequence of moves leads from one scene to another. -/
def Leads (style : Style) : Scene K → Scene K → Prop := Relation.ReflTransGen (Move style)

namespace Leads

theorem refl (s : Scene K) : s.Leads style s := Relation.ReflTransGen.refl

theorem trans (h : s.Leads style t) (h' : t.Leads style u) : s.Leads style u :=
  Relation.ReflTransGen.trans h h'

theorem move (h : Move style s t) : s.Leads style t := Relation.ReflTransGen.single h

theorem keeps {I : Scene K → Prop} (hI : ∀ s t, Move style s t → I s → I t) (h : s.Leads style t)
    (hs : I s) : I t := by
  induction h with
  | refl => exact hs
  | tail _ hmove ih => exact hI _ _ hmove ih

theorem growsTo (h : s.Leads style t) : s.figure.GrowsTo t.figure := by
  induction h with
  | refl => exact .refl _
  | tail _ hmove ih => exact ih.trans hmove.growsTo

theorem nextLabel_le (h : s.Leads style t) : s.figure.nextLabel ≤ t.figure.nextLabel := by
  induction h with
  | refl => exact Int.le_refl _
  | tail _ hmove ih => exact Int.le_trans ih hmove.nextLabel_le

theorem nextColor_le (h : s.Leads style t) : s.figure.nextColor ≤ t.figure.nextColor := by
  induction h with
  | refl => exact Int.le_refl _
  | tail _ hmove ih => exact Int.le_trans ih hmove.nextColor_le

end Leads

/-! ### What a scene does -/

variable (s) (style)

@[simp] theorem drawCircle_elements (extend : Bool) (centerId radiusPointId : String) :
    (s.drawCircle style extend centerId radiusPointId).1.figure.elements =
      s.figure.elements ++ [.circle (s.drawCircle style extend centerId radiusPointId).2] := rfl

@[simp] theorem drawSegment_elements (extend : Bool) (fromId toId : String) :
    (s.drawSegment style extend fromId toId).1.figure.elements =
      s.figure.elements ++ [.segment (s.drawSegment style extend fromId toId).2] := rfl

theorem leads_drawCircle (extend : Bool) (centerId radiusPointId : String) :
    s.Leads style (s.drawCircle style extend centerId radiusPointId).1 := by
  refine (Leads.move (.circle s centerId radiusPointId)).trans (.move (.search _ extend ?_))
  exact List.mem_append_right _ (List.mem_singleton_self _)

theorem leads_drawSegment (extend : Bool) (fromId toId : String) :
    s.Leads style (s.drawSegment style extend fromId toId).1 := by
  refine (Leads.move (.segment s fromId toId)).trans (.move (.search _ extend ?_))
  exact List.mem_append_right _ (List.mem_singleton_self _)


/-- Searching the crossings of things drawn, in any order. -/
theorem leads_searchEach (extend : Bool) (es : List (Element K)) (hes : es ⊆ s.figure.elements) :
    s.Leads style (es.foldl (fun s e => s.search extend e) s) := by
  induction es generalizing s with
  | nil => exact .refl s
  | cons e es ih =>
    obtain ⟨he, hes⟩ := List.cons_subset.mp hes
    exact (Leads.move (.search s extend he)).trans (ih (s.search extend e) hes)

theorem leads_searchAll (extend : Bool) : s.Leads style (s.searchAll extend) :=
  s.leads_searchEach style extend _ (List.Subset.refl _)

variable {style} {s}

theorem leads_skip {label? : Option String} (h : s.skip label? = .ok t) : s.Leads style t := by
  obtain rfl := eq_skipped_of_skip h
  exact .move (.skip s label?)

theorem leads_mark {c : Crossing K} {label? : Option String} {r : Scene K × Point K}
    (h : s.mark style c label? = .ok r) : s.Leads style r.1 := by
  rw [mark] at h
  obtain ⟨p, hp, h⟩ := exists_of_bind_eq_ok h
  cases h
  exact (Leads.move (.point hp)).trans (.move (.drop { s with figure := p.1 } c))

/-! ### Drawing points and segments -/

/-- From one scene to another these points and segments are drawn, each on points that are there by
then, and no crossing is dropped. -/
structure Draws (style : Style) (s t : Scene K) (es : List (Element K)) : Prop where
  leads : s.Leads style t
  elements_eq : t.figure.elements = s.figure.elements ++ es
  crossings_prefix : s.crossings <+: t.crossings
  anchored : s.figure.AnchorsAll es
  no_circle : ∀ c, Element.circle c ∉ es

namespace Draws

variable {es : List (Element K)}

theorem nothing (s : Scene K) : s.Draws style s [] where
  leads := .refl s
  elements_eq := (List.append_nil _).symm
  crossings_prefix := List.prefix_refl _
  anchored := trivial
  no_circle _ hc := nomatch hc

theorem isSome_point? (h : s.Draws style t es) {id : String} (hid : (s.figure.point? id).isSome) :
    (t.figure.point? id).isSome := h.leads.growsTo.isSome_point? hid

theorem point (h : s.Draws style t es) {place : Coord K} {origin : Origin} {label? : Option String}
    {r : Figure K × Point K} (hr : t.figure.addPoint style place origin label? = .ok r) :
    s.Draws style { t with figure := r.1 } (es ++ [.point r.2]) where
  leads := h.leads.trans (.move (.point hr))
  elements_eq := by rw [t.figure.addPoint_elements style hr, h.elements_eq, List.append_assoc]
  crossings_prefix := h.crossings_prefix
  anchored := Figure.anchorsAll_concat h.anchored h.elements_eq trivial
  no_circle c hc := by
    rcases List.mem_append.mp hc with hc | hc
    · exact h.no_circle c hc
    · simp at hc

theorem segment (h : s.Draws style t es) (extend : Bool) {fromId toId : String}
    (hfrom : (t.figure.point? fromId).isSome) (hto : (t.figure.point? toId).isSome) :
    s.Draws style (t.drawSegment style extend fromId toId).1
      (es ++ [.segment (t.drawSegment style extend fromId toId).2]) where
  leads := h.leads.trans (leads_drawSegment style t extend fromId toId)
  elements_eq := by rw [drawSegment_elements, h.elements_eq, List.append_assoc]
  crossings_prefix := h.crossings_prefix.trans (List.prefix_append _ _)
  anchored := Figure.anchorsAll_concat h.anchored h.elements_eq ⟨hfrom, hto⟩
  no_circle c hc := by
    rcases List.mem_append.mp hc with hc | hc
    · exact h.no_circle c hc
    · simp at hc

end Draws

end Scene

end RulerCompass
