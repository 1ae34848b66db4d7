import RulerCompass.Proofs.Figure.Distinct
import RulerCompass.Proofs.Macro.Promises

/-!
# Macros by their labels

What a macro does to a figure is known up to the places of its points: `Builds` lists the points and
segments in turn.  A macro spends a label on each point that it makes.  A cut makes one point where it
begins at the start of the less segment, and else two; the inner one stays clear of the label that the
result asks for.
-/

namespace RulerCompass

variable {K : Type} {style : Style}

namespace Macro

/-- What a macro adds to a figure, and the figure that results. -/
inductive Builds (style : Style) (labels : OutputLabels) (f : Figure K) :
    Macro → List String → List (Element K) → Figure K → Prop
  | refused {m : Macro} {inputs : List String} : Builds style labels f m inputs [] f
  | triangle {aId bId : String} {rest : List String} {place : Coord K} {r : Figure K × Point K}
      (hr : f.addPoint style place .intersection
        (MacroCall.outputLabel? labels Macro.triangle.resultName) = .ok r) :
      Builds style labels f .triangle (aId :: bId :: rest)
        [.point r.2, .segment (r.1.addSegment style r.2.id aId).2,
          .segment ((r.1.addSegment style r.2.id aId).1.addSegment style r.2.id bId).2]
        ((r.1.addSegment style r.2.id aId).1.addSegment style r.2.id bId).1
  | transfer {targetId startId stopId : String} {rest : List String} {place : Coord K}
      {r : Figure K × Point K}
      (hr : f.addPoint style place .intersection
        (MacroCall.outputLabel? labels Macro.transfer.resultName) = .ok r) :
      Builds style labels f .transfer (targetId :: startId :: stopId :: rest)
        [.point r.2, .segment (r.1.addSegment style targetId r.2.id).2]
        (r.1.addSegment style targetId r.2.id).1
  | cut {cutId targetId startId stopId : String} {rest : List String} {place : Coord K}
      {r : Figure K × Point K}
      (hr : f.addPoint style place .intersection
        (MacroCall.outputLabel? labels Macro.cutOff.resultName) = .ok r) :
      Builds style labels f .cutOff (cutId :: targetId :: startId :: stopId :: rest) [.point r.2] r.1
  | carried {cutId targetId startId stopId : String} {rest : List String} {inner : OutputLabels}
      {place place' : Coord K} {q r : Figure K × Point K} (hinner : innerLabels f labels = .ok inner)
      (hq : f.addPoint style place .intersection
        (MacroCall.outputLabel? inner Macro.transfer.resultName) = .ok q)
      (hr : (q.1.addSegment style cutId q.2.id).1.addPoint style place' .intersection
        (MacroCall.outputLabel? labels Macro.cutOff.resultName) = .ok r) :
      Builds style labels f .cutOff (cutId :: targetId :: startId :: stopId :: rest)
        [.point q.2, .segment (q.1.addSegment style cutId q.2.id).2, .point r.2] r.1

variable {labels : OutputLabels} {f g : Figure K} {m : Macro} {inputs : List String}
  {es : List (Element K)}

/-- The number of points among some elements. -/
def pointCount (es : List (Element K)) : Nat := (es.filterMap Element.point?).length

/-- **What a macro leaves behind** has been built point by point and line by line. -/
theorem builds_of_execute [Scalar K] {s : Scene K} {extend : Bool} {o : Outcome K}
    (ho : (m.execute style s extend labels inputs).result = .ok o) :
    Builds style labels s.figure m inputs o.added o.scene.figure := by
  rcases eq_unchanged_or_runs ho with rfl | hruns
  · exact .refused
  · cases hruns with
    | triangle ha hb ho =>
      rcases exists_of_triangleOn ho with rfl | ⟨place, r, hr, hscene, hadded, -⟩
      · exact .refused
      · rw [hscene, hadded]
        exact .triangle hr
    | transfer ht hs hp ho =>
      obtain ⟨place, r, hr, hscene, hadded, -⟩ := exists_of_transferOn ho
      rw [hscene, hadded]
      exact .transfer hr
    | cutOff hc ht hs hp ho =>
      obtain ⟨inner, moved, kept, place, r, hinner, hmoved, hkept, hr, hscene, hadded, -⟩ :=
        exists_of_cutOffOn ho
      obtain ⟨place', q, hq, hside, hdrawn, -⟩ := exists_of_transferOn hmoved
      split at hkept
      · -- The inner transfer is dropped, and the result is the only point.
        subst hkept
        rw [hscene, hadded]
        exact .cut hr
      · -- The inner transfer is kept, with its point and its side.
        subst hkept
        rw [hside] at hr
        rw [hscene, hadded, hdrawn]
        exact .carried hinner hq hr

theorem Builds.elements_eq (h : Builds style labels f m inputs es g) :
    g.elements = f.elements ++ es := by
  cases h with
  | refused => exact (List.append_nil _).symm
  | triangle hr => simp [Figure.addSegment, f.addPoint_elements style hr]
  | transfer hr => simp [Figure.addSegment, f.addPoint_elements style hr]
  | cut hr => exact f.addPoint_elements style hr
  | carried hinner hq hr =>
    rw [Figure.addPoint_elements style _ hr]
    simp [Figure.addSegment, f.addPoint_elements style hq]

/-! ### Counting labels -/

/-- **A macro spends a label on each point.**  It makes no point and leaves the counter, or one under
the label of its result, or an inner one before that. -/
theorem Builds.nextLabel_cases (h : Builds style labels f m inputs es g) :
    (pointCount es = 0 ∧ g.nextLabel = f.nextLabel) ∨
      (pointCount es = 1 ∧ g.nextLabel =
        Label.advanced f.nextLabel (MacroCall.outputLabel? labels m.resultName)) ∨
      (pointCount es = 2 ∧ m = .cutOff ∧ ∃ inner, innerLabels f labels = .ok inner ∧ g.nextLabel =
        Label.advanced
          (Label.advanced f.nextLabel (MacroCall.outputLabel? inner Macro.transfer.resultName))
          (MacroCall.outputLabel? labels m.resultName)) := by
  cases h with
  | refused => exact Or.inl ⟨rfl, rfl⟩
  | triangle hr => exact Or.inr (Or.inl ⟨rfl, Figure.nextLabel_of_addPoint hr⟩)
  | transfer hr => exact Or.inr (Or.inl ⟨rfl, Figure.nextLabel_of_addPoint hr⟩)
  | cut hr => exact Or.inr (Or.inl ⟨rfl, Figure.nextLabel_of_addPoint hr⟩)
  | @carried _ _ _ _ _ inner _ _ q r hinner hq hr =>
    refine Or.inr (Or.inr ⟨rfl, rfl, inner, hinner, ?_⟩)
    rw [Figure.nextLabel_of_addPoint hr, Figure.addSegment_nextLabel,
      Figure.nextLabel_of_addPoint hq]

/-- Where the result asks for no label of its own, the counter moves by the number of points. -/
theorem Builds.nextLabel_eq (h : Builds style labels f m inputs es g) (hcounter : 0 ≤ f.nextLabel)
    (hlabels : MacroCall.outputLabel? labels m.resultName = none) :
    g.nextLabel = f.nextLabel + pointCount es := by
  rcases h.nextLabel_cases with
    ⟨hcount, hnext⟩ | ⟨hcount, hnext⟩ | ⟨hcount, rfl, inner, hinner, hnext⟩
  · rw [hnext, hcount]
    omega
  · rw [hnext, hcount, hlabels, Label.advanced]
    omega
  · -- No label of its own, so the inner point takes the next one and the result the one after it.
    rcases innerLabel_cases hcounter hinner with ⟨hnone, -⟩ | ⟨-, -, hsome⟩
    · rw [hnext, hcount, hlabels, hnone, Label.advanced, Label.advanced]
      omega
    · rw [hlabels] at hsome
      cases hsome

/-- The counter moves by no more than the most points of the macro, from where it is or from the number of
the label that the result asks for. -/
theorem Builds.nextLabel_le (h : Builds style labels f m inputs es g) (hcounter : 0 ≤ f.nextLabel) :
    g.nextLabel ≤ max f.nextLabel (Label.requested (MacroCall.outputLabel? labels m.resultName)) +
      m.mostPoints := by
  have hpositive := m.mostPoints_pos
  rcases h.nextLabel_cases with ⟨-, hnext⟩ | ⟨-, hnext⟩ | ⟨-, rfl, inner, hinner, hnext⟩
  · omega
  · have hone := Label.advanced_le f.nextLabel (MacroCall.outputLabel? labels m.resultName)
    omega
  · rcases innerLabel_cases hcounter hinner with ⟨hnone, -⟩ | ⟨-, hsome, hasked⟩
    · -- The inner point spends the next label, and the result one more.
      have htwo := Label.advanced_le (f.nextLabel + 1) (MacroCall.outputLabel? labels cutOff.resultName)
      rw [hnone, Label.advanced] at hnext
      have hmost : cutOff.mostPoints = 2 := rfl
      omega
    · -- The result asks for the next label, so the inner point spends the one after it.
      rw [hsome, hasked, Label.advanced_of_number? (Label.number?_text _),
        Label.advanced_of_number? (Label.number?_text _)] at hnext
      have hmost : cutOff.mostPoints = 2 := rfl
      omega

/-! ### Free labels -/

/-- The inner point of a cut leaves the label of the result free. -/
theorem id_ne_of_innerLabels {inner : OutputLabels} {place : Coord K} {origin : Origin}
    {q : Figure K × Point K} (hcounter : 0 ≤ f.nextLabel) (hinner : innerLabels f labels = .ok inner)
    (hq : f.addPoint style place origin (MacroCall.outputLabel? inner Macro.transfer.resultName) = .ok q)
    {label : String} (hlabel : MacroCall.outputLabel? labels Macro.cutOff.resultName = some label) :
    q.2.id ≠ pointId label := by
  obtain ⟨given, hgets, rfl⟩ := f.exists_label_of_addPoint style hq
  intro hid
  have hsame : given = label := pointId_injective hid
  rcases innerLabel_cases hcounter hinner with ⟨hnone, hother⟩ | ⟨-, hsome, hnext⟩
  · -- The inner point takes the next label, and another one is reserved.
    rw [hnone] at hgets
    obtain ⟨-, rfl⟩ := (Label.ofIndex_eq_ok_iff hcounter).mp hgets
    exact hother (hlabel.trans (congrArg some hsame.symm))
  · -- Two labels in a row are not the same.
    rw [hsome] at hgets
    rw [hnext] at hlabel
    cases hlabel
    cases hgets
    have hindex := congrArg Label.number? hsame
    rw [Label.number?_text, Label.number?_text, Option.some.injEq] at hindex
    omega

/-- Both labels of a cut are free, each when its turn comes. -/
theorem free_of_innerLabels {inner : OutputLabels} {place : Coord K} {origin : Origin}
    {q : Figure K × Point K} (hcounter : 0 ≤ f.nextLabel)
    (hcounts : ∀ p, .point p ∈ f.elements → f.Counts (.point p))
    (hinner : innerLabels f labels = .ok inner)
    (hq : f.addPoint style place origin (MacroCall.outputLabel? inner Macro.transfer.resultName) = .ok q)
    (hfree : ∀ label ∈ MacroCall.outputLabel? labels Macro.cutOff.resultName,
      pointId label ∉ f.pointIds) :
    (∀ label ∈ MacroCall.outputLabel? inner Macro.transfer.resultName, pointId label ∉ f.pointIds) ∧
      ∀ fromId toId, ∀ label ∈ MacroCall.outputLabel? labels Macro.cutOff.resultName,
        pointId label ∉ (q.1.addSegment style fromId toId).1.pointIds := by
  constructor
  · intro label hlabel
    rcases innerLabel_cases hcounter hinner with ⟨hnone, -⟩ | ⟨hafter, hsome, -⟩
    · rw [hnone] at hlabel
      -- No label is asked for, so none has to be free.
      cases hlabel
    · rw [hsome] at hlabel
      -- The label after the next has a number that no point has reached.
      cases hlabel
      exact Figure.pointId_notMem_of_counts hcounts (Label.index?_text (by omega)) (by omega)
  · intro fromId toId label hlabel
    rw [Figure.pointIds_addSegment, Figure.pointIds_of_addPoint hq, List.mem_append,
      List.mem_singleton, not_or]
    exact ⟨hfree label hlabel, (id_ne_of_innerLabels hcounter hinner hq hlabel).symm⟩

/-- **What a macro keeps.**  Take a property of figures whose counters have passed the labels.  If it is
kept by each segment, and by each point that gets a label that is free, or the next, then a macro keeps it
when its result gets such a label. -/
theorem Builds.keeps {P : Figure K → Prop}
    (hcounts : ∀ f, P f → 0 ≤ f.nextLabel ∧ ∀ p, .point p ∈ f.elements → f.Counts (.point p))
    (hpoint : ∀ f place label? r, P f → (∀ label ∈ label?, pointId label ∉ f.pointIds) →
      f.addPoint style place .intersection label? = .ok r → P r.1)
    (hsegment : ∀ f fromId toId, P f → P (f.addSegment style fromId toId).1)
    (h : Builds style labels f m inputs es g) (hf : P f)
    (hfree : ∀ label ∈ MacroCall.outputLabel? labels m.resultName, pointId label ∉ f.pointIds) :
    P g := by
  cases h with
  | refused => exact hf
  | triangle hr => exact hsegment _ _ _ (hsegment _ _ _ (hpoint _ _ _ _ hf hfree hr))
  | transfer hr => exact hsegment _ _ _ (hpoint _ _ _ _ hf hfree hr)
  | cut hr => exact hpoint _ _ _ _ hf hfree hr
  | @carried cutId _ _ _ _ _ _ _ q _ hinner hq hr =>
    obtain ⟨hcounter, hpassed⟩ := hcounts f hf
    obtain ⟨hinnerFree, hresultFree⟩ := free_of_innerLabels hcounter hpassed hinner hq hfree
    have hside := hsegment q.1 cutId q.2.id (hpoint _ _ _ _ hf hinnerFree hq)
    exact hpoint _ _ _ _ hside (hresultFree _ _) hr

/-- A macro keeps the figure distinct when its result gets a label that is free, or the next. -/
theorem Builds.distinct (h : Builds style labels f m inputs es g) (hf : f.Distinct)
    (hfree : ∀ label ∈ MacroCall.outputLabel? labels m.resultName, pointId label ∉ f.pointIds) :
    g.Distinct :=
  h.keeps (fun _ hf => ⟨hf.counter, fun p => hf.counts (.point p)⟩)
    (fun _ _ _ _ hf => hf.addPoint) (fun _ fromId toId hf => hf.addSegment style fromId toId) hf hfree

end Macro

end RulerCompass
