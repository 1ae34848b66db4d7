import RulerCompass.Proofs.Figure.Strokes
import RulerCompass.Proposition.Basic

/-!
# Labels that the counter has passed

A label may come from the counter, from who draws a point, or from a given point.  Whatever its source,
the counter stands above its number as soon as a point bears it, and no stroke takes the counter back.
So the label that the counter makes next is one that no point bears.
-/

namespace RulerCompass.Figure

variable {K : Type} {f g : Figure K}

/-- The counter stands above the number of every label in use. -/
structure Passed (f : Figure K) : Prop where
  counter : 0 ≤ f.nextLabel
  below : ∀ p ∈ f.points, ∀ n, Label.index? p.label = .ok (some n) → (n : Int) < f.nextLabel

theorem passed_ofGiven (given : List (Element K)) : (ofGiven given).Passed where
  counter := ofGiven_nextLabel_nonneg given
  below _ hp _ hn := lt_nextLabel_ofGiven (mem_points.mp hp) hn

namespace Passed

/-- A counter that goes on has still passed all labels, when there are no new ones. -/
theorem mono (h : f.Passed) (hpoints : g.points = f.points) (hle : f.nextLabel ≤ g.nextLabel) :
    g.Passed where
  counter := Int.le_trans h.counter hle
  below p hp n hn := by
    rw [hpoints] at hp
    exact Int.lt_of_lt_of_le (h.below p hp n hn) hle

variable (h : f.Passed) (style : Style)
include h

theorem addPoint {place : Coord K} {origin : Origin} {label? : Option String}
    {r : Figure K × Point K} (hr : f.addPoint style place origin label? = .ok r) : r.1.Passed where
  counter := Int.le_trans h.counter (nextLabel_le_of_addPoint hr)
  below p hp n hn := by
    rw [mem_points, f.addPoint_elements style hr, List.mem_append, List.mem_singleton] at hp
    rcases hp with hp | hp
    · exact Int.lt_of_lt_of_le (h.below p (mem_points.mpr hp) n hn) (nextLabel_le_of_addPoint hr)
    · obtain rfl := Element.point.inj hp
      exact lt_nextLabel_of_addPoint h.counter hr hn

/-- The label that the counter makes has its number, which no label in use has. -/
theorem label_ne_of_addPoint {place : Coord K} {origin : Origin} {r : Figure K × Point K}
    (hr : f.addPoint style place origin none = .ok r) : ∀ p ∈ f.points, r.2.label ≠ p.label := by
  intro p hp hsame
  obtain ⟨label, hlabel, rfl⟩ := f.exists_label_of_addPoint style hr
  have hindex := Label.index?_of_ofIndex h.counter hlabel
  have hlt := h.below p hp f.nextLabel.toNat (hsame ▸ hindex)
  have hcounter := h.counter
  omega

/-- One stroke: segments and circles bear no label, and a skipped point moves the counter only. -/
theorem draw {s : Stroke K} (hg : f.draw style s = .ok g) : g.Passed := by
  have hle := nextLabel_le_of_draw hg
  cases s with
  | point place origin label? =>
    obtain ⟨r, hr, hg⟩ := exists_of_bind_eq_ok hg
    cases hg
    exact h.addPoint style hr
  | segment fromId toId =>
    cases hg
    exact h.mono (points_addSegment f fromId toId) hle
  | circle centerId radiusPointId =>
    cases hg
    exact h.mono (by simp [points, addCircle, Element.point?]) hle
  | skip label? =>
    obtain rfl := (f.skipPoint_meets label?).2 g hg
    exact h.mono rfl hle

/-- All strokes. -/
theorem drawAll {strokes : List (Stroke K)} (hg : f.drawAll style strokes = .ok g) : g.Passed := by
  induction strokes generalizing f with
  | nil =>
    cases hg
    exact h
  | cons s strokes ih =>
    obtain ⟨u, hu, hg⟩ := exists_of_bind_eq_ok hg
    exact ih (h.draw style hu) hg

end Passed

/-- **Labels never run into each other.**  Whatever is given, and however points, segments and circles
are then drawn or points skipped, with labels of their own or not: the counter stands above the number of
every label in use, no further strokes take it back, and the label that it makes next is borne by no
point.  No stroke is refused as far as labels reach. -/
theorem automatic_label_fresh (style : Style) (given : List (Element K)) (strokes : List (Stroke K)) :
    (LabelsReach given (strokes.map Stroke.request) 0 → ∃ f, drawOn style given strokes = .ok f) ∧
    ∀ f, drawOn style given strokes = .ok f →
      (∀ p ∈ f.points, ∀ n, Label.index? p.label = .ok (some n) → (n : Int) < f.nextLabel) ∧
      (∀ more, (LabelsSuffice f.nextLabel.toNat (more.map Stroke.request) 0 →
          ∃ g, f.drawAll style more = .ok g) ∧
        ∀ g, f.drawAll style more = .ok g → f.nextLabel ≤ g.nextLabel) ∧
      ∀ place origin,
        (f.nextLabel < Label.capacity → ∃ r, f.addPoint style place origin = .ok r) ∧
        ∀ r, f.addPoint style place origin = .ok r → ∀ p ∈ f.points, r.2.label ≠ p.label := by
  refine ⟨exists_drawOn, fun f hf => ?_⟩
  obtain ⟨-, hdrawn⟩ := drawOn_eq_ok_iff.mp hf
  have hpassed : f.Passed := (passed_ofGiven given).drawAll style hdrawn
  refine ⟨hpassed.below, fun more => ⟨?_, fun g => nextLabel_le_of_drawAll hpassed.counter⟩,
    fun place origin => ⟨fun hcapacity => ?_, fun r => hpassed.label_ne_of_addPoint style⟩⟩
  · exact (drawAll_meets more hpassed.counter (Int.self_le_toNat _)).1
  · exact (f.addPoint_meets style place origin none).1 ⟨hpassed.counter, hcapacity⟩

/-- An own label in the second round of the alphabet: the counter goes on after it. -/
theorem automatic_label_fresh_second_round :
    let given : List (Element Float) := [Point.given "C" ⟨0.0, 0.0⟩]
    let strokes : List (Stroke Float) :=
      [.point ⟨1.0, 0.0⟩ .free (some "B2"), .point ⟨2.0, 0.0⟩ .free (some "apex"), .skip]
    LabelsReach given (strokes.map Stroke.request) 0 ∧
      ∃ f r, drawOn {} given strokes = .ok f ∧ f.points.map Point.label = ["C", "B2", "apex"] ∧
        f.addPoint {} ⟨3.0, 0.0⟩ .free = .ok r ∧ r.2.label = "D2" ∧
        ∀ p ∈ f.points, r.2.label ≠ p.label := by
  intro given strokes
  have hreach : LabelsReach given (strokes.map Stroke.request) 0 := by decide +kernel
  obtain ⟨htotal, hfresh⟩ := automatic_label_fresh {} given strokes
  obtain ⟨f, hf⟩ := htotal hreach
  have hlabels : (drawOn {} given strokes).toOption.map (fun f => f.points.map Point.label) =
      some ["C", "B2", "apex"] := by decide +kernel
  have hnext : (drawOn {} given strokes >>= fun f => f.addPoint {} ⟨3.0, 0.0⟩ .free).toOption.map
      (fun r => r.2.label) = some "D2" := by decide +kernel
  rw [hf] at hlabels hnext
  obtain ⟨r, hr, hlabel⟩ := exists_of_map_toOption_eq_some hnext
  obtain ⟨-, -, hnew⟩ := hfresh f hf
  exact ⟨hreach, f, r, hf, Option.some.inj hlabels, hr, hlabel, (hnew _ _).2 r hr⟩

end RulerCompass.Figure
