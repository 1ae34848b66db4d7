import Mathlib
import RulerCompass.Proofs.Scene.Moves

/-!
# Tidy figures

Circles get their ids by counting.  So where no circle is given, the circles are numbered in order:
each of them is found under its id, and a segment never bears the id of a circle as long as no given
one does.
-/

namespace RulerCompass

variable {K : Type}

/-- The id of the circle that is drawn with this number. -/
def circleId (n : Nat) : String := "cir-" ++ toString n

theorem circleId_injective : Function.Injective circleId := by
  intro m n h
  have hnumbers : toString m = toString n := (String.append_right_inj "cir-").mp h
  exact Nat.repr_inj.mp hnumbers

theorem pointId_injective : Function.Injective pointId :=
  fun _ _ h => (String.append_right_inj "pt-").mp h

theorem seg_ne_circleId (s : String) (n : Nat) : "seg-" ++ s ≠ circleId n := by
  intro h
  have hfirst := congrArg String.toList h
  simp [circleId] at hfirst

namespace Figure

variable {f g : Figure K}

/-- The circles are numbered from one on, and no segment bears the id of a circle. -/
structure Tidy (f : Figure K) : Prop where
  numbered : ∀ i (h : i < f.circles.length), f.circles[i].id = circleId (i + 1)
  apart : ∀ s ∈ f.segments, ∀ n, s.id ≠ circleId n

/-- Each circle is found under its id, and none under the id of a segment. -/
structure FindsCircles (f : Figure K) : Prop where
  circle : ∀ c ∈ f.circles, f.circle? c.id = some c
  segment : ∀ s ∈ f.segments, f.circle? s.id = none

/-- The figure has no circles, and its segments are called by their ends. -/
theorem tidy_of_given (hcircles : f.circles = [])
    (hsegments : ∀ s ∈ f.segments, ∃ ends, s.id = "seg-" ++ ends) : f.Tidy where
  numbered i h := by
    rw [hcircles] at h
    cases h
  apart s hs n := by
    obtain ⟨ends, hends⟩ := hsegments s hs
    rw [hends]
    exact seg_ne_circleId ends n

namespace Tidy

theorem congr (h : f.Tidy) (hcircles : g.circles = f.circles) (hsegments : g.segments = f.segments) :
    g.Tidy where
  numbered := by
    simp only [hcircles]
    exact h.numbered
  apart := by
    rw [hsegments]
    exact h.apart

variable (h : f.Tidy)
include h

theorem nodup : (f.circles.map Circle.id).Nodup := by
  rw [List.nodup_iff_injective_get]
  intro i j hij
  have hi : (i : Nat) < f.circles.length := by simpa using i.isLt
  have hj : (j : Nat) < f.circles.length := by simpa using j.isLt
  simp only [List.get_eq_getElem, List.getElem_map, h.numbered _ hi, h.numbered _ hj] at hij
  have hnumbers := circleId_injective hij
  exact Fin.ext (by omega)

theorem circle?_eq_some {c : Circle} (hc : c ∈ f.circles) : f.circle? c.id = some c :=
  Figure.circle?_eq_some hc fun _ hd => List.inj_on_of_nodup_map h.nodup hd hc

theorem circle?_segment {s : Segment} (hs : s ∈ f.segments) : f.circle? s.id = none := by
  refine List.find?_eq_none.mpr fun c hc hid => ?_
  obtain ⟨i, hi, rfl⟩ := List.getElem_of_mem hc
  have hid : f.circles[i].id = s.id := by simpa using hid
  rw [h.numbered i hi] at hid
  exact h.apart s hs (i + 1) hid.symm

theorem findsCircles : f.FindsCircles := ⟨fun _ => h.circle?_eq_some, fun _ => h.circle?_segment⟩

theorem addPoint {style : Style} {place : Coord K} {origin : Origin} {label? : Option String}
    {r : Figure K × Point K} (hr : f.addPoint style place origin label? = .ok r) : r.1.Tidy := by
  have helements := f.addPoint_elements style hr
  refine h.congr ?_ ?_
  · simp [circles, helements, Element.circle?]
  · simp [segments, helements, Element.segment?]

theorem addCircle (style : Style) (centerId radiusPointId : String) :
    (f.addCircle style centerId radiusPointId).1.Tidy := by
  have hcircles : (f.addCircle style centerId radiusPointId).1.circles =
      f.circles ++ [(f.addCircle style centerId radiusPointId).2] := by
    simp [circles, Figure.addCircle, Element.circle?]
  have hsegments : (f.addCircle style centerId radiusPointId).1.segments = f.segments := by
    simp [segments, Figure.addCircle, Element.segment?]
  constructor
  · intro i hi
    simp only [hcircles] at hi ⊢
    -- The circles that were there keep their places, and the new one is numbered by its own.
    by_cases hlt : i < f.circles.length
    · rw [List.getElem_append_left hlt]
      exact h.numbered i hlt
    · have hlast : i = f.circles.length := by
        rw [List.length_append, List.length_singleton] at hi
        omega
      subst hlast
      rw [List.getElem_concat_length rfl]
      rfl
  · rw [hsegments]
    exact h.apart

theorem addSegment (style : Style) (fromId toId : String) :
    (f.addSegment style fromId toId).1.Tidy := by
  have hcircles : (f.addSegment style fromId toId).1.circles = f.circles := by
    simp [circles, Figure.addSegment, Element.circle?]
  have hsegments : (f.addSegment style fromId toId).1.segments =
      f.segments ++ [(f.addSegment style fromId toId).2] := by
    simp [segments, Figure.addSegment, Element.segment?]
  constructor
  · simp only [hcircles]
    exact h.numbered
  · intro s hs n
    rw [hsegments] at hs
    -- No segment has the name of a circle, the new one included.
    rcases List.mem_append.mp hs with hs | hs
    · exact h.apart s hs n
    · obtain rfl := List.mem_singleton.mp hs
      exact seg_ne_circleId _ n

end Tidy

end Figure

/-! ### Moves -/

namespace Scene

variable [Scalar K] {style : Style} {s t : Scene K}

theorem Move.tidy (h : Move style s t) (hs : s.figure.Tidy) : t.figure.Tidy := by
  cases h with
  | point h => exact hs.addPoint h
  | circle centerId radiusPointId => exact hs.addCircle style centerId radiusPointId
  | segment fromId toId => exact hs.addSegment style fromId toId
  | skip label? => exact hs.congr rfl rfl
  | search extend he => exact hs
  | drop c => exact hs

theorem Leads.tidy (h : s.Leads style t) (hs : s.figure.Tidy) : t.figure.Tidy :=
  h.keeps (I := fun s => s.figure.Tidy) (fun _ _ => Move.tidy) hs

end Scene

end RulerCompass
