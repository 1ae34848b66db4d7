import RulerCompass.Book.Catalogue
import RulerCompass.Proofs.Figure.Names
import RulerCompass.Proofs.Replay.Grounded

/-!
# The given figures of the book

Moving a point changes no name: a layout draws the same elements wherever its points are.  So what is
said about the names of a given figure can be read off the figure as the book has it: it is tidy, the
hypotheses are about its points, and a conclusion names its points or those that the steps make.
-/

namespace RulerCompass

variable {K : Type}

namespace Book

theorem sameNames_layout [Scalar K] {p : Proposition K} (hp : p ∈ propositions)
    {layout : Positions K → List (Element K)} (hlayout : p.layout? = some layout)
    (positions : Positions K) : SameNames (layout positions) p.given := by
  simp only [propositions, List.mem_cons, List.not_mem_nil, or_false] at hp
  rcases hp with rfl | rfl | rfl | rfl | rfl | rfl | rfl <;> cases hlayout <;> rfl

/-! ### At doubles -/

variable {p : Proposition Float} (hp : p ∈ propositions)
include hp

/-- Nothing is given but points and segments that are called by their ends. -/
theorem tidy_given : (Figure.ofGiven p.given).Tidy := by
  have hcircles : ∀ p ∈ propositions (K := Float), (Figure.ofGiven p.given).circles = [] := by
    decide +kernel
  have hsegments : ∀ p ∈ propositions (K := Float), ∀ s ∈ (Figure.ofGiven p.given).segments,
      s.id = "seg-" ++ String.ofList (s.id.toList.drop 4) := by decide +kernel
  exact Figure.tidy_of_given (hcircles p hp) fun s hs => ⟨_, hsegments p hp s hs⟩

/-- The hypotheses are about given points. -/
theorem points_hypotheses : ∀ a ∈ p.hypotheses, ∀ id ∈ a.equation.points,
    id ∈ (Figure.ofGiven p.given).pointIds := by
  have hall : ∀ p ∈ propositions (K := Float), ∀ a ∈ p.hypotheses, ∀ id ∈ a.equation.points,
      id ∈ (Figure.ofGiven p.given).pointIds := by decide +kernel
  exact hall p hp

/-- A conclusion is about given points and points that the steps make. -/
theorem points_conclusion : ∀ a ∈ p.conclusion, ∀ id ∈ a.equation.points,
    id ∈ (Figure.ofGiven p.given).pointIds ∨ ∃ step ∈ p.steps, step.action.made? = some id := by
  have hall : ∀ p ∈ propositions (K := Float), ∀ a ∈ p.conclusion, ∀ id ∈ a.equation.points,
      id ∈ (Figure.ofGiven p.given).pointIds ∨
        ∃ step ∈ p.steps, step.action.made? = some id := by decide +kernel
  exact hall p hp

section Layout

variable {layout : Positions Float → List (Element Float)} (hlayout : p.layout? = some layout)
  (positions : Positions Float)
include hlayout

/-- Wherever the points are, the proposition has a replay, while there are labels for what follows it. -/
theorem exists_run_layout (style : Style) (extras : List Extra) (hextras : ∀ e ∈ extras, e.Known)
    (hmore : 26 + extras.length ≤ Label.capacity) :
    ∃ r, (Replay.run style p (layout positions) p.steps extras).result = .ok r :=
  Replay.exists_run style p extras (known_of_mem hp) hextras
    (labelsReach hp (sameNames_layout hp hlayout positions) extras.length hmore)

theorem tidy_layout : (Figure.ofGiven (layout positions)).Tidy :=
  (tidy_given hp).of_sameNames (sameNames_layout hp hlayout positions)

theorem pointIds_layout :
    (Figure.ofGiven (layout positions)).pointIds = (Figure.ofGiven p.given).pointIds :=
  Figure.pointIds_of_sameNames (sameNames_layout hp hlayout positions)

/-- Wherever the points are, the hypotheses are about points of the given figure. -/
theorem grounds_hypotheses :
    ∀ a ∈ p.hypotheses, (Figure.ofGiven (layout positions)).Grounds a.equation := by
  intro a ha id hid
  rw [Figure.isSome_point?_iff_mem, pointIds_layout hp hlayout positions]
  exact points_hypotheses hp a ha id hid

theorem grounds_conclusion : ∀ a ∈ p.conclusion, ∀ id ∈ a.equation.points,
    ((Figure.ofGiven (layout positions)).point? id).isSome ∨
      ∃ (k : Nat) (step : Step), p.steps[k]? = some step ∧ step.action.made? = some id := by
  intro a ha id hid
  rcases points_conclusion hp a ha id hid with hgiven | ⟨step, hstep, hmade⟩
  · left
    rw [Figure.isSome_point?_iff_mem, pointIds_layout hp hlayout positions]
    exact hgiven
  · right
    obtain ⟨k, hk⟩ := List.getElem?_of_mem hstep
    exact ⟨k, step, hk, hmade⟩

end Layout

end Book

end RulerCompass
