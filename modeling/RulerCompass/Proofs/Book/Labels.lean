import RulerCompass.Book.Catalogue
import RulerCompass.Proofs.Action.Requests
import RulerCompass.Proofs.Figure.Names

/-!
# The labels of the book

The book names its points by single letters and never comes to the end of the alphabet, so there always
are labels for the points that its steps make.  Moving the given points changes no label.
-/

namespace RulerCompass.Book

variable {K : Type} [Scalar K]

/-- What is named in a proposition does not depend on the numbers that its points are measured in. -/
theorem names_eq_at_doubles :
    (propositions (K := K)).map (fun p => (p.given.map Element.unplaced, p.steps)) =
      (propositions (K := Float)).map fun p => (p.given.map Element.unplaced, p.steps) := rfl

variable {p : Proposition K} (hp : p ∈ propositions)
include hp

theorem labels_of_mem : (Figure.ofGiven p.given).Legible ∧
    (∀ r ∈ requests p.steps, ∀ label ∈ r.label?, Label.Readable label) ∧
    ceilings (Figure.ofGiven p.given).nextLabel.toNat (requests p.steps) ≤ 26 := by
  have hall : ∀ q ∈ propositions (K := Float),
      (Figure.ofGiven (q.given.map Element.unplaced)).Legible ∧
      (∀ r ∈ requests q.steps, ∀ label ∈ r.label?, Label.Readable label) ∧
      ceilings (Figure.ofGiven (q.given.map Element.unplaced)).nextLabel.toNat (requests q.steps) ≤
        26 := by
    decide +kernel
  -- Names and steps do not depend on coordinates, so the book is checked over doubles only.
  have hnames := List.mem_map_of_mem (f := fun p => (p.given.map Element.unplaced, p.steps)) hp
  rw [names_eq_at_doubles] at hnames
  obtain ⟨q, hq, hsame⟩ := List.mem_map.mp hnames
  obtain ⟨hgiven, hsteps⟩ := Prod.mk.inj hsame
  rw [Figure.legible_ofGiven_unplaced, Figure.nextLabel_ofGiven_unplaced, ← hgiven, ← hsteps]
  exact hall q hq

/-- **The book has labels enough**, for all that its steps make and for more. -/
theorem labelsReach {given : List (Element K)} (hgiven : SameNames given p.given) (more : Nat)
    (hmore : 26 + more ≤ Label.capacity) : LabelsReach given (requests p.steps) more := by
  obtain ⟨hlegible, hreadable, hceilings⟩ := labels_of_mem hp
  refine ⟨(Figure.legible_ofGiven_of_sameNames hgiven).mpr hlegible, hreadable, ?_⟩
  rw [Figure.nextLabel_ofGiven_of_sameNames hgiven]
  omega

end RulerCompass.Book
