import RulerCompass.Book.BaseAngles
import RulerCompass.Book.CutOff
import RulerCompass.Book.EqualSides
import RulerCompass.Book.SideAngleSide
import RulerCompass.Book.Transfer
import RulerCompass.Book.Triangle
import RulerCompass.Book.Uniqueness

/-!
# The first book

The propositions that are written out, by number.
-/

namespace RulerCompass.Book

variable {K : Type} [Scalar K]

/-- All propositions of the book, in order. -/
def propositions : List (Proposition K) := [
  Triangle.proposition, Transfer.proposition, CutOff.proposition, SideAngleSide.proposition,
  BaseAngles.proposition, EqualSides.proposition, Uniqueness.proposition]

/-- The proposition with this number. -/
def proposition? (propId : Int) : Option (Proposition K) :=
  propositions.find? fun p => p.id = propId

end RulerCompass.Book
