import RulerCompass.Fault

/-!
# Style

Colours of what is drawn, and whether an ambiguous choice is worth a warning.
-/

namespace RulerCompass

/-- Colours that are used in turn; there is at least one. -/
structure Palette where
  colors : List String
  nonempty : colors ≠ []

namespace Palette

/-- The palette of these colours, unless there is none. -/
def ofList (colors : List String) : Except Fault Palette :=
  if h : colors ≠ [] then .ok ⟨colors, h⟩ else .error .emptyPalette

/-- A turn always falls to some colour. -/
theorem length_pos (p : Palette) : 0 < p.colors.length := List.length_pos_iff.2 p.nonempty

/-- The colour whose turn it is; counters below zero go round backwards. -/
def color (p : Palette) (turn : Int) : String :=
  p.colors.get ⟨(turn % p.colors.length).toNat, by
    have := p.length_pos
    have h := Int.emod_lt_of_pos turn (Int.natCast_pos.2 this)
    have h' := Int.emod_nonneg turn (Int.ofNat_ne_zero.2 (Nat.pos_iff_ne_zero.1 this))
    omega⟩

end Palette

namespace Byrne

/-! ### Byrne's colours of the Elements -/

/-- The first colour. -/
def red : String := "#D42A20"
/-- The second colour. -/
def yellow : String := "#F0B429"
/-- The third colour. -/
def blue : String := "#2B59A8"
/-- The dark colour of what is given. -/
def given : String := "#1A1A2E"

/-- The colours of drawn elements, in turn. -/
def palette : Palette := ⟨[red, yellow, blue], by simp⟩

end Byrne

/-- How a figure is coloured and how talkative its construction is. -/
structure Style where
  palette : Palette := Byrne.palette
  given : String := Byrne.given
  free : String := Byrne.red
  /-- The colour of a hidden prolongation whose parent segment is gone. -/
  fallback : String := "#888888"
  /-- Whether a pick between candidates of one height is announced. -/
  warnAmbiguous : Bool := true

end RulerCompass
