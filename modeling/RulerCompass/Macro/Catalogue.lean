import RulerCompass.Macro.CutOff
import RulerCompass.Macro.Triangle

/-!
# The macros

The propositions that can be used as one operation, by number.
-/

namespace RulerCompass

/-- A proposition that can be used as one operation. -/
inductive Macro where
  | triangle
  | transfer
  | cutOff
  deriving DecidableEq

namespace Macro

variable {K : Type} [Scalar K]

/-- The number of the proposition; it uses only earlier ones. -/
def number : Macro → Nat
  | triangle => 1
  | transfer => 2
  | cutOff => 3

/-- The macro of a proposition, if it has one. -/
def ofProp? (propId : Int) : Option Macro :=
  if propId = 1 then some triangle
  else if propId = 2 then some transfer
  else if propId = 3 then some cutOff
  else none

/-- The name under which a macro is offered. -/
def title : Macro → String
  | triangle => "Equilateral triangle (I.1)"
  | transfer => "Transfer distance (I.2)"
  | cutOff => "Cut off equal (I.3)"

/-- What a macro asks for, input by input. -/
def inputNames : Macro → List String
  | triangle => ["First endpoint", "Second endpoint"]
  | transfer => ["Target point", "Segment start", "Segment end"]
  | cutOff => ["Start of greater", "End of greater", "Start of less", "End of less"]

/-- The number of points that a macro takes. -/
def inputCount (m : Macro) : Nat := m.inputNames.length

/-- The given points of the proposition, one for each input. -/
def givenIds : Macro → List String
  | triangle => ["pt-A", "pt-B"]
  | transfer => ["pt-A", "pt-B", "pt-C"]
  | cutOff => ["pt-A", "pt-B", "pt-C", "pt-D"]

/-- Performs the macro in a scene. -/
def execute (style : Style) (m : Macro) (s : Scene K) (extend : Bool) (labels : OutputLabels)
    (inputs : List String) : Run K (Outcome K) :=
  match m with
  | triangle => drawTriangle style s extend labels inputs
  | transfer => drawTransfer style s extend labels inputs
  | cutOff => drawCutOff style s extend labels inputs

end Macro

end RulerCompass
