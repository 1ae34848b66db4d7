import RulerCompass.Datum
import RulerCompass.Text.Numeral

/-!
# Faults

Why an operation cannot answer.  Each cause is a constructor; `Fault.message` gives its wording.
-/

namespace RulerCompass

/-- The causes for which an operation gives no result. -/
inductive Fault where
  /-- The label counter is below the first letter counted from the end of the alphabet. -/
  | labelOutOfRange
  /-- The round of a label has more digits than are read. -/
  | roundTooLong (digits : Nat)
  /-- The round of the next label has more digits than are written. -/
  | noLabelLeft
  | emptyPalette
  | nothingToUndo
  | nothingToRewind
  /-- An infinite angle has no cosine. -/
  | infiniteAngle
  /-- An empty collection of numbers has no least member. -/
  | noLeastNumber
  | unknownSelector (shown : Datum)
  | unknownAction (shown : Datum)
  | unknownExtra (shown : Datum)
  | unknownCitation (shown : Datum)
  /-- A definition refers to points before they exist; one text per finding. -/
  | illFormed (propId : Int) (findings : List String)
  /-- A move is not of the form `point=x,y`. -/
  | malformedMove (value : String)
  /-- The coordinates of a move are not numbers. -/
  | badCoordinates (value : String)
  /-- The move with this number was lost. -/
  | emptyMove (index : Nat)
  /-- The name of the level was lost. -/
  | noLevelName
  /-- The name belongs to the format of log lines, not to a level. -/
  | formatAsLevel
  /-- The name belongs to the table of log formats, not to a level. -/
  | formatsAsLevel
  /-- A definition has no step with this number. -/
  | noSuchStep
  /-- A definition does not say how its given figure moves. -/
  | noLayout
  /-- A definition has no conclusion. -/
  | noConclusion

namespace Fault

/-- What is said of numbers with too many digits. -/
def beyondLimit (value : String) : String :=
  "Exceeds the limit (" ++ toString Text.digitLimit ++ " digits) for integer string conversion" ++
    value ++ "; use sys.set_int_max_str_digits() to increase the limit"

/-- The wording of a fault. -/
def message : Fault → String
  | labelOutOfRange => "string index out of range"
  | roundTooLong digits => beyondLimit (": value has " ++ toString digits ++ " digits")
  | noLabelLeft => beyondLimit ""
  | emptyPalette => "palette must contain at least one color"
  | nothingToUndo => "cannot undo on an empty snapshot stack"
  | nothingToRewind => "cannot rewind an empty snapshot stack"
  | infiniteAngle => "math domain error"
  | noLeastNumber =>
    "zero-size array to reduction operation minimum which has no identity"
  | unknownSelector d => "unknown selector " ++ d.render
  | unknownAction d => "unknown action " ++ d.render
  | unknownExtra d => "unknown post-completion action " ++ d.render
  | unknownCitation d => "unknown citation " ++ d.render
  | illFormed propId findings =>
    "I." ++ toString propId ++ " is not well-formed (" ++ toString findings.length ++
      " problem(s)): " ++ "; ".intercalate findings
  | malformedMove value => "expected pt-X=x,y, got " ++ Text.quote value
  | badCoordinates value => "bad coordinates in " ++ Text.quote value
  | emptyMove index =>
    "dictionary update sequence element #" ++ toString index ++ " has length 0; 2 is required"
  | noLevelName => "'list' object has no attribute 'upper'"
  | formatAsLevel => "Unknown level: '%(levelname)s:%(name)s:%(message)s'"
  | formatsAsLevel =>
    "Level not an integer or a valid string: \x7b" ++
      "'%': (<class 'logging.PercentStyle'>, '%(levelname)s:%(name)s:%(message)s'), " ++
      "'\x7b': (<class 'logging.StrFormatStyle'>, " ++
        "'\x7blevelname\x7d:\x7bname\x7d:\x7bmessage\x7d'), " ++
      "'$': (<class 'logging.StringTemplateStyle'>, " ++
        "'$\x7blevelname\x7d:$\x7bname\x7d:$\x7bmessage\x7d')\x7d"
  | noSuchStep => "tuple index out of range"
  | noLayout | noConclusion => "'NoneType' object is not callable"

end Fault

end RulerCompass
