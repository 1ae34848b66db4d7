import RulerCompass.Run
import RulerCompass.Summary.Brief

/-!
# Traces of calls

A traced call says that it begins, with its arguments, and how it ends: with a result or with an
exception.  Tracing a traced call again adds nothing.
-/

namespace RulerCompass

/-- How a call ends. -/
inductive Ending where
  | returned (e : Exhibit)
  | raised (message : String)

/-- What a traced call tells of itself. -/
structure Trace where
  /-- The name under which the call is traced. -/
  name : String := "target"
  /-- Whether the result is shown. -/
  showsResult : Bool := true

namespace Trace

variable (t : Trace)

/-- The line before a call. -/
def entering (args : List Exhibit) (named : List (String × Exhibit)) : Level × String :=
  (.debug, "Entering " ++ t.name ++ " (" ++ Exhibit.briefArguments args named ++ ")")

/-- The line after a call. -/
def leaving : Ending → Level × String
  | .returned e =>
    (.debug, "Exiting " ++ t.name ++
      if t.showsResult then " -> " ++ Exhibit.briefWith 5 400 e else "")
  | .raised _ => (.error, "Exception in " ++ t.name)

/-- The lines of a call; none unless the finest level is enabled. -/
def lines (enabled : Bool) (args : List Exhibit) (named : List (String × Exhibit)) (e : Ending) :
    List (Level × String) :=
  if enabled then [t.entering args named, t.leaving e] else []

end Trace

end RulerCompass
