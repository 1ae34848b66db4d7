import RulerCompass.CommandLine.Report

/-!
# The program

Answers one call on the two output streams.
-/

/-- Writes the response to the arguments and returns its exit code. -/
def main (arguments : List String) : IO UInt32 := do
  match RulerCompass.CommandLine.respond {} arguments with
  | .ok response =>
    (← IO.getStdout).putStr response.stdout
    (← IO.getStderr).putStr response.stderr
    return response.exit.toUInt32
  | .error fault =>
    (← IO.getStderr).putStrLn fault.message
    return 1
