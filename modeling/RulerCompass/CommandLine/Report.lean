import RulerCompass.CommandLine.Options
import RulerCompass.Narration
import RulerCompass.Proposition.Findings
import RulerCompass.Replay

/-!
# The command line

Replays a proposition of the book, possibly with some of its given points moved, and prints the
construction and its proof.  Notices go to the second stream, down to a chosen level.
-/

namespace RulerCompass.CommandLine

/-- What a program call answers. -/
structure Response where
  exit : Nat := 0
  stdout : String := ""
  stderr : String := ""

/-- What a call prints, the notices it gives, and its exit code. -/
structure Report where
  exit : Nat := 0
  lines : List String := []
  notices : List (Notice Float) := []

/-- The capitals of a letter, for the letters whose capitals can stand in the name of a level. -/
def capitals (c : Char) : List Char :=
  if c = 'ı' then ['I']
  else if c = 'ſ' then ['S']
  else if c = 'ﬅ' ∨ c = 'ﬆ' then ['S', 'T']
  else [c.toUpper]

/-- The least rank of notices that are shown, by the name of a level.  Unknown names mean `INFO`,
except for the names of two things that are not levels. -/
def threshold (levelName : Option String) : Except Fault Nat :=
  match levelName with
  | none => .error .noLevelName
  | some name => match String.ofList (name.toList.flatMap capitals) with
    | "CRITICAL" | "FATAL" => .ok Level.critical.rank
    | "ERROR" => .ok Level.error.rank
    | "WARNING" | "WARN" => .ok Level.warning.rank
    | "DEBUG" => .ok Level.debug.rank
    | "NOTSET" => .ok 0
    | "BASIC_FORMAT" => .error .formatAsLevel
    | "_STYLES" => .error .formatsAsLevel
    | _ => .ok Level.info.rank

/-- The moves, unless one was lost. -/
def completeMoves (moves : List (Option (String × Coord Float))) :
    Except Fault (List (String × Coord Float)) :=
  moves.zipIdx.mapM fun (move?, index) => match move? with
    | some move => .ok move
    | none => .error (.emptyMove index)

/-- The moved points, each once, in the order of their first moves. -/
def movedIds (moves : List (String × Coord Float)) : List String :=
  (moves.map Prod.fst).foldl (fun ids id => if id ∈ ids then ids else ids ++ [id]) []

/-- The given figure after some moves, or the ids of the points that cannot be moved. -/
def movedGiven (p : Proposition Float) (moves : List (String × Coord Float)) :
    Except (List String) (List (Element Float)) :=
  if moves.isEmpty then .ok p.given
  else
    let ids := movedIds moves
    let fixed := ids.filter (· ∉ p.draggable)
    match p.layout?, fixed with
    | some layout, [] =>
      .ok (layout ((Positions.ofElements p.given).update (Positions.ofMoves moves)))
    | _, [] => .error (ids.mergeSort fun a b => decide (a ≤ b))
    | _, fixed => .error fixed

/-- The printed account of a replay. -/
def account (p : Proposition Float) (r : Replay Float) (ghosts : Bool) :
    Except Fault (List String) := do
  let f := r.scene.figure
  let citations ← Fact.narrateCitations r.facts
  let ghostLines :=
    if ghosts then ["\n=== Ghost Layers ===", GhostLayer.narrate r.ghosts] else []
  let verdict := ((p.verdict f).filter (· ≠ "")).toList.map fun v => "\nConclusion: " ++ v
  return ["I." ++ toString p.id ++ ": " ++ p.title, narrateProof f r.facts,
      "\n=== Citations ===", citations] ++ ghostLines ++ verdict ++
    ["\nSteps completed: " ++ toString r.completed ++ "/" ++ toString p.steps.length]

/-- Replays a proposition on a given figure. -/
def replayReport (style : Style) (p : Proposition Float) (given : List (Element Float))
    (ghosts : Bool) : Run Float (List String) := do
  let r ← Replay.run style p given p.steps
  let lines ← account p r ghosts
  if r.completed ≠ p.steps.length then Run.give [.brokeDown p.id r.completed]
  return lines

/-- Carries out the options for a proposition of the book. -/
def reportOn (style : Style) (p : Proposition Float) (o : Options) : Except Fault Report :=
  match p.ensureWellFormed with
  | .error fault => return { exit := 1, notices := [.badDefinition fault] }
  | .ok () => do
    let checked : Notice Float := .wellFormed p.id
    if o.validateOnly then
      return { lines := ["I." ++ toString p.id ++ ": definition OK"], notices := [checked] }
    match movedGiven p (← completeMoves o.moves) with
    | .error ids => return { exit := 1, notices := [checked, .notDraggable p.id ids] }
    | .ok given =>
      let r := replayReport style p given o.ghosts
      return { lines := ← r.result, notices := checked :: r.notices }

/-- Carries out the options. -/
def report (style : Style) (o : Options) : Except Fault Report :=
  let propId := o.propId.getD 0
  match Book.proposition? propId with
  | none => return { exit := 1, notices := [.unknownProposition propId] }
  | some p => reportOn style p o

/-- Each line with its line break. -/
def printed (lines : List String) : String := String.join (lines.map (· ++ "\n"))

/-- Answers a program call in a style. -/
def respond (style : Style) (arguments : List String) : Except Fault Response :=
  match Options.ofArguments arguments with
  | .error misuse => return { exit := 2, stderr := "error: " ++ misuse.message ++ "\n" }
  | .ok o => do
    if o.help then return {}
    let least ← threshold o.logLevel
    let r ← report style o
    let shown := r.notices.filter fun n => least ≤ n.level.rank
    return { exit := r.exit, stdout := printed r.lines, stderr := printed (shown.map Notice.line) }

end RulerCompass.CommandLine
