import RulerCompass.Plane.Basic
import RulerCompass.Fault
import RulerCompass.Text.Numeral

/-!
# Command-line options

One number, and options that may stand before or after it.  Long options may be shortened as long as
they stay unique and take their value from the next argument or after an equals sign.  After `--` no
argument is an option.
-/

namespace RulerCompass.CommandLine

/-! ### Moves -/

/-- The parts of a text between commas, without surrounding blanks. -/
def commaParts (s : String) : List String := (s.splitOn ",").map Text.trim

/-- Splits a text at its first equals sign. -/
def splitAtEquals (s : String) : Option (String × String) :=
  let cs := s.toList
  match cs.dropWhile (· ≠ '=') with
  | [] => none
  | _ :: rest => some (String.ofList (cs.takeWhile (· ≠ '=')), String.ofList rest)

/-- A point id may leave out the mark for points. -/
def fullPointId (s : String) : String :=
  let id := Text.trim s
  if "pt-".isPrefixOf id then id else "pt-" ++ id

/-- A move, as in `pt-A=1,2`. -/
def readMove (value : String) : Except Fault (String × Coord Float) :=
  match splitAtEquals value with
  | none => .error (.malformedMove value)
  | some (name, rest) =>
    match commaParts rest with
    | [a, b] =>
      match Text.readFloat? a, Text.readFloat? b with
      | some x, some y => .ok (fullPointId name, ⟨x, y⟩)
      | _, _ => .error (.badCoordinates value)
    | _ => .error (.malformedMove value)

/-! ### Options -/

/-- The options of the program. -/
inductive Flag where
  | help
  | logLevel
  | move
  | ghosts
  | validateOnly
  deriving DecidableEq

namespace Flag

/-- The spellings of an option, short before long. -/
def names : Flag → List String
  | help => ["-h", "--help"]
  | logLevel => ["--log-level"]
  | move => ["--move"]
  | ghosts => ["--ghosts"]
  | validateOnly => ["--validate-only"]

/-- All options, in the order in which help shows them. -/
def all : List Flag := [help, logLevel, move, ghosts, validateOnly]

/-- How messages call an option. -/
def title (f : Flag) : String := "/".intercalate f.names

/-- Whether a value follows the option. -/
def takesValue : Flag → Bool
  | logLevel | move => true
  | _ => false

/-- All spellings, with their options. -/
def spellings : List (String × Flag) := all.flatMap fun f => f.names.map fun name => (name, f)

end Flag

/-- What is wrong with the arguments. -/
inductive Misuse where
  | ambiguous (argument : String) (candidates : List String)
  | surplusValue (f : Flag) (value : String)
  | missingValue (f : Flag)
  | badNumber (value : String)
  | badMove (fault : Fault)
  | missingNumber
  | unrecognized (arguments : List String)

namespace Misuse

/-- The wording of a misuse. -/
def message : Misuse → String
  | ambiguous argument candidates =>
    "ambiguous option: " ++ argument ++ " could match " ++ ", ".intercalate candidates
  | surplusValue f value =>
    "argument " ++ f.title ++ ": ignored explicit argument " ++ Text.quote value
  | missingValue f => "argument " ++ f.title ++ ": expected one argument"
  | badNumber value => "argument prop_id: invalid int value: " ++ Text.quote value
  | badMove fault => "argument " ++ Flag.move.title ++ ": " ++ fault.message
  | missingNumber => "the following arguments are required: prop_id"
  | unrecognized arguments => "unrecognized arguments: " ++ " ".intercalate arguments

end Misuse

/-! ### Sorting the arguments -/

/-- What an argument is by its looks. -/
inductive Slot where
  | value (s : String)
  | separator
  /-- An option with the spelling that it matched and the value attached to it, if any: what follows
  an equals sign, or the letters behind a short option. -/
  | option (f : Flag) (spelling : String) (attached : Option String)
  /-- Looks like an option, but there is none of the name. -/
  | unknown (s : String)

/-- A minus, digits, and possibly a point with digits behind it; a line break may follow. -/
def looksNegative (cs : List Char) : Bool :=
  let isDigit (c : Char) : Bool := (Text.digitValue? c).isSome
  let cs := if cs.getLast? = some '\n' then cs.dropLast else cs
  match cs with
  | '-' :: rest =>
    match rest.dropWhile isDigit with
    | [] => !rest.isEmpty
    | '.' :: places => !places.isEmpty && places.all isDigit
    | _ => false
  | _ => false

/-- The options that an argument may stand for, with their values. -/
def interpretations (s : String) : List (Flag × String × Option String) :=
  if "--".isPrefixOf s then
    let (name, attached) := match splitAtEquals s with
      | some (name, value) => (name, some value)
      | none => (s, none)
    (Flag.spellings.filter fun (spelling, _) => name.isPrefixOf spelling).map
      fun (spelling, f) => (f, spelling, attached)
  else
    let short := String.ofList (s.toList.take 2)
    let rest := String.ofList (s.toList.drop 2)
    Flag.spellings.filterMap fun (spelling, f) =>
      if spelling = short then some (f, spelling, some rest)
      else if s.isPrefixOf spelling then some (f, spelling, none)
      else none

/-- Sorts one argument that is not `--`. -/
def sortArgument (s : String) : Except Misuse Slot :=
  if !"-".isPrefixOf s || s = "-" then .ok (.value s)
  else match Flag.spellings.lookup s with
  | some f => .ok (.option f s none)
  | none =>
    match (splitAtEquals s).bind fun (name, value) =>
      (Flag.spellings.lookup name).map fun f => (f, name, value) with
    | some (f, name, value) => .ok (.option f name (some value))
    | none =>
      match interpretations s with
      | [(f, spelling, attached)] => .ok (.option f spelling attached)
      | [] =>
        if looksNegative s.toList || s.toList.contains ' ' then .ok (.value s)
        else .ok (.unknown s)
      | several => .error (.ambiguous s (several.map fun (_, spelling, _) => spelling))

/-- Sorts the arguments; all after `--` are values. -/
def sortArguments : List String → Except Misuse (List Slot)
  | [] => .ok []
  | s :: rest =>
    if s = "--" then .ok (.separator :: rest.map .value)
    else do
      let slot ← sortArgument s
      let slots ← sortArguments rest
      return slot :: slots

/-! ### Reading the arguments -/

/-- What the arguments ask for; an option that is absent has its default. -/
structure Options where
  propId : Option Int := none
  /-- The name of the least level of notices that are shown; none when it was lost. -/
  logLevel : Option String := some "INFO"
  /-- The moves in their order; none stands for a move that was lost. -/
  moves : List (Option (String × Coord Float)) := []
  ghosts : Bool := false
  validateOnly : Bool := false
  /-- Help has been asked for; nothing after it counts. -/
  help : Bool := false
  /-- Arguments that mean nothing. -/
  extras : List String := []

namespace Options

/-- Takes the number of a proposition. -/
def withNumber (o : Options) (s : String) : Except Misuse Options :=
  match Text.readInt? s with
  | some n => .ok { o with propId := some n }
  | none => .error (.badNumber s)

/-- Takes an option without a value. -/
def withFlag (o : Options) : Flag → Options
  | .help => { o with help := true }
  | .ghosts => { o with ghosts := true }
  | .validateOnly => { o with validateOnly := true }
  | _ => o

/-- Takes an option with its value. -/
def withValue (o : Options) (f : Flag) (value : String) : Except Misuse Options :=
  match f with
  | .logLevel => .ok { o with logLevel := some value }
  | .move => match readMove value with
    | .ok m => .ok { o with moves := o.moves ++ [some m] }
    | .error fault => .error (.badMove fault)
  | _ => .ok (o.withFlag f)

/-- Takes an option whose value is lost. -/
def withoutValue (o : Options) : Flag → Options
  | .logLevel => { o with logLevel := none }
  | .move => { o with moves := o.moves ++ [none] }
  | f => o.withFlag f

/-- What is left of the letters behind `-h` when the letters that repeat it are taken away.  Without
any letter nothing repeats it, and the empty value is left. -/
def surplusBehindHelp? (letters : List Char) : Option String :=
  match letters, letters.dropWhile (· = 'h') with
  | _ :: _, [] => none
  | _, rest => some (String.ofList rest)

/-- Takes an option with an attached value.  The value `--` is lost, as the separator is everywhere;
an option without a value refuses one, but the letters behind `-h` may repeat it. -/
def withAttached (o : Options) (f : Flag) (spelling value : String) : Except Misuse Options :=
  if f.takesValue then
    if value = "--" then .ok (o.withoutValue f) else o.withValue f value
  else if "--".isPrefixOf spelling then .error (.surplusValue f value)
  else match surplusBehindHelp? value.toList with
    | some surplus => .error (.surplusValue f surplus)
    | none => .ok (o.withFlag f)

/-- Whether an option is still to come. -/
def hasOption (slots : List Slot) : Bool := slots.any fun
  | .option .. | .unknown _ => true
  | _ => false

/-- The argument as it was typed, for arguments without a meaning. -/
def typed : Slot → String
  | .value s | .unknown s => s
  | .separator => "--"
  | .option _ spelling _ => spelling

/-- Reads what follows the last option: the number, if it is still missing, and a separator. -/
def readTail (o : Options) (slots : List Slot) : Except Misuse Options :=
  let extra (o : Options) (rest : List Slot) : Options :=
    { o with extras := o.extras ++ rest.map typed }
  if o.propId.isSome then .ok (extra o slots)
  else match slots with
    | .separator :: .value s :: rest | .value s :: .separator :: rest | .value s :: rest =>
      return extra (← o.withNumber s) rest
    | _ => .ok (extra o slots)

/-- Reads the sorted arguments from left to right, up to a request for help. -/
def read (o : Options) : List Slot → Except Misuse Options
  | [] => o.readTail []
  | .unknown s :: rest => read { o with extras := o.extras ++ [s] } rest
  | .option f spelling (some value) :: rest => do
    let o ← o.withAttached f spelling value
    if o.help then return o else read o rest
  | .option .help _ none :: _ => .ok (o.withFlag .help)
  | .option f _ none :: rest =>
    if f.takesValue then
      match rest with
      | .value s :: rest => do read (← o.withValue f s) rest
      | _ => .error (.missingValue f)
    else read (o.withFlag f) rest
  | slot :: rest =>
    if !hasOption rest then o.readTail (slot :: rest)
    else if o.propId.isNone then do read (← o.withNumber (typed slot)) rest
    else read { o with extras := o.extras ++ [typed slot] } rest

/-- Reads the arguments of a program call. -/
def ofArguments (arguments : List String) : Except Misuse Options := do
  let o ← read {} (← sortArguments arguments)
  if o.help then return o
  else if o.propId.isNone then .error .missingNumber
  else if o.extras.isEmpty then return o
  else .error (.unrecognized o.extras)

end Options

end RulerCompass.CommandLine
