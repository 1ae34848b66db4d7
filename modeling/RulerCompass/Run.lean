import RulerCompass.Fault

/-!
# Runs

A run is a result, or the fault that stopped it, together with the notices given on the way.  A
fault keeps the notices before it.  Notices never influence a result.
-/

namespace RulerCompass

/-- How urgent a notice is. -/
inductive Level where
  | debug
  | info
  | warning
  | error
  | critical
  deriving DecidableEq

namespace Level

/-- Levels count in tens, the most urgent highest. -/
def rank : Level → Nat
  | debug => 10
  | info => 20
  | warning => 30
  | error => 40
  | critical => 50

/-- The word for a level. -/
def name : Level → String
  | debug => "DEBUG"
  | info => "INFO"
  | warning => "WARNING"
  | error => "ERROR"
  | critical => "CRITICAL"

end Level

/-- What is worth telling about a run. -/
inductive Notice (K : Type) where
  /-- The highest candidate at these coordinates has `rivals` rivals on its level. -/
  | ambiguousPick (x y : K) (rivals : Nat)
  | noMeeting (step : Nat) (propId : Int)
  | macroRefused (step : Nat) (propId macroId : Int) (inputs : List String)
  | unknownMacro (step : Nat) (propId macroId : Int)
  | replayed (propId : Int) (completed total facts : Nat)
  | unknownProposition (propId : Int)
  | badDefinition (fault : Fault)
  | wellFormed (propId : Int)
  | notDraggable (propId : Int) (ids : List String)
  | brokeDown (propId : Int) (completed : Nat)

namespace Notice

variable {K : Type}

/-- How urgent each notice is. -/
def level : Notice K → Level
  | ambiguousPick .. | noMeeting .. | macroRefused .. | unknownMacro .. | brokeDown .. => .warning
  | replayed .. | wellFormed .. => .info
  | unknownProposition .. | badDefinition .. | notDraggable .. => .error

/-- The part of the program that speaks. -/
def channel : Notice K → String
  | ambiguousPick .. => "euclid_engine.selectors"
  | noMeeting .. | macroRefused .. | unknownMacro .. | replayed .. => "euclid_engine.replay"
  | unknownProposition .. | badDefinition .. | wellFormed .. | notDraggable .. | brokeDown .. =>
    "euclid_engine.__main__"

/-- The name of a proposition of the first book. -/
def bookName (propId : Int) : String := "I." ++ toString propId

/-- The wording of a notice. -/
def message : Notice Float → String
  | ambiguousPick x y rivals =>
    "Highest-Y pick is ambiguous: (" ++ Decimal.fixed 4 x ++ ", " ++ Decimal.fixed 4 y ++ ") vs " ++
      toString rivals ++ " level candidate(s)"
  | noMeeting step propId =>
    "Step " ++ toString step ++ " of " ++ bookName propId ++ " has no matching intersection"
  | macroRefused step propId macroId inputs =>
    "Step " ++ toString step ++ " of " ++ bookName propId ++ ": " ++ bookName macroId ++
      " could not run on " ++ Text.quoteList inputs
  | unknownMacro step propId macroId =>
    "Step " ++ toString step ++ " of " ++ bookName propId ++ " names unknown macro " ++
      bookName macroId
  | replayed propId completed total facts =>
    "Replayed " ++ bookName propId ++ ": " ++ toString completed ++ "/" ++ toString total ++
      " steps, " ++ toString facts ++ " facts"
  | unknownProposition propId => "Unknown proposition " ++ bookName propId
  | badDefinition fault => fault.message
  | wellFormed propId => "Definition of " ++ bookName propId ++ " is well-formed"
  | notDraggable propId ids => bookName propId ++ " cannot drag " ++ ", ".intercalate ids
  | brokeDown propId completed =>
    "Construction of " ++ bookName propId ++ " broke down after " ++ toString completed ++
      " step(s)"

/-- The line that a log shows. -/
def line (n : Notice Float) : String := n.level.name ++ ":" ++ n.channel ++ ":" ++ n.message

end Notice

/-- A result or a fault, with the notices given before it. -/
@[ext]
structure Run (K : Type) (α : Type) where
  notices : List (Notice K)
  result : Except Fault α

namespace Run

variable {K α β : Type}

/-- A run that gives a result without a notice. -/
def pure (a : α) : Run K α := ⟨[], .ok a⟩

/-- A fault ends the run. -/
def bind (r : Run K α) (f : α → Run K β) : Run K β :=
  match r.result with
  | .ok a => ⟨r.notices ++ (f a).notices, (f a).result⟩
  | .error fault => ⟨r.notices, .error fault⟩

instance : Monad (Run K) where
  pure := pure
  bind := bind

/-- A run that ends at once. -/
def fail (fault : Fault) : Run K α := ⟨[], .error fault⟩

/-- A run that only gives notices. -/
def give (notices : List (Notice K)) : Run K Unit := ⟨notices, .ok ()⟩

/-- A silent run with this outcome. -/
def ofExcept (e : Except Fault α) : Run K α := ⟨[], e⟩

instance : MonadLift (Except Fault) (Run K) := ⟨ofExcept⟩

/-- Runs compose as programs do: notices are appended, and the first fault ends the rest. -/
instance : LawfulMonad (Run K) := LawfulMonad.mk' (Run K)
  (fun r => by rcases r with ⟨_, _ | _⟩ <;> simp [Functor.map, bind, pure])
  (fun _ _ => rfl)
  (fun r f g => by
    rcases r with ⟨n, fault | a⟩
    · rfl
    · cases h : (f a).result <;> simp [Bind.bind, bind, h])

@[simp] theorem result_pure (a : α) : (Pure.pure a : Run K α).result = .ok a := rfl

@[simp] theorem result_bind (r : Run K α) (f : α → Run K β) :
    (r >>= f).result = r.result >>= fun a => (f a).result := by
  cases h : r.result <;> simp [Bind.bind, bind, h, Except.bind]

@[simp] theorem result_give (notices : List (Notice K)) : (give notices).result = .ok () := rfl

@[simp] theorem result_fail (fault : Fault) : (fail fault : Run K α).result = .error fault := rfl

@[simp] theorem result_ofExcept (e : Except Fault α) : (ofExcept e : Run K α).result = e := rfl

end Run

end RulerCompass
