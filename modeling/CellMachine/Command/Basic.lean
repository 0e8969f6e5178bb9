import CellMachine.Command.Value

/-!
# CellMachine.Command.Basic

Host commands: operations that a program calls by address and that the host
implements. A command reads and changes a world `σ` of the host's choosing, and
it hands back its arguments, as many as it was given, for those that were
passed by reference.
-/

namespace CellMachine

/-- A failure that a command reports. -/
inductive CommandError where
  /-- An argument is not of the type the command needs. -/
  | badArgument (index : Nat) (expected : Tag)
  | failed (reason : String)
  deriving DecidableEq, Repr

/-- The wording of a failure. -/
def CommandError.message : CommandError → String
  | badArgument index expected => s!"argument {index}: expected {expected.name}"
  | failed reason => reason

/-- A parameter of a command. -/
structure Param where
  tag : Tag
  /-- Whether a heap address stands for what is stored there. -/
  byRef : Bool := false
  /-- What an omitted argument stands for; without it the argument is required. -/
  default : Option Value := none
  deriving DecidableEq, Repr

/-- What a command answers to its arguments. -/
structure Reply (args : List Value) where
  result : Value := .void
  /-- The arguments as the command leaves them. -/
  final : List Value
  length_final : final.length = args.length

/-- The answer that leaves the arguments as they are. -/
def Reply.returning (args : List Value) (result : Value) : Reply args where
  result := result
  final := args
  length_final := rfl

/-- The answer without a result that changes one argument. -/
def Reply.setting (args : List Value) (i : Nat) (v : Value) : Reply args where
  final := args.set i v
  length_final := List.length_set

/-- A command over a world `σ`. -/
structure Command (σ : Type) where
  name : String
  params : List Param := []
  returns : Tag := .void
  run : (args : List Value) → σ → Except CommandError (Reply args) × σ

/-- Commands in the order of their addresses. -/
structure CommandTable (σ : Type) where
  commands : Array (Command σ) := #[]

namespace CommandTable

variable {σ : Type}

/-- The table without commands. -/
def empty : CommandTable σ := {}

/-- How many commands there are. -/
def size (t : CommandTable σ) : Nat := t.commands.size

/-- Whether there is no command. -/
def isEmpty (t : CommandTable σ) : Bool := t.commands.isEmpty

/-- Adds a command and gives its address, which is an `int`. -/
def register (t : CommandTable σ) (c : Command σ) : Except Fault (Nat × CommandTable σ) :=
  if t.size < intLimit then .ok (t.size, ⟨t.commands.push c⟩) else .error (.tableFull t.size)

/-- Adds commands in order. -/
def registerAll (t : CommandTable σ) (cs : List (Command σ)) : Except Fault (CommandTable σ) :=
  cs.foldlM (fun t c => (t.register c).map Prod.snd) t

/-- The command at an address. -/
def get? (t : CommandTable σ) : (address : Int) → Option (Command σ)
  | .ofNat i => t.commands[i]?
  | .negSucc _ => none

/-- Whether two names differ at most in the case of their ASCII letters. -/
def sameName (a b : String) : Bool :=
  a.toList.map Char.toLower == b.toList.map Char.toLower

/-- The address of the first command with a name; an address must be an `int`. -/
def find? (t : CommandTable σ) (name : String) : Option Nat :=
  (t.commands.findIdx? fun c => sameName c.name name).filter (· < intLimit)

end CommandTable

end CellMachine
