import CellMachine.Command.Basic

/-!
# CellMachine.Library.Arguments

How library commands read their arguments.
-/

namespace CellMachine.Library

/-- The argument at an index, as `get?` reads it; one that it cannot read is not of type `t`. -/
def expect {α : Type} (t : Tag) (get? : Value → Option α) (args : List Value) (i : Nat) :
    Except CommandError α :=
  match args[i]?.bind get? with
  | some a => .ok a
  | none => .error (.badArgument i t)

/-- The argument at an index. -/
def value (args : List Value) (i : Nat) : Except CommandError Value := expect .any some args i

/-- The int at an index. -/
def int (args : List Value) (i : Nat) : Except CommandError Int32 :=
  expect .int Value.asInt? args i

/-- The 64-bit float at an index. -/
def dfloat (args : List Value) (i : Nat) : Except CommandError Binary64 :=
  expect .dfloat Value.asDfloat? args i

/-- The text at an index. -/
def text (args : List Value) (i : Nat) : Except CommandError String :=
  expect .string Value.asText? args i

/-- A command that leaves its arguments and the world alone. -/
def query {σ : Type} (name : String) (params : List Param) (returns : Tag)
    (f : List Value → Except CommandError Value) : Command σ where
  name := name
  params := params
  returns := returns
  run args world := ((f args).map (Reply.returning args), world)

end CellMachine.Library
