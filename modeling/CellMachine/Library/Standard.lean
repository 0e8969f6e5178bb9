import CellMachine.Library.Strings

/-!
# CellMachine.Library.Standard

The console that programs print to, the commands that print and work on numbers,
and all standard commands together, at the addresses 0 to 14.
-/

namespace CellMachine

/-! ## the console -/

/-- A console holds the lines printed to it. -/
structure Console where
  /-- The lines, the last one first. -/
  backward : List String := []
  deriving DecidableEq, Repr, Inhabited

namespace Console

/-- The lines in order. -/
def lines (c : Console) : List String := c.backward.reverse

/-- Prints a line. -/
def print (line : String) (c : Console) : Console := ⟨line :: c.backward⟩

/-- The lines in order, and the console without them. -/
def take (c : Console) : List String × Console := (c.lines, {})

end Console

namespace Library

variable {σ : Type}

/-- Prints one value of any type as a line, where `emit` puts lines. -/
def print (emit : String → σ → σ) : Command σ where
  name := "print"
  params := [{ tag := .any }]
  run args world := (.ok (.returning args .void), emit (args.head?.elim "" Value.display) world)

/-! ## the commands on numbers -/

/-- A number without its sign. -/
def abs : Command σ :=
  query "abs" [{ tag := .dfloat }] .dfloat fun args => return .dfloat (← dfloat args 0).abs

/-- The square root of a number that is not negative. -/
def sqrt : Command σ :=
  query "sqrt" [{ tag := .dfloat }] .dfloat fun args => do
    let x ← dfloat args 0
    if x.lt ⟨0⟩ then throw (.failed s!"sqrt of negative number {x.render Decimal.plain}")
    return .dfloat x.sqrt

/-- The larger of two numbers. -/
def max : Command σ :=
  query "max" [{ tag := .dfloat }, { tag := .dfloat }] .dfloat fun args => do
    return .dfloat ((← dfloat args 0).max (← dfloat args 1))

/-- The smaller of two numbers. -/
def min : Command σ :=
  query "min" [{ tag := .dfloat }, { tag := .dfloat }] .dfloat fun args => do
    return .dfloat ((← dfloat args 0).min (← dfloat args 1))

/-- Adds to an int in place, 1 if no step is given. -/
def inc : Command σ where
  name := "inc"
  params := [{ tag := .int, byRef := true }, { tag := .int, default := some (.int 1) }]
  run args world :=
    let reply := do
      let n ← int args 0
      let step ← int args 1
      return .setting args 0 (.int (n + step))
    (reply, world)

/-- The commands on numbers, in the order of their addresses. -/
def numbers : List (Command σ) := [abs, sqrt, max, min, inc]

/-- All standard commands, in the order of their addresses; `emit` puts printed lines. -/
def standard (emit : String → σ → σ) : List (Command σ) := print emit :: strings ++ numbers

end Library

end CellMachine
