import CellMachine.Command.Call
import CellMachine.Instr

/-!
# CellMachine.Machine.Basic

A machine is a program, the host commands it may call and its settings; these
never change. What changes while it runs is its `State`.
-/

namespace CellMachine

/-- What can be chosen about a machine before it runs. -/
structure Settings where
  /-- Bytes of heap memory at the start. -/
  initialHeapSize : Nat := 256
  /-- Bytes of stack buffer at the start. -/
  stackCapacity : Nat := 4096
  /-- How many calls may be open at once. -/
  maxCallDepth : Nat := 1024
  deriving DecidableEq, Repr, Inhabited

/-- A machine over a host's world `σ`. -/
structure Machine (σ : Type) where
  program : Program
  commands : CommandTable σ
  settings : Settings := {}

/-- The state of a machine between two instructions. -/
structure State (σ : Type) extends Store σ where
  /-- Where the next instruction starts. -/
  ip : Nat := 0
  /-- Where the last instruction started. -/
  current : Nat := 0
  /-- Where the open calls return to, the innermost first. -/
  calls : List Nat := []
  /-- The lines printed for debugging, the last one first. -/
  printed : List String := []
  /-- How many instructions have been started. -/
  executed : Nat := 0

/-- Actions on a state; what a failing action did stays done. -/
abbrev MachineM (σ : Type) := EStateM Fault (State σ)

namespace Machine

variable {σ : Type}

/-- The state before the first instruction. -/
def start (m : Machine σ) (world : σ) : State σ where
  stack := .withCapacity m.settings.stackCapacity
  registers := .new
  heap := .new m.settings.initialHeapSize
  world := world

/-- Whether the program has come to its end. -/
def isComplete (m : Machine σ) (s : State σ) : Bool := m.program.size ≤ s.ip

/-- A one-line description of a machine in a state. -/
def describe (m : Machine σ) (s : State σ) : String :=
  s!"Vm \x7b ip: {s.ip}, program_len: {m.program.size}, stack_bytes: {s.stack.length}, " ++
    s!"call_depth: {s.calls.length}, .. \x7d"

end Machine

namespace State

variable {σ : Type}

/-- The lines printed for debugging, in order. -/
def debugLines (s : State σ) : List String := s.printed.reverse

/-- Puts a cell into a register. -/
def setRegister (s : State σ) (r : UInt8) (c : Cell) : State σ :=
  { s with registers := s.registers.store r c }

end State

end CellMachine
