import CellMachine.Machine.Step

/-!
# CellMachine.Machine.Run

Execution of many instructions: with a budget, without one, and to the end of
the program past all breakpoints. An execution without a budget may not end, so
it takes fuel and has no outcome when the fuel is used up.
-/

namespace CellMachine

/-- Why an execution without a fault came back. -/
inductive Status where
  /-- The program has come to its end. -/
  | complete
  /-- The budget is used up. -/
  | suspended
  /-- A breakpoint was met. -/
  | breakpoint
  deriving DecidableEq, Repr

namespace Machine

variable {σ : Type}

/-- Executes up to `n` instructions, until the program ends, a breakpoint is met or one fails. -/
def executeUpTo (m : Machine σ) : (n : Nat) → MachineM σ Status
  | 0, s => .ok (if m.isComplete s then .complete else .suspended) s
  | n + 1, s =>
    if m.isComplete s then .ok .complete s
    else
      match m.step s with
      | .ok .proceed s => m.executeUpTo n s
      | .ok .pause s => .ok .breakpoint s
      | .error e s => .error e s

/-- Executes with a budget of instructions, where 0 sets no limit but the fuel. -/
def execute (m : Machine σ) (fuel budget : Nat) (s : State σ) :
    Option (EStateM.Result Fault (State σ) Status) :=
  if budget ≠ 0 then some (m.executeUpTo budget s)
  else
    match m.executeUpTo fuel s with
    | .ok .suspended _ => none
    | outcome => some outcome

/-- Executes past all breakpoints to the end of the program. -/
def run (m : Machine σ) : (fuel : Nat) → State σ → Option (EStateM.Result Fault (State σ) Unit)
  | 0, _ => none
  | fuel + 1, s =>
    match m.execute fuel 0 s with
    | some (.ok .complete s) => some (.ok () s)
    | some (.ok _ s) => m.run fuel s
    | some (.error e s) => some (.error e s)
    | none => none

end Machine

end CellMachine
