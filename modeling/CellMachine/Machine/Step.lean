import CellMachine.Machine.Basic
import CellMachine.Operator.Comparison

/-!
# CellMachine.Machine.Step

What each instruction does. Most instructions work on the store alone
(`Instr.act`); `Machine.perform` adds those that jump, call, print or pause.
-/

namespace CellMachine

/-- Whether the machine goes on after an instruction. -/
inductive Signal where
  | proceed | pause
  deriving DecidableEq, Repr

namespace StoreM

variable {σ : Type}

/-- Pops an int. -/
def popInt : StoreM σ Int := do lift (← pop).expectInt

/-- Pops a heap address. -/
def popPointer : StoreM σ Nat := do lift (← pop).expectPointer

/-- Pops a byte count. -/
def popLength : StoreM σ Nat := do
  match ← popInt with
  | .ofNat n => return n
  | n => throw (.negativeLength n)

/-- Pops the target of a jump, which lies in a program of `size` bytes or at its end. -/
def popTarget (size : Nat) : StoreM σ Nat := do
  match ← popInt with
  | .ofNat n => if n ≤ size then return n else throw (.invalidJump n)
  | n => throw (.invalidJump n)

/-- Pops a cell and tells whether it has a nonzero byte. -/
def popTruth : StoreM σ Bool := return !(← pop).isZero

/-- Pushes a truth value. -/
def pushBool (b : Bool) : StoreM σ Unit := push (.ofNative b)

/-- Pops both operands of an arithmetic operator and pushes the result. -/
def binary (op : ArithOp) : StoreM σ Unit := do
  let rhs ← pop
  let lhs ← pop
  push (← onHeap (Cell.binary op lhs rhs))

/-- Pops both operands of a comparison and pushes the result. -/
def compare (op : CompareOp) : StoreM σ Unit := do
  let rhs ← pop
  let lhs ← pop
  pushBool (← ask fun _ h => Cell.compare op lhs rhs h)

/-- The heap address in a register. -/
def registerPointer (r : UInt8) : StoreM σ Nat := ask fun rs _ => (rs.load r).expectPointer

end StoreM

namespace Instr

open StoreM

variable {σ : Type}

/-- What an instruction does that works on the store alone; all others do nothing here. -/
def act : Instr → StoreM σ Unit
  | push t payload => modifyStack (·.push payload t)
  | pushSpan bytes => modifyStack (·.pushRaw bytes)
  | pushType t => modifyStack (·.pushRaw [t.code])
  | pushRegPtr r => StoreM.push (.registerRef r)
  | dupe => do
    let c ← onStack fun s =>
      match s.peekCell with
      | .ok c => .ok c s
      | .error e => .error e s
    StoreM.push c
  | discard => do let _ ← pop
  | discardType => do let _ ← onStack Stack.popTag
  | arith op => binary op
  | negate => do StoreM.push (← lift (← pop).negate)
  | compare op => StoreM.compare op
  | and => do
    let rhs ← popTruth
    let lhs ← popTruth
    pushBool (lhs && rhs)
  | or => do
    let rhs ← popTruth
    let lhs ← popTruth
    pushBool (lhs || rhs)
  | not => do pushBool (!(← popTruth))
  | cast t => do StoreM.push (← lift ((← pop).cast t))
  | store r => do setRegister r (← pop)
  | load r => do StoreM.push (← ask fun rs _ => .ok (rs.load r))
  | storePtr r => do
    let ptr ← registerPointer r
    let c ← pop
    updateHeap (·.write ptr c.bytes)
  | loadPtr r t => do
    let ptr ← registerPointer r
    let bytes ← ask fun _ h => h.read ptr t.width
    modifyStack (·.push bytes t)
  | alloc => do
    let len ← popLength
    let ptr ← onHeap (HeapM.allocate len)
    StoreM.push (← lift (Cell.heapPointer .ptrHeap ptr))
  | free => do
    let ptr ← popPointer
    updateHeap (·.free ptr)
  | write => do
    let ptr ← popPointer
    let len ← popLength
    let bytes ← onStack (Stack.popSpan len)
    updateHeap (·.write ptr bytes)
  | read => do
    let ptr ← popPointer
    let len ← popLength
    let bytes ← ask fun _ h => h.read ptr len
    modifyStack (·.pushRaw bytes)
  | noop | jump | jumpZero | jumpGtZero | jumpHistory | ret | callHost | dbgPrint | breakpoint =>
    return ()

end Instr

namespace Machine

open StoreM

variable {σ α : Type}

/-- Works on the store of a state. -/
def onStore (act : StoreM σ α) : MachineM σ α :=
  fun ⟨store, ip, current, calls, printed, executed⟩ =>
    match act store with
    | .ok a store => .ok a ⟨store, ip, current, calls, printed, executed⟩
    | .error e store => .error e ⟨store, ip, current, calls, printed, executed⟩

/-- Goes on at a position. -/
def goTo (target : Nat) : MachineM σ Unit := modify fun s => { s with ip := target }

/-- Jumps and remembers where the jump came from, unless too many calls are open. -/
def openCall (m : Machine σ) (target : Nat) : MachineM σ Unit := fun s =>
  if s.calls.length ≥ m.settings.maxCallDepth then
    .error (.callDepthExceeded m.settings.maxCallDepth) s
  else .ok () { s with calls := s.ip :: s.calls, ip := target }

/-- Goes back to where the innermost open call came from. -/
def closeCall : MachineM σ Unit := fun s =>
  match s.calls with
  | r :: rest => .ok () { s with calls := rest, ip := r }
  | [] => .error .returnWithoutCall s

/-- Calls the host command whose address is on the stack. -/
def callCommand (m : Machine σ) : StoreM σ Unit := do
  let address ← popInt
  match m.commands.get? address with
  | some c => c.invoke
  | none => throw (.unknownCommand address)

/-- Adds a line to the printed ones. -/
def print (line : String) : MachineM σ Unit :=
  modify fun s => { s with printed := line :: s.printed }

/-- Carries out an instruction whose operands have been read. -/
def perform (m : Machine σ) : Instr → MachineM σ Signal
  | .jump => do
    goTo (← onStore (popTarget m.program.size))
    return .proceed
  | .jumpZero => do
    let target ← onStore (popTarget m.program.size)
    if (← onStore pop).isZero then goTo target
    return .proceed
  | .jumpGtZero => do
    let target ← onStore (popTarget m.program.size)
    let c ← onStore pop
    if ← onStore (lift c.isPositive) then goTo target
    return .proceed
  | .jumpHistory => do
    m.openCall (← onStore (popTarget m.program.size))
    return .proceed
  | .ret => do
    closeCall
    return .proceed
  | .callHost => do
    onStore m.callCommand
    return .proceed
  | .dbgPrint => do
    let c ← onStore pop
    print (← onStore (ask fun _ h => .ok (c.display h)))
    return .proceed
  | .breakpoint => return .pause
  | i => do
    onStore i.act
    return .proceed

/-- Reads the instruction at the current position. -/
def fetch (m : Machine σ) : MachineM σ Instr := fun s =>
  match Instr.decode m.program s.ip with
  | .ok i ip => .ok i { s with ip := ip }
  | .error e ip => .error e { s with ip := ip }

/-- Starts and carries out one instruction. -/
def step (m : Machine σ) : MachineM σ Signal := do
  modify fun s => { s with executed := s.executed + 1, current := s.ip }
  let i ← m.fetch
  m.perform i

end Machine

end CellMachine
