import CellMachine.Command.Basic
import CellMachine.Operator.Cast
import CellMachine.Registers
import CellMachine.Stack

/-!
# CellMachine.Command.Call

The calling convention of host commands.

1. Arguments are popped, the last parameter's first.
2. A reference to a register stands for the cell in it, and a heap address for
   a by-reference parameter for the cell stored there; the place is kept.
3. An omitted argument (`void`) becomes the parameter's default.
4. A `string` parameter takes a text or an `int` that points to one, `any` takes
   every cell that has a value, and every other parameter its own tag only.
5. When the command has run, its final arguments are stored where references
   pointed, texts in new blocks, and its result is pushed.
-/

namespace CellMachine

/-- What an instruction works on: the operand stack, the registers, the heap and the host's world. -/
structure Store (σ : Type) where
  stack : Stack
  registers : Registers
  heap : Heap
  world : σ

/-- Actions on a store; what a failing action did stays done. -/
abbrev StoreM (σ : Type) := EStateM Fault (Store σ)

namespace StoreM

variable {σ α : Type}

/-- Works on the stack. -/
def onStack (act : EStateM Fault Stack α) : StoreM σ α := fun ⟨stack, registers, heap, world⟩ =>
  match act stack with
  | .ok a stack => .ok a ⟨stack, registers, heap, world⟩
  | .error e stack => .error e ⟨stack, registers, heap, world⟩

/-- Changes the stack. -/
def modifyStack (f : Stack → Stack) : StoreM σ Unit := fun ⟨stack, registers, heap, world⟩ =>
  .ok () ⟨f stack, registers, heap, world⟩

/-- Works on the heap. -/
def onHeap (act : HeapM α) : StoreM σ α := fun ⟨stack, registers, heap, world⟩ =>
  match act heap with
  | .ok a heap => .ok a ⟨stack, registers, heap, world⟩
  | .error e heap => .error e ⟨stack, registers, heap, world⟩

/-- Changes the heap, unless that fails. -/
def updateHeap (f : Heap → Except Fault Heap) : StoreM σ Unit := onHeap (HeapM.update f)

/-- Reads the registers and the heap. -/
def ask (f : Registers → Heap → Except Fault α) : StoreM σ α := fun s =>
  match f s.registers s.heap with
  | .ok a => .ok a s
  | .error e => .error e s

/-- Stops unless there is a value. -/
def lift (x : Except Fault α) : StoreM σ α := fun s =>
  match x with
  | .ok a => .ok a s
  | .error e => .error e s

/-- Puts a cell into a register. -/
def setRegister (r : UInt8) (c : Cell) : StoreM σ Unit := fun ⟨stack, registers, heap, world⟩ =>
  .ok () ⟨stack, registers.store r c, heap, world⟩

/-- Pops a cell. -/
def pop : StoreM σ Cell := onStack Stack.popCell

/-- Pushes a cell. -/
def push (c : Cell) : StoreM σ Unit := modifyStack (·.pushCell c)

end StoreM

/-- The place that a reference argument points to. -/
inductive Slot where
  | register (r : UInt8)
  | heap (ptr : Nat)
  deriving DecidableEq, Repr

namespace Command

open StoreM

variable {σ : Type}

/-- The tag under which a by-reference parameter's value is stored on the heap: a text by its
pointer. References to registers and unknown types have none. -/
def storedTag? : Tag → Option Tag
  | .string => some .int
  | .any | .void | .ptrReg => none
  | t => some t

/-- The cell that an argument stands for, and the place it was found at. -/
def resolve (name : String) (index : Nat) (p : Param) (c : Cell) (rs : Registers) (h : Heap) :
    Except Fault (Cell × Option Slot) :=
  if c.tag = .ptrReg then
    let r : UInt8 := c.toNative
    .ok (rs.load r, some (.register r))
  else if c.tag = .ptrHeap ∧ p.byRef ∧ p.tag ≠ .ptrHeap then
    match storedTag? p.tag with
    | none => .error (.argumentMismatch name index p.tag c.tag)
    | some t => do
      let ptr ← c.expectPointer
      let bytes ← h.read ptr t.width
      return (.ofBytes t bytes, some (.heap ptr))
  else .ok (c, none)

/-- The text that a cell points to. -/
def textOf (c : Cell) (h : Heap) : Except Fault Value := do
  let ptr ← c.expectPointer
  let text ← h.readText ptr
  return .text text

/-- The value that a parameter receives for a cell. -/
def marshal (name : String) (index : Nat) (p : Param) (c : Cell) (h : Heap) :
    Except Fault Value :=
  match c.tag, p.default with
  | .void, some v => .ok v
  | _, _ =>
    if p.tag = .string ∧ (c.tag = .int ∨ c.tag = .string) then textOf c h
    else if p.tag = .any ∧ c.tag = .string then textOf c h
    else
      match Value.ofCell? c with
      | some v =>
        if p.tag = .any ∨ p.tag = c.tag then .ok v
        else .error (.argumentMismatch name index p.tag c.tag)
      | none => .error (.argumentMismatch name index p.tag c.tag)

/-- The value and the place of the argument for a parameter. -/
def argument (name : String) (index : Nat) (p : Param) (c : Cell) (rs : Registers) (h : Heap) :
    Except Fault (Value × Option Slot) := do
  let (cell, slot) ← resolve name index p c rs h
  let v ← marshal name index p cell h
  return (v, slot)

/-- Pops the arguments for parameters numbered from `index` on, the last one first. -/
def takeArguments (name : String) : (index : Nat) → List Param → StoreM σ (List (Value × Option Slot))
  | _, [] => return []
  | index, p :: ps => do
    let rest ← takeArguments name (index + 1) ps
    let c ← pop
    let a ← ask (argument name index p c)
    return a :: rest

/-- Stores a value at a place; a text goes into a new block. -/
def storeAt (slot : Slot) (v : Value) : StoreM σ Unit := do
  let c ← onHeap v.toCell
  match slot with
  | .register r => setRegister r c
  | .heap ptr => updateHeap (·.write ptr c.bytes)

/-- Stores values at the places they came from, in order. -/
def storeBack : List (Option Slot × Value) → StoreM σ Unit
  | [] => return ()
  | (none, _) :: rest => storeBack rest
  | (some slot, v) :: rest => do
    storeAt slot v
    storeBack rest

/-- Runs the host's part of a command. -/
def callHost (c : Command σ) (args : List Value) : StoreM σ (Reply args) :=
  fun ⟨stack, registers, heap, world⟩ =>
    match c.run args world with
    | (.ok reply, world) => .ok reply ⟨stack, registers, heap, world⟩
    | (.error e, world) =>
      .error (.commandFailed c.name e.message) ⟨stack, registers, heap, world⟩

/-- The cell of a result, converted to the declared tag unless that is `any`. -/
def resultCell (c : Command σ) (result : Value) : StoreM σ Cell := do
  let cell ← onHeap result.toCell
  if c.returns ≠ .any ∧ cell.tag ≠ c.returns then lift (cell.cast c.returns)
  else return cell

/-- Calls a command. -/
def invoke (c : Command σ) : StoreM σ Unit := do
  let taken ← takeArguments c.name 0 c.params
  let reply ← c.callHost (taken.map Prod.fst)
  storeBack ((taken.map Prod.snd).zip reply.final)
  if c.returns = .void then return ()
  else if reply.result = .void then
    throw (.commandFailed c.name s!"returned no value, declared {c.returns.name}")
  else push (← c.resultCell reply.result)

end Command

end CellMachine
