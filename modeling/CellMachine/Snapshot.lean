import CellMachine.Machine.Step

/-!
# CellMachine.Snapshot

What a debugger shows of a machine in a state.
-/

namespace CellMachine

/-- A register in a snapshot. -/
structure RegisterView where
  address : UInt8
  tag : Tag
  bytes : List UInt8
  display : String
  deriving DecidableEq, Repr

/-- A live block in a snapshot. -/
structure BlockView where
  ptr : Nat
  len : Nat
  deriving DecidableEq, Repr

/-- The heap in a snapshot. -/
structure HeapView where
  capacity : Nat
  cursor : Nat
  blocks : List BlockView
  deriving DecidableEq, Repr

/-- A machine in a state, as a debugger shows it. -/
structure Snapshot where
  ip : Nat
  complete : Bool
  stackBytes : Nat
  registers : List RegisterView
  heap : HeapView
  deriving DecidableEq, Repr

/-- The snapshot of a machine in a state: the registers that differ from the zero int and the live
blocks, both by address. -/
def Machine.snapshot {σ : Type} (m : Machine σ) (s : State σ) : Snapshot where
  ip := s.ip
  complete := m.isComplete s
  stackBytes := s.stack.length
  registers := s.registers.occupied.map fun (r, c) => ⟨r, c.tag, c.bytes, c.display s.heap⟩
  heap :=
    { capacity := s.heap.capacity
      cursor := s.heap.cursor
      blocks := s.heap.blocks.map fun (ptr, len) => ⟨ptr, len⟩ }

end CellMachine
