import CellMachine.Heap.Basic
import CellMachine.Operator.Basic
import CellMachine.Operator.Cast

/-!
# CellMachine.Operator.Arithmetic

The arithmetic operators. Both operands are converted to the tag they meet in;
integers are computed exactly and then keep their low-order bytes, floats round
to nearest. The sum of two texts is their concatenation in a new block.
-/

namespace CellMachine

namespace ArithOp

/-- The operator on integers; division and remainder round toward zero. -/
def onInt (op : ArithOp) (a b : Int) : Except Fault Int :=
  match op with
  | add => .ok (a + b)
  | sub => .ok (a - b)
  | mul => .ok (a * b)
  | div => if b = 0 then .error .divideByZero else .ok (a.tdiv b)
  | mod => if b = 0 then .error .divideByZero else .ok (a.tmod b)

/-- The operator on 32-bit floats. -/
def onBinary32 : ArithOp → Binary32 → Binary32 → Binary32
  | add => Binary32.add
  | sub => Binary32.sub
  | mul => Binary32.mul
  | div => Binary32.div
  | mod => Binary32.mod

/-- The operator on 64-bit floats. -/
def onBinary64 : ArithOp → Binary64 → Binary64 → Binary64
  | add => Binary64.add
  | sub => Binary64.sub
  | mul => Binary64.mul
  | div => Binary64.div
  | mod => Binary64.mod

end ArithOp

/-- The kinds of arithmetic. -/
inductive NumberKind where
  | integer | single | double
  deriving DecidableEq, Repr

/-- The arithmetic of a tag; `bool` converts to other tags but has none of its own. -/
def Tag.kind? : Tag → Option NumberKind
  | .int | .byte | .word | .dword | .dint => some .integer
  | .real => some .single
  | .dfloat => some .double
  | _ => none

namespace Cell

/-- Applies an operator to two cells of one tag; tags without arithmetic give none. -/
def arith? (op : ArithOp) (t : Tag) (a b : Cell) : Option (Except Fault Cell) :=
  match t.kind? with
  | some .integer => some ((op.onInt a.toInt b.toInt).map (ofInt t))
  | some .single => some (.ok (ofNative (op.onBinary32 a.toNative b.toNative)))
  | some .double => some (.ok (ofNative (op.onBinary64 a.toNative b.toNative)))
  | none => none

/-- Concatenates two texts in a new block: the right operand's bytes, then the left one's. -/
def concat (lhs rhs : Cell) : HeapM Cell := do
  let lptr ← HeapM.lift lhs.expectPointer
  let rptr ← HeapM.lift rhs.expectPointer
  let llen ← HeapM.ask (·.lengthOf lptr)
  let rlen ← HeapM.ask (·.lengthOf rptr)
  let ptr ← HeapM.allocate (llen + rlen)
  HeapM.update (·.copy rptr ptr rlen)
  HeapM.update (·.copy lptr (ptr + rlen) llen)
  HeapM.lift (heapPointer .string ptr)

/-- Applies an arithmetic operator to cells other than two texts under `+`. -/
def arithmetic (op : ArithOp) (lhs rhs : Cell) : Except Fault Cell := do
  let unsupported := Fault.unsupportedOperation op.symbol lhs.tag rhs.tag
  match lhs.tag.promote rhs.tag with
  | none => throw unsupported
  | some t =>
    let a ← lhs.cast t
    let b ← rhs.cast t
    match arith? op t a b with
    | some result => result
    | none => throw unsupported

/-- Applies an arithmetic operator; only the concatenation of texts changes the heap. -/
def binary (op : ArithOp) (lhs rhs : Cell) : HeapM Cell :=
  if op = .add ∧ lhs.tag = .string ∧ rhs.tag = .string then concat lhs rhs
  else HeapM.lift (arithmetic op lhs rhs)

/-- The opposite of a number. -/
def negate (c : Cell) : Except Fault Cell :=
  match c.tag.kind? with
  | some .integer => .ok (ofInt c.tag (-c.toInt))
  | some .single => .ok (ofNative (c.toNative : Binary32).neg)
  | some .double => .ok (ofNative (c.toNative : Binary64).neg)
  | none => .error (.unsupportedOperation "-" c.tag c.tag)

/-- Whether a number is above zero; a bool is when it is true. -/
def isPositive (c : Cell) : Except Fault Bool :=
  if c.tag = .bool then .ok (!c.isZero)
  else match c.tag.kind? with
    | some .integer => .ok (decide (0 < c.toInt))
    | some .single => .ok ((⟨0⟩ : Binary32).lt c.toNative)
    | some .double => .ok ((⟨0⟩ : Binary64).lt c.toNative)
    | none => .error (.tagMismatch .int c.tag)

end Cell

end CellMachine
