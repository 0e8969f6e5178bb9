import CellMachine.Operator.Arithmetic

/-!
# CellMachine.Operator.Comparison

The six comparisons. Numbers are compared in the tag they meet in, floats that
differ by less than the gap above 1 counting as equal; texts are equal when
their blocks hold the same bytes; all other cells of one tag can only be told
equal or different, by their bytes.
-/

namespace CellMachine

namespace CompareOp

/-- The answer of an operator from the two strict orders and equality. -/
def holds (op : CompareOp) (less greater equal : Bool) : Bool :=
  match op with
  | gt => greater
  | gte => greater || equal
  | lt => less
  | lte => less || equal
  | eq => equal
  | neq => !equal

/-- The operator on integers. -/
def onInt (op : CompareOp) (a b : Int) : Bool := op.holds (a < b) (b < a) (a = b)

end CompareOp

namespace Cell

/-- Compares two cells of one tag; tags without arithmetic give none. -/
def compareNumbers? (op : CompareOp) (t : Tag) (a b : Cell) : Option Bool :=
  match t.kind? with
  | some .integer => some (op.onInt a.toInt b.toInt)
  | some .single =>
    let x : Binary32 := a.toNative
    let y : Binary32 := b.toNative
    some (op.holds (x.lt y) (y.lt x) (x.near y))
  | some .double =>
    let x : Binary64 := a.toNative
    let y : Binary64 := b.toNative
    some (op.holds (x.lt y) (y.lt x) (x.near y))
  | none => none

/-- The bytes of the block that a text cell points to. -/
def textBytes (c : Cell) (h : Heap) : Except Fault (List UInt8) := do
  let ptr ← c.expectPointer
  h.readBlock ptr

/-- Compares two cells. -/
def compare (op : CompareOp) (lhs rhs : Cell) (h : Heap) : Except Fault Bool := do
  let unsupported := Fault.unsupportedOperation op.symbol lhs.tag rhs.tag
  match lhs.tag.promote rhs.tag with
  | none => throw unsupported
  | some t =>
    if t = .string ∧ op.isEquality then
      let a ← lhs.textBytes h
      let b ← rhs.textBytes h
      return op.holds false false (a == b)
    else if t = .bool then
      return op.onInt lhs.toInt rhs.toInt
    else
      let a ← lhs.cast t
      let b ← rhs.cast t
      match compareNumbers? op t a b with
      | some result => return result
      | none =>
        if op.isEquality then return op.holds false false (a.bytes == b.bytes)
        else throw unsupported

end Cell

end CellMachine
