import CellMachine.Cell

/-!
# CellMachine.Operator.Cast

Conversion between tags. Pointer-like cells change their tag and keep their
bytes; numeric cells keep their value as far as the target can hold it.
-/

namespace CellMachine

/-- The value of a numeric cell. -/
inductive Scalar where
  | int (n : Int)
  | float (x : Binary64)

namespace Cell

/-- The value of a numeric cell; a 32-bit float is widened without loss. -/
def scalar (c : Cell) : Scalar :=
  match c.tag with
  | .real => .float (c.toNative : Binary32).widen
  | .dfloat => .float c.toNative
  | _ => .int c.toInt

end Cell

/-- The cell of a numeric tag nearest to a value: floats round to nearest, a bool tells zero from
the rest (NaN included), integers drop the fraction, stop at the signed 64-bit range and keep the
low-order bytes. -/
def Scalar.toCell (s : Scalar) (t : Tag) : Cell :=
  match t, s with
  | .real, .int n => .ofNative (Binary32.ofInt n)
  | .real, .float x => .ofNative x.narrow
  | .dfloat, .int n => .ofNative (Binary64.ofInt n)
  | .dfloat, .float x => .ofNative x
  | .bool, .int n => .ofNative (decide (n ≠ 0))
  | .bool, .float x => .ofNative (!x.isZero)
  | _, .int n => .ofInt t n
  | _, .float x => .ofInt t x.toInt

/-- Converts a cell to a tag. -/
def Cell.cast (c : Cell) (t : Tag) : Except Fault Cell :=
  if c.tag = t then .ok c
  else if c.tag.isPointerLike && t.isPointerLike then .ok (.ofBytes t c.bytes)
  else if c.tag.isNumeric && t.isNumeric then .ok (c.scalar.toCell t)
  else .error (.unsupportedCast c.tag t)

end CellMachine
