import CellMachine.Binary.Format

/-!
# CellMachine.Binary.Basic

Floats as bit patterns. A cell's float payload is moved about bit for bit, so
the two types hold bits, and go through the machine's floating-point unit only
to compute.
-/

namespace CellMachine

/-- A 32-bit float, by its bits. -/
structure Binary32 where
  bits : UInt32
  deriving DecidableEq, Repr, Inhabited

/-- A 64-bit float, by its bits. -/
structure Binary64 where
  bits : UInt64
  deriving DecidableEq, Repr, Inhabited

namespace Binary32

/-- The float with these bits. -/
def toFloat (x : Binary32) : Float32 := Float32.ofBits x.bits

/-- The bits of a float. -/
def ofFloat (x : Float32) : Binary32 := ⟨x.toBits⟩

/-- What the bits stand for. -/
def decode (x : Binary32) : Binary.Decoded := Binary.single.decode x.bits.toNat

/-- Sum, rounded to nearest. -/
def add (x y : Binary32) : Binary32 := ofFloat (x.toFloat + y.toFloat)

/-- Difference, rounded to nearest. -/
def sub (x y : Binary32) : Binary32 := ofFloat (x.toFloat - y.toFloat)

/-- Product, rounded to nearest. -/
def mul (x y : Binary32) : Binary32 := ofFloat (x.toFloat * y.toFloat)

/-- Quotient, rounded to nearest. -/
def div (x y : Binary32) : Binary32 := ofFloat (x.toFloat / y.toFloat)

/-- Exact remainder with the sign of `x`. -/
def mod (x y : Binary32) : Binary32 :=
  ⟨UInt32.ofNat (Binary.single.remainder x.bits.toNat y.bits.toNat)⟩

/-- The opposite number: the sign bit changed. -/
def neg (x : Binary32) : Binary32 := ⟨x.bits ^^^ 0x80000000⟩

/-- Whether `x < y`; false if either is NaN. -/
def lt (x y : Binary32) : Bool := x.toFloat < y.toFloat

/-- Whether two numbers differ by less than the gap above 1. -/
def near (x y : Binary32) : Bool := (x.toFloat - y.toFloat).abs < Float32.ofBits 0x34000000

/-- The 64-bit float of the same value. -/
def widen (x : Binary32) : Binary64 := ⟨x.toFloat.toFloat.toBits⟩

/-- The nearest float to an integer. -/
def ofInt (n : Int) : Binary32 := ofFloat (Float32.ofInt n)

end Binary32

namespace Binary64

/-- The float with these bits. -/
def toFloat (x : Binary64) : Float := Float.ofBits x.bits

/-- The bits of a float. -/
def ofFloat (x : Float) : Binary64 := ⟨x.toBits⟩

/-- What the bits stand for. -/
def decode (x : Binary64) : Binary.Decoded := Binary.double.decode x.bits.toNat

/-- Sum, rounded to nearest. -/
def add (x y : Binary64) : Binary64 := ofFloat (x.toFloat + y.toFloat)

/-- Difference, rounded to nearest. -/
def sub (x y : Binary64) : Binary64 := ofFloat (x.toFloat - y.toFloat)

/-- Product, rounded to nearest. -/
def mul (x y : Binary64) : Binary64 := ofFloat (x.toFloat * y.toFloat)

/-- Quotient, rounded to nearest. -/
def div (x y : Binary64) : Binary64 := ofFloat (x.toFloat / y.toFloat)

/-- Exact remainder with the sign of `x`. -/
def mod (x y : Binary64) : Binary64 :=
  ⟨UInt64.ofNat (Binary.double.remainder x.bits.toNat y.bits.toNat)⟩

/-- The opposite number: the sign bit changed. -/
def neg (x : Binary64) : Binary64 := ⟨x.bits ^^^ 0x8000000000000000⟩

/-- The number without its sign. -/
def abs (x : Binary64) : Binary64 := ⟨x.bits &&& 0x7FFFFFFFFFFFFFFF⟩

/-- Square root, rounded to nearest. -/
def sqrt (x : Binary64) : Binary64 := ofFloat x.toFloat.sqrt

/-- Whether `x < y`; false if either is NaN. -/
def lt (x y : Binary64) : Bool := x.toFloat < y.toFloat

/-- Whether two numbers differ by less than the gap above 1. -/
def near (x y : Binary64) : Bool := (x.toFloat - y.toFloat).abs < Float.ofBits 0x3CB0000000000000

/-- Whether `x` is not a number. -/
def isNaN (x : Binary64) : Bool := x.decode = .nan

/-- Whether `x` is positive or negative zero. -/
def isZero (x : Binary64) : Bool := x.abs.bits = 0

/-- Whether `x` is neither infinite nor NaN. -/
def isFinite (x : Binary64) : Bool :=
  match x.decode with
  | .finite _ _ _ => true
  | _ => false

/-- The larger of two numbers; the other one if either is NaN. -/
def max (x y : Binary64) : Binary64 :=
  if x.isNaN then y else if x.lt y then y else x

/-- The smaller of two numbers; the other one if either is NaN. -/
def min (x y : Binary64) : Binary64 :=
  if x.isNaN then y else if y.lt x then y else x

/-- The nearest 32-bit float. -/
def narrow (x : Binary64) : Binary32 := ⟨x.toFloat.toFloat32.toBits⟩

/-- The nearest float to an integer. -/
def ofInt (n : Int) : Binary64 := ofFloat (Float.ofInt n)

/-- The integer part, brought into the signed 64-bit range; 0 for NaN. -/
def toInt (x : Binary64) : Int :=
  Binary.double.truncate Int64.minValue.toInt Int64.maxValue.toInt x.bits.toNat

end Binary64

end CellMachine
