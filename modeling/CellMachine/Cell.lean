import CellMachine.Fault
import CellMachine.Native

/-!
# CellMachine.Cell

A cell is a tag and a payload word. Only the low `tag.width` bytes of the word
are significant, and every cell the machine makes is zero beyond them
(`Cell.WellFormed`).
-/

namespace CellMachine

/-- One dynamically typed value. -/
structure Cell where
  tag : Tag
  /-- The payload, least significant byte first. -/
  payload : UInt64
  deriving DecidableEq, Repr

namespace Cell

/-- Nothing is stored beyond the width of the tag. -/
def WellFormed (c : Cell) : Prop := c.payload.toNat < byteRange c.tag.width

/-- The cell whose payload begins with `bytes`: bytes beyond the width are cut, missing ones zero. -/
def ofBytes (t : Tag) (bytes : List UInt8) : Cell :=
  ⟨t, UInt64.ofNat (leNat (bytes.take t.width))⟩

/-- The significant bytes. -/
def bytes (c : Cell) : List UInt8 := leBytes c.tag.width c.payload.toNat

@[simp] theorem length_bytes (c : Cell) : c.bytes.length = c.tag.width := by simp [bytes]

theorem leNat_take_lt (t : Tag) (bs : List UInt8) : leNat (bs.take t.width) < byteRange t.width :=
  Nat.lt_of_lt_of_le (leNat_lt _) (byteRange_le_of_le (List.length_take_le ..))

theorem toNat_payload_ofBytes (t : Tag) (bs : List UInt8) :
    (ofBytes t bs).payload.toNat = leNat (bs.take t.width) := by
  have hlt := leNat_take_lt t bs
  exact UInt64.toNat_ofNat_of_lt (Nat.lt_of_lt_of_le hlt (byteRange_le_of_le t.width_le))

theorem wellFormed_ofBytes (t : Tag) (bs : List UInt8) : (ofBytes t bs).WellFormed := by
  rw [WellFormed, toNat_payload_ofBytes]
  exact leNat_take_lt t bs

/-- A cell made from bytes has them, cut or extended by zeros to its width. -/
theorem bytes_ofBytes (t : Tag) (bs : List UInt8) : (ofBytes t bs).bytes = fitBytes t.width bs := by
  rw [bytes, toNat_payload_ofBytes]
  exact leBytes_leNat_take t.width bs

/-- A cell is its tag and its significant bytes. -/
theorem ofBytes_bytes {c : Cell} (h : c.WellFormed) : ofBytes c.tag c.bytes = c := by
  have hpayload : leNat (c.bytes.take c.tag.width) = c.payload.toNat := by
    rw [List.take_of_length_le (by simp), bytes, leNat_leBytes, Nat.mod_eq_of_lt h]
  simp [ofBytes, hpayload]

/-- The cell of no value. -/
def void : Cell := ⟨.void, 0⟩

/-- The zero int, which every register holds at first. -/
def zero : Cell := ⟨.int, 0⟩

instance : Inhabited Cell := ⟨zero⟩

/-- The cell of a native value. -/
def ofNative {α : Type} [Native α] (x : α) : Cell := ⟨Native.tag α, Native.toWord x⟩

/-- The significant bytes read as a native value, whatever the tag. -/
def toNative {α : Type} [Native α] (c : Cell) : α := Native.ofPayload c.bytes

/-- The cell that keeps the low-order bytes of an integer. -/
def ofInt (t : Tag) (n : Int) : Cell := ⟨t, UInt64.ofNat (n % byteRange t.width).toNat⟩

/-- The integer a cell represents: a bool by its truth, `int`, `dint` and heap pointers in two's
complement, all else as an unsigned number. -/
def toInt (c : Cell) : Int :=
  let n := leNat c.bytes
  match c.tag with
  | .bool => if n = 0 then 0 else 1
  | .int | .dint | .string | .struct | .ptrHeap => Int.bmod n (byteRange c.tag.width)
  | _ => n

/-- Whether every significant byte is zero. -/
def isZero (c : Cell) : Bool := c.bytes.all (· == 0)

/-- The address of a register. -/
def registerRef (r : UInt8) : Cell := ofBytes .ptrReg [r]

/-- The cell as the native value of its tag is written: a bool becomes 0 or 1. -/
def canonical (c : Cell) : Cell :=
  if c.tag = .bool then ofNative (c.toNative : Bool) else c

/-- Reads the integer of an `int` cell. -/
def expectInt (c : Cell) : Except Fault Int :=
  if c.tag = .int then .ok c.toInt else .error (.tagMismatch .int c.tag)

/-- Reads a heap address from a cell of any pointer-like tag. -/
def expectPointer (c : Cell) : Except Fault Nat :=
  if c.tag.isPointerLike then
    match c.toInt with
    | .ofNat p => .ok p
    | n => .error (.outOfBounds n 0)
  else .error (.tagMismatch .ptrHeap c.tag)

end Cell

/-- An address as messages name it: at most the largest signed 64-bit number. -/
def reportedAddress (ptr : Nat) : Int := min ptr Int64.maxValue.toInt

/-- The pointer cell for a heap address; an address must fit an `int`. -/
def Cell.heapPointer (t : Tag) (ptr : Nat) : Except Fault Cell :=
  if ptr < intLimit then .ok (ofInt t ptr) else .error (.outOfBounds (reportedAddress ptr) 0)

end CellMachine
