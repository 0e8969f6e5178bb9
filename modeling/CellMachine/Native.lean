import CellMachine.Binary.Basic
import CellMachine.Bytes
import CellMachine.Tag

/-!
# CellMachine.Native

The native types behind the numeric tags and the eight-byte payload in which
their values are stored: little-endian, padded with zeros.
-/

namespace CellMachine

/-- Bytes of the widest payload. -/
def payloadWidth : Nat := 8

/-- A type whose values are stored under one tag, as a 64-bit word. -/
class Native (α : Type) where
  /-- The tag of the type. -/
  tag : Tag
  /-- The word of a value, zero beyond the width of the tag. -/
  toWord : α → UInt64
  /-- The value in the low bytes of a word. -/
  ofWord : UInt64 → α

namespace Native

instance : Native Int32 := ⟨.int, fun x => x.toUInt32.toUInt64, fun w => w.toUInt32.toInt32⟩

instance : Native Binary32 := ⟨.real, fun x => x.bits.toUInt64, fun w => ⟨w.toUInt32⟩⟩

/-- A truth value is stored as 0 or 1, and every other low byte reads as true. -/
instance : Native Bool := ⟨.bool, fun x => if x then 1 else 0, fun w => w.toUInt8 != 0⟩

instance : Native UInt8 := ⟨.byte, UInt8.toUInt64, UInt64.toUInt8⟩

instance : Native UInt16 := ⟨.word, UInt16.toUInt64, UInt64.toUInt16⟩

instance : Native UInt32 := ⟨.dword, UInt32.toUInt64, UInt64.toUInt32⟩

instance : Native Int64 := ⟨.dint, Int64.toUInt64, UInt64.toInt64⟩

instance : Native Binary64 := ⟨.dfloat, Binary64.bits, Binary64.mk⟩

/-- The payload bytes of a value. -/
def toPayload {α : Type} [Native α] (x : α) : List UInt8 :=
  leBytes payloadWidth (toWord x).toNat

/-- The value in a payload; missing bytes are zero. -/
def ofPayload {α : Type} [Native α] (bytes : List UInt8) : α :=
  ofWord (UInt64.ofNat (leNat (bytes.take payloadWidth)))

/-- Reads a payload as a value of the native type of a tag and writes it back; tags without a
native type have none. -/
def recode? (t : Tag) (bytes : List UInt8) : Option (List UInt8) :=
  match t with
  | .int => some (toPayload (ofPayload bytes : Int32))
  | .real => some (toPayload (ofPayload bytes : Binary32))
  | .bool => some (toPayload (ofPayload bytes : Bool))
  | .byte => some (toPayload (ofPayload bytes : UInt8))
  | .word => some (toPayload (ofPayload bytes : UInt16))
  | .dword => some (toPayload (ofPayload bytes : UInt32))
  | .dint => some (toPayload (ofPayload bytes : Int64))
  | .dfloat => some (toPayload (ofPayload bytes : Binary64))
  | _ => none

end Native

end CellMachine
