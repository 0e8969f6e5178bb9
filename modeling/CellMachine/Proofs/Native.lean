import CellMachine.Cell

/-!
# CellMachine.Proofs.Native

Native values and the cells that hold them. A codec between a native type and
words is lawful if words lose nothing but what lies beyond the width of the tag
(`LawfulNative`). All native types but `Bool` have such a codec; a bool loses its
byte if that is neither 0 nor 1.

* `Cell.toNative_ofNative` — a native value is read back from its cell,
* `Cell.ofNative_toNative` — and a cell is made again of the value read from it.
-/

namespace CellMachine

/-- A native type whose values are the low bytes of words. -/
class LawfulNative (α : Type) [Native α] : Prop where
  ofWord_toWord : ∀ x : α, Native.ofWord (Native.toWord x) = x
  toNat_toWord_ofWord : ∀ w : UInt64,
    (Native.toWord (Native.ofWord w : α)).toNat = w.toNat % byteRange (Native.tag α).width

namespace LawfulNative

instance : LawfulNative Int32 where
  ofWord_toWord x := by simp [Native.ofWord, Native.toWord]
  toNat_toWord_ofWord w := by simp [Native.ofWord, Native.toWord, Native.tag, byteRange, Tag.width]

instance : LawfulNative Binary32 where
  ofWord_toWord x := by simp [Native.ofWord, Native.toWord]
  toNat_toWord_ofWord w := by simp [Native.ofWord, Native.toWord, Native.tag, byteRange, Tag.width]

instance : LawfulNative UInt8 where
  ofWord_toWord x := by simp [Native.ofWord, Native.toWord]
  toNat_toWord_ofWord w := by simp [Native.ofWord, Native.toWord, Native.tag, byteRange, Tag.width]

instance : LawfulNative UInt16 where
  ofWord_toWord x := by simp [Native.ofWord, Native.toWord]
  toNat_toWord_ofWord w := by simp [Native.ofWord, Native.toWord, Native.tag, byteRange, Tag.width]

instance : LawfulNative UInt32 where
  ofWord_toWord x := by simp [Native.ofWord, Native.toWord]
  toNat_toWord_ofWord w := by simp [Native.ofWord, Native.toWord, Native.tag, byteRange, Tag.width]

instance : LawfulNative Int64 where
  ofWord_toWord x := by simp [Native.ofWord, Native.toWord]
  toNat_toWord_ofWord w := by simp [Native.ofWord, Native.toWord, Native.tag, byteRange, Tag.width]

instance : LawfulNative Binary64 where
  ofWord_toWord x := by simp [Native.ofWord, Native.toWord]
  toNat_toWord_ofWord w := (Nat.mod_eq_of_lt w.toNat_lt).symm

end LawfulNative

namespace Cell

variable {α : Type} [Native α] {c : Cell}

/-- What is read from a well-formed cell is read from its whole payload. -/
theorem toNative_of_wellFormed (hc : c.WellFormed) : (c.toNative : α) = Native.ofWord c.payload := by
  have hbytes : c.bytes.take payloadWidth = c.bytes := by
    apply List.take_of_length_le
    rw [length_bytes]
    exact c.tag.width_le
  have hpayload : leNat c.bytes = c.payload.toNat := by
    rw [bytes, leNat_leBytes, Nat.mod_eq_of_lt hc]
  rw [toNative, Native.ofPayload, hbytes, hpayload, UInt64.ofNat_toNat]

theorem wellFormed_ofNative [LawfulNative α] (x : α) : (ofNative x).WellFormed := by
  have hword := LawfulNative.toNat_toWord_ofWord (α := α) (Native.toWord x)
  rw [LawfulNative.ofWord_toWord] at hword
  have hpos : 0 < byteRange (Native.tag α).width := byteRange_le_of_le (Nat.zero_le _)
  have hlt := Nat.mod_lt (Native.toWord x).toNat hpos
  rwa [← hword] at hlt

/-- A native value is read back from its cell. -/
theorem toNative_ofNative [LawfulNative α] (x : α) : (ofNative x).toNative = x := by
  rw [toNative_of_wellFormed (wellFormed_ofNative x)]
  exact LawfulNative.ofWord_toWord x

/-- A cell is made again of the native value that is read from it. -/
theorem ofNative_toNative [LawfulNative α] (hc : c.WellFormed) (htag : c.tag = Native.tag α) :
    ofNative (c.toNative : α) = c := by
  have hword : Native.toWord (c.toNative : α) = c.payload := by
    apply UInt64.toNat_inj.mp
    rw [toNative_of_wellFormed hc, LawfulNative.toNat_toWord_ofWord, ← htag]
    exact Nat.mod_eq_of_lt hc
  rw [ofNative, hword, ← htag]

/-- A bool is made again if it is 0 or 1. -/
theorem ofNative_toNative_bool (hc : c.WellFormed) (htag : c.tag = .bool)
    (htruth : c.payload = 0 ∨ c.payload = 1) : ofNative (c.toNative : Bool) = c := by
  obtain ⟨tag, payload⟩ := c
  rw [toNative_of_wellFormed hc]
  cases htag
  cases htruth with
  | inl hzero => cases hzero; rfl
  | inr hone => cases hone; rfl

/-- A pointer is made again of the number that is read from it. -/
theorem ofInt_toNative (hc : c.WellFormed) (hwidth : c.tag.width = 4) :
    ofInt c.tag (c.toNative : Int32).toInt = c := by
  have hrange : byteRange c.tag.width = 2 ^ 32 := by rw [hwidth]; rfl
  have hlt : c.payload.toNat < 2 ^ 32 := hrange ▸ hc
  have hnumber : (c.toNative : Int32).toInt = Int.bmod c.payload.toNat (2 ^ 32) := by
    rw [toNative_of_wellFormed hc]
    change c.payload.toUInt32.toBitVec.toInt = _
    rw [BitVec.toInt_eq_toNat_bmod, UInt32.toNat_toBitVec, UInt64.toNat_toUInt32,
      Nat.mod_eq_of_lt hlt]
  have hword : (Int.bmod c.payload.toNat (2 ^ 32) % (2 ^ 32 : Nat)).toNat = c.payload.toNat := by
    rw [Int.bmod_emod]
    omega
  rw [ofInt, hnumber, hrange, hword, UInt64.ofNat_toNat]

end Cell

end CellMachine
