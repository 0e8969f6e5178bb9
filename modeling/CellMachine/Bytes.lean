/-!
# CellMachine.Bytes

Little-endian numbers as byte lists. Every multi-byte field of the machine —
payloads, span lengths, jump targets, character slots — is written by
`leBytes` and read by `leNat`.

* `leNat_leBytes` — writing keeps a number modulo the range of the width;
* `leBytes_leNat` — reading loses no byte.

`overwrite` puts bytes into a buffer in place.

This module depends only on the Lean 4 core library.
-/

namespace CellMachine

/-- The low `width` bytes of `n`, least significant first. -/
def leBytes : (width n : Nat) → List UInt8
  | 0, _ => []
  | width + 1, n => UInt8.ofNat n :: leBytes width (n / 256)

/-- The number that a byte list spells, least significant byte first. -/
def leNat : List UInt8 → Nat
  | [] => 0
  | b :: bs => b.toNat + 256 * leNat bs

/-- How many numbers `width` bytes can spell. -/
def byteRange : (width : Nat) → Nat
  | 0 => 1
  | width + 1 => 256 * byteRange width

/-- One past the largest signed 32-bit number, the kind in which programs hold addresses, lengths
and jump targets. -/
def intLimit : Nat := 0x80000000

/-- The first `width` bytes of `bs`, with zeros in place of missing ones. -/
def fitBytes (width : Nat) (bs : List UInt8) : List UInt8 :=
  bs.take width ++ List.replicate (width - bs.length) 0

@[simp] theorem length_leBytes (width n : Nat) : (leBytes width n).length = width := by
  induction width generalizing n with
  | zero => rfl
  | succ width ih => simp [leBytes, ih]

@[simp] theorem length_fitBytes (width : Nat) (bs : List UInt8) :
    (fitBytes width bs).length = width := by
  rw [fitBytes, List.length_append, List.length_take, List.length_replicate]
  omega

theorem byteRange_le_of_le {m n : Nat} (h : m ≤ n) : byteRange m ≤ byteRange n := by
  induction h with
  | refl => exact Nat.le_refl _
  | step _ ih =>
    rw [byteRange]
    omega

/-- Writing keeps a number modulo the range of the width. -/
theorem leNat_leBytes (width n : Nat) : leNat (leBytes width n) = n % byteRange width := by
  induction width generalizing n with
  | zero => rw [leBytes, leNat, byteRange, Nat.mod_one]
  | succ width ih =>
    have hb : (UInt8.ofNat n).toNat = n % 256 := rfl
    rw [leBytes, leNat, ih, hb, byteRange, Nat.mod_mul]

/-- A byte list spells a number in the range of its length. -/
theorem leNat_lt (bs : List UInt8) : leNat bs < byteRange bs.length := by
  induction bs with
  | nil => exact Nat.zero_lt_one
  | cons b bs ih =>
    have hb := b.toNat_lt
    rw [leNat, List.length_cons, byteRange]
    omega

/-- Reading a byte list and writing it back at its own width changes nothing. -/
theorem leBytes_leNat (bs : List UInt8) : leBytes bs.length (leNat bs) = bs := by
  induction bs with
  | nil => rfl
  | cons b bs ih =>
    have hb := b.toNat_lt
    have hlow : UInt8.ofNat (b.toNat + 256 * leNat bs) = b := by
      apply UInt8.toNat_inj.mp
      simp
    have hhigh : (b.toNat + 256 * leNat bs) / 256 = leNat bs := by omega
    simp [leNat, leBytes, hlow, hhigh, ih]

/-- Byte lists of one length that spell the same number are the same. -/
theorem eq_of_leNat_eq {bs cs : List UInt8} (hlength : bs.length = cs.length)
    (h : leNat bs = leNat cs) : bs = cs := by
  rw [← leBytes_leNat bs, ← leBytes_leNat cs, hlength, h]

/-- Reading the first `width` bytes and writing them back fits the list to the width. -/
theorem leBytes_leNat_take (width : Nat) (bs : List UInt8) :
    leBytes width (leNat (bs.take width)) = fitBytes width bs := by
  induction width generalizing bs with
  | zero => simp [leBytes, fitBytes]
  | succ width ih =>
    cases bs with
    | nil =>
      have h := ih []
      simp only [fitBytes, List.take_nil, List.length_nil, Nat.sub_zero, List.nil_append] at h ⊢
      rw [leBytes, List.replicate_succ, ← h]
      simp [leNat]
    | cons b bs =>
      have hb := b.toNat_lt
      have hlow : UInt8.ofNat (b.toNat + 256 * leNat (bs.take width)) = b := by
        apply UInt8.toNat_inj.mp
        simp
      have hhigh : (b.toNat + 256 * leNat (bs.take width)) / 256 = leNat (bs.take width) := by omega
      simp [leNat, leBytes, hlow, hhigh, ih, fitBytes]

/-- Writes `bytes` into a buffer from position `i` on; what lies past its end is dropped. -/
def overwrite (buffer : Array UInt8) (i : Nat) : List UInt8 → Array UInt8
  | [] => buffer
  | b :: bs => overwrite (buffer.setIfInBounds i b) (i + 1) bs

@[simp] theorem size_overwrite (buffer : Array UInt8) (i : Nat) (bytes : List UInt8) :
    (overwrite buffer i bytes).size = buffer.size := by
  induction bytes generalizing buffer i with
  | nil => rfl
  | cons b bs ih => simp [overwrite, ih]

/-- Written in place, bytes that fit stand between what was before and after them. -/
theorem toList_overwrite (buffer : Array UInt8) (i : Nat) (bytes : List UInt8)
    (h : i + bytes.length ≤ buffer.size) :
    (overwrite buffer i bytes).toList =
      buffer.toList.take i ++ bytes ++ buffer.toList.drop (i + bytes.length) := by
  induction bytes generalizing buffer i with
  | nil => simp [overwrite]
  | cons b bs ih =>
    rw [List.length_cons] at h
    have hi : i < buffer.toList.length := by rw [Array.length_toList]; omega
    have htake : (buffer.toList.take i).length = i := by rw [List.length_take]; omega
    rw [overwrite, ih _ _ (by rw [Array.size_setIfInBounds]; omega), Array.toList_setIfInBounds,
      List.set_eq_take_append_cons_drop, if_pos hi]
    have hfront : (buffer.toList.take i ++ b :: buffer.toList.drop (i + 1)).take (i + 1) =
        buffer.toList.take i ++ [b] := by
      rw [List.take_append, htake, List.take_of_length_le (by rw [htake]; omega)]
      simp
    have hback : (buffer.toList.take i ++ b :: buffer.toList.drop (i + 1)).drop (i + 1 + bs.length) =
        buffer.toList.drop (i + (bs.length + 1)) := by
      rw [List.drop_append, htake, List.drop_eq_nil_of_le (by rw [htake]; omega)]
      have hn : i + 1 + bs.length - i = bs.length + 1 := by omega
      rw [hn, List.drop_succ_cons, List.drop_drop, List.nil_append]
      congr 1
      omega
    rw [hfront, hback]
    simp

end CellMachine
