import CellMachine.Assembler
import CellMachine.Proofs.Native

/-!
# CellMachine.Proofs.Native.Payload

Payloads of native values. Every value crosses this codec in both directions and
at several lengths: padded to eight bytes, cut to the width of its tag in
literals and cells, or as whatever bytes there are.

* `toNat_toWord_ofPayload` — the word that is read is the number that the first
  bytes spell, up to the width of the tag;
* `toPayload_ofPayload` — so these bytes are written back, and zeros after them;
* `ofPayload_of_take_eq` — and a value is read back from any bytes that begin as
  its payload does.
-/

namespace CellMachine

/-! ## numbers and the first bytes -/

/-- The first bytes of a list spell the low part of its number. -/
theorem leNat_mod_byteRange (bs : List UInt8) (width : Nat) :
    leNat bs % byteRange width = leNat (bs.take width) := by
  induction width generalizing bs with
  | zero => simp [byteRange, leNat, Nat.mod_one]
  | succ width ih =>
      cases bs with
      | nil => simp [leNat]
      | cons b bs =>
          have hb := b.toNat_lt
          have hlow : (b.toNat + 256 * leNat bs) % 256 = b.toNat := by omega
          have hhigh : (b.toNat + 256 * leNat bs) / 256 = leNat bs := by omega
          rw [List.take_succ_cons, leNat, leNat, byteRange, Nat.mod_mul, hlow, hhigh, ih]

/-- What is fitted to a width stays at the front if it is fitted to a greater width. -/
theorem fitBytes_take {width width' : Nat} (h : width ≤ width') (bs : List UInt8) :
    fitBytes width' (bs.take width) =
      fitBytes width bs ++ List.replicate (width' - width) 0 := by
  have hcut : (bs.take width).take width' = bs.take width := by
    rw [List.take_take, Nat.min_eq_right h]
  have hfill : width' - (bs.take width).length = width - bs.length + (width' - width) := by
    rw [List.length_take]
    omega
  rw [fitBytes, fitBytes, hcut, hfill, List.append_assoc, List.replicate_append_replicate]

namespace Native

variable {α : Type} [Native α]

theorem width_le_payloadWidth (t : Tag) : t.width ≤ payloadWidth := t.width_le

/-- A payload spells the word of its value. -/
theorem leNat_toPayload (x : α) : leNat (toPayload x) = (toWord x).toNat := by
  rw [toPayload, leNat_leBytes]
  exact Nat.mod_eq_of_lt (toWord x).toNat_lt

/-- The significant bytes of a cell are its payload, cut to the width of the tag. -/
theorem bytes_ofNative (x : α) : (Cell.ofNative x).bytes = (toPayload x).take (tag α).width := by
  apply eq_of_leNat_eq
  · have hlength : (toPayload x).length = payloadWidth := length_leBytes ..
    rw [Cell.length_bytes, List.length_take, hlength]
    exact (Nat.min_eq_left (width_le_payloadWidth _)).symm
  · rw [← leNat_mod_byteRange, leNat_toPayload, Cell.bytes, leNat_leBytes]
    rfl

/-- A literal holds the payload, cut to the width of the tag. -/
theorem emit_pushCell_ofNative (a : Assembler) (x : α) (h : tag α ≠ .bool) :
    a.emit (.pushCell (.ofNative x)) =
      .ok (a.instrs [.push (tag α) ((toPayload x).take (tag α).width)]) := by
  have hcanonical : (Cell.ofNative x).canonical = .ofNative x := if_neg h
  rw [Assembler.emit, hcanonical, bytes_ofNative]
  rfl

section LawfulNative

variable [LawfulNative α]

/-- The word that is read is the number that the first bytes spell. -/
theorem toNat_toWord_ofPayload (bs : List UInt8) :
    (toWord (ofPayload bs : α)).toNat = leNat (bs.take (tag α).width) := by
  have hlt : leNat (bs.take payloadWidth) < byteRange payloadWidth :=
    Nat.lt_of_lt_of_le (leNat_lt _) (byteRange_le_of_le (List.length_take_le ..))
  have hword : (UInt64.ofNat (leNat (bs.take payloadWidth))).toNat = leNat (bs.take payloadWidth) :=
    UInt64.toNat_ofNat_of_lt hlt
  rw [ofPayload, LawfulNative.toNat_toWord_ofWord, hword, leNat_mod_byteRange, List.take_take,
    Nat.min_eq_left (width_le_payloadWidth _)]

/-- The bytes of the width are written back, and zeros after them. -/
theorem toPayload_ofPayload (bs : List UInt8) :
    toPayload (ofPayload bs : α) =
      fitBytes (tag α).width bs ++ List.replicate (payloadWidth - (tag α).width) 0 := by
  have hcut : (bs.take (tag α).width).take payloadWidth = bs.take (tag α).width := by
    rw [List.take_take, Nat.min_eq_right (width_le_payloadWidth _)]
  rw [toPayload, toNat_toWord_ofPayload, ← fitBytes_take (width_le_payloadWidth _),
    ← leBytes_leNat_take, hcut]

/-- A value is read back from any bytes that begin as its payload does. -/
theorem ofPayload_of_take_eq {x : α} {bs : List UInt8}
    (h : bs.take (tag α).width = (toPayload x).take (tag α).width) : ofPayload bs = x := by
  have hword : toWord (ofPayload bs : α) = toWord x := by
    apply UInt64.toNat_inj.mp
    rw [toNat_toWord_ofPayload, h, ← leNat_mod_byteRange, leNat_toPayload]
    exact Nat.mod_eq_of_lt (Cell.wellFormed_ofNative x)
  rw [← LawfulNative.ofWord_toWord (ofPayload bs : α), hword, LawfulNative.ofWord_toWord]

end LawfulNative

/-! ## integers -/

/-- The payloads of a native type are exact: its values stand for integers, which are written in
two's complement, and nothing but what lies beyond the width is lost in either direction. -/
structure ExactPayload (α : Type) [Native α] (value : α → Int) : Prop where
  spells : ∀ x : α, (leNat (toPayload x) : Int) = value x % byteRange (tag α).width
  rewrites : ∀ bs, toPayload (ofPayload bs : α) =
    fitBytes (tag α).width bs ++ List.replicate (payloadWidth - (tag α).width) 0
  reads : ∀ x : α, ofPayload (toPayload x) = x
  /-- Bytes after those of the width do not matter. -/
  reads_cut : ∀ (x : α) rest, ofPayload ((toPayload x).take (tag α).width ++ rest) = x
  cell : ∀ x : α, (Cell.ofNative x).bytes = (toPayload x).take (tag α).width
  literal : ∀ (a : Assembler) (x : α), a.emit (.pushCell (.ofNative x)) =
    .ok (a.instrs [.push (tag α) ((toPayload x).take (tag α).width)])

/-- A payload is exact if the value of a word is the word itself, modulo the range of the width. -/
theorem exactPayload_of_emod [LawfulNative α] {value : α → Int} (hbool : tag α ≠ .bool)
    (hvalue : ∀ x, value x % byteRange (tag α).width =
      ((toWord x).toNat : Int) % byteRange (tag α).width) : ExactPayload α value where
  spells x := by
    have hfits : (toWord x).toNat < byteRange (tag α).width := Cell.wellFormed_ofNative x
    rw [leNat_toPayload, hvalue, ← Int.natCast_emod, Nat.mod_eq_of_lt hfits]
  rewrites := toPayload_ofPayload
  reads x := ofPayload_of_take_eq rfl
  reads_cut x rest := by
    apply ofPayload_of_take_eq
    rw [← bytes_ofNative]
    exact List.take_left' (Cell.length_bytes _)
  cell := bytes_ofNative
  literal a x := emit_pushCell_ofNative a x hbool

/-- A payload is exact if the value of a word is its number, taken as signed. -/
theorem exactPayload_of_bmod [LawfulNative α] {value : α → Int} (hbool : tag α ≠ .bool)
    (hvalue : ∀ x, value x = Int.bmod (toWord x).toNat (byteRange (tag α).width)) :
    ExactPayload α value := by
  apply exactPayload_of_emod hbool
  intro x
  rw [hvalue]
  exact Int.bmod_emod

/-! ## truth values -/

/-- Of the bytes, a byte is the first. -/
theorem ofPayload_byte (bs : List UInt8) : (ofPayload bs : UInt8) = bs.headD 0 := by
  apply UInt8.toNat_inj.mp
  have hword := toNat_toWord_ofPayload (α := UInt8) bs
  cases bs with
  | nil => exact hword
  | cons b bs => simpa [tag, Tag.width, leNat, toWord] using hword

/-- A truth value is true if there is a first byte and it is not zero. -/
theorem ofPayload_bool (bs : List UInt8) : (ofPayload bs : Bool) = bs.head?.any (· != 0) := by
  have hbyte : (ofPayload bs : Bool) = ((ofPayload bs : UInt8) != 0) := rfl
  rw [hbyte, ofPayload_byte]
  cases bs <;> rfl

theorem toPayload_bool (b : Bool) :
    toPayload b = if b then 1 :: List.replicate (payloadWidth - 1) 0
      else List.replicate payloadWidth 0 := by
  cases b <;> rfl

/-- **Payloads are exact.** The payload of an integer spells it in two's complement, least
significant byte first. Bytes of any number that are read and written back come out as the first of
them, zeros in place of missing ones, and zeros up to the width of a payload; and an integer is read
back from its payload, also if that has been cut to the width of the tag, as in cells and literals.
A truth value is written as 1 or 0, by the first byte. -/
theorem payload_codec_exact :
    ExactPayload Int32 Int32.toInt ∧ ExactPayload UInt8 (fun x => x.toNat) ∧
    ExactPayload UInt16 (fun x => x.toNat) ∧ ExactPayload UInt32 (fun x => x.toNat) ∧
    ExactPayload Int64 Int64.toInt ∧
    ∀ bs, toPayload (ofPayload bs : Bool) =
      if bs.head?.any (· != 0) then 1 :: List.replicate (payloadWidth - 1) 0
      else List.replicate payloadWidth 0 := by
  refine ⟨?_, ?_, ?_, ?_, ?_, fun bs => ?_⟩
  · exact exactPayload_of_bmod (by decide) fun x => BitVec.toInt_eq_toNat_bmod x.toBitVec
  · exact exactPayload_of_emod (by decide) fun _ => rfl
  · exact exactPayload_of_emod (by decide) fun _ => rfl
  · exact exactPayload_of_emod (by decide) fun _ => rfl
  · exact exactPayload_of_bmod (by decide) fun x => BitVec.toInt_eq_toNat_bmod x.toBitVec
  · rw [toPayload_bool, ofPayload_bool]

example : toPayload (-2 : Int32) = [0xfe, 0xff, 0xff, 0xff, 0, 0, 0, 0] := by decide

end Native

end CellMachine
