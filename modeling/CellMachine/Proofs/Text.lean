import CellMachine.Text.Slots

/-!
# CellMachine.Proofs.Text

The slots of a text, read and written. `decode?` reads a byte list slot by slot and takes a
short last slot for one that ends in zeros, so two byte lists hold the same text exactly when
they agree once filled up to whole slots:

* `padded_eq_append` and `decodeChars_eq_bind` cut the first slot off both sides;
* `decodeChars_eq_some_iff` — the characters read are those whose slots fill the bytes;
* `decodeChars_eq_none_iff` — reading fails at a slot that holds no scalar value.

`text_codec_exact` says both of texts.

This module depends only on the Lean 4 core library.
-/

namespace CellMachine.Text

/-! ## Characters and their slots -/

/-- The numbers that are no Unicode scalar value: surrogates, and what lies past the last plane. -/
def NoScalar (n : Nat) : Prop := (0xD800 ≤ n ∧ n ≤ 0xDFFF) ∨ 0x10FFFF < n

theorem isValidChar_iff {n : Nat} : n.isValidChar ↔ ¬ NoScalar n := by
  simp only [Nat.isValidChar, NoScalar]
  omega

theorem charOfNat?_eq_some_iff {n : Nat} {c : Char} : charOfNat? n = some c ↔ c.toNat = n := by
  constructor
  · intro h
    by_cases hn : n.isValidChar
    · rw [charOfNat?, dif_pos hn] at h
      rw [← Option.some.inj h]
      rfl
    · rw [charOfNat?, dif_neg hn] at h
      contradiction
  · intro h
    rw [← h, charOfNat?_toNat]

theorem charOfNat?_eq_none_iff {n : Nat} : charOfNat? n = none ↔ NoScalar n := by
  by_cases hn : n.isValidChar
  · have hscalar := isValidChar_iff.mp hn
    rw [charOfNat?, dif_pos hn]
    exact iff_of_false (Option.some_ne_none _) hscalar
  · rw [charOfNat?, dif_neg hn]
    rw [isValidChar_iff, Classical.not_not] at hn
    exact iff_of_true rfl hn

theorem toNat_lt_byteRange (c : Char) : c.toNat < byteRange slotWidth := by
  have h : c.toNat.isValidChar := c.valid
  simp only [Nat.isValidChar] at h
  simp only [byteRange, slotWidth]
  omega

/-- Zeros after a slot do not change the number in it. -/
theorem leNat_fitBytes (bytes : List UInt8) :
    leNat (fitBytes slotWidth bytes) = leNat (bytes.take slotWidth) := by
  have hlt : leNat (bytes.take slotWidth) < byteRange slotWidth :=
    Nat.lt_of_lt_of_le (leNat_lt _) (byteRange_le_of_le (List.length_take_le ..))
  rw [← leBytes_leNat_take, leNat_leBytes, Nat.mod_eq_of_lt hlt]

/-- A slot is the slot of a character exactly when it holds the character's number. -/
theorem leBytes_toNat_eq_fitBytes_iff {c : Char} {bytes : List UInt8} :
    leBytes slotWidth c.toNat = fitBytes slotWidth bytes ↔
      c.toNat = leNat (bytes.take slotWidth) := by
  constructor
  · intro h
    have hread := congrArg leNat h
    rwa [leNat_leBytes, Nat.mod_eq_of_lt (toNat_lt_byteRange c), leNat_fitBytes] at hread
  · intro h
    rw [h, leBytes_leNat_take]

/-! ## Whole slots -/

/-- The bytes, with zeros after them up to a whole number of slots. -/
def padded (bytes : List UInt8) : List UInt8 :=
  bytes ++ List.replicate ((slotWidth - bytes.length % slotWidth) % slotWidth) 0

/-- The number in the `k`-th slot of a byte list, a short last slot being extended by zeros. -/
def slotAt (bytes : List UInt8) (k : Nat) : Nat :=
  leNat (((padded bytes).drop (slotWidth * k)).take slotWidth)

theorem padded_eq_of_dvd {bytes : List UInt8} (h : slotWidth ∣ bytes.length) :
    padded bytes = bytes := by
  simp [padded, Nat.mod_eq_zero_of_dvd h]

/-- Filling up byte by byte is filling up slot by slot. -/
theorem padded_eq_append {bytes : List UInt8} (h : bytes ≠ []) :
    padded bytes = fitBytes slotWidth bytes ++ padded (bytes.drop slotWidth) := by
  have hpos := List.length_pos_iff.mpr h
  by_cases hlen : slotWidth ≤ bytes.length
  · -- A whole slot: nothing is filled up here, and the rest is short of as many bytes as before.
    have hrest : (bytes.length - slotWidth) % slotWidth = bytes.length % slotWidth :=
      (Nat.mod_eq_sub_mod hlen).symm
    rw [padded, padded, fitBytes, List.length_drop, hrest, Nat.sub_eq_zero_of_le hlen,
      List.replicate_zero, List.append_nil, ← List.append_assoc, List.take_append_drop]
  · have hshort : bytes.length ≤ slotWidth := by omega
    have hfill : (slotWidth - bytes.length % slotWidth) % slotWidth =
        slotWidth - bytes.length := by
      simp only [slotWidth] at *
      omega
    simp [padded, fitBytes, hfill, List.take_of_length_le hshort, List.drop_eq_nil_of_le hshort]

/-- To prove something of every byte list, take off one slot at a time. -/
theorem slot_induction {P : List UInt8 → Prop} (nil : P [])
    (slot : ∀ bytes, bytes ≠ [] → P (bytes.drop slotWidth) → P bytes) (bytes : List UInt8) :
    P bytes := by
  by_cases h : bytes = []
  · rw [h]
    exact nil
  · have hpos := List.length_pos_iff.mpr h
    exact slot bytes h (slot_induction nil slot (bytes.drop slotWidth))
termination_by bytes.length
decreasing_by
  simp only [List.length_drop, slotWidth]
  omega

/-- Reading takes the first slot, which may be short, and then reads the rest. -/
theorem decodeChars_eq_bind {bytes : List UInt8} (h : bytes ≠ []) :
    decodeChars bytes = (charOfNat? (leNat (bytes.take slotWidth))).bind fun c =>
      (decodeChars (bytes.drop slotWidth)).map (c :: ·) := by
  fun_cases decodeChars bytes with
  | case1 => contradiction
  | case2 a => cases hc : charOfNat? (leNat [a]) <;> simp [slotWidth, hc, decodeChars]
  | case3 a b => cases hc : charOfNat? (leNat [a, b]) <;> simp [slotWidth, hc, decodeChars]
  | case4 a b c => cases hc : charOfNat? (leNat [a, b, c]) <;> simp [slotWidth, hc, decodeChars]
  | case5 a b c d rest x hx => simp [slotWidth, hx]
  | case6 a b c d rest hx => simp [slotWidth, hx]

theorem slotAt_zero {bytes : List UInt8} (h : bytes ≠ []) :
    slotAt bytes 0 = leNat (bytes.take slotWidth) := by
  rw [slotAt, padded_eq_append h, Nat.mul_zero, List.drop_zero,
    List.take_left' (length_fitBytes ..), leNat_fitBytes]

theorem slotAt_succ {bytes : List UInt8} (h : bytes ≠ []) (k : Nat) :
    slotAt bytes (k + 1) = slotAt (bytes.drop slotWidth) k := by
  rw [slotAt, slotAt, padded_eq_append h, Nat.mul_succ, Nat.add_comm, ← List.drop_drop,
    List.drop_left' (length_fitBytes ..)]

/-! ## Reading and writing -/

/-- The characters read are those whose slots fill the bytes. -/
theorem decodeChars_eq_some_iff {bytes : List UInt8} {chars : List Char} :
    decodeChars bytes = some chars ↔
      (chars.flatMap fun c => leBytes slotWidth c.toNat) = padded bytes := by
  induction bytes using slot_induction generalizing chars with
  | nil => cases chars <;> simp [decodeChars, padded, leBytes, slotWidth]
  | slot bytes hne ih =>
    rw [decodeChars_eq_bind hne, padded_eq_append hne]
    cases chars with
    | nil =>
      have hfit : fitBytes slotWidth bytes ≠ [] :=
        List.ne_nil_of_length_pos (by rw [length_fitBytes]; decide)
      simp [Option.bind_eq_some_iff, hfit]
    | cons c chars =>
      constructor
      · intro h
        simp only [Option.bind_eq_some_iff, Option.map_eq_some_iff, List.cons.injEq] at h
        obtain ⟨x, hx, tail, htail, rfl, rfl⟩ := h
        rw [List.flatMap_cons, ih.mp htail,
          leBytes_toNat_eq_fitBytes_iff.mpr (charOfNat?_eq_some_iff.mp hx)]
      · intro h
        obtain ⟨hslot, hrest⟩ := List.append_inj (List.flatMap_cons ▸ h) (by simp)
        simp [charOfNat?_eq_some_iff.mpr (leBytes_toNat_eq_fitBytes_iff.mp hslot), ih.mpr hrest]

/-- Reading fails exactly at a slot that holds no scalar value. -/
theorem decodeChars_eq_none_iff {bytes : List UInt8} :
    decodeChars bytes = none ↔ ∃ k, slotWidth * k < bytes.length ∧ NoScalar (slotAt bytes k) := by
  induction bytes using slot_induction with
  | nil => simp [decodeChars]
  | slot bytes hne ih =>
    have hpos := List.length_pos_iff.mpr hne
    have hcut : decodeChars bytes = none ↔
        NoScalar (slotAt bytes 0) ∨ decodeChars (bytes.drop slotWidth) = none := by
      rw [decodeChars_eq_bind hne, slotAt_zero hne, ← charOfNat?_eq_none_iff]
      cases charOfNat? (leNat (bytes.take slotWidth)) <;> simp
    rw [hcut, ih]
    constructor
    · rintro (hfirst | ⟨k, hk, hslot⟩)
      · exact ⟨0, hpos, hfirst⟩
      · rw [List.length_drop] at hk
        refine ⟨k + 1, ?_, by rwa [slotAt_succ hne]⟩
        rw [Nat.mul_succ]
        omega
    · rintro ⟨k, hk, hslot⟩
      cases k with
      | zero => exact .inl hslot
      | succ k =>
        rw [slotAt_succ hne] at hslot
        rw [Nat.mul_succ] at hk
        exact .inr ⟨k, by rw [List.length_drop]; omega, hslot⟩

theorem decode?_eq_some_iff {bytes : List UInt8} {text : String} :
    decode? bytes = some text ↔ encode text = padded bytes := by
  rw [encode, ← decodeChars_eq_some_iff, decode?, Option.map_eq_some_iff]
  constructor
  · rintro ⟨chars, hchars, rfl⟩
    rw [hchars, String.toList_ofList]
  · intro h
    exact ⟨text.toList, h, String.ofList_toList⟩

theorem length_encode (text : String) : (encode text).length = slotWidth * text.length := by
  rw [encode, ← String.length_toList]
  induction text.toList with
  | nil => rfl
  | cons c chars ih =>
    rw [List.flatMap_cons, List.length_append, length_leBytes, ih, List.length_cons, Nat.mul_succ,
      Nat.add_comm]

theorem dvd_length_encode (text : String) : slotWidth ∣ (encode text).length :=
  ⟨text.length, length_encode text⟩

theorem decode?_encode (text : String) : decode? (encode text) = some text :=
  decode?_eq_some_iff.mpr (padded_eq_of_dvd (dvd_length_encode text)).symm

/-- Different texts have different slots. -/
theorem encode_inj {text text' : String} : encode text = encode text' ↔ text = text' := by
  constructor
  · intro h
    have hread := decode?_encode text
    rw [h, decode?_encode text'] at hread
    exact (Option.some.inj hread).symm
  · intro h
    rw [h]

/-- A byte list holds a text exactly when it is, filled up to whole slots, the slots of that text.
So reading undoes writing, writing undoes reading on whole slots, no two texts have the same slots,
and reading fails exactly when a slot is a surrogate or past the last plane. -/
theorem text_codec_exact :
    (∀ bytes text, decode? bytes = some text ↔ encode text = padded bytes) ∧
    (∀ text, decode? (encode text) = some text) ∧
    (∀ bytes text, slotWidth ∣ bytes.length → decode? bytes = some text → encode text = bytes) ∧
    (∀ text text', encode text = encode text' → text = text') ∧
    (∀ bytes, decode? bytes = none ↔
      ∃ k, slotWidth * k < bytes.length ∧ NoScalar (slotAt bytes k)) := by
  refine ⟨fun _ _ => decode?_eq_some_iff, decode?_encode, ?_, fun _ _ => encode_inj.mp, ?_⟩
  · intro bytes text hwhole h
    rw [decode?_eq_some_iff.mp h, padded_eq_of_dvd hwhole]
  · intro bytes
    rw [decode?, Option.map_eq_none_iff, decodeChars_eq_none_iff]

end CellMachine.Text
