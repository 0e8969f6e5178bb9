import CellMachine.Proofs.Operator.Integer

/-!
# CellMachine.Proofs.Operator.Conversion

Conversions of integers one after another. A conversion keeps the low-order bytes
of an integer, as many as the target has room for. So a detour over a tag that is
no narrower than the target changes nothing, whichever of the tags are signed, and
a cell comes back from every tag that is no narrower than its own.

* `Tag.Wraps.trans` — wrapping to a width and then to a smaller one is wrapping once;
* `bytes_eq_of_toInt_eq` — the integer of a cell determines its bytes.
-/

namespace CellMachine

/-- An integer that is wrapped twice, the second time to no more bytes, is wrapped as if once. -/
theorem Tag.Wraps.trans {s t : Tag} {n k j : Int} (hs : s.Wraps n k) (ht : t.Wraps k j)
    (hwidth : t.width ≤ s.width) : t.Wraps n j := by
  have hdvd : (2 ^ (8 * t.width) : Int) ∣ 2 ^ (8 * s.width) := pow_dvd_pow 2 (by omega)
  exact ⟨ht.1, ht.2.trans (hs.2.of_dvd hdvd)⟩

namespace Cell

variable {c d : Cell} {t : Tag}

/-- Cells of one tag that represent the same integer have the same bytes. -/
theorem bytes_eq_of_toInt_eq (hkind : c.tag.kind? = some .integer) (htag : c.tag = d.tag)
    (h : c.toInt = d.toInt) : c.bytes = d.bytes := by
  have hlength : c.bytes.length = d.bytes.length := by simp [htag]
  have hspelled : (leNat c.bytes : Int) ≡ leNat d.bytes [ZMOD 2 ^ (8 * c.tag.width)] := by
    have hd := toInt_modEq (htag ▸ hkind)
    rw [← htag, ← h] at hd
    exact (toInt_modEq hkind).symm.trans hd
  have hc := leNat_lt c.bytes
  have hd := leNat_lt d.bytes
  rw [← hlength] at hd
  rw [← byteRange_eq_pow, ← length_bytes c, Int.natCast_modEq_iff] at hspelled
  exact eq_of_leNat_eq hlength (hspelled.eq_of_lt_of_lt hc hd)

/-- A well-formed cell is determined by its tag and its bytes. -/
theorem eq_of_bytes_eq (hc : c.WellFormed) (hd : d.WellFormed) (htag : c.tag = d.tag)
    (h : c.bytes = d.bytes) : c = d := by
  rw [← ofBytes_bytes hc, ← ofBytes_bytes hd, htag, h]

/-- The conversion of a well-formed integer is well-formed. -/
theorem wellFormed_cast (hc : c.tag.isInteger = true) (hkind : t.kind? = some .integer)
    (hwf : c.WellFormed) (hcast : c.cast t = .ok d) : d.WellFormed := by
  by_cases htag : c.tag = t
  · simp only [cast, htag, if_true, Except.ok.injEq] at hcast
    exact hcast ▸ hwf
  · rw [cast_of_ne hc hkind htag] at hcast
    exact Except.ok.inj hcast ▸ wellFormed_ofInt t _

/-- **Conversions of integers compose.** An integer converted to the tag `s` and then to a tag `t`
that is no wider becomes what it becomes if it is converted to `t` at once: the one integer of the
range of `t` that is congruent to it modulo the range of the width. A cell that is converted to a
tag no narrower than its own and back is unchanged. Cells are the same if their tags and bytes are;
for a well-formed cell, as all cells of the machine are, the results are then equal. -/
theorem cast_cast {s : Tag} (hc : c.tag.isInteger = true) (hs : s.kind? = some .integer)
    (ht : t.kind? = some .integer) (hwidth : t.width ≤ s.width) :
    ∃ via twice once, c.cast s = .ok via ∧ via.cast t = .ok twice ∧ c.cast t = .ok once ∧
      twice.tag = t ∧ once.tag = t ∧ twice.bytes = once.bytes ∧ (c.WellFormed → twice = once) ∧
      (∀ k, t.Wraps c.toInt k ↔ k = once.toInt) ∧
      (c.tag = t → twice.bytes = c.bytes ∧ (c.WellFormed → twice = c)) := by
  obtain ⟨via, hvia, rfl, hfirst⟩ := wraps_cast hc hs
  have hinteger := Tag.isInteger_of_kind? hs
  obtain ⟨twice, htwice, rfl, hsecond⟩ := wraps_cast hinteger ht
  obtain ⟨once, honce, htag, hdirect⟩ := wraps_cast hc ht
  have hvalue : twice.toInt = once.toInt := (hfirst.trans hsecond hwidth).unique hdirect
  have hbytes := bytes_eq_of_toInt_eq ht htag.symm hvalue
  have heq (hwf : c.WellFormed) : twice = once :=
    eq_of_bytes_eq (wellFormed_cast hinteger ht (wellFormed_cast hc hs hwf hvia) htwice)
      (wellFormed_cast hc ht hwf honce) htag.symm hbytes
  refine ⟨via, twice, once, hvia, htwice, honce, rfl, htag, hbytes, heq, fun k => ?_, fun hback => ?_⟩
  · constructor
    · intro hk
      exact hk.unique hdirect
    · intro hk
      exact hk ▸ hdirect
  · obtain rfl : c = once := by
      simpa [cast, hback] using honce
    exact ⟨hbytes, heq⟩

/-- A negative int comes back from a dword, and becomes a word by way of a dint. -/
theorem cast_cast_negative :
    (ofInt .int (-2)).tag.isInteger = true ∧ (ofInt .int (-2)).WellFormed ∧
    (∃ via, (ofInt .int (-2)).cast .dword = .ok via ∧ via.cast .int = .ok (ofInt .int (-2))) ∧
    ∃ via once, (ofInt .int (-2)).cast .dint = .ok via ∧ via.cast .word = .ok once ∧
      (ofInt .int (-2)).cast .word = .ok once ∧ once.toInt = 65534 := by
  have hc : (ofInt .int (-2)).tag.isInteger = true := rfl
  have hwf := wellFormed_ofInt .int (-2)
  obtain ⟨via, back, -, hvia, hback, -, -, -, -, -, -, hsame⟩ :=
    cast_cast (s := .dword) (t := .int) hc rfl rfl (by decide)
  obtain ⟨wide, twice, once, hwide, htwice, honce, -, -, -, heq, hvalue, -⟩ :=
    cast_cast (s := .dint) (t := .word) hc rfl rfl (by decide)
  have hwraps : Tag.word.Wraps (ofInt .int (-2)).toInt 65534 :=
    ⟨by simp [Tag.InRange], by decide⟩
  rw [(hsame rfl).2 hwf] at hback
  rw [heq hwf] at htwice
  exact ⟨hc, hwf, ⟨via, hvia, hback⟩, wide, once, hwide, htwice, honce, ((hvalue _).mp hwraps).symm⟩

end Cell

end CellMachine
