import CellMachine.Proofs.Operator.Promotion

/-!
# CellMachine.Proofs.Operator.Division

Quotients and remainders of integers. Division goes toward zero, so the remainder
has the sign of the dividend (`QuotRem`). The quotient of two integers of a range
lies in that range again, but for the least integer of a signed tag divided by -1:
its opposite is out of range and wraps to the least integer itself.

* `Tag.inRange_tdiv`, `Tag.inRange_tmod` — all other results are in range, hence exact;
* `Tag.wraps_tdiv_least` — what becomes of the exception.

The divisor is tested for zero after the conversion to the common tag, which makes
no other integer zero (`Tag.operandInt_eq_zero_iff`).
-/

namespace CellMachine

/-! ## division toward zero -/

/-- Dividing `a` by `b` toward zero gives the quotient `q` and leaves the remainder `r`. -/
structure QuotRem (a b q r : Int) : Prop where
  exact : a = q * b + r
  small : r.natAbs < b.natAbs
  sign : r = 0 ∨ r.sign = a.sign

theorem natAbs_tmod_lt {a b : Int} (hb : b ≠ 0) : (a.tmod b).natAbs < b.natAbs := by
  rw [Int.natAbs_tmod]
  exact Nat.mod_lt _ (Int.natAbs_pos.mpr hb)

theorem quotRem_tdiv {a b : Int} (hb : b ≠ 0) : QuotRem a b (a.tdiv b) (a.tmod b) where
  exact := (Int.tdiv_mul_add_tmod a b).symm
  small := natAbs_tmod_lt hb
  sign := by
    by_cases hdvd : b ∣ a
    · exact .inl (Int.tmod_eq_zero_of_dvd hdvd)
    · exact .inr (by rw [Int.sign_tmod, if_neg hdvd])

/-- Only division by -1 turns a number other than zero into its opposite. -/
theorem tdiv_ne_neg {a b : Int} (ha : a ≠ 0) (hb : b ≠ -1) : a.tdiv b ≠ -a := by
  intro heq
  have habs : a.natAbs / b.natAbs = a.natAbs := by
    have hdiv : a.natAbs / b.natAbs = (a.tdiv b).natAbs := (Int.natAbs_tdiv a b).symm
    rw [hdiv, heq, Int.natAbs_neg]
  cases Nat.div_eq_self.mp habs with
  | inl hzero => omega
  | inr hone =>
      obtain rfl : b = 1 := by omega
      rw [Int.tdiv_one] at heq
      omega

theorem tdiv_neg_one (a : Int) : a.tdiv (-1) = -a := by
  rw [Int.tdiv_neg, Int.tdiv_one]

/-! ## quotients and remainders in the range of a tag -/

namespace Tag

variable {t : Tag} {a b : Int}

/-- The least integer of a signed tag, whose opposite is out of range. -/
def least? : Tag → Option Int
  | int => some (-2 ^ 31)
  | dint => some (-2 ^ 63)
  | _ => none

/-- A quotient lies in the range of its operands, unless it is the opposite of the least integer. -/
theorem inRange_tdiv (ha : t.InRange a) (hb : t.InRange b)
    (hleast : ¬ (t.least? = some a ∧ b = -1)) : t.InRange (a.tdiv b) := by
  have hle := Int.natAbs_tdiv_le_natAbs a b
  have hnonneg : 0 ≤ a → 0 ≤ b → 0 ≤ a.tdiv b := Int.tdiv_nonneg
  by_cases hone : b = -1
  · subst hone
    rw [tdiv_neg_one]
    cases t <;> simp only [InRange, least?, Option.some.injEq, and_true] at * <;> omega
  · -- no farther from zero than the dividend, and not its opposite
    have hopposite : a ≠ 0 → a.tdiv b ≠ -a := fun ha => tdiv_ne_neg ha hone
    cases t <;> simp only [InRange] at * <;> omega

theorem inRange_tmod (ha : t.InRange a) (hb : t.InRange b) (hzero : b ≠ 0) :
    t.InRange (a.tmod b) := by
  have hlt : (a.tmod b).natAbs < b.natAbs := natAbs_tmod_lt hzero
  have hnonneg : 0 ≤ a → 0 ≤ a.tmod b := Int.tmod_nonneg b
  cases t <;> simp only [InRange] at * <;> omega

/-- The opposite of the least integer wraps to the least integer. -/
theorem wraps_tdiv_least (hleast : t.least? = some a) : t.Wraps (a.tdiv (-1)) a := by
  rw [tdiv_neg_one]
  cases t <;> simp only [least?, Option.some.injEq, reduceCtorEq] at hleast <;> subst hleast
  · exact ⟨by simp [InRange], by decide⟩
  · exact ⟨by simp [InRange], by decide⟩

end Tag

/-! ## the operators -/

namespace Cell

theorem toInt_ofInt_of_inRange {t : Tag} {n : Int} (hkind : t.kind? = some .integer)
    (hn : t.InRange n) : (ofInt t n).toInt = n :=
  (wraps_ofInt hkind n).unique ⟨hn, Int.ModEq.refl n⟩

/-- **Division of integers.** Two cells of integer tags that are not both `bool` are converted to
the higher-ranked tag. Division and remainder fail, as divisions by zero, exactly if the divisor
represents zero. Otherwise both exist, have that tag, and are the exact quotient and remainder of
the converted operands. Only for the least integer of a signed tag and -1 there is no such quotient:
it is then the least integer again, and the remainder is zero. -/
theorem binary_div_mod {lhs rhs : Cell} (hl : lhs.tag.isInteger = true)
    (hr : rhs.tag.isInteger = true) (hbool : ¬ (lhs.tag = .bool ∧ rhs.tag = .bool)) (h : Heap) :
    ∃ t a b, lhs.tag.promote rhs.tag = some t ∧ lhs.cast t = .ok a ∧ rhs.cast t = .ok b ∧
      (rhs.toInt = 0 → binary .div lhs rhs h = .error .divideByZero h ∧
        binary .mod lhs rhs h = .error .divideByZero h) ∧
      (rhs.toInt ≠ 0 → ∃ q r, binary .div lhs rhs h = .ok q h ∧ binary .mod lhs rhs h = .ok r h ∧
        q.WellFormed ∧ r.WellFormed ∧ q.tag = t ∧ r.tag = t ∧
        (t.least? = some a.toInt ∧ b.toInt = -1 → q.toInt = a.toInt ∧ r.toInt = 0) ∧
        (¬ (t.least? = some a.toInt ∧ b.toInt = -1) →
          QuotRem a.toInt b.toInt q.toInt r.toInt)) := by
  obtain ⟨t, a, b, hm⟩ := exists_meets hl hr hbool
  -- the divisor is tested after its conversion
  have hzero : b.toInt = 0 ↔ rhs.toInt = 0 := by
    rw [hm.rightInt]
    exact Tag.operandInt_eq_zero_iff (inRange_toInt hr)
  refine ⟨t, a, b, hm.promote, hm.left, hm.right, fun hrhs => ?_, fun hrhs => ?_⟩
  · simp [binary_of_meets hm, ArithOp.onInt, hzero.mpr hrhs, Except.map, HeapM.lift]
  · have hb : b.toInt ≠ 0 := fun heq => hrhs (hzero.mp heq)
    have hdiv : binary .div lhs rhs h = .ok (ofInt t (a.toInt.tdiv b.toInt)) h := by
      simp [binary_of_meets hm, ArithOp.onInt, hb, Except.map, HeapM.lift]
    have hmod : binary .mod lhs rhs h = .ok (ofInt t (a.toInt.tmod b.toInt)) h := by
      simp [binary_of_meets hm, ArithOp.onInt, hb, Except.map, HeapM.lift]
    have hremainder : (ofInt t (a.toInt.tmod b.toInt)).toInt = a.toInt.tmod b.toInt :=
      toInt_ofInt_of_inRange hm.kind (Tag.inRange_tmod hm.leftRange hm.rightRange hb)
    refine ⟨_, _, hdiv, hmod, wellFormed_ofInt .., wellFormed_ofInt .., rfl, rfl, ?_, ?_⟩
    · intro hleast
      have hwraps := wraps_ofInt hm.kind (a.toInt.tdiv (-1))
      rw [hremainder, hleast.2]
      exact ⟨hwraps.unique (Tag.wraps_tdiv_least hleast.1), by simp [Int.tmod_neg]⟩
    · intro hleast
      have hquotient : (ofInt t (a.toInt.tdiv b.toInt)).toInt = a.toInt.tdiv b.toInt :=
        toInt_ofInt_of_inRange hm.kind (Tag.inRange_tdiv hm.leftRange hm.rightRange hleast)
      rw [hremainder, hquotient]
      exact quotRem_tdiv hb

/-- A negative int divided by a dword is first converted to a dword. -/
theorem binary_div_mod_mixed :
    (ofInt .int (-7)).tag.isInteger = true ∧ (ofInt .dword 2).tag.isInteger = true ∧
    ∃ q r, binary .div (ofInt .int (-7)) (ofInt .dword 2) (.new 1) = .ok q (.new 1) ∧
      binary .mod (ofInt .int (-7)) (ofInt .dword 2) (.new 1) = .ok r (.new 1) ∧
      q.tag = .dword ∧ q.toInt = 2147483644 ∧ r.toInt = 1 := by
  have hl : (ofInt .int (-7)).tag.isInteger = true := rfl
  have hr : (ofInt .dword 2).tag.isInteger = true := rfl
  obtain ⟨t, a, b, hpromote, ha, hb, -, hdivide⟩ := binary_div_mod hl hr (by decide) (.new 1)
  obtain rfl : .dword = t := Option.some.inj hpromote
  obtain rfl : ofInt .dword (-7) = a := Except.ok.inj ha
  obtain rfl : ofInt .dword 2 = b := Except.ok.inj hb
  obtain ⟨q, r, hq, hmod, -, -, htag, -, -, hexact⟩ := hdivide (by decide)
  obtain ⟨hsum, hsmall, hsign⟩ := hexact (by decide)
  have hdividend : (ofInt .dword (-7)).toInt = 4294967289 := by decide
  have hdivisor : (ofInt .dword 2).toInt = 2 := by decide
  rw [hdividend] at hsum hsign
  rw [hdivisor] at hsum hsmall
  have hpos : r.toInt = 0 ∨ 0 < r.toInt :=
    hsign.imp_right fun hone => Int.sign_eq_one_iff_pos.mp hone
  exact ⟨hl, hr, q, r, hq, hmod, htag, by omega, by omega⟩

end Cell

end CellMachine
