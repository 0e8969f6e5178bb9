import CellMachine.Proofs.Operator.Integer

/-!
# CellMachine.Proofs.Operator.Promotion

Integers that meet in one tag. Before an operator is applied both operands are
converted to the higher-ranked of their tags. That tag has room for every integer
of the lower-ranked one, with one exception: a `dword` outranks an `int` but has no
negative integers, so a negative `int` becomes the dword with the same bytes.

* `exists_cast_of_promote` — a conversion to the common tag cannot fail;
* `Tag.wraps_operandInt` — the integer that it makes of an operand;
* `exists_meets` — operands of integer tags always meet, as these integers;
* `binary_of_meets` — an arithmetic operator is then applied to them;
* `arithmetic_refused` — operands that meet in no tag with arithmetic are refused.

Wrapping respects sums, differences and products. So an operator that first
converts both operands and then wraps its result computes with the integers that
the operands represent and wraps once (`binary_wraps`).
-/

namespace CellMachine

/-! ## the integer of an operand -/

namespace Tag

variable {t u v : Tag} {n : Int}

/-- The integer that an operand of tag `u` stands for beside one of tag `v`, if it represents `n`: a
negative `int` beside a `dword` stands for the dword with the same bytes, and every other operand
for what it represents. -/
def operandInt (u v : Tag) (n : Int) : Int :=
  if u = .int ∧ v = .dword ∧ n < 0 then n + 2 ^ 32 else n

theorem promote_comm (u v : Tag) : u.promote v = v.promote u := by
  cases u <;> cases v <;> rfl

/-- Tags that meet are the same or numeric. -/
theorem promote_eq_some (h : u.promote v = some t) :
    (u = t ∧ v = t) ∨ u.isNumeric = true ∧ v.isNumeric = true ∧ t.isNumeric = true := by
  by_cases huv : u = v
  · simp only [promote, huv, if_true, Option.some.injEq] at h
    exact .inl ⟨huv.trans h, h⟩
  · cases hu : u.rank? with
    | none => simp [promote, huv, hu] at h
    | some i =>
        cases hv : v.rank? with
        | none => simp [promote, huv, hu, hv] at h
        | some j =>
            rw [promote_of_rank? hu hv, Option.some.injEq] at h
            have hone : t = u ∨ t = v := by
              rw [← h]
              by_cases hle : i ≥ j <;> simp [hle]
            have hnumeric : t.isNumeric = true := by
              cases hone with
              | inl heq => simp [isNumeric, heq, hu]
              | inr heq => simp [isNumeric, heq, hv]
            exact .inr ⟨by simp [isNumeric, hu], by simp [isNumeric, hv], hnumeric⟩

/-- The common tag has room for both operands. -/
theorem inRange_operandInt (hu : u.isInteger = true) (hv : v.isInteger = true)
    (hpromote : u.promote v = some t) (hn : u.InRange n) : t.InRange (u.operandInt v n) := by
  -- every pair of integer tags has its own bounds
  cases u <;> simp only [isInteger, Bool.false_eq_true] at hu <;>
    cases v <;> simp only [isInteger, Bool.false_eq_true] at hv <;>
    simp [promote, rank?] at hpromote <;> subst hpromote <;>
    simp only [InRange, operandInt] at hn ⊢ <;> simp <;> omega

/-- A conversion to the common tag makes of an integer the one that the operand stands for. -/
theorem wraps_operandInt (hu : u.isInteger = true) (hv : v.isInteger = true)
    (hpromote : u.promote v = some t) (hn : u.InRange n) : t.Wraps n (u.operandInt v n) := by
  refine ⟨inRange_operandInt hu hv hpromote hn, ?_⟩
  by_cases hbytes : u = .int ∧ v = .dword ∧ n < 0
  · obtain ⟨rfl, rfl, hneg⟩ := hbytes
    obtain rfl : .dword = t := Option.some.inj hpromote
    simp [operandInt, hneg, width, Int.ModEq]
  · rw [operandInt, if_neg hbytes]

/-- No integer but zero becomes zero. -/
theorem operandInt_eq_zero_iff (hn : u.InRange n) : u.operandInt v n = 0 ↔ n = 0 := by
  by_cases hbytes : u = .int ∧ v = .dword ∧ n < 0
  · obtain ⟨rfl, rfl, hneg⟩ := hbytes
    simp only [InRange] at hn
    simp only [operandInt, hneg, and_self, if_true]
    omega
  · rw [operandInt, if_neg hbytes]

end Tag

/-! ## operands in their common tag -/

namespace Cell

variable {lhs rhs a b : Cell} {t : Tag}

theorem exists_cast_of_isNumeric {c : Cell} (hc : c.tag.isNumeric = true)
    (ht : t.isNumeric = true) : ∃ d, c.cast t = .ok d := by
  by_cases hsame : c.tag = t
  · exact ⟨c, by simp [cast, hsame]⟩
  · by_cases hptr : (c.tag.isPointerLike && t.isPointerLike) = true
    · exact ⟨_, by rw [cast, if_neg hsame, if_pos hptr]⟩
    · exact ⟨_, by rw [cast, if_neg hsame, if_neg hptr, if_pos (by simp [hc, ht])]⟩

/-- Operands that have a common tag can be converted to it. -/
theorem exists_cast_of_promote (hpromote : lhs.tag.promote rhs.tag = some t) :
    ∃ a b, lhs.cast t = .ok a ∧ rhs.cast t = .ok b := by
  cases Tag.promote_eq_some hpromote with
  | inl hsame => exact ⟨lhs, rhs, by simp [cast, hsame.1], by simp [cast, hsame.2]⟩
  | inr hnumeric =>
      obtain ⟨hl, hr, ht⟩ := hnumeric
      obtain ⟨a, ha⟩ := exists_cast_of_isNumeric hl ht
      obtain ⟨b, hb⟩ := exists_cast_of_isNumeric hr ht
      exact ⟨a, b, ha, hb⟩

/-- The operands meet in the tag `t` of integers, where they are the cells `a` and `b`. -/
structure Meets (lhs rhs : Cell) (t : Tag) (a b : Cell) : Prop where
  promote : lhs.tag.promote rhs.tag = some t
  kind : t.kind? = some .integer
  left : lhs.cast t = .ok a
  right : rhs.cast t = .ok b
  leftRange : t.InRange a.toInt
  rightRange : t.InRange b.toInt
  leftInt : a.toInt = lhs.tag.operandInt rhs.tag lhs.toInt
  rightInt : b.toInt = rhs.tag.operandInt lhs.tag rhs.toInt

/-- An operand is converted to the integer that it stands for. -/
theorem exists_cast_operandInt {c : Cell} {v : Tag} (hc : c.tag.isInteger = true)
    (hv : v.isInteger = true) (hpromote : c.tag.promote v = some t)
    (hkind : t.kind? = some .integer) :
    ∃ d, c.cast t = .ok d ∧ t.InRange d.toInt ∧ d.toInt = c.tag.operandInt v c.toInt := by
  obtain ⟨d, hcast, -, hwraps⟩ := wraps_cast hc hkind
  have hoperand := Tag.wraps_operandInt hc hv hpromote (inRange_toInt hc)
  exact ⟨d, hcast, hwraps.1, hwraps.unique hoperand⟩

/-- Cells of integer tags that are not both `bool` meet in a tag of integers. -/
theorem exists_meets (hl : lhs.tag.isInteger = true) (hr : rhs.tag.isInteger = true)
    (hbool : ¬ (lhs.tag = .bool ∧ rhs.tag = .bool)) : ∃ t a b, Meets lhs rhs t a b := by
  obtain ⟨t, hpromote, hone, -, -, hboth⟩ := Tag.promote_of_isInteger hl hr
  have hinteger : t.isInteger = true := by
    cases hone with
    | inl heq => exact heq ▸ hl
    | inr heq => exact heq ▸ hr
  have hkind := Tag.kind?_of_isInteger hinteger fun ht => hbool (hboth ht)
  have hswapped : rhs.tag.promote lhs.tag = some t := by rw [Tag.promote_comm, hpromote]
  obtain ⟨a, hleft, harange, ha⟩ := exists_cast_operandInt hl hr hpromote hkind
  obtain ⟨b, hright, hbrange, hb⟩ := exists_cast_operandInt hr hl hswapped hkind
  exact ⟨t, a, b, hpromote, hkind, hleft, hright, harange, hbrange, ha, hb⟩

theorem Meets.symm (hm : Meets lhs rhs t a b) : Meets rhs lhs t b a where
  promote := by rw [Tag.promote_comm, hm.promote]
  kind := hm.kind
  left := hm.right
  right := hm.left
  leftRange := hm.rightRange
  rightRange := hm.leftRange
  leftInt := hm.rightInt
  rightInt := hm.leftInt

/-- Where it meets the other, an operand is congruent to the integer that it represents. -/
theorem Meets.modEq (hm : Meets lhs rhs t a b) (hl : lhs.tag.isInteger = true)
    (hr : rhs.tag.isInteger = true) : a.toInt ≡ lhs.toInt [ZMOD 2 ^ (8 * t.width)] := by
  rw [hm.leftInt]
  exact (Tag.wraps_operandInt hl hr hm.promote (inRange_toInt hl)).2

/-- An operator is applied to the converted operands. -/
theorem arithmetic_of_arith? {op : ArithOp} {result : Except Fault Cell}
    (hpromote : lhs.tag.promote rhs.tag = some t) (ha : lhs.cast t = .ok a) (hb : rhs.cast t = .ok b)
    (hresult : arith? op t a b = some result) : arithmetic op lhs rhs = result := by
  simp only [arithmetic, hpromote, ha, hb, hresult, bind, Except.bind]

/-- Operands that do not meet in a tag with arithmetic are refused. -/
theorem arithmetic_refused {op : ArithOp}
    (hnone : ∀ t, lhs.tag.promote rhs.tag = some t → t.kind? = none) :
    arithmetic op lhs rhs = .error (.unsupportedOperation op.symbol lhs.tag rhs.tag) := by
  cases hpromote : lhs.tag.promote rhs.tag with
  | none => simp [arithmetic, hpromote, throw, throwThe, MonadExceptOf.throw]
  | some t =>
      obtain ⟨a, b, ha, hb⟩ := exists_cast_of_promote hpromote
      simp [arithmetic, hpromote, ha, hb, arith?, hnone t hpromote, bind, Except.bind, throw,
        throwThe, MonadExceptOf.throw]

/-- An arithmetic operator is applied to the integers of the converted operands, and what it gives
keeps its low-order bytes. -/
theorem binary_of_meets (hm : Meets lhs rhs t a b) (op : ArithOp) (h : Heap) :
    binary op lhs rhs h = HeapM.lift ((op.onInt a.toInt b.toInt).map (ofInt t)) h := by
  have htexts : ¬ (op = .add ∧ lhs.tag = .string ∧ rhs.tag = .string) := by
    intro ⟨_, hl, hr⟩
    have hpromote := hm.promote
    rw [hl, hr] at hpromote
    obtain rfl : .string = t := Option.some.inj hpromote
    exact absurd hm.kind (by decide)
  have hresult : arith? op t a b = some ((op.onInt a.toInt b.toInt).map (ofInt t)) := by
    rw [arith?, hm.kind]
  rw [binary, if_neg htexts, arithmetic_of_arith? hm.promote hm.left hm.right hresult]

end Cell

/-! ## sums, differences and products -/

/-- The operators that are defined for all integers, as operations on them. -/
def ArithOp.total? : ArithOp → Option (Int → Int → Int)
  | add => some (· + ·)
  | sub => some (· - ·)
  | mul => some (· * ·)
  | div | mod => none

theorem ArithOp.onInt_of_total? {op : ArithOp} {f : Int → Int → Int} (h : op.total? = some f)
    (a b : Int) : op.onInt a b = .ok (f a b) := by
  cases op <;> simp only [total?, Option.some.injEq, reduceCtorEq] at h <;> subst h <;> rfl

/-- Sums, differences and products of congruent integers are congruent. -/
theorem ArithOp.modEq_of_total? {op : ArithOp} {f : Int → Int → Int} (h : op.total? = some f)
    {a a' b b' n : Int} (ha : a ≡ a' [ZMOD n]) (hb : b ≡ b' [ZMOD n]) : f a b ≡ f a' b' [ZMOD n] := by
  cases op <;> simp only [total?, Option.some.injEq, reduceCtorEq] at h <;> subst h
  · exact ha.add hb
  · exact ha.sub hb
  · exact ha.mul hb

namespace Cell

/-- **Integer arithmetic is exact modulo the width of the result.** Two cells of integer tags that
are not both `bool` have a sum, a difference and a product. Its tag is the higher-ranked of theirs,
and it represents the one integer to which the exact result on the integers of the operands wraps. -/
theorem binary_wraps {op : ArithOp} {f : Int → Int → Int} (hop : op.total? = some f)
    {lhs rhs : Cell} (hl : lhs.tag.isInteger = true) (hr : rhs.tag.isInteger = true)
    (hbool : ¬ (lhs.tag = .bool ∧ rhs.tag = .bool)) (h : Heap) :
    ∃ c, binary op lhs rhs h = .ok c h ∧ c.WellFormed ∧
      (c.tag = lhs.tag ∨ c.tag = rhs.tag) ∧ c.tag.Outranks lhs.tag ∧ c.tag.Outranks rhs.tag ∧
      ∀ k, c.tag.Wraps (f lhs.toInt rhs.toInt) k ↔ k = c.toInt := by
  obtain ⟨t, a, b, hm⟩ := exists_meets hl hr hbool
  obtain ⟨u, hpromote, hone, houtl, houtr, -⟩ := Tag.promote_of_isInteger hl hr
  obtain rfl : u = t := Option.some.inj (hpromote.symm.trans hm.promote)
  -- both conversions have wrapped already, which the result does not show
  have hwraps : u.Wraps (f lhs.toInt rhs.toInt) (ofInt u (f a.toInt b.toInt)).toInt := by
    obtain ⟨hrange, hmod⟩ := wraps_ofInt hm.kind (f a.toInt b.toInt)
    exact ⟨hrange, hmod.trans (op.modEq_of_total? hop (hm.modEq hl hr) (hm.symm.modEq hr hl))⟩
  have hbinary : binary op lhs rhs h = .ok (ofInt u (f a.toInt b.toInt)) h := by
    rw [binary_of_meets hm, op.onInt_of_total? hop]
    rfl
  refine ⟨_, hbinary, wellFormed_ofInt u _, hone, houtl, houtr, fun k => ?_⟩
  constructor
  · intro hk
    exact hk.unique hwraps
  · intro hk
    exact hk ▸ hwraps

/-- The product of a negative int and a dword is a dword. -/
theorem binary_wraps_mixed :
    (ofInt .int (-2)).tag.isInteger = true ∧ (ofInt .dword 3).tag.isInteger = true ∧
    ∃ c, binary .mul (ofInt .int (-2)) (ofInt .dword 3) (.new 1) = .ok c (.new 1) ∧
      c.tag = .dword ∧ c.toInt = 4294967290 := by
  have hop : ArithOp.mul.total? = some (· * ·) := rfl
  have hl : (ofInt .int (-2)).tag.isInteger = true := rfl
  have hr : (ofInt .dword 3).tag.isInteger = true := rfl
  obtain ⟨c, hok, -, hone, -, houtr, hvalue⟩ := binary_wraps hop hl hr (by decide) (.new 1)
  have htag : c.tag = .dword := by
    cases hone with
    | inl hint =>
        obtain ⟨i, j, hi, hj, hle⟩ := houtr
        rw [hint] at hi
        obtain rfl : 3 = i := Option.some.inj hi
        obtain rfl : 4 = j := Option.some.inj hj
        contradiction
    | inr hdword => exact hdword
  refine ⟨hl, hr, c, hok, htag, ?_⟩
  have hwraps : c.tag.Wraps ((ofInt .int (-2)).toInt * (ofInt .dword 3).toInt) 4294967290 := by
    rw [htag]
    exact ⟨by simp [Tag.InRange], by decide⟩
  exact ((hvalue _).mp hwraps).symm

end Cell

end CellMachine
