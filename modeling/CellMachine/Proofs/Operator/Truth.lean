import CellMachine.Proofs.Command.Convention
import CellMachine.Proofs.Operator.Comparison
import Mathlib.Data.List.Forall2

/-!
# CellMachine.Proofs.Operator.Truth

Truth and sign of cells. Jumps and logical operators ask whether all bytes of a
cell are zero, comparisons convert their operands first, a conversion to `bool`
goes by the integer, and the test for numbers above zero is yet another one. For
cells of integer tags all of them ask the same of the integer that the cell
represents (`isZero_eq_decide`, `isPositive_of_isInteger`, `compare_zero`,
`exists_cast_bool`).

A `bool` may have any byte in place of 1. Whatever uses the cell first finds out
whether it is true, so that bools of one truth (`SameMeaning`) cannot be told apart
but by their bytes:

* `compare_eq`, `binary_eq`, `cast_eq` — by operators and conversions;
* `marshal_of_bool`, `hostRuns_congr` — by host commands, which receive the truth.
-/

namespace CellMachine

/-- A byte list spells zero exactly if all its bytes are zero. -/
theorem leNat_eq_zero_iff (bs : List UInt8) : leNat bs = 0 ↔ bs.all (· == 0) = true := by
  induction bs with
  | nil => simp [leNat]
  | cons b bs ih =>
      have hb : b.toNat = 0 ↔ b = 0 := by rw [← UInt8.toNat_inj]; rfl
      simp only [leNat, List.all_cons, Bool.and_eq_true, beq_iff_eq, ← ih, ← hb]
      omega

namespace Cell

variable {c d : Cell} {t : Tag} {h : Heap}

/-! ## truth and sign of integers -/

theorem isZero_iff (c : Cell) : c.isZero = true ↔ leNat c.bytes = 0 := (leNat_eq_zero_iff _).symm

theorem toInt_eq_zero_iff (hc : c.tag.isInteger = true) : c.toInt = 0 ↔ leNat c.bytes = 0 := by
  have hlt := leNat_lt c.bytes
  rw [length_bytes] at hlt
  unfold toInt
  cases htag : c.tag <;> simp only [htag, Tag.width, byteRange] at hlt hc ⊢
  case bool => split <;> omega
  case int => simp only [Int.bmod_def]; split <;> omega
  case dint => simp only [Int.bmod_def]; split <;> omega
  case byte => omega
  case word => omega
  case dword => omega
  all_goals contradiction

/-- The bytes of an integer are all zero exactly if it is zero. -/
theorem isZero_eq_decide (hc : c.tag.isInteger = true) : c.isZero = decide (c.toInt = 0) := by
  rw [Bool.eq_iff_iff, decide_eq_true_iff, isZero_iff, toInt_eq_zero_iff hc]

theorem isPositive_of_isInteger (hc : c.tag.isInteger = true) :
    c.isPositive = .ok (decide (0 < c.toInt)) := by
  by_cases hbool : c.tag = .bool
  · have hrange := inRange_toInt hc
    simp only [hbool, Tag.InRange] at hrange
    have hsign : (!decide (c.toInt = 0)) = decide (0 < c.toInt) := by
      rw [← decide_not, decide_eq_decide]
      omega
    rw [isPositive, if_pos hbool, isZero_eq_decide hc, hsign]
  · rw [isPositive, if_neg hbool, Tag.kind?_of_isInteger hc hbool]

/-- An integer is compared with zero as the integer that it represents. -/
theorem compare_zero (hc : c.tag.isInteger = true) (op : CompareOp) (h : Heap) :
    compare op c .zero h = .ok (op.onInt c.toInt 0) := by
  have hboth : ¬ (c.tag = .bool ∧ Cell.zero.tag = .bool) := fun ⟨_, hzero⟩ => by contradiction
  obtain ⟨t, a, b, hm⟩ := exists_meets hc (rfl : Cell.zero.tag.isInteger = true) hboth
  have hleft : a.toInt = c.toInt := by simp [hm.leftInt, Tag.operandInt, Cell.zero]
  have hright : b.toInt = 0 := by
    rw [hm.rightInt, Tag.operandInt_eq_zero_iff (inRange_toInt rfl)]
    rfl
  rw [compare_of_meets hm, hleft, hright]

/-! ## bools -/

theorem exists_bytes_of_bool (hc : c.tag = .bool) : ∃ b, c.bytes = [b] :=
  List.length_eq_one_iff.mp (by rw [length_bytes, hc]; rfl)

/-- A bool is read by its truth. -/
theorem toNative_of_bool (hc : c.tag = .bool) : c.toNative = !c.isZero := by
  obtain ⟨b, hb⟩ := exists_bytes_of_bool hc
  simp [toNative, isZero, hb, Native.ofPayload, Native.ofWord, payloadWidth, leNat, bne]

/-- An integer becomes true if it is not zero. -/
theorem exists_cast_bool (hc : c.tag.isInteger = true) :
    ∃ truth, c.cast .bool = .ok truth ∧ truth.tag = .bool ∧ truth.toNative = !c.isZero := by
  by_cases hbool : c.tag = .bool
  · exact ⟨c, by simp [cast, hbool], hbool, toNative_of_bool hbool⟩
  · have hnumeric : (c.tag.isNumeric && Tag.bool.isNumeric) = true := by
      rw [Tag.isNumeric_of_isInteger hc]
      rfl
    have hcast : c.cast .bool = .ok (ofNative (decide (c.toInt ≠ 0))) := by
      rw [cast, if_neg hbool, if_neg (by simp [Tag.isPointerLike]), if_pos hnumeric,
        scalar_of_isInteger hc]
      rfl
    have hread (x : Bool) : (ofNative x).toNative = x := by cases x <;> rfl
    exact ⟨_, hcast, rfl, by rw [hread, isZero_eq_decide hc, decide_not]⟩

/-- **One notion of truth and of sign.** For a cell of an integer tag, the test of its bytes for
zero, the comparison with the int 0 and the opposite of the bool that it converts to agree, whatever
the heap, and all of them tell whether the integer is zero. The test for numbers above zero agrees
with the comparison, and both tell whether the integer is above zero. -/
theorem truth_tests_agree (hc : c.tag.isInteger = true) (h : Heap) :
    c.isZero = decide (c.toInt = 0) ∧ compare .eq c .zero h = .ok c.isZero ∧
    (∃ truth, c.cast .bool = .ok truth ∧ truth.tag = .bool ∧ (!truth.toNative) = c.isZero) ∧
    c.isPositive = .ok (decide (0 < c.toInt)) ∧ compare .gt c .zero h = c.isPositive := by
  obtain ⟨truth, hcast, htag, hread⟩ := exists_cast_bool hc
  have hpositive := isPositive_of_isInteger hc
  refine ⟨isZero_eq_decide hc, ?_, ⟨truth, hcast, htag, by simp [hread]⟩, hpositive, ?_⟩
  · rw [compare_zero hc, isZero_eq_decide hc]
    rfl
  · rw [compare_zero hc, hpositive]
    rfl

/-- A dword with the highest bit set is above zero, and so is a bool with the byte 80. -/
theorem truth_tests_agree_high :
    (ofInt .dword 0x80000000).tag.isInteger = true ∧ (ofBytes .bool [0x80]).tag.isInteger = true ∧
    compare .eq (ofInt .dword 0x80000000) .zero (.new 1) = .ok false ∧
    compare .gt (ofInt .dword 0x80000000) .zero (.new 1) = .ok true ∧
    compare .eq (ofBytes .bool [0x80]) .zero (.new 1) = .ok false ∧
    compare .gt (ofBytes .bool [0x80]) .zero (.new 1) = .ok true := by
  have hdword : (ofInt .dword 0x80000000).tag.isInteger = true := rfl
  have hbool : (ofBytes .bool [0x80]).tag.isInteger = true := rfl
  obtain ⟨-, hequal, -, -, hgreater⟩ := truth_tests_agree hdword (.new 1)
  obtain ⟨-, hequal', -, -, hgreater'⟩ := truth_tests_agree hbool (.new 1)
  exact ⟨hdword, hbool, hequal, hgreater, hequal', hgreater'⟩

/-! ## bools of one truth -/

/-- The cells are the same, or bools that are both true or both false. -/
inductive SameMeaning : Cell → Cell → Prop
  | refl (c : Cell) : SameMeaning c c
  | bool {c d : Cell} (left : c.tag = .bool) (right : d.tag = .bool)
      (truth : c.isZero = d.isZero) : SameMeaning c d

namespace SameMeaning

variable {lhs lhs' rhs rhs' : Cell}

theorem tag_eq (hs : SameMeaning c d) : c.tag = d.tag := by
  cases hs with
  | refl => rfl
  | bool left right _ => rw [left, right]

theorem eq_of_ne (hs : SameMeaning c d) (htag : c.tag ≠ .bool) : c = d := by
  cases hs with
  | refl => rfl
  | bool left _ _ => contradiction

theorem symm (hs : SameMeaning c d) : SameMeaning d c := by
  cases hs with
  | refl => exact .refl c
  | bool left right truth => exact .bool right left truth.symm

theorem toInt_eq (hs : SameMeaning c d) : c.toInt = d.toInt := by
  cases hs with
  | refl => rfl
  | bool left right truth =>
      have hc : c.tag.isInteger = true := by rw [left]; rfl
      have hd : d.tag.isInteger = true := by rw [right]; rfl
      have hcrange := inRange_toInt hc
      have hdrange := inRange_toInt hd
      rw [left, Tag.InRange] at hcrange
      rw [right, Tag.InRange] at hdrange
      rw [isZero_eq_decide hc, isZero_eq_decide hd, decide_eq_decide] at truth
      omega

/-- Every conversion but the one that does nothing goes by the truth. -/
theorem cast_eq (hs : SameMeaning c d) (ht : t ≠ .bool) : c.cast t = d.cast t := by
  cases hs with
  | refl => rfl
  | bool left right truth =>
      have hscalar : c.scalar = d.scalar := by
        rw [scalar_of_isInteger (by rw [left]; rfl), scalar_of_isInteger (by rw [right]; rfl),
          (SameMeaning.bool left right truth).toInt_eq]
      simp [cast, left, right, ht.symm, Tag.isPointerLike, hscalar]

theorem textBytes_eq (hs : SameMeaning c d) (h : Heap) : c.textBytes h = d.textBytes h := by
  cases hs with
  | refl => rfl
  | bool left right _ =>
      simp [textBytes, expectPointer, left, right, Tag.isPointerLike, bind, Except.bind]

theorem isZero_eq (hs : SameMeaning c d) : c.isZero = d.isZero := by
  cases hs with
  | refl => rfl
  | bool _ _ truth => exact truth

theorem compare_eq (hl : SameMeaning lhs lhs') (hr : SameMeaning rhs rhs') (op : CompareOp)
    (h : Heap) : compare op lhs rhs h = compare op lhs' rhs' h := by
  cases hpromote : lhs'.tag.promote rhs'.tag with
  | none => simp only [compare, hl.tag_eq, hr.tag_eq, hpromote]
  | some t =>
      by_cases hbool : t = .bool
      · simp [compare, hl.tag_eq, hr.tag_eq, hpromote, hbool, hl.toInt_eq, hr.toInt_eq]
      · simp only [compare, hl.tag_eq, hr.tag_eq, hpromote, hl.textBytes_eq, hr.textBytes_eq,
          if_neg hbool, hl.cast_eq hbool, hr.cast_eq hbool]

/-- Two bools have no arithmetic, so that no operator sees a bool that is not converted. -/
theorem arithmetic_eq (hl : SameMeaning lhs lhs') (hr : SameMeaning rhs rhs') (op : ArithOp) :
    arithmetic op lhs rhs = arithmetic op lhs' rhs' := by
  cases hpromote : lhs'.tag.promote rhs'.tag with
  | none => simp only [arithmetic, hl.tag_eq, hr.tag_eq, hpromote]
  | some t =>
      by_cases hbool : t = .bool
      · subst hbool
        have hrefused : ∀ t, lhs'.tag.promote rhs'.tag = some t → t.kind? = none := by
          rintro t ht
          obtain rfl : .bool = t := Option.some.inj (hpromote.symm.trans ht)
          rfl
        have hrefused' : ∀ t, lhs.tag.promote rhs.tag = some t → t.kind? = none := by
          rwa [hl.tag_eq, hr.tag_eq]
        rw [arithmetic_refused hrefused, arithmetic_refused hrefused', hl.tag_eq, hr.tag_eq]
      · simp only [arithmetic, hl.tag_eq, hr.tag_eq, hpromote, hl.cast_eq hbool, hr.cast_eq hbool]

theorem binary_eq (hl : SameMeaning lhs lhs') (hr : SameMeaning rhs rhs') (op : ArithOp) :
    binary op lhs rhs = binary op lhs' rhs' := by
  by_cases htexts : op = .add ∧ lhs.tag = .string ∧ rhs.tag = .string
  · obtain rfl := hl.eq_of_ne (by rw [htexts.2.1]; decide)
    obtain rfl := hr.eq_of_ne (by rw [htexts.2.2]; decide)
    rfl
  · have htexts' : ¬ (op = .add ∧ lhs'.tag = .string ∧ rhs'.tag = .string) := by
      rwa [← hl.tag_eq, ← hr.tag_eq]
    rw [binary, binary, if_neg htexts, if_neg htexts', hl.arithmetic_eq hr]

theorem negate_eq (hs : SameMeaning c d) : c.negate = d.negate := by
  cases hs with
  | refl => rfl
  | bool left right _ => simp [negate, left, right, Tag.kind?]

theorem isPositive_eq (hs : SameMeaning c d) : c.isPositive = d.isPositive := by
  cases hs with
  | refl => rfl
  | bool left right truth => simp [isPositive, left, right, truth]

theorem display_eq (hs : SameMeaning c d) (h : Heap) : c.display h = d.display h := by
  cases hs with
  | refl => rfl
  | bool left right truth =>
      simp [display, left, right, toNative_of_bool left, toNative_of_bool right, truth]

end SameMeaning

end Cell

/-! ## bools as arguments -/

namespace Command

open Cell (SameMeaning)

variable {σ : Type} {name : String} {index : Nat} {p : Param} {c d : Cell} {rs rs' : Registers}
  {h : Heap}

/-- A parameter that takes bools receives the truth of one. -/
theorem marshal_of_bool (hp : p.tag = .bool ∨ p.tag = .any) (hc : c.tag = .bool) :
    marshal name index p c h = .ok (.bool (!c.isZero)) := by
  cases hp with
  | inl hp => simp [marshal, hc, hp, Value.ofCell?, Cell.toNative_of_bool hc]
  | inr hp => simp [marshal, hc, hp, Value.ofCell?, Cell.toNative_of_bool hc]

theorem marshal_congr (hs : SameMeaning c d) : marshal name index p c h = marshal name index p d h := by
  cases hs with
  | refl => rfl
  | bool left right truth =>
      simp [marshal, left, right, Value.ofCell?, Cell.toNative_of_bool left,
        Cell.toNative_of_bool right, truth]

/-- An argument is received for what it means, and so is the cell of a register that it refers to. -/
theorem argument_congr (hs : SameMeaning c d)
    (hregisters : ∀ r, SameMeaning (rs.load r) (rs'.load r)) :
    argument name index p c rs h = argument name index p d rs' h := by
  by_cases href : c.tag = .ptrReg
  · obtain rfl := hs.eq_of_ne (by rw [href]; decide)
    simp [argument, resolve, href, marshal_congr (hregisters _), bind, Except.bind]
  · cases hs with
    | refl => simp only [argument, resolve, if_neg href]
    | bool left right truth =>
        have hmarshal : marshal name index p c h = marshal name index p d h :=
          marshal_congr (.bool left right truth)
        simp [argument, resolve, left, right, hmarshal, bind, Except.bind]

theorem Receives.congr {ps : List Param} {ds ds' : List Cell} {taken : List (Value × Option Slot)}
    (hreceives : Receives name rs h index ps ds taken) (hcells : List.Forall₂ SameMeaning ds ds')
    (hregisters : ∀ r, SameMeaning (rs.load r) (rs'.load r)) :
    Receives name rs' h index ps ds' taken := by
  induction hreceives generalizing ds' with
  | nil =>
      cases hcells
      exact .nil _
  | cons harg _ ih =>
      cases hcells with
      | cons hs hrest => exact .cons (argument_congr hs hregisters ▸ harg) (ih hrest)

/-- The host's part of a command is run with the same values if the arguments and the registers mean
the same. -/
theorem hostRuns_congr (cmd : Command σ) {st st' : Store σ} {rest rest' : List UInt8}
    {cells cells' : List Cell} (hcells : ∀ d ∈ cells, d.WellFormed)
    (hcells' : ∀ d ∈ cells', d.WellFormed) (hcount : cells.length = cmd.params.length)
    (hstack : st.stack.toList = rest ++ Cell.encodeAll cells)
    (hstack' : st'.stack.toList = rest' ++ Cell.encodeAll cells')
    (hsame : List.Forall₂ SameMeaning cells cells')
    (hregisters : ∀ r, SameMeaning (st.registers.load r) (st'.registers.load r))
    (hheap : st.heap = st'.heap) : cmd.hostRuns st = cmd.hostRuns st' := by
  have houtcome := invoke_outcome cmd.recording
    ⟨st.stack, st.registers, st.heap, (st.world, [])⟩ hcells hcount hstack
  have houtcome' := invoke_outcome cmd.recording
    ⟨st'.stack, st'.registers, st'.heap, (st'.world, [])⟩ hcells' (hsame.length_eq ▸ hcount) hstack'
  by_cases hreceived :
      ∃ taken, Receives cmd.name st.registers st.heap 0 cmd.params cells taken
  · obtain ⟨taken, hreceives⟩ := hreceived
    have hreceives' := hreceives.congr hsame hregisters
    rw [hheap] at hreceives'
    rw [hostRuns, hostRuns, houtcome.world_of_receives hreceives,
      houtcome'.world_of_receives hreceives']
    rfl
  · have hnone : ¬ ∃ taken, Receives cmd.name st'.registers st'.heap 0 cmd.params cells' taken := by
      rintro ⟨taken, hreceives⟩
      have hback := hreceives.congr (hsame.flip.imp fun _ _ hs => hs.symm) fun r => (hregisters r).symm
      exact hreceived ⟨taken, hheap ▸ hback⟩
    rw [hostRuns, hostRuns, (houtcome.world_of_refused hreceived).1,
      (houtcome'.world_of_refused hnone).1]

end Command

/-! ## what can be told of a cell -/

namespace Cell

/-- Nothing but a conversion to `bool` or a look at the bytes tells `c` from `d` in a heap. -/
structure Indistinguishable (c d : Cell) (h : Heap) : Prop where
  compareLeft : ∀ op y, compare op c y h = compare op d y h
  compareRight : ∀ op y, compare op y c h = compare op y d h
  binaryLeft : ∀ op y, binary op c y h = binary op d y h
  binaryRight : ∀ op y, binary op y c h = binary op y d h
  negate : c.negate = d.negate
  isPositive : c.isPositive = d.isPositive
  isZero : c.isZero = d.isZero
  display : c.display h = d.display h
  cast : ∀ t, t ≠ .bool → c.cast t = d.cast t
  /-- A parameter receives the same for both, wherever the cell was found. -/
  marshal : ∀ name index p, Command.marshal name index p c h = Command.marshal name index p d h
  /-- A host command is run with the same values if the first cell is replaced by the second, in any
  of the arguments on the stack and in any of the registers. -/
  hostRuns : ∀ {σ : Type} (cmd : Command σ) (st st' : Store σ) (rest : List UInt8)
    (cells cells' : List Cell), (∀ e ∈ cells, e.WellFormed) → (∀ e ∈ cells', e.WellFormed) →
    cells.length = cmd.params.length →
    st.stack.toList = rest ++ encodeAll cells → st'.stack.toList = rest ++ encodeAll cells' →
    List.Forall₂ (fun e e' => e' = e ∨ e = c ∧ e' = d) cells cells' →
    (∀ r, st'.registers.load r = st.registers.load r ∨
      st.registers.load r = c ∧ st'.registers.load r = d) →
    st.heap = h → st'.heap = h → cmd.hostRuns st = cmd.hostRuns st'

theorem SameMeaning.of_replaced {e e' : Cell} (hs : SameMeaning c d)
    (hreplaced : e' = e ∨ e = c ∧ e' = d) : SameMeaning e e' := by
  rcases hreplaced with rfl | ⟨rfl, rfl⟩
  · exact .refl _
  · exact hs

theorem SameMeaning.indistinguishable (hs : SameMeaning c d) (h : Heap) :
    Indistinguishable c d h where
  compareLeft op y := hs.compare_eq (.refl y) op h
  compareRight op y := SameMeaning.compare_eq (.refl y) hs op h
  binaryLeft op y := by rw [hs.binary_eq (.refl y)]
  binaryRight op y := by rw [SameMeaning.binary_eq (.refl y) hs]
  negate := hs.negate_eq
  isPositive := hs.isPositive_eq
  isZero := hs.isZero_eq
  display := hs.display_eq h
  cast _ ht := hs.cast_eq ht
  marshal _ _ _ := Command.marshal_congr hs
  hostRuns cmd st st' rest cells cells' hcells hcells' hcount hstack hstack' hsame hregisters
      hheap hheap' :=
    cmd.hostRuns_congr hcells hcells' hcount hstack hstack'
      (hsame.imp fun _ _ hreplaced => hs.of_replaced hreplaced)
      (fun r => hs.of_replaced (hregisters r)) (hheap.trans hheap'.symm)

/-- **Every nonzero byte is true.** A bool with any byte but zero cannot be told from the one with
the byte 1, neither by operators nor by tests nor by host commands, which receive `true` for it. -/
theorem nonzero_bool_indistinguishable {b : UInt8} (hb : b ≠ 0) (h : Heap) :
    Indistinguishable (ofBytes .bool [b]) (ofBytes .bool [1]) h ∧
    ∀ name index (p : Param), p.tag = .bool ∨ p.tag = .any →
      Command.marshal name index p (ofBytes .bool [b]) h = .ok (.bool true) := by
  have htrue {a : UInt8} (ha : a ≠ 0) : (ofBytes .bool [a]).isZero = false := by
    have hbytes : (ofBytes .bool [a]).bytes = [a] := bytes_ofBytes .bool [a]
    simp [isZero, hbytes, ha]
  have hs : SameMeaning (ofBytes .bool [b]) (ofBytes .bool [1]) :=
    .bool rfl rfl ((htrue hb).trans (htrue (by decide)).symm)
  refine ⟨hs.indistinguishable h, fun name index p hp => ?_⟩
  rw [Command.marshal_of_bool hp rfl, htrue hb]
  rfl

/-- The bools with the bytes 80 and 1 are equal, and both are shown as true. -/
theorem nonzero_bool_indistinguishable_high :
    (0x80 : UInt8) ≠ 0 ∧
    compare .eq (ofBytes .bool [0x80]) (ofBytes .bool [1]) (.new 1) = .ok true ∧
    (ofBytes .bool [0x80]).display (.new 1) = "true" ∧
    Command.marshal "f" 0 { tag := .any } (ofBytes .bool [0x80]) (.new 1) = .ok (.bool true) := by
  have hb : (0x80 : UInt8) ≠ 0 := by decide
  obtain ⟨hsame, hreceived⟩ := nonzero_bool_indistinguishable hb (.new 1)
  refine ⟨hb, ?_, ?_, hreceived "f" 0 { tag := .any } (.inr rfl)⟩
  · rw [hsame.compareLeft]
    rfl
  · rw [hsame.display]
    rfl

end Cell

end CellMachine
