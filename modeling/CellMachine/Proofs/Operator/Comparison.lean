import CellMachine.Proofs.Operator.Concat
import CellMachine.Proofs.Operator.Promotion

/-!
# CellMachine.Proofs.Operator.Comparison

The six comparisons of two cells. The tags decide what can be said of the cells:
they are in order, and every operator tells it; or they can only be told equal or
different; or no operator applies. `Compares` has one case for each, and `compares`
says that there are no others, so the answers of the operators always fit together.

* `compare_of_meets` — integers are compared in the tag they meet in;
* `compare_of_text` — texts are compared by the bytes of their blocks;
* `exists_pointsTo_of_spells` — a block of whole slots holds nothing but its text.
-/

namespace CellMachine

/-! ## operators on integers -/

namespace CompareOp

/-- What an operator says of two integers. -/
def Relates : CompareOp → Int → Int → Prop
  | gt, a, b => a > b
  | gte, a, b => a ≥ b
  | lt, a, b => a < b
  | lte, a, b => a ≤ b
  | eq, a, b => a = b
  | neq, a, b => a ≠ b

instance (op : CompareOp) (a b : Int) : Decidable (op.Relates a b) :=
  match op with
  | gt => inferInstanceAs (Decidable (a > b))
  | gte => inferInstanceAs (Decidable (a ≥ b))
  | lt => inferInstanceAs (Decidable (a < b))
  | lte => inferInstanceAs (Decidable (a ≤ b))
  | eq => inferInstanceAs (Decidable (a = b))
  | neq => inferInstanceAs (Decidable (a ≠ b))

/-- What an operator answers from the two strict orders and equality is what it says. -/
theorem onInt_eq_decide (op : CompareOp) (a b : Int) : op.onInt a b = decide (op.Relates a b) := by
  rw [Bool.eq_iff_iff, decide_eq_true_iff]
  cases op <;> simp [onInt, holds, Relates] <;> omega

end CompareOp

namespace Cell

variable {lhs rhs a b : Cell} {t : Tag} {h : Heap} {op : CompareOp}

/-! ## numbers -/

/-- Numbers of one tag are in order. -/
theorem exists_holds_of_kind? {kind : NumberKind} (hkind : t.kind? = some kind) (a b : Cell) :
    ∃ less greater equal, ∀ op, compareNumbers? op t a b = some (op.holds less greater equal) := by
  cases kind with
  | integer => exact ⟨_, _, _, fun op => by rw [compareNumbers?, hkind]; rfl⟩
  | single => exact ⟨_, _, _, fun op => by rw [compareNumbers?, hkind]⟩
  | double => exact ⟨_, _, _, fun op => by rw [compareNumbers?, hkind]⟩

theorem compare_of_numbers {answer : Bool} (hpromote : lhs.tag.promote rhs.tag = some t)
    (ha : lhs.cast t = .ok a) (hb : rhs.cast t = .ok b)
    (hnumbers : compareNumbers? op t a b = some answer) : compare op lhs rhs h = .ok answer := by
  have hbool : t ≠ .bool := by
    intro heq
    simp [heq, compareNumbers?, Tag.kind?] at hnumbers
  have hstring : t ≠ .string := by
    intro heq
    simp [heq, compareNumbers?, Tag.kind?] at hnumbers
  simp [compare, hpromote, hbool, hstring, ha, hb, hnumbers, bind, Except.bind, pure, Except.pure]

theorem compare_of_bool (hpromote : lhs.tag.promote rhs.tag = some .bool) (op : CompareOp) :
    compare op lhs rhs h = .ok (op.onInt lhs.toInt rhs.toInt) := by
  simp [compare, hpromote, pure, Except.pure]

/-- Integers are compared in the tag they meet in. -/
theorem compare_of_meets (hm : Meets lhs rhs t a b) (op : CompareOp) (h : Heap) :
    compare op lhs rhs h = .ok (op.onInt a.toInt b.toInt) :=
  compare_of_numbers hm.promote hm.left hm.right (by rw [compareNumbers?, hm.kind])

/-- **Comparison of integers.** Two cells of integer tags can always be compared. The answer is that
of the comparison of the integers that they represent; only a negative `int` beside a `dword` is
compared as itself plus `2 ^ 32`. -/
theorem compare_integers (op : CompareOp) (hl : lhs.tag.isInteger = true)
    (hr : rhs.tag.isInteger = true) (h : Heap) :
    compare op lhs rhs h = .ok (decide (op.Relates (lhs.tag.operandInt rhs.tag lhs.toInt)
      (rhs.tag.operandInt lhs.tag rhs.toInt))) := by
  rw [← CompareOp.onInt_eq_decide]
  by_cases hbool : lhs.tag = .bool ∧ rhs.tag = .bool
  · have hpromote : lhs.tag.promote rhs.tag = some .bool := by rw [hbool.1, hbool.2]; rfl
    simp [compare_of_bool hpromote, Tag.operandInt, hbool.1, hbool.2]
  · obtain ⟨t, a, b, hm⟩ := exists_meets hl hr hbool
    rw [compare_of_meets hm, hm.leftInt, hm.rightInt]

/-- As an operand beside a dword, the int -1 is the greatest of all. -/
theorem compare_integers_negative :
    (ofInt .int (-1)).tag.isInteger = true ∧ (ofInt .dword 5).tag.isInteger = true ∧
    compare .gt (ofInt .int (-1)) (ofInt .dword 5) (.new 1) = .ok true := by
  have hl : (ofInt .int (-1)).tag.isInteger = true := rfl
  have hr : (ofInt .dword 5).tag.isInteger = true := rfl
  have hanswer : CompareOp.gt.Relates
      (Tag.operandInt .int .dword (ofInt .int (-1)).toInt)
      (Tag.operandInt .dword .int (ofInt .dword 5).toInt) := by decide
  refine ⟨hl, hr, ?_⟩
  rw [compare_integers .gt hl hr, Except.ok.injEq, decide_eq_true_iff]
  exact hanswer

/-! ## texts and bytes -/

/-- Whether the blocks that two cells point to hold the same bytes. -/
def sameBytes (lhs rhs : Cell) (h : Heap) : Except Fault Bool := do
  let lbytes ← lhs.textBytes h
  let rbytes ← rhs.textBytes h
  return lbytes == rbytes

/-- Texts are compared by the bytes of their blocks. -/
theorem compare_of_text (hpromote : lhs.tag.promote rhs.tag = some .string)
    (hop : op.isEquality = true) :
    compare op lhs rhs h = (sameBytes lhs rhs h).map (op.holds false false) := by
  simp only [compare, hpromote, hop, and_self, if_true, sameBytes]
  cases lhs.textBytes h with
  | error e => rfl
  | ok lbytes => cases rhs.textBytes h <;> rfl

theorem compare_of_bytes (hpromote : lhs.tag.promote rhs.tag = some t) (ha : lhs.cast t = .ok a)
    (hb : rhs.cast t = .ok b) (hbool : t ≠ .bool) (hstring : t ≠ .string) (hkind : t.kind? = none)
    (hop : op.isEquality = true) :
    compare op lhs rhs h = .ok (op.holds false false (a.bytes == b.bytes)) := by
  simp [compare, hpromote, hbool, hstring, ha, hb, compareNumbers?, hkind, hop, bind, Except.bind,
    pure, Except.pure]

/-- What has no number is not in order. -/
theorem compare_refused (hpromote : lhs.tag.promote rhs.tag = some t) (ha : lhs.cast t = .ok a)
    (hb : rhs.cast t = .ok b) (hbool : t ≠ .bool) (hkind : t.kind? = none)
    (hop : op.isEquality = false) :
    compare op lhs rhs h = .error (.unsupportedOperation op.symbol lhs.tag rhs.tag) := by
  simp [compare, hpromote, hbool, ha, hb, compareNumbers?, hkind, hop, bind, Except.bind, throw,
    throwThe, MonadExceptOf.throw]

/-! ## all operators at once -/

/-- What can come of a comparison of two cells. -/
inductive Compares (lhs rhs : Cell) (h : Heap) : Prop
  /-- The cells are in order, and every operator tells it. -/
  | ordered (less greater equal : Bool)
      (answer : ∀ op, compare op lhs rhs h = .ok (op.holds less greater equal))
  /-- The cells can only be told equal or different, unless finding that out fails. -/
  | matched (equal : Except Fault Bool)
      (answer : ∀ op, op.isEquality = true →
        compare op lhs rhs h = equal.map (op.holds false false))
      (refusal : ∀ op, op.isEquality = false →
        compare op lhs rhs h = .error (.unsupportedOperation op.symbol lhs.tag rhs.tag))
  /-- No operator applies. -/
  | unrelated
      (refusal : ∀ op,
        compare op lhs rhs h = .error (.unsupportedOperation op.symbol lhs.tag rhs.tag))

theorem compares (lhs rhs : Cell) (h : Heap) : Compares lhs rhs h := by
  cases hpromote : lhs.tag.promote rhs.tag with
  | none =>
      exact .unrelated fun op => by
        simp [compare, hpromote, throw, throwThe, MonadExceptOf.throw]
  | some t =>
      by_cases hbool : t = .bool
      · exact .ordered _ _ _ (compare_of_bool (hbool ▸ hpromote))
      -- both conversions succeed, so what is left to decide is whether the common tag has numbers
      obtain ⟨a, b, ha, hb⟩ := exists_cast_of_promote hpromote
      cases hkind : t.kind? with
      | some kind =>
          obtain ⟨less, greater, equal, hnumbers⟩ := exists_holds_of_kind? hkind a b
          exact .ordered less greater equal fun op =>
            compare_of_numbers hpromote ha hb (hnumbers op)
      | none =>
          have hrefused (op : CompareOp) (hop : op.isEquality = false) :=
            compare_refused (h := h) hpromote ha hb hbool hkind hop
          by_cases hstring : t = .string
          · exact .matched _ (fun op => compare_of_text (hstring ▸ hpromote)) hrefused
          · exact .matched (.ok (a.bytes == b.bytes))
              (fun op => compare_of_bytes hpromote ha hb hbool hstring hkind) hrefused

/-- **The six comparisons fit together**, whatever the cells and the heap. Equality and its opposite
both answer, and differently, or both fail, with the same fault or each with the one that names its
own operator. The four order relations all answer or all fail. If they answer, so does equality, and
the weak relations are the strict ones or equality. -/
theorem compare_coherent (lhs rhs : Cell) (h : Heap) :
    ((∃ equal, compare .eq lhs rhs h = .ok equal ∧ compare .neq lhs rhs h = .ok (!equal)) ∨
      (∃ e, compare .eq lhs rhs h = .error e ∧ compare .neq lhs rhs h = .error e) ∨
      ∀ op, op.isEquality = true →
        compare op lhs rhs h = .error (.unsupportedOperation op.symbol lhs.tag rhs.tag)) ∧
    ((∃ less greater equal, compare .gt lhs rhs h = .ok greater ∧
        compare .gte lhs rhs h = .ok (greater || equal) ∧ compare .lt lhs rhs h = .ok less ∧
        compare .lte lhs rhs h = .ok (less || equal) ∧ compare .eq lhs rhs h = .ok equal) ∨
      ∀ op, op.isEquality = false →
        compare op lhs rhs h = .error (.unsupportedOperation op.symbol lhs.tag rhs.tag)) := by
  cases compares lhs rhs h with
  | ordered less greater equal answer =>
      exact ⟨.inl ⟨equal, answer .eq, answer .neq⟩, .inl ⟨less, greater, equal, answer .gt,
        answer .gte, answer .lt, answer .lte, answer .eq⟩⟩
  | matched equal answer refusal =>
      have heq := answer .eq rfl
      have hneq := answer .neq rfl
      cases equal with
      | ok equal => exact ⟨.inl ⟨equal, heq, hneq⟩, .inr refusal⟩
      | error e => exact ⟨.inr (.inl ⟨e, heq, hneq⟩), .inr refusal⟩
  | unrelated refusal =>
      exact ⟨.inr (.inr fun op _ => refusal op), .inr fun op _ => refusal op⟩

/-! ## the texts of blocks -/

/-- The cell holds the address of a live block of whole slots, and the block reads as the text. -/
def Spells (c : Cell) (h : Heap) (text : String) : Prop :=
  ∃ ptr len : Nat, c.toInt = ptr ∧ h.live[ptr]? = some len ∧ Text.slotWidth ∣ len ∧
    h.readText ptr = .ok text

/-- A block of whole slots holds the slots of its text and nothing else. -/
theorem exists_pointsTo_of_spells {c : Cell} {text : String} (hc : c.Spells h text) :
    ∃ ptr, c.PointsTo h ptr (Text.encode text) := by
  obtain ⟨ptr, len, hptr, hlive, hwhole, hread⟩ := hc
  obtain ⟨bytes, hblock, hdecode⟩ := Heap.readText_eq_ok hread
  have hlength := Heap.live_of_readBlock hblock
  obtain rfl : bytes.length = len := Option.some.inj (hlength.symm.trans hlive)
  have hslots : Text.encode text = bytes := by
    rw [Text.decode?_eq_some_iff.mp hdecode, Text.padded_eq_of_dvd hwhole]
  exact ⟨ptr, hptr, by rw [hslots, hlive], by rw [hslots, hblock]⟩

theorem textBytes_of_pointsTo {c : Cell} {ptr : Nat} {bytes : List UInt8}
    (hc : c.tag.isPointerLike = true) (hp : c.PointsTo h ptr bytes) :
    c.textBytes h = .ok bytes := by
  have hptr := (expectPointer_eq_ok_iff hc).mpr hp.toInt
  simp [textBytes, hptr, hp.readBlock, bind, Except.bind]

theorem isLive_of_textBytes {c : Cell} {bytes : List UInt8} (hc : c.tag.isPointerLike = true)
    (hbytes : c.textBytes h = .ok bytes) : c.IsLive h := by
  obtain ⟨ptr, hptr, hblock⟩ := bind_eq_ok hbytes
  obtain ⟨len, hlen, -⟩ := bind_eq_ok hblock
  exact (isLive_iff hc).mpr ⟨ptr, len, hptr, hlen⟩

/-- Blocks of whole slots hold the same bytes exactly if they read as the same text. -/
theorem sameBytes_of_spells {u v : String} (hl : lhs.tag.isPointerLike = true)
    (hr : rhs.tag.isPointerLike = true) (hu : lhs.Spells h u) (hv : rhs.Spells h v) :
    sameBytes lhs rhs h = .ok (decide (u = v)) := by
  obtain ⟨p, hp⟩ := exists_pointsTo_of_spells hu
  obtain ⟨q, hq⟩ := exists_pointsTo_of_spells hv
  have hequal : (Text.encode u == Text.encode v) = decide (u = v) := by
    rw [Bool.eq_iff_iff, beq_iff_eq, decide_eq_true_iff, Text.encode_inj]
  simp only [sameBytes, textBytes_of_pointsTo hl hp, textBytes_of_pointsTo hr hq, hequal, bind,
    Except.bind, pure, Except.pure]

theorem sameBytes_of_not_isLive (hl : lhs.tag.isPointerLike = true)
    (hr : rhs.tag.isPointerLike = true) (hdead : ¬ (lhs.IsLive h ∧ rhs.IsLive h)) :
    ∃ e, sameBytes lhs rhs h = .error e := by
  cases hlbytes : lhs.textBytes h with
  | error e => exact ⟨e, by simp only [sameBytes, hlbytes, bind, Except.bind]⟩
  | ok lbytes =>
      cases hrbytes : rhs.textBytes h with
      | error e => exact ⟨e, by simp only [sameBytes, hlbytes, hrbytes, bind, Except.bind]⟩
      | ok rbytes =>
          exact absurd ⟨isLive_of_textBytes hl hlbytes, isLive_of_textBytes hr hrbytes⟩ hdead

/-- **Equality of texts.** Cells that point to live blocks of whole slots are told equal exactly if
the blocks read as the same text, wherever they lie. If either cell does not hold the address of a
live block, both operators fail. -/
theorem compare_texts (hl : lhs.tag = .string) (hr : rhs.tag = .string) (h : Heap) :
    (∀ u v, lhs.Spells h u → rhs.Spells h v →
      compare .eq lhs rhs h = .ok (decide (u = v)) ∧
      compare .neq lhs rhs h = .ok (!decide (u = v))) ∧
    (¬ (lhs.IsLive h ∧ rhs.IsLive h) →
      ∃ e, compare .eq lhs rhs h = .error e ∧ compare .neq lhs rhs h = .error e) := by
  have hpromote : lhs.tag.promote rhs.tag = some .string := by rw [hl, hr]; rfl
  have hllike : lhs.tag.isPointerLike = true := by rw [hl]; rfl
  have hrlike : rhs.tag.isPointerLike = true := by rw [hr]; rfl
  rw [compare_of_text hpromote rfl, compare_of_text hpromote rfl]
  constructor
  · intro u v hu hv
    rw [sameBytes_of_spells hllike hrlike hu hv]
    exact ⟨rfl, rfl⟩
  · intro hdead
    obtain ⟨e, he⟩ := sameBytes_of_not_isLive hllike hrlike hdead
    exact ⟨e, by rw [he]; rfl, by rw [he]; rfl⟩

/-- A heap with the text "ab" in two blocks, and a text that differs from it behind them. -/
def textHeap : Heap :=
  (Heap.new 1).afterAll [.allocateText "ab", .allocateText "ab", .allocateText "ba"]

/-- Two blocks with one text, and a block with another one. -/
theorem compare_texts_apart :
    (ofInt .string 0).tag = .string ∧ (ofInt .string 0).Spells textHeap "ab" ∧
    (ofInt .string 8).Spells textHeap "ab" ∧ (ofInt .string 16).Spells textHeap "ba" ∧
    ¬ (ofInt .string (-1)).IsLive textHeap ∧
    compare .eq (ofInt .string 0) (ofInt .string 8) textHeap = .ok true ∧
    compare .eq (ofInt .string 0) (ofInt .string 16) textHeap = .ok false ∧
    ∃ e, compare .eq (ofInt .string 0) (ofInt .string (-1)) textHeap = .error e := by
  have hfirst : (ofInt .string 0).Spells textHeap "ab" :=
    ⟨0, 8, by decide, by decide, by decide, Heap.readText_of_readBlock rfl⟩
  have hsecond : (ofInt .string 8).Spells textHeap "ab" :=
    ⟨8, 8, by decide, by decide, by decide, Heap.readText_of_readBlock rfl⟩
  have hthird : (ofInt .string 16).Spells textHeap "ba" :=
    ⟨16, 8, by decide, by decide, by decide, Heap.readText_of_readBlock rfl⟩
  have hdead : ¬ (ofInt .string (-1)).IsLive textHeap := by
    intro ⟨ptr, hptr, _⟩
    have hneg : (ofInt .string (-1)).toInt = -1 := by decide
    omega
  have htag (n : Int) : (ofInt .string n).tag = .string := rfl
  have hsame := ((compare_texts (htag 0) (htag 8) textHeap).1 _ _ hfirst hsecond).1
  have hother := ((compare_texts (htag 0) (htag 16) textHeap).1 _ _ hfirst hthird).1
  have hneither : ¬ ((ofInt .string 0).IsLive textHeap ∧ (ofInt .string (-1)).IsLive textHeap) :=
    fun hlive => hdead hlive.2
  obtain ⟨e, hfails, -⟩ := (compare_texts (htag 0) (htag (-1)) textHeap).2 hneither
  exact ⟨htag 0, hfirst, hsecond, hthird, hdead, hsame, hother, e, hfails⟩

end Cell

end CellMachine
