import CellMachine.Proofs.Operator.Promotion

/-!
# CellMachine.Proofs.Operator.Commutation

Sums and products with the operands exchanged. The tag in which two operands meet
does not depend on their order, and neither does what each of them is converted to.
What is left is that the operation itself commutes in every kind of arithmetic. It
does for floats too: the exact result is rounded once, and a result that is not a
number has one bit pattern, whatever the bits of the operands.

* `Binary32.add_comm`, `Binary64.add_comm` and the same for `mul` — floats;
* `arith?_comm` — cells of one tag, of any kind.
-/

namespace CellMachine

/-! ## floats -/

namespace Binary

open Float.Model (UnpackedFloat)

theorem sign_mul_comm (s t : UnpackedFloat.Sign) : s * t = t * s := by
  cases s <;> cases t <;> rfl

/-- Numbers are added as multiples of a power of two that divides both. -/
theorem unpacked_add_finite (f : Float.Model.Format) {s t : UnpackedFloat.Sign} {m n : Nat}
    {e k : Int} (hm : 0 < m) (hn : 0 < n) :
    UnpackedFloat.add f (.finite s m e hm) (.finite t n k hn) =
      UnpackedFloat.normalize f
        (s.apply (UnpackedFloat.decreaseExponent m e (min e k)).1 +
          t.apply (UnpackedFloat.decreaseExponent n k (min e k)).1) (min e k) .positive := rfl

theorem unpacked_add_comm (f : Float.Model.Format) (x y : UnpackedFloat) :
    UnpackedFloat.add f x y = UnpackedFloat.add f y x := by
  cases x with
  | notANumber => cases y <;> rfl
  | infinity s =>
      cases y with
      | infinity t => cases s <;> cases t <;> rfl
      | _ => rfl
  | zero s =>
      cases y with
      | zero t => cases s <;> cases t <;> rfl
      | _ => rfl
  | finite s m e hm =>
      cases y with
      | finite t n k hn =>
          rw [unpacked_add_finite, unpacked_add_finite, Int.min_comm e k, Int.add_comm]
      | _ => rfl

/-- Numbers are multiplied exactly and rounded once. -/
theorem unpacked_mul_finite (f : Float.Model.Format) {s t : UnpackedFloat.Sign} {m n : Nat}
    {e k : Int} (hm : 0 < m) (hn : 0 < n) :
    UnpackedFloat.mul f (.finite s m e hm) (.finite t n k hn) =
      UnpackedFloat.roundWithAccuracy f (s * t) (m * n) (e + k) .exact := rfl

theorem unpacked_mul_comm (f : Float.Model.Format) (x y : UnpackedFloat) :
    UnpackedFloat.mul f x y = UnpackedFloat.mul f y x := by
  cases x with
  | notANumber => cases y <;> rfl
  | infinity s =>
      cases y with
      | infinity t => exact congrArg UnpackedFloat.infinity (sign_mul_comm s t)
      | finite t n k hn => exact congrArg UnpackedFloat.infinity (sign_mul_comm s t)
      | _ => rfl
  | zero s =>
      cases y with
      | zero t => exact congrArg UnpackedFloat.zero (sign_mul_comm s t)
      | finite t n k hn => exact congrArg UnpackedFloat.zero (sign_mul_comm s t)
      | _ => rfl
  | finite s m e hm =>
      cases y with
      | notANumber => rfl
      | infinity t => exact congrArg UnpackedFloat.infinity (sign_mul_comm s t)
      | zero t => exact congrArg UnpackedFloat.zero (sign_mul_comm s t)
      | finite t n k hn =>
          rw [unpacked_mul_finite, unpacked_mul_finite, sign_mul_comm s, Nat.mul_comm m,
            Int.add_comm e]

end Binary

namespace Binary32

theorem add_comm (x y : Binary32) : x.add y = y.add x :=
  congrArg (fun z => mk (Float32.Model.pack z).toBits) (Binary.unpacked_add_comm ..)

theorem mul_comm (x y : Binary32) : x.mul y = y.mul x :=
  congrArg (fun z => mk (Float32.Model.pack z).toBits) (Binary.unpacked_mul_comm ..)

end Binary32

namespace Binary64

theorem add_comm (x y : Binary64) : x.add y = y.add x :=
  congrArg (fun z => mk (Float.Model.pack z).toBits) (Binary.unpacked_add_comm ..)

theorem mul_comm (x y : Binary64) : x.mul y = y.mul x :=
  congrArg (fun z => mk (Float.Model.pack z).toBits) (Binary.unpacked_mul_comm ..)

end Binary64

/-! ## operators -/

namespace ArithOp

/-- The operators whose operands can be exchanged. -/
def isCommutative : ArithOp → Bool
  | add | mul => true
  | sub | div | mod => false

variable {op : ArithOp}

theorem onInt_comm (hop : op.isCommutative = true) (a b : Int) : op.onInt a b = op.onInt b a := by
  cases op <;> simp_all [isCommutative, onInt, Int.add_comm, Int.mul_comm]

theorem onBinary32_comm (hop : op.isCommutative = true) (x y : Binary32) :
    op.onBinary32 x y = op.onBinary32 y x := by
  cases op with
  | add => exact x.add_comm y
  | mul => exact x.mul_comm y
  | _ => contradiction

theorem onBinary64_comm (hop : op.isCommutative = true) (x y : Binary64) :
    op.onBinary64 x y = op.onBinary64 y x := by
  cases op with
  | add => exact x.add_comm y
  | mul => exact x.mul_comm y
  | _ => contradiction

end ArithOp

namespace Cell

variable {op : ArithOp} {lhs rhs : Cell} {t : Tag}

theorem arith?_comm (hop : op.isCommutative = true) (t : Tag) (a b : Cell) :
    arith? op t a b = arith? op t b a := by
  simp only [arith?]
  rw [op.onInt_comm hop a.toInt, op.onBinary32_comm hop a.toNative, op.onBinary64_comm hop a.toNative]

/-- Numbers of one tag always have a sum and a product, which has that tag. -/
theorem exists_arith?_of_kind? {kind : NumberKind} (hop : op.isCommutative = true)
    (hkind : t.kind? = some kind) (a b : Cell) :
    ∃ c, arith? op t a b = some (.ok c) ∧ c.tag = t := by
  cases kind with
  | integer =>
      have htotal : ∃ n, op.onInt a.toInt b.toInt = .ok n := by
        cases op with
        | add => exact ⟨_, rfl⟩
        | mul => exact ⟨_, rfl⟩
        | _ => contradiction
      obtain ⟨n, hn⟩ := htotal
      exact ⟨ofInt t n, by rw [arith?, hkind, hn]; rfl, rfl⟩
  | single =>
      obtain rfl : t = .real := by cases t <;> simp_all [Tag.kind?]
      exact ⟨_, rfl, rfl⟩
  | double =>
      obtain rfl : t = .dfloat := by cases t <;> simp_all [Tag.kind?]
      exact ⟨_, rfl, rfl⟩

/-- **Sums and products commute**, whatever the cells are, as long as they are not two texts to be
added, and the heap stays as it is. If the operands meet in a tag with arithmetic, there is a result
of this tag, the same cell for both orders of the operands. Otherwise both orders are refused, with
faults that name the tags in the order of the operands. -/
theorem binary_comm (hop : op = .add ∨ op = .mul)
    (htexts : ¬ (op = .add ∧ lhs.tag = .string ∧ rhs.tag = .string)) (h : Heap) :
    (∃ t kind c, lhs.tag.promote rhs.tag = some t ∧ t.kind? = some kind ∧ c.tag = t ∧
      binary op lhs rhs h = .ok c h ∧ binary op rhs lhs h = .ok c h) ∨
    ((∀ t, lhs.tag.promote rhs.tag = some t → t.kind? = none) ∧
      binary op lhs rhs h = .error (.unsupportedOperation op.symbol lhs.tag rhs.tag) h ∧
      binary op rhs lhs h = .error (.unsupportedOperation op.symbol rhs.tag lhs.tag) h) := by
  have hcomm : op.isCommutative = true := by cases hop <;> subst op <;> rfl
  have hswapped : ¬ (op = .add ∧ rhs.tag = .string ∧ lhs.tag = .string) :=
    fun ⟨hadd, hr, hl⟩ => htexts ⟨hadd, hl, hr⟩
  rw [binary, binary, if_neg htexts, if_neg hswapped]
  by_cases hnumbers : ∃ t kind, lhs.tag.promote rhs.tag = some t ∧ t.kind? = some kind
  · obtain ⟨t, kind, hpromote, hkind⟩ := hnumbers
    have hpromote' : rhs.tag.promote lhs.tag = some t := by rw [Tag.promote_comm, hpromote]
    obtain ⟨a, b, ha, hb⟩ := exists_cast_of_promote hpromote
    obtain ⟨c, hresult, htag⟩ := exists_arith?_of_kind? hcomm hkind a b
    have hresult' : arith? op t b a = some (.ok c) := by rw [arith?_comm hcomm, hresult]
    rw [arithmetic_of_arith? hpromote ha hb hresult, arithmetic_of_arith? hpromote' hb ha hresult']
    exact .inl ⟨t, kind, c, hpromote, hkind, htag, rfl, rfl⟩
  · have hnone : ∀ t, lhs.tag.promote rhs.tag = some t → t.kind? = none := by
      intro t hpromote
      cases hkind : t.kind? with
      | none => rfl
      | some kind => exact absurd ⟨t, kind, hpromote, hkind⟩ hnumbers
    have hnone' : ∀ t, rhs.tag.promote lhs.tag = some t → t.kind? = none := by
      rwa [Tag.promote_comm]
    rw [arithmetic_refused hnone, arithmetic_refused hnone']
    exact .inr ⟨hnone, rfl, rfl⟩

/-- One and a half and an int have a sum as reals; a text and an int have no product. -/
theorem binary_comm_mixed :
    (∃ c, c.tag = .real ∧
      binary .add (ofNative (⟨0x3FC00000⟩ : Binary32)) (ofInt .int (-2)) (.new 1) = .ok c (.new 1) ∧
      binary .add (ofInt .int (-2)) (ofNative (⟨0x3FC00000⟩ : Binary32)) (.new 1) = .ok c (.new 1)) ∧
    binary .mul (ofInt .string 0) (ofInt .int 1) (.new 1) =
      .error (.unsupportedOperation "*" .string .int) (.new 1) ∧
    binary .mul (ofInt .int 1) (ofInt .string 0) (.new 1) =
      .error (.unsupportedOperation "*" .int .string) (.new 1) := by
  have hnumbers : ¬ (ArithOp.add = .add ∧ (ofNative (⟨0x3FC00000⟩ : Binary32)).tag = .string ∧
      (ofInt .int (-2)).tag = .string) := by decide
  have hothers : ¬ (ArithOp.mul = .add ∧ (ofInt .string 0).tag = .string ∧
      (ofInt .int 1).tag = .string) := by decide
  have hsum := binary_comm (.inl rfl) hnumbers (.new 1)
  have hproduct := binary_comm (.inr rfl) hothers (.new 1)
  constructor
  · cases hsum with
    | inl hboth =>
        obtain ⟨t, kind, c, hpromote, -, htag, hleft, hright⟩ := hboth
        obtain rfl : .real = t := Option.some.inj hpromote
        exact ⟨c, htag, hleft, hright⟩
    | inr hrefused => exact absurd (hrefused.1 .real rfl) (by decide)
  · cases hproduct with
    | inl hboth =>
        obtain ⟨t, kind, c, hpromote, -⟩ := hboth
        contradiction
    | inr hrefused => exact hrefused.2

end Cell

end CellMachine
