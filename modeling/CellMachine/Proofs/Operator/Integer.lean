import CellMachine.Proofs.Store
import Mathlib.Data.Int.ModEq

/-!
# CellMachine.Proofs.Operator.Integer

Integers in cells. A cell of an integer tag represents an integer of the tag's
range (`inRange_toInt`), and every integer wraps to exactly one integer of that
range (`Tag.Wraps`):

* `wraps_ofInt` — the cell made of an integer represents what it wraps to;
* `wraps_cast` — converting a cell wraps the integer that it represents.
-/

namespace CellMachine

/-! ## tags of integers -/

namespace Tag

variable {t u : Tag} {i j : Nat}

/-- Tags whose cells represent integers. -/
def isInteger : Tag → Bool
  | bool | byte | word | int | dword | dint => true
  | _ => false

/-- The integers that the cells of a tag represent. -/
def InRange : Tag → Int → Prop
  | bool, n => 0 ≤ n ∧ n < 2
  | byte, n => 0 ≤ n ∧ n < 2 ^ 8
  | word, n => 0 ≤ n ∧ n < 2 ^ 16
  | dword, n => 0 ≤ n ∧ n < 2 ^ 32
  | int, n => -2 ^ 31 ≤ n ∧ n < 2 ^ 31
  | dint, n => -2 ^ 63 ≤ n ∧ n < 2 ^ 63
  | _, _ => False

/-- The integer `k` of the range of a tag is what is left of `n` if its low-order bytes are kept. -/
def Wraps (t : Tag) (n k : Int) : Prop := t.InRange k ∧ k ≡ n [ZMOD 2 ^ (8 * t.width)]

/-- The tag `t` stands at or above `u` in the order of promotion. -/
def Outranks (t u : Tag) : Prop := ∃ i j, t.rank? = some i ∧ u.rank? = some j ∧ j ≤ i

/-- An integer wraps to one integer at most. -/
theorem Wraps.unique {n k k' : Int} (h : t.Wraps n k) (h' : t.Wraps n k') : k = k' := by
  obtain ⟨hk, hmod⟩ := h
  obtain ⟨hk', hmod'⟩ := h'
  have heq : k ≡ k' [ZMOD 2 ^ (8 * t.width)] := hmod.trans hmod'.symm
  cases t <;> simp only [InRange, Int.ModEq, width] at hk hk' heq <;> omega

theorem isInteger_of_kind? (h : t.kind? = some .integer) : t.isInteger = true := by
  cases t <;> simp_all [kind?, isInteger]

/-- All integer tags but `bool` have arithmetic on integers. -/
theorem kind?_of_isInteger (h : t.isInteger = true) (hbool : t ≠ .bool) :
    t.kind? = some .integer := by
  cases t <;> simp_all [isInteger, kind?]

theorem rank?_of_isInteger (h : t.isInteger = true) : ∃ i, t.rank? = some i := by
  cases t <;> simp_all [isInteger, rank?]

theorem isNumeric_of_isInteger (h : t.isInteger = true) : t.isNumeric = true := by
  obtain ⟨i, hi⟩ := rank?_of_isInteger h
  simp [isNumeric, hi]

theorem eq_bool_of_rank? (h : t.rank? = some 0) : t = .bool := by
  cases t <;> simp_all [rank?]

/-- The only integer tag that can hold an address is `int`. -/
theorem eq_int_of_isPointerLike (h : t.isInteger = true) (hptr : t.isPointerLike = true) :
    t = .int := by
  cases t <;> simp_all [isInteger, isPointerLike]

/-- Numeric tags meet in the higher-ranked of the two. -/
theorem promote_of_rank? (ht : t.rank? = some i) (hu : u.rank? = some j) :
    t.promote u = some (if i ≥ j then t else u) := by
  by_cases htu : t = u
  · simp [promote, htu]
  · simp [promote, htu, ht, hu]

/-- Integer tags meet in one of the two that stands at or above both, and that is `bool` only if
both are. -/
theorem promote_of_isInteger (ht : t.isInteger = true) (hu : u.isInteger = true) :
    ∃ v, t.promote u = some v ∧ (v = t ∨ v = u) ∧ v.Outranks t ∧ v.Outranks u ∧
      (v = .bool → t = .bool ∧ u = .bool) := by
  obtain ⟨i, hi⟩ := rank?_of_isInteger ht
  obtain ⟨j, hj⟩ := rank?_of_isInteger hu
  refine ⟨_, promote_of_rank? hi hj, ?_⟩
  by_cases hle : i ≥ j
  · rw [if_pos hle]
    refine ⟨.inl rfl, ⟨i, i, hi, hi, Nat.le_refl i⟩, ⟨i, j, hi, hj, hle⟩, fun hbool => ?_⟩
    subst hbool
    have hzero : j = 0 := by simp [rank?] at hi; omega
    exact ⟨rfl, eq_bool_of_rank? (hzero ▸ hj)⟩
  · rw [if_neg hle]
    refine ⟨.inr rfl, ⟨j, i, hj, hi, by omega⟩, ⟨j, j, hj, hj, Nat.le_refl j⟩, fun hbool => ?_⟩
    subst hbool
    simp [rank?] at hj
    omega

end Tag

theorem byteRange_eq_pow (width : Nat) : (byteRange width : Int) = 2 ^ (8 * width) := by
  induction width with
  | zero => simp [byteRange]
  | succ width ih =>
      rw [byteRange, Nat.mul_succ, pow_add, ← ih]
      push_cast
      omega

/-! ## cells of integers -/

namespace Cell

/-- What a cell represents and what its bytes spell differ by a multiple of the range of its width. -/
theorem toInt_modEq {c : Cell} (hkind : c.tag.kind? = some .integer) :
    c.toInt ≡ leNat c.bytes [ZMOD 2 ^ (8 * c.tag.width)] := by
  rw [← byteRange_eq_pow]
  unfold toInt
  cases htag : c.tag <;> simp_all [Tag.kind?, Int.ModEq]

/-- A cell represents an integer of the range of its tag. -/
theorem inRange_toInt {c : Cell} (h : c.tag.isInteger = true) : c.tag.InRange c.toInt := by
  have hlt := leNat_lt c.bytes
  rw [length_bytes] at hlt
  unfold toInt
  cases htag : c.tag <;> simp only [htag, Tag.width, byteRange] at hlt h ⊢ <;>
    simp only [Tag.InRange, Int.bmod_def]
  case bool => split <;> omega
  case int => split <;> omega
  case dint => split <;> omega
  case byte => omega
  case word => omega
  case dword => omega
  all_goals contradiction

/-- The cell of an integer represents what the integer wraps to. -/
theorem wraps_ofInt {t : Tag} (hkind : t.kind? = some .integer) (n : Int) :
    t.Wraps n (ofInt t n).toInt := by
  have hbytes : (leNat (ofInt t n).bytes : Int) ≡ n [ZMOD 2 ^ (8 * t.width)] := by
    rw [leNat_bytes_ofInt, byteRange_eq_pow]
    exact Int.mod_modEq ..
  have hrange : t.InRange (ofInt t n).toInt :=
    inRange_toInt (c := ofInt t n) (Tag.isInteger_of_kind? hkind)
  exact ⟨hrange, (toInt_modEq (c := ofInt t n) hkind).trans hbytes⟩

/-- The value that a conversion starts from. -/
theorem scalar_of_isInteger {c : Cell} (hc : c.tag.isInteger = true) : c.scalar = .int c.toInt := by
  unfold scalar
  cases htag : c.tag <;> simp_all [Tag.isInteger]

/-- The conversion of an integer to another tag keeps its low-order bytes. -/
theorem cast_of_ne {c : Cell} {t : Tag} (hc : c.tag.isInteger = true)
    (hkind : t.kind? = some .integer) (htag : c.tag ≠ t) : c.cast t = .ok (ofInt t c.toInt) := by
  have hpointer : ¬ (c.tag.isPointerLike && t.isPointerLike) = true := by
    intro hboth
    rw [Bool.and_eq_true] at hboth
    have hint := Tag.eq_int_of_isPointerLike hc hboth.1
    have hint' := Tag.eq_int_of_isPointerLike (Tag.isInteger_of_kind? hkind) hboth.2
    exact htag (hint.trans hint'.symm)
  have hnumeric : (c.tag.isNumeric && t.isNumeric) = true := by
    rw [Tag.isNumeric_of_isInteger hc, Tag.isNumeric_of_isInteger (Tag.isInteger_of_kind? hkind)]
    rfl
  have hkept : (Scalar.int c.toInt).toCell t = ofInt t c.toInt := by
    cases t <;> first | rfl | contradiction
  rw [cast, if_neg htag, if_neg hpointer, if_pos hnumeric, scalar_of_isInteger hc, hkept]

/-- Converting a cell of an integer wraps the integer that it represents. -/
theorem wraps_cast {c : Cell} {t : Tag} (hc : c.tag.isInteger = true)
    (hkind : t.kind? = some .integer) :
    ∃ d, c.cast t = .ok d ∧ d.tag = t ∧ t.Wraps c.toInt d.toInt := by
  by_cases htag : c.tag = t
  · subst htag
    exact ⟨c, by simp [cast], rfl, inRange_toInt hc, Int.ModEq.refl _⟩
  · exact ⟨_, cast_of_ne hc hkind htag, rfl, wraps_ofInt hkind _⟩

end Cell

end CellMachine
