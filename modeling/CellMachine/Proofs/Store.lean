import CellMachine.Operator.Comparison
import CellMachine.Proofs.Action
import CellMachine.Proofs.Heap.Partition

/-!
# CellMachine.Proofs.Store

What work on a store makes of it (`Store.Follows`): the cells put into registers
are well-formed, and a heap whose blocks divide the bytes below its cursor among
themselves stays one. A sound store, where all registers are well-formed and the
heap is such a one, stays sound.

The operations on cells, the heap and host values fail by faults of their values
only, and the cells and heaps they make are sound.
-/

namespace CellMachine

/-! ## cells -/

namespace Cell

instance (c : Cell) : Decidable c.WellFormed :=
  inferInstanceAs (Decidable (c.payload.toNat < byteRange c.tag.width))

theorem toNat_payload_ofInt (t : Tag) (n : Int) :
    (ofInt t n).payload.toNat = (n % byteRange t.width).toNat := by
  have hpos : 0 < byteRange t.width := byteRange_le_of_le (Nat.zero_le t.width)
  have hlt : (n % byteRange t.width).toNat < byteRange t.width := by
    have hupper := Int.emod_lt_of_pos n (Int.natCast_pos.mpr hpos)
    omega
  exact UInt64.toNat_ofNat_of_lt (Nat.lt_of_lt_of_le hlt (byteRange_le_of_le t.width_le))

theorem wellFormed_ofInt (t : Tag) (n : Int) : (ofInt t n).WellFormed := by
  have hpos : 0 < byteRange t.width := byteRange_le_of_le (Nat.zero_le t.width)
  have hupper := Int.emod_lt_of_pos n (Int.natCast_pos.mpr hpos)
  have htag : (ofInt t n).tag = t := rfl
  rw [WellFormed, toNat_payload_ofInt, htag]
  omega

/-- The bytes of the cell of an integer spell it modulo the range of its width. -/
theorem leNat_bytes_ofInt (t : Tag) (n : Int) :
    (leNat (ofInt t n).bytes : Int) = n % byteRange t.width := by
  have hpos : 0 < byteRange t.width := byteRange_le_of_le (Nat.zero_le t.width)
  have hlower := Int.emod_nonneg n (Int.ne_of_gt (Int.natCast_pos.mpr hpos))
  have hfits : (ofInt t n).payload.toNat % byteRange t.width = (ofInt t n).payload.toNat :=
    Nat.mod_eq_of_lt (wellFormed_ofInt t n)
  have htag : (ofInt t n).tag = t := rfl
  rw [bytes, leNat_leBytes, htag, hfits, toNat_payload_ofInt, Int.toNat_of_nonneg hlower]

/-- The bytes of an int cell are those of its number. -/
theorem bytes_ofInt_natCast (n : Nat) : (ofInt .int n).bytes = leBytes 4 n := by
  have hnumber : leNat (ofInt .int n).bytes = leNat (leBytes 4 n) := by
    have hbytes := leNat_bytes_ofInt .int n
    have hwidth : Tag.int.width = 4 := rfl
    rw [hwidth] at hbytes
    rw [leNat_leBytes]
    omega
  have hlength : (ofInt .int n).bytes.length = (leBytes 4 n).length := by
    rw [length_bytes, length_leBytes]
    rfl
  exact eq_of_leNat_eq hlength hnumber

/-- An address that fits an `int` is read back from a cell of any tag that can hold it. -/
theorem toInt_ofInt {t : Tag} (ht : t.isPointerLike = true) {n : Nat} (hn : n < intLimit) :
    (ofInt t n).toInt = n := by
  have hrange : byteRange 4 = 2 * intLimit := by decide
  have hbytes : leNat (ofInt t n).bytes = n := by
    have hspelled := leNat_bytes_ofInt t n
    have hwidth : t.width = 4 := by cases t <;> first | rfl | contradiction
    rw [hwidth, hrange, Int.emod_eq_of_lt (by omega) (by omega)] at hspelled
    exact Int.ofNat.inj hspelled
  have hsigned : (ofInt t n).toInt = Int.bmod (leNat (ofInt t n).bytes) (byteRange 4) := by
    have htag : (ofInt t n).tag = t := rfl
    unfold toInt
    cases t <;> simp only [htag, Tag.width] <;> contradiction
  rw [hsigned, hbytes, hrange]
  exact Int.bmod_eq_of_le (by omega) (by omega)

theorem expectPointer_eq_ok_iff {c : Cell} (hc : c.tag.isPointerLike = true) {ptr : Nat} :
    c.expectPointer = .ok ptr ↔ c.toInt = ptr := by
  rw [expectPointer, if_pos hc]
  cases c.toInt with
  | ofNat n =>
      rw [Except.ok.injEq]
      exact Int.ofNat_inj.symm
  | negSucc n => simp

theorem wellFormed_void : Cell.void.WellFormed := by decide

theorem tame_expectInt (c : Cell) : Tame c.expectInt :=
  .ite (.ok _) (.error rfl)

theorem tame_expectPointer (c : Cell) : Tame c.expectPointer := by
  refine .ite ?_ (.error rfl)
  split
  · exact .ok _
  · exact .error rfl

theorem tame_heapPointer (t : Tag) (ptr : Nat) : Tame (heapPointer t ptr) :=
  .ite (.ok _) (.error rfl)

theorem wellFormed_heapPointer {t : Tag} {ptr : Nat} {c : Cell} (h : heapPointer t ptr = .ok c) :
    c.WellFormed := by
  unfold heapPointer at h
  split at h
  · exact Except.ok.inj h ▸ wellFormed_ofInt t ptr
  · contradiction

theorem tame_cast (c : Cell) (t : Tag) : Tame (c.cast t) :=
  .ite (.ok _) (.ite (.ok _) (.ite (.ok _) (.error rfl)))

theorem tame_negate (c : Cell) : Tame c.negate := by
  unfold negate
  split
  · exact .ok _
  · exact .ok _
  · exact .ok _
  · exact .error rfl

theorem tame_isPositive (c : Cell) : Tame c.isPositive := by
  refine .ite (.ok _) ?_
  split
  · exact .ok _
  · exact .ok _
  · exact .ok _
  · exact .error rfl

end Cell

theorem ArithOp.tame_onInt (op : ArithOp) (a b : Int) : Tame (op.onInt a b) := by
  cases op with
  | add => exact .ok _
  | sub => exact .ok _
  | mul => exact .ok _
  | div => exact .ite (.error rfl) (.ok _)
  | mod => exact .ite (.error rfl) (.ok _)

theorem Cell.tame_arith? {op : ArithOp} {t : Tag} {a b : Cell} {x : Except Fault Cell}
    (h : arith? op t a b = some x) : Tame x := by
  unfold arith? at h
  split at h
  · exact Option.some.inj h ▸ (op.tame_onInt _ _).map _
  · exact Option.some.inj h ▸ .ok _
  · exact Option.some.inj h ▸ .ok _
  · contradiction

theorem Cell.tame_arithmetic (op : ArithOp) (lhs rhs : Cell) : Tame (arithmetic op lhs rhs) := by
  unfold arithmetic
  split
  · exact .error rfl
  · refine .bind (tame_cast _ _) fun a => .bind (tame_cast _ _) fun b => ?_
    split
    · next hx => exact tame_arith? hx
    · exact .error rfl

/-! ## the heap -/

namespace Heap

theorem tame_lengthOf (h : Heap) (ptr : Nat) : Tame (h.lengthOf ptr) := by
  unfold lengthOf
  split
  · exact .ok _
  · exact .error rfl

theorem tame_checkRange (h : Heap) (ptr len : Nat) : Tame (h.checkRange ptr len) :=
  .ite (.ok _) (.error rfl)

theorem tame_free (h : Heap) (ptr : Nat) : Tame (h.free ptr) :=
  .bind (h.tame_lengthOf ptr) fun _ => .ok _

theorem tame_read (h : Heap) (ptr len : Nat) : Tame (h.read ptr len) :=
  .bind (h.tame_checkRange ptr len) fun _ => .ok _

theorem tame_write (h : Heap) (ptr : Nat) (bs : List UInt8) : Tame (h.write ptr bs) :=
  .bind (h.tame_checkRange ptr bs.length) fun _ => .ok _

theorem tame_copy (h : Heap) (src dst len : Nat) : Tame (h.copy src dst len) :=
  .bind (h.tame_read src len) fun bs => h.tame_write dst bs

theorem tame_readBlock (h : Heap) (ptr : Nat) : Tame (h.readBlock ptr) :=
  .bind (h.tame_lengthOf ptr) fun len => h.tame_read ptr len

theorem tame_readText (h : Heap) (ptr : Nat) : Tame (h.readText ptr) := by
  refine .bind (h.tame_readBlock ptr) fun bs => ?_
  split
  · exact .ok _
  · exact .error rfl

theorem Partitioned.copy {h h' : Heap} (hh : Partitioned h) {src dst len : Nat}
    (hc : h.copy src dst len = .ok h') : Partitioned h' := by
  obtain ⟨bs, -, hw⟩ := copy_eq_ok hc
  exact hh.write hw

end Heap

/-- Work on a heap: it keeps the heap partitioned, provided that `P` holds, gives results in `Q` and
is stopped by faults of the values it works on only. -/
abbrev SoundHeapAction {α : Type} (P : Prop) (x : HeapM α) (Q : α → Prop) : Prop :=
  Keeps (fun h => P → h.Partitioned) (fun e => e.isPlain = true) x Q

namespace HeapM

variable {α : Type} {P : Prop}

theorem sound_lift {x : Except Fault α} (hx : Tame x) :
    SoundHeapAction P (lift x) fun _ => True :=
  .liftHeap (fun _ _ => trivial) hx

theorem sound_ask {f : Heap → Except Fault α} (hf : ∀ h, Tame (f h)) :
    SoundHeapAction P (ask f) fun _ => True :=
  .askHeap (fun _ _ _ _ => trivial) fun h e _ he => hf h e he

theorem sound_update {f : Heap → Except Fault Heap} (htame : ∀ h, Tame (f h))
    (hok : ∀ h h', h.Partitioned → f h = .ok h' → h'.Partitioned) :
    SoundHeapAction P (update f) fun _ => True :=
  .update (fun h h' hh hf hp => hok h h' (hh hp) hf) fun h e _ he => htame h e he

theorem sound_allocate (len : Nat) : SoundHeapAction P (allocate len) fun _ => True :=
  .allocate fun _ hh hp => (hh hp).allocate len

theorem sound_copy (src dst len : Nat) :
    SoundHeapAction P (update (·.copy src dst len)) fun _ => True :=
  sound_update (fun h => h.tame_copy src dst len) fun _ _ hh hc => hh.copy hc

theorem sound_allocateText (text : String) :
    SoundHeapAction P (allocateText text) fun _ => True :=
  .allocateText (fun _ hh hp => (hh hp).allocate _) (fun _ _ _ hh hw hp => (hh hp).write hw)
    fun h ptr e _ he => h.tame_write ptr _ e he

end HeapM

/-! ## operators -/

namespace Cell

theorem sound_concat {P : Prop} (lhs rhs : Cell) :
    SoundHeapAction P (concat lhs rhs) fun _ => True := by
  refine .bind (HeapM.sound_lift lhs.tame_expectPointer) fun lptr _ => ?_
  refine .bind (HeapM.sound_lift rhs.tame_expectPointer) fun rptr _ => ?_
  refine .bind (HeapM.sound_ask fun h => h.tame_lengthOf lptr) fun llen _ => ?_
  refine .bind (HeapM.sound_ask fun h => h.tame_lengthOf rptr) fun rlen _ => ?_
  refine .bind (HeapM.sound_allocate _) fun ptr _ => ?_
  refine .bind (HeapM.sound_copy rptr ptr rlen) fun _ _ => ?_
  refine .bind (HeapM.sound_copy lptr (ptr + rlen) llen) fun _ _ => ?_
  exact HeapM.sound_lift (tame_heapPointer .string ptr)

theorem sound_binary {P : Prop} (op : ArithOp) (lhs rhs : Cell) :
    SoundHeapAction P (binary op lhs rhs) fun _ => True :=
  .ite (fun _ => sound_concat lhs rhs) fun _ => HeapM.sound_lift (tame_arithmetic op lhs rhs)

theorem tame_textBytes (c : Cell) (h : Heap) : Tame (c.textBytes h) :=
  .bind (tame_expectPointer c) fun ptr => h.tame_readBlock ptr

theorem tame_compare (op : CompareOp) (lhs rhs : Cell) (h : Heap) :
    Tame (compare op lhs rhs h) := by
  unfold compare
  split
  · exact .error rfl
  · refine .ite (.bind (tame_textBytes _ _) fun _ => .bind (tame_textBytes _ _) fun _ => .ok _) ?_
    refine .ite (.ok _) (.bind (tame_cast _ _) fun a => .bind (tame_cast _ _) fun b => ?_)
    split
    · exact .ok _
    · exact .ite (.ok _) (.error rfl)

end Cell

/-! ## values of the host -/

namespace Value

/-- The cell of a native value is stored within the width of its tag. -/
theorem sound_toCell {P : Prop} (v : Value) : SoundHeapAction P v.toCell Cell.WellFormed := by
  cases v with
  | text s =>
      refine .bind (HeapM.sound_allocateText s) fun ptr _ => ?_
      exact .liftHeap (fun c hc => Cell.wellFormed_heapPointer hc) (Cell.tame_heapPointer _ ptr)
  | void => exact .pure Cell.wellFormed_void
  | int n => exact .pure n.toUInt32.toNat_lt
  | real x => exact .pure x.bits.toNat_lt
  | bool b => exact .pure (by cases b <;> decide)
  | byte n => exact .pure n.toNat_lt
  | word n => exact .pure n.toNat_lt
  | dword n => exact .pure n.toNat_lt
  | dint n => exact .pure n.toUInt64.toNat_lt
  | dfloat x => exact .pure x.bits.toNat_lt
  | struct p => exact .pure (Cell.wellFormed_ofInt _ _)
  | heapPtr p => exact .pure (Cell.wellFormed_ofInt _ _)

end Value

/-! ## the stack -/

namespace Stack

/-- Popping bytes fails by no stray fault. -/
theorem keeps_popSpan (n : Nat) :
    Keeps (fun _ => True) (fun e => e.isStray = false) (popSpan n) fun _ => True := by
  intro s _
  unfold popSpan
  by_cases hn : n > s.cursor
  · rw [if_pos hn]
    exact ⟨rfl, trivial⟩
  · rw [if_neg hn]
    exact ⟨trivial, trivial⟩

theorem keeps_popTag :
    Keeps (fun _ => True) (fun e => e.isStray = false) popTag fun _ => True := by
  refine .bind (keeps_popSpan 1) fun span _ => ?_
  unfold Tag.ofCode
  cases Tag.ofCode? (span.headD 0) with
  | some t => exact .pure trivial
  | none => exact .throw rfl

/-- A popped cell is well-formed, whatever bytes it is made of. -/
theorem keeps_popCell :
    Keeps (fun _ => True) (fun e => e.isStray = false) popCell Cell.WellFormed :=
  .bind keeps_popTag fun t _ => .bind (keeps_popSpan t.width) fun payload _ =>
    .pure (Cell.wellFormed_ofBytes t payload)

/-- Looking at the cell on top fails by no stray fault. -/
theorem isStray_of_peekCell {s : Stack} {e : Fault} (h : s.peekCell = .error e) :
    e.isStray = false := by
  have htag : ∀ e', s.peekTag = .error e' → e'.isStray = false := by
    intro e' he'
    unfold peekTag Tag.ofCode at he'
    split at he'
    · exact Except.error.inj he' ▸ rfl
    · split at he'
      · contradiction
      · exact Except.error.inj he' ▸ rfl
  unfold peekCell at h
  cases hp : s.peekTag with
  | error e' =>
      rw [hp] at h
      exact Except.error.inj h ▸ htag e' hp
  | ok t =>
      rw [hp] at h
      change (if s.cursor < t.width + 1 then _ else _) = _ at h
      split at h
      · exact Except.error.inj h ▸ rfl
      · contradiction

end Stack

/-! ## what becomes of a store -/

namespace Store

variable {σ : Type}

/-- What work on the store `st₀` may have made of it: registers keep their cells or hold
well-formed ones, and a partitioned heap stays one. -/
structure Follows (st₀ st : Store σ) : Prop where
  registers : ∀ r, st.registers.load r = st₀.registers.load r ∨ (st.registers.load r).WellFormed
  heap : st₀.heap.Partitioned → st.heap.Partitioned

theorem Follows.refl (st : Store σ) : st.Follows st := ⟨fun _ => Or.inl rfl, id⟩

theorem Follows.setRegister {st₀ st : Store σ} (h : st₀.Follows st) (r : UInt8) {c : Cell}
    (hc : c.WellFormed) : st₀.Follows { st with registers := st.registers.store r c } where
  registers q := by
    by_cases hq : q = r
    · subst hq
      rw [Registers.load_store_self]
      exact Or.inr hc
    · rw [Registers.load_store_of_ne _ hq]
      exact h.registers q
  heap := h.heap

/-- Every register holds a well-formed cell, and the heap is partitioned. -/
structure Sound (st : Store σ) : Prop where
  registers : ∀ r, (st.registers.load r).WellFormed
  heap : st.heap.Partitioned

theorem Sound.follow {st₀ st : Store σ} (hst : st₀.Sound) (h : st₀.Follows st) : st.Sound where
  registers r := (h.registers r).elim (fun heq => heq ▸ hst.registers r) id
  heap := h.heap hst.heap

end Store

/-! ## the calling convention -/

namespace Command

theorem tame_resolve (name : String) (index : Nat) (p : Param) (c : Cell) (rs : Registers)
    (h : Heap) : Tame (resolve name index p c rs h) := by
  refine .ite (.ok _) (.ite ?_ (.ok _))
  split
  · exact .error rfl
  · exact .bind (Cell.tame_expectPointer c) fun _ => .bind (h.tame_read _ _) fun _ => .ok _

theorem tame_textOf (c : Cell) (h : Heap) : Tame (textOf c h) :=
  .bind (Cell.tame_expectPointer c) fun ptr => .bind (h.tame_readText ptr) fun _ => .ok _

theorem tame_marshal (name : String) (index : Nat) (p : Param) (c : Cell) (h : Heap) :
    Tame (marshal name index p c h) := by
  unfold marshal
  split
  · exact .ok _
  · refine .ite (tame_textOf c h) (.ite (tame_textOf c h) ?_)
    split
    · exact .ite (.ok _) (.error rfl)
    · exact .error rfl

theorem tame_argument (name : String) (index : Nat) (p : Param) (c : Cell) (rs : Registers)
    (h : Heap) : Tame (argument name index p c rs h) :=
  .bind (tame_resolve name index p c rs h) fun r =>
    .bind (tame_marshal name index p r.1 h) fun _ => .ok _

end Command

end CellMachine
