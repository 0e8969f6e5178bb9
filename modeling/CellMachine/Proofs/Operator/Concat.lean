import CellMachine.Proofs.Heap.Growth
import CellMachine.Proofs.Store

/-!
# CellMachine.Proofs.Operator.Concat

The sum of two texts. The operands and their sum lie in one memory, and the block
for the sum may be one that was freed before. But it was not live, so writing to
it changes neither operand, even if both are the same block.

* `concat_found_or_error` — either both operands are found, or the heap is left
  alone;
* `concat_of_live` — if they are found, nothing fails any more, and the new block
  holds the bytes of the right operand and then those of the left one.
-/

namespace CellMachine

/-! ## bytes side by side -/

namespace Memory

/-- A range is read in two parts. -/
theorem read_add (m : Memory) (a n k : Nat) : m.read a (n + k) = m.read a n ++ m.read (a + n) k := by
  simp [read, ← List.map_append, List.range'_append_1]

/-- A write behind a range does not change it. -/
theorem read_write_of_le (m : Memory) {a n b : Nat} (bs : List UInt8) (h : a + n ≤ b) :
    (m.write b bs).read a n = m.read a n := by
  apply read_congr
  intro i _ hi
  rw [byteAt_write, if_neg (by omega)]

/-- What is written in two parts is read in one. -/
theorem read_write_write (m : Memory) (a : Nat) (bs cs : List UInt8) :
    ((m.write a bs).write (a + bs.length) cs).read a (bs.length + cs.length) = bs ++ cs := by
  rw [read_add, read_write_of_le _ cs (Nat.le_refl _), read_write, read_write]

end Memory

theorem Text.encode_append (u v : String) : encode (u ++ v) = encode u ++ encode v := by
  simp [encode]

/-! ## concatenation -/

namespace Cell

variable {h : Heap} {lhs rhs : Cell}

/-- The cell holds the address of a live block. -/
def IsLive (c : Cell) (h : Heap) : Prop := ∃ ptr : Nat, c.toInt = ptr ∧ ptr ∈ h.live

/-- The cell holds the address `ptr`, where a live block consists of the given bytes. -/
structure PointsTo (c : Cell) (h : Heap) (ptr : Nat) (bytes : List UInt8) : Prop where
  toInt : c.toInt = ptr
  live : h.live[ptr]? = some bytes.length
  readBlock : h.readBlock ptr = .ok bytes

/-- Both cells hold addresses of live blocks, whose lengths are known. -/
structure Found (lhs rhs : Cell) (h : Heap) (lptr rptr llen rlen : Nat) : Prop where
  left : lhs.expectPointer = .ok lptr
  right : rhs.expectPointer = .ok rptr
  leftLength : h.lengthOf lptr = .ok llen
  rightLength : h.lengthOf rptr = .ok rlen

/-- Until both blocks are found the heap is only read. -/
theorem concat_found_or_error (lhs rhs : Cell) (h : Heap) :
    (∃ lptr rptr llen rlen, Found lhs rhs h lptr rptr llen rlen) ∨
    ∃ e, concat lhs rhs h = .error e h := by
  cases hlptr : lhs.expectPointer with
  | error e => exact .inr ⟨e, by simp [concat, HeapM.lift, hlptr, bind, EStateM.bind]⟩
  | ok lptr =>
    cases hrptr : rhs.expectPointer with
    | error e => exact .inr ⟨e, by simp [concat, HeapM.lift, hlptr, hrptr, bind, EStateM.bind]⟩
    | ok rptr =>
      cases hl : h.lengthOf lptr with
      | error e =>
          exact .inr ⟨e, by
            simp [concat, HeapM.lift, HeapM.ask, hlptr, hrptr, hl, bind, EStateM.bind]⟩
      | ok llen =>
        cases hr : h.lengthOf rptr with
        | error e =>
            exact .inr ⟨e, by
              simp [concat, HeapM.lift, HeapM.ask, hlptr, hrptr, hl, hr, bind, EStateM.bind]⟩
        | ok rlen => exact .inl ⟨lptr, rptr, llen, rlen, hlptr, hrptr, hl, hr⟩

theorem found_of_concat {c : Cell} {h' : Heap} (hok : concat lhs rhs h = .ok c h') :
    ∃ lptr rptr llen rlen, Found lhs rhs h lptr rptr llen rlen := by
  cases concat_found_or_error lhs rhs h with
  | inl hfound => exact hfound
  | inr herror =>
      obtain ⟨e, hrun⟩ := herror
      rw [hrun] at hok
      contradiction

/-- Once both blocks are found a concatenation cannot fail: the new block has room for both, and its
address fits a cell. No other block changes. -/
theorem concat_of_live (hh : h.Partitioned) (hcursor : h.cursor < intLimit)
    {lptr rptr llen rlen : Nat} (hfound : Found lhs rhs h lptr rptr llen rlen) :
    ∃ (ptr : Nat) (h' : Heap), concat lhs rhs h = .ok (ofInt .string ptr) h' ∧ ptr < intLimit ∧
      h.live[ptr]? = none ∧ h'.live[ptr]? = some (rlen + llen) ∧
      h'.memory.read ptr (rlen + llen) = h.memory.read rptr rlen ++ h.memory.read lptr llen ∧
      h.Grows (fun _ => False) h' := by
  have hllive := Heap.lengthOf_eq_ok_iff.mp hfound.leftLength
  have hrlive := Heap.lengthOf_eq_ok_iff.mp hfound.rightLength
  have hptr : (h.allocate (llen + rlen)).1 < intLimit :=
    Nat.lt_of_le_of_lt (hh.allocate_le_cursor _) hcursor
  have hfresh := hh.fresh_allocate (llen + rlen)
  have hnew := h.live_allocate_self (llen + rlen)
  have hgrown := hh.grows_allocate (W := fun _ => False) (llen + rlen)
  have hright := hgrown.partitioned.live_le_capacity (hgrown.live rptr rlen hrlive)
  obtain ⟨h₁, hfirst, hlive₁, hmemory₁, hgrown₁⟩ :=
    hgrown.copy_new hfresh hnew hright (Nat.le_refl _) (by omega)
  rw [← hlive₁] at hnew
  have hleft := hgrown₁.partitioned.live_le_capacity (hgrown₁.live lptr llen hllive)
  obtain ⟨h₂, hsecond, hlive₂, hmemory₂, hgrown₂⟩ :=
    hgrown₁.copy_new hfresh hnew hleft (Nat.le_add_right _ rlen) (by omega)
  have hlive : h₂.live[(h.allocate (llen + rlen)).1]? = some (rlen + llen) := by
    rw [hlive₂, hnew, Nat.add_comm]
  -- the first copy is taken from memory as it was, and it does not touch the block of the second
  rw [hgrown.read hrlive] at hmemory₁
  rw [hgrown₁.read hllive, hmemory₁] at hmemory₂
  have hread := ((h.allocate (llen + rlen)).2.memory).read_write_write
    (h.allocate (llen + rlen)).1 (h.memory.read rptr rlen) (h.memory.read lptr llen)
  rw [Memory.length_read, Memory.length_read, ← hmemory₂] at hread
  refine ⟨_, h₂, ?_, hptr, hfresh, hlive, hread, hgrown₂⟩
  simp only [concat, HeapM.allocate, HeapM.update, HeapM.ask, HeapM.lift, bind, EStateM.bind,
    hfound.left, hfound.right, hfound.leftLength, hfound.rightLength, hfirst, hsecond, heapPointer,
    if_pos hptr]

/-- What fails has left the heap alone. -/
theorem heap_of_concat_error (hh : h.Partitioned) (hcursor : h.cursor < intLimit) {e : Fault}
    {h' : Heap} (herror : concat lhs rhs h = .error e h') : h' = h := by
  cases concat_found_or_error lhs rhs h with
  | inl hfound =>
      obtain ⟨lptr, rptr, llen, rlen, hfound⟩ := hfound
      obtain ⟨ptr, h₁, hrun, -⟩ := concat_of_live hh hcursor hfound
      rw [hrun] at herror
      contradiction
  | inr hstopped =>
      obtain ⟨e₁, hrun⟩ := hstopped
      rw [hrun] at herror
      exact (EStateM.Result.error.inj herror).2.symm

theorem isLive_iff {c : Cell} (hc : c.tag.isPointerLike = true) :
    c.IsLive h ↔ ∃ ptr len, c.expectPointer = .ok ptr ∧ h.lengthOf ptr = .ok len := by
  simp only [IsLive, expectPointer_eq_ok_iff hc, Heap.lengthOf_eq_ok_iff, exists_and_left,
    Std.TreeMap.mem_iff_isSome_getElem?, Option.isSome_iff_exists]

theorem pointsTo_of_live (hh : h.Partitioned) {c : Cell} {ptr len : Nat} (hc : c.toInt = ptr)
    (hl : h.live[ptr]? = some len) : c.PointsTo h ptr (h.memory.read ptr len) :=
  ⟨hc, by rw [Memory.length_read, hl], hh.readBlock_of_live hl⟩

/-- **The sum of two texts.** It exists exactly if both operands are live. It is then a new block,
which was not live before, and it holds the bytes of the right operand and after them those of the
left one. Every block that was live keeps its length and its bytes. If the operands are texts, it is
the text of the right operand followed by that of the left one. If there is no sum, the heap is left
as it was. The heap need only be partitioned, as every heap is that calls can reach. -/
theorem binary_add_string (hh : h.Partitioned) (hcursor : h.cursor < intLimit)
    (hl : lhs.tag = .string) (hr : rhs.tag = .string) :
    ((∃ c h', binary .add lhs rhs h = .ok c h') ↔ lhs.IsLive h ∧ rhs.IsLive h) ∧
    (∀ c h', binary .add lhs rhs h = .ok c h' →
      ∃ ptr lptr rptr lbytes rbytes, lhs.PointsTo h lptr lbytes ∧ rhs.PointsTo h rptr rbytes ∧
        c.tag = .string ∧ h.live[ptr]? = none ∧ c.PointsTo h' ptr (rbytes ++ lbytes) ∧
        (∀ p n : Nat, h.live[p]? = some n →
          h'.live[p]? = some n ∧ h'.readBlock p = h.readBlock p) ∧
        ∀ u v, lbytes = Text.encode u → rbytes = Text.encode v → h'.readText ptr = .ok (v ++ u)) ∧
    ∀ e h', binary .add lhs rhs h = .error e h' → h' = h := by
  have hllike : lhs.tag.isPointerLike = true := by rw [hl]; rfl
  have hrlike : rhs.tag.isPointerLike = true := by rw [hr]; rfl
  rw [binary, if_pos ⟨rfl, hl, hr⟩, isLive_iff hllike, isLive_iff hrlike]
  refine ⟨⟨?_, ?_⟩, ?_, fun e h' herror => heap_of_concat_error hh hcursor herror⟩
  · rintro ⟨c, h', hok⟩
    obtain ⟨lptr, rptr, llen, rlen, hfound⟩ := found_of_concat hok
    exact ⟨⟨lptr, llen, hfound.left, hfound.leftLength⟩, rptr, rlen, hfound.right, hfound.rightLength⟩
  · rintro ⟨⟨lptr, llen, hlptr, hllen⟩, rptr, rlen, hrptr, hrlen⟩
    obtain ⟨ptr, h', hrun, -⟩ := concat_of_live hh hcursor ⟨hlptr, hrptr, hllen, hrlen⟩
    exact ⟨_, h', hrun⟩
  · intro c h' hok
    obtain ⟨lptr, rptr, llen, rlen, hfound⟩ := found_of_concat hok
    obtain ⟨ptr, h₁, hrun, hptr, hfresh, hlive, hread, hgrows⟩ := concat_of_live hh hcursor hfound
    rw [hrun] at hok
    obtain ⟨rfl, rfl⟩ := EStateM.Result.ok.inj hok
    have hleft := pointsTo_of_live hh ((expectPointer_eq_ok_iff hllike).mp hfound.left)
      (Heap.lengthOf_eq_ok_iff.mp hfound.leftLength)
    have hright := pointsTo_of_live hh ((expectPointer_eq_ok_iff hrlike).mp hfound.right)
      (Heap.lengthOf_eq_ok_iff.mp hfound.rightLength)
    have hsum := pointsTo_of_live hgrows.partitioned (toInt_ofInt (t := .string) rfl hptr) hlive
    rw [hread] at hsum
    refine ⟨ptr, lptr, rptr, _, _, hleft, hright, rfl, hfresh, hsum, fun p n hp => ?_, ?_⟩
    · exact ⟨hgrows.live p n hp, hgrows.readBlock hh hp⟩
    · intro u v hu hv
      have hblock := hsum.readBlock
      rw [hu, hv, ← Text.encode_append] at hblock
      exact Heap.readText_of_readBlock hblock

/-- A heap with the text "ab" at 0 and a freed block of 16 bytes behind it. -/
def spareHeap : Heap := (Heap.new 1).afterAll [.allocateText "ab", .allocate 16, .free 8]

/-- A text is added to itself, in a block that was freed. -/
theorem binary_add_string_doubling :
    spareHeap.Partitioned ∧ spareHeap.cursor < intLimit ∧
    ∃ (c : Cell) (ptr : Nat) (h' : Heap),
      binary .add (ofInt .string 0) (ofInt .string 0) spareHeap = .ok c h' ∧ c.toInt = ptr ∧
      spareHeap.live[ptr]? = none ∧ h'.readText ptr = .ok "abab" ∧
      h'.readBlock 0 = .ok (Text.encode "ab") := by
  have hh : spareHeap.Partitioned :=
    Heap.afterAll_induction (fun _ c hh => hh.after c) _ (Heap.Partitioned.new 1)
  have hcursor : spareHeap.cursor < intLimit := by decide
  have htag : (ofInt .string 0).tag = .string := rfl
  have hlive : (ofInt .string 0).IsLive spareHeap := ⟨0, by decide, by decide⟩
  have htext : spareHeap.readBlock 0 = .ok (Text.encode "ab") := rfl
  have hbytes {ptr : Nat} {bytes : List UInt8} (hp : (ofInt .string 0).PointsTo spareHeap ptr bytes) :
      bytes = Text.encode "ab" := by
    have hzero : (ofInt .string 0).toInt = (0 : Nat) := by decide
    obtain rfl : 0 = ptr := Int.ofNat.inj (hzero.symm.trans hp.toInt)
    exact Except.ok.inj (hp.readBlock.symm.trans htext)
  obtain ⟨hdefined, hsum, -⟩ := binary_add_string hh hcursor htag htag
  obtain ⟨c, h', hok⟩ := hdefined.mpr ⟨hlive, hlive⟩
  obtain ⟨ptr, lptr, rptr, lbytes, rbytes, hl, hr, -, hfresh, hc, hframe, hread⟩ := hsum c h' hok
  have hkept := (hframe 0 8 (by decide)).2
  exact ⟨hh, hcursor, c, ptr, h', hok, hc.toInt, hfresh, hread "ab" "ab" (hbytes hl) (hbytes hr),
    hkept.trans htext⟩

end Cell

end CellMachine
