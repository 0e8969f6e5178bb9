import CellMachine.Proofs.Heap.Growth
import CellMachine.Proofs.Trace

/-!
# CellMachine.Proofs.Heap.Capacity

The size that a heap starts with does not matter to those who keep below the
cursor. Heaps of different sizes grow at different times; still the same calls
come to the same, and the heaps `Resemble` each other all the time: they agree in
all but the sizes of their memories.

A call is allowed if the ranges that it names end at or below the cursor
(`Call.reach`). The blocks that a heap hands out lie there anyway, since they
divide the bytes below the cursor among themselves, and so do texts.
-/

namespace CellMachine

namespace Heap

/-- Where the ranges end that a call names. -/
def Call.reach : Call → Nat
  | .read ptr len => ptr + len
  | .write ptr bs => ptr + bs.length
  | .copy src dst len => max (src + len) (dst + len)
  | .allocate _ | .free _ | .lengthOf _ | .allocateText _ | .readText _ => 0

/-- The heaps differ in the sizes of their memories only. -/
structure Resembles (h k : Heap) : Prop where
  cursor : k.cursor = h.cursor
  live : k.live = h.live
  freed : k.freed = h.freed
  bytes : ∀ i, k.memory.byteAt i = h.memory.byteAt i

/-- Heaps that resemble each other and whose blocks lie in their memories. -/
structure Twins (h k : Heap) : Prop extends Resembles h k where
  left : h.Partitioned
  right : k.Partitioned

variable {h k : Heap}

/-! ## the single operations -/

theorem lengthOf_of_not_live {ptr : Nat} (hl : h.live[ptr]? = none) :
    h.lengthOf ptr = .error (.untrackedPointer (reportedAddress ptr)) := by
  simp only [lengthOf, length?, hl]

namespace Resembles

theorem lengthOf (hr : h.Resembles k) (ptr : Nat) : k.lengthOf ptr = h.lengthOf ptr := by
  simp only [Heap.lengthOf, length?, hr.live]

theorem freedOf (hr : h.Resembles k) (len : Nat) : k.freedOf len = h.freedOf len := by
  simp only [Heap.freedOf, hr.freed]

/-- A request is served at the same address, whether the memory has to grow for it or not. -/
theorem allocate (hr : h.Resembles k) (len : Nat) :
    (k.allocate len).1 = (h.allocate len).1 ∧
      (h.allocate len).2.Resembles (k.allocate len).2 := by
  have hfreed := hr.freedOf len
  cases hf : h.freedOf len with
  | nil =>
      rw [hf] at hfreed
      rw [allocate_of_nil hf, allocate_of_nil hfreed]
      refine ⟨hr.cursor, ?_, ?_, hr.freed, hr.bytes⟩
      · simp only [hr.cursor]
      · simp only [hr.cursor, hr.live]
  | cons ptr rest =>
      rw [hf] at hfreed
      rw [allocate_of_cons hf, allocate_of_cons hfreed]
      refine ⟨rfl, hr.cursor, ?_, ?_, hr.bytes⟩
      · simp only [hr.live]
      · simp only [hr.freed]

/-- Writing changes both memories in the same way. -/
theorem write (hr : h.Resembles k) (ptr : Nat) (bs : List UInt8) :
    ({ h with memory := h.memory.write ptr bs } : Heap).Resembles
      { k with memory := k.memory.write ptr bs } where
  cursor := hr.cursor
  live := hr.live
  freed := hr.freed
  bytes i := by simp only [Memory.byteAt_write, hr.bytes]

end Resembles

namespace Twins

theorem allocate (ht : Twins h k) (len : Nat) : Twins (h.allocate len).2 (k.allocate len).2 where
  toResembles := (ht.toResembles.allocate len).2
  left := ht.left.allocate len
  right := ht.right.allocate len

/-- What ends at or below the cursor lies in both memories. -/
theorem le_capacity (ht : Twins h k) {stop : Nat} (hstop : stop ≤ h.cursor) :
    stop ≤ h.capacity ∧ stop ≤ k.capacity := by
  have hleft := ht.left.cursor_le
  have hright := ht.right.cursor_le
  have hcursor := ht.cursor
  omega

/-- Reading below the cursor succeeds and gives the same bytes. -/
theorem read (ht : Twins h k) {ptr len : Nat} (hstop : ptr + len ≤ h.cursor) :
    h.read ptr len = .ok (h.memory.read ptr len) ∧
      k.read ptr len = .ok (h.memory.read ptr len) := by
  obtain ⟨hleft, hright⟩ := ht.le_capacity hstop
  have hbytes : k.memory.read ptr len = h.memory.read ptr len :=
    Memory.read_congr fun i _ _ => ht.bytes i
  exact ⟨read_of_le hleft, by rw [read_of_le hright, hbytes]⟩

/-- Writing within both memories succeeds and makes heaps that resemble each other. -/
theorem write (ht : Twins h k) {ptr : Nat} {bs : List UInt8}
    (hleft : ptr + bs.length ≤ h.capacity) (hright : ptr + bs.length ≤ k.capacity) :
    ∃ h' k', h.write ptr bs = .ok h' ∧ k.write ptr bs = .ok k' ∧ Twins h' k' := by
  have hw := write_of_le hleft
  have hw' := write_of_le hright
  exact ⟨_, _, hw, hw', ht.toResembles.write ptr bs, ht.left.write hw, ht.right.write hw'⟩

theorem free (ht : Twins h k) (ptr : Nat) :
    (∃ h' k', h.free ptr = .ok h' ∧ k.free ptr = .ok k' ∧ Twins h' k') ∨
      ∃ e, h.free ptr = .error e ∧ k.free ptr = .error e := by
  cases hl : h.live[ptr]? with
  | none =>
      have hlength := lengthOf_of_not_live hl
      refine Or.inr ⟨.untrackedPointer (reportedAddress ptr), ?_, ?_⟩
      · rw [Heap.free, hlength]
        rfl
      · rw [Heap.free, ht.lengthOf, hlength]
        rfl
  | some len =>
      have hl' : k.live[ptr]? = some len := by rw [ht.live, hl]
      have hf := free_eq_ok_iff.mpr ⟨len, hl, rfl⟩
      have hf' := free_eq_ok_iff.mpr ⟨len, hl', rfl⟩
      refine Or.inl ⟨_, _, hf, hf', ⟨ht.cursor, ?_, ?_, ht.bytes⟩, ht.left.free hf, ht.right.free hf'⟩
      · simp only [ht.live]
      · simp only [ht.freed, ht.freedOf]

/-- Blocks read the same: a live block lies below the cursor. -/
theorem readBlock (ht : Twins h k) (ptr : Nat) : k.readBlock ptr = h.readBlock ptr := by
  cases hl : h.live[ptr]? with
  | some len =>
      have hl' : k.live[ptr]? = some len := by rw [ht.live, hl]
      exact readBlock_eq ht.left ht.right hl hl' fun i _ _ => ht.bytes i
  | none =>
      rw [Heap.readBlock, Heap.readBlock, ht.lengthOf, lengthOf_of_not_live hl]
      rfl

theorem readText (ht : Twins h k) (ptr : Nat) : k.readText ptr = h.readText ptr := by
  rw [Heap.readText, Heap.readText, ht.readBlock]

end Twins

/-! ## calls -/

section Alike

variable {α : Type}

theorem alike_ask (ht : Twins h k) {f : Heap → Except Fault α} (hf : f k = f h) :
    Alike Twins (HeapM.ask f h) (HeapM.ask f k) := by
  unfold HeapM.ask HeapM.lift
  rw [hf]
  cases f h with
  | ok a => exact .ok a ht
  | error e => exact .error e ht

theorem alike_update {f : Heap → Except Fault Heap} (ht : Twins h k)
    (hf : (∃ h' k', f h = .ok h' ∧ f k = .ok k' ∧ Twins h' k') ∨
      ∃ e, f h = .error e ∧ f k = .error e) :
    Alike Twins (HeapM.update f h) (HeapM.update f k) := by
  unfold HeapM.update
  rcases hf with ⟨h', k', hleft, hright, ht'⟩ | ⟨e, hleft, hright⟩
  · rw [hleft, hright]
    exact .ok () ht'
  · rw [hleft, hright]
    exact .error e ht

theorem alike_allocate (ht : Twins h k) (len : Nat) :
    Alike Twins (HeapM.allocate len h) (HeapM.allocate len k) := by
  have hptr := (ht.toResembles.allocate len).1
  unfold HeapM.allocate
  rw [hptr]
  exact .ok _ (ht.allocate len)

/-- A text is written into the block that was made for it, which lies in both memories. -/
theorem alike_allocateText (ht : Twins h k) (text : String) :
    Alike Twins (HeapM.allocateText text h) (HeapM.allocateText text k) := by
  have hptr := (ht.toResembles.allocate (Text.encode text).length).1
  have ht' := ht.allocate (Text.encode text).length
  have hleft := ht'.left.live_le_capacity (live_allocate_self h _)
  have hright := ht'.right.live_le_capacity (live_allocate_self k _)
  rw [hptr] at hright
  obtain ⟨h', k', hw, hw', htwins⟩ := ht'.write hleft hright
  rw [← hptr] at hw'
  rw [allocateText_of_write hw, allocateText_of_write hw', hptr]
  exact .ok _ htwins

/-- **One call** comes to the same in heaps that resemble each other, if its ranges end at or below
the cursor. -/
theorem alike_call (c : Call) (ht : Twins h k) (hreach : c.reach ≤ h.cursor) :
    Alike Twins (call c h) (call c k) := by
  cases c with
  | allocate len => exact .map _ (alike_allocate ht len)
  | free ptr => exact .map _ (alike_update ht (ht.free ptr))
  | lengthOf ptr => exact .map _ (alike_ask ht (ht.lengthOf ptr))
  | read ptr len =>
      obtain ⟨hleft, hright⟩ := ht.read hreach
      exact .map _ (alike_ask ht (hright.trans hleft.symm))
  | write ptr bs =>
      obtain ⟨hleft, hright⟩ := ht.le_capacity hreach
      exact .map _ (alike_update ht (Or.inl (ht.write hleft hright)))
  | copy src dst len =>
      refine .map _ (alike_update ht (Or.inl ?_))
      have hsrc : src + len ≤ h.cursor := Nat.le_trans (Nat.le_max_left _ _) hreach
      have hdst : dst + len ≤ h.cursor := Nat.le_trans (Nat.le_max_right _ _) hreach
      obtain ⟨hread, hread'⟩ := ht.read hsrc
      obtain ⟨hleft, hright⟩ := ht.le_capacity hdst
      have hlen : (h.memory.read src len).length = len := Memory.length_read ..
      obtain ⟨h', k', hw, hw', ht'⟩ := ht.write (hlen.symm ▸ hleft) (hlen.symm ▸ hright)
      refine ⟨h', k', ?_, ?_, ht'⟩
      · rw [copy, hread]
        exact hw
      · rw [copy, hread']
        exact hw'
  | allocateText text => exact .map _ (alike_allocateText ht text)
  | readText ptr => exact .map _ (alike_ask ht (ht.readText ptr))

end Alike

/-- **The size a heap starts with does not matter**: calls whose ranges end at or below the cursor,
when they are made on a new heap of size `n`, have the same answers and faults on a new heap of any
other size, and after each of them the two heaps have the same cursor, live and freed blocks and
bytes. -/
theorem size_unobservable (n n' : Nat) (calls : List Call)
    (hreach : ∀ (i : Nat) (hi : i < calls.length),
      calls[i].reach ≤ ((Heap.new n).afterAll (calls.take i)).cursor) :
    List.Forall₂ (Alike Resembles) (trace call calls (Heap.new n))
      (trace call calls (Heap.new n')) := by
  have hstart : Twins (Heap.new n) (Heap.new n') :=
    ⟨⟨rfl, rfl, rfl, fun _ => rfl⟩, .new n, .new n'⟩
  have hrun := forall₂_trace (P := fun h c => c.reach ≤ h.cursor)
    (fun c _ _ ht hc => alike_call c ht hc) calls hstart hreach
  exact hrun.imp fun _ _ h => h.imp fun _ _ ht => ht.toResembles

/-- Calls that fill a small heap, with reuse of a block, a text and a pointer that is not live. -/
def fillingCalls : List Call :=
  [.allocate 3, .write 0 [1, 2, 3], .allocateText "a", .free 0, .copy 0 3 3, .allocate 3, .read 0 7,
    .free 9, .allocate 100, .readText 3]

theorem size_unobservable_filling :
    (∀ (i : Nat) (hi : i < fillingCalls.length),
      fillingCalls[i].reach ≤ ((Heap.new 1).afterAll (fillingCalls.take i)).cursor) ∧
      ((Heap.new 1).afterAll fillingCalls).capacity ≠
        ((Heap.new 1000).afterAll fillingCalls).capacity ∧
      List.Forall₂ (Alike Resembles) (trace call fillingCalls (Heap.new 1))
        (trace call fillingCalls (Heap.new 1000)) := by
  have hreach : ∀ (i : Nat) (hi : i < fillingCalls.length),
      fillingCalls[i].reach ≤ ((Heap.new 1).afterAll (fillingCalls.take i)).cursor := by
    decide
  exact ⟨hreach, by decide, size_unobservable 1 1000 fillingCalls hreach⟩

end Heap

end CellMachine
