import CellMachine.Proofs.Heap.Growth
import Mathlib.Algebra.BigOperators.Finprod

/-!
# CellMachine.Proofs.Heap.Peak

How far the cursor goes. A block serves requests of its own length only, and a new one is laid
only when all blocks of that length are live. So of each length there are as many blocks, live or
freed, as were ever live at once:

* `madeCount_after` — a call makes a block of some length only where a new peak needs one;
* `madeCount_afterAll` — after a run there are as many blocks as at the peak of the run;
* `Filled` — the blocks fill the bytes below the cursor, so the cursor is the sum of their extents.
-/

namespace CellMachine

namespace Heap

open List (Perm)

variable {h h' : Heap}

/-! ## counting blocks -/

/-- How many blocks of a length are live. -/
def liveCount (h : Heap) (len : Nat) : Nat := (h.blocks.map Prod.snd).count len

/-- How many blocks of a length there are, live or freed. -/
def madeCount (h : Heap) (len : Nat) : Nat := (h.recorded.map Prod.snd).count len

/-- The largest number of blocks of a length that are live at the same time, at any point of a
run. -/
def peak (h : Heap) (len : Nat) (calls : List Call) : Nat :=
  (calls.inits.map fun cs => (h.afterAll cs).liveCount len).foldr max 0

@[simp] theorem peak_nil (h : Heap) (len : Nat) : h.peak len [] = h.liveCount len := by
  simp [peak]

@[simp] theorem peak_cons (h : Heap) (len : Nat) (c : Call) (cs : List Call) :
    h.peak len (c :: cs) = max (h.liveCount len) ((h.after c).peak len cs) := by
  simp [peak, Function.comp_def]

theorem liveCount_le_peak (h : Heap) (len : Nat) (cs : List Call) :
    h.liveCount len ≤ h.peak len cs := by
  cases cs <;> simp

/-- The blocks of a length are the live ones and those kept for reuse. -/
theorem madeCount_eq_add (h : Heap) (len : Nat) :
    h.madeCount len = h.liveCount len + (h.freedOf len).length := by
  have hother : len ∉ (h.freedExcept len).map Prod.snd := by
    simp only [freedExcept, entryBlocks, List.mem_map, List.mem_flatMap, not_exists, not_and]
    rintro _ ⟨⟨key, ptrs⟩, hentry, ptr, -, rfl⟩ rfl
    rw [Std.TreeMap.mem_toList_iff_getElem?_eq_some] at hentry
    simp at hentry
  have hfreed := ((freedBlocks_perm h len).map Prod.snd).count_eq len
  rw [List.map_append, List.count_append, List.count_eq_zero_of_not_mem hother] at hfreed
  rw [madeCount, recorded, List.map_append, List.count_append, hfreed]
  simp [liveCount, Function.comp_def]

theorem liveCount_le_madeCount (h : Heap) (len : Nat) : h.liveCount len ≤ h.madeCount len := by
  rw [madeCount_eq_add]
  omega

/-! ## what a call does to the blocks -/

/-- Two heaps that differ in their memory only. -/
structure SameBlocks (h h' : Heap) : Prop where
  live : h'.live = h.live
  freed : h'.freed = h.freed
  cursor : h'.cursor = h.cursor

namespace SameBlocks

theorem refl (h : Heap) : SameBlocks h h := ⟨rfl, rfl, rfl⟩

theorem blocks (hs : SameBlocks h h') : h'.blocks = h.blocks := by
  rw [Heap.blocks, hs.live, Heap.blocks]

theorem recorded (hs : SameBlocks h h') : h'.recorded = h.recorded := by
  rw [Heap.recorded, hs.blocks, freedBlocks, hs.freed, Heap.recorded, freedBlocks]

theorem liveCount (hs : SameBlocks h h') (len : Nat) : h'.liveCount len = h.liveCount len := by
  rw [Heap.liveCount, hs.blocks, Heap.liveCount]

theorem madeCount (hs : SameBlocks h h') (len : Nat) : h'.madeCount len = h.madeCount len := by
  rw [Heap.madeCount, hs.recorded, Heap.madeCount]

theorem write {ptr : Nat} {bs : List UInt8} (hs : SameBlocks h h') {h'' : Heap}
    (hw : h'.write ptr bs = .ok h'') : SameBlocks h h'' := by
  obtain ⟨-, rfl⟩ := write_eq_ok_iff.mp hw
  exact ⟨hs.live, hs.freed, hs.cursor⟩

end SameBlocks

theorem sameBlocks_allocateText (h : Heap) (text : String) :
    SameBlocks (h.allocate (Text.encode text).length).2 (h.after (.allocateText text)) := by
  simp only [after, call, HeapM.allocateText, HeapM.allocate, HeapM.update, bind, EStateM.bind]
  cases hw : (h.allocate (Text.encode text).length).2.write
      (h.allocate (Text.encode text).length).1 (Text.encode text) with
  | ok h' => exact (SameBlocks.refl _).write hw
  | error e => exact .refl _

theorem after_free_of_ok {ptr : Nat} (hf : h.free ptr = .ok h') : h.after (.free ptr) = h' := by
  simp only [after, call, HeapM.update, bind, EStateM.bind, hf]
  rfl

theorem after_free_of_error {ptr : Nat} {e : Fault} (hf : h.free ptr = .error e) :
    h.after (.free ptr) = h := by
  simp only [after, call, HeapM.update, bind, EStateM.bind, hf]
  rfl

/-- The calls that neither make a block nor free one. -/
def Call.idle : Call → Bool
  | .allocate _ | .allocateText _ | .free _ => false
  | .lengthOf _ | .read _ _ | .write _ _ | .copy _ _ _ | .readText _ => true

theorem sameBlocks_of_idle (h : Heap) {c : Call} (hc : c.idle) : SameBlocks h (h.after c) := by
  have hask : ∀ {α : Type} (f : Heap → Except Fault α),
      Keeps (SameBlocks h) (fun _ => True) (HeapM.ask f) fun _ => True :=
    fun f => .askHeap (fun _ _ _ _ => trivial) fun _ _ _ _ => trivial
  have hkeeps : Keeps (SameBlocks h) (fun _ => True) (call c) fun _ => True := by
    cases c with
    | allocate len => contradiction
    | allocateText text => contradiction
    | free ptr => contradiction
    | lengthOf ptr => exact .bind (hask _) fun _ _ => .pure trivial
    | read ptr len => exact .bind (hask _) fun _ _ => .pure trivial
    | readText ptr => exact .bind (hask _) fun _ _ => .pure trivial
    | write ptr bs =>
        exact .bind (.update (fun _ _ hs hw => hs.write hw) fun _ _ _ _ => trivial) fun _ _ =>
          .pure trivial
    | copy src dst len =>
        refine .bind (.update (fun _ _ hs hc => ?_) fun _ _ _ _ => trivial) fun _ _ => .pure trivial
        obtain ⟨bs, -, hw⟩ := copy_eq_ok hc
        exact hs.write hw
  exact hkeeps.final (.refl h)

/-- A call makes one block, frees one, or leaves the blocks alone. -/
theorem after_cases (h : Heap) (c : Call) :
    SameBlocks h (h.after c) ∨ (∃ len, SameBlocks (h.allocate len).2 (h.after c)) ∨
      ∃ ptr, h.free ptr = .ok (h.after c) := by
  by_cases hc : c.idle
  · exact .inl (sameBlocks_of_idle h hc)
  cases c with
  | allocate len => exact .inr (.inl ⟨len, .refl _⟩)
  | allocateText text => exact .inr (.inl ⟨_, sameBlocks_allocateText h text⟩)
  | free ptr =>
      cases hf : h.free ptr with
      | ok h' => exact .inr (.inr ⟨ptr, by rw [after_free_of_ok hf, hf]⟩)
      | error e =>
          rw [after_free_of_error hf]
          exact .inl (.refl h)
  | _ => exact absurd rfl hc

/-- A call lays at most one new block, which starts at the cursor. -/
theorem recorded_after (hh : h.Partitioned) (c : Call) :
    (Perm (h.after c).recorded h.recorded ∧ (h.after c).cursor = h.cursor) ∨
      ∃ len, Perm (h.after c).recorded ((h.cursor, len) :: h.recorded) ∧
        (h.after c).cursor = h.cursor + extent len := by
  rcases after_cases h c with hs | ⟨len, hs⟩ | ⟨ptr, hf⟩
  · exact .inl ⟨.of_eq hs.recorded, hs.cursor⟩
  · rw [hs.recorded, hs.cursor]
    cases hf : h.freedOf len with
    | nil =>
        refine .inr ⟨len, recorded_allocate_of_nil hf hh.not_live_cursor, ?_⟩
        rw [allocate_of_nil hf]
    | cons ptr rest =>
        have hfresh := hh.not_live_of_freedOf (hf ▸ List.mem_cons_self)
        refine .inl ⟨recorded_allocate_of_cons hf hfresh, ?_⟩
        rw [allocate_of_cons hf]
  · refine .inl ⟨recorded_free hf, ?_⟩
    obtain ⟨len, -, heq⟩ := free_eq_ok_iff.mp hf
    rw [heq]

/-- A block that a heap knows is known ever after. -/
theorem recorded_subset_afterAll (hh : h.Partitioned) (cs : List Call) :
    h.recorded ⊆ (h.afterAll cs).recorded := by
  induction cs generalizing h with
  | nil => exact List.Subset.refl _
  | cons c cs ih =>
      refine List.Subset.trans ?_ (ih (hh.after c))
      rcases recorded_after hh c with ⟨hperm, -⟩ | ⟨len, hperm, -⟩
      · exact hperm.symm.subset
      · exact List.Subset.trans (List.subset_cons_self _ _) hperm.symm.subset

/-! ## one peak after another -/

theorem blocks_allocate (hh : h.Partitioned) (len : Nat) :
    Perm (h.allocate len).2.blocks (((h.allocate len).1, len) :: h.blocks) := by
  rw [blocks, live_allocate]
  exact blocks_insert (hh.fresh_allocate len) len

theorem liveCount_allocate (hh : h.Partitioned) (size len : Nat) :
    (h.allocate size).2.liveCount len = h.liveCount len + if size = len then 1 else 0 := by
  rw [liveCount, ((blocks_allocate hh size).map Prod.snd).count_eq, List.map_cons,
    List.count_cons]
  simp [liveCount]

theorem liveCount_free {ptr size : Nat} (hl : h.live[ptr]? = some size)
    (hf : h.free ptr = .ok h') (len : Nat) :
    h.liveCount len = h'.liveCount len + if size = len then 1 else 0 := by
  rw [liveCount, ((blocks_free hl hf).map Prod.snd).count_eq, List.map_cons, List.count_cons]
  simp [liveCount]

/-- A request makes a block only if all blocks of its length are live. -/
theorem madeCount_allocate (hh : h.Partitioned) (size len : Nat) :
    (h.allocate size).2.madeCount len =
      max (h.madeCount len) ((h.allocate size).2.liveCount len) := by
  have hlive := liveCount_allocate hh size len
  have hmade := madeCount_eq_add h len
  cases hf : h.freedOf size with
  | nil =>
      have hnew : (h.allocate size).2.madeCount len =
          h.madeCount len + if size = len then 1 else 0 := by
        have hperm := recorded_allocate_of_nil hf hh.not_live_cursor
        rw [madeCount, (hperm.map Prod.snd).count_eq, List.map_cons, List.count_cons]
        simp [madeCount]
      by_cases heq : size = len
      · rw [← heq, hf, List.length_nil] at hmade
        simp only [heq, if_true] at hlive hnew hmade ⊢
        omega
      · simp only [heq, if_false] at hlive hnew
        omega
  | cons ptr rest =>
      have hperm := recorded_allocate_of_cons hf (hh.not_live_of_freedOf (hf ▸ List.mem_cons_self))
      have hsame : (h.allocate size).2.madeCount len = h.madeCount len :=
        (hperm.map Prod.snd).count_eq len
      by_cases heq : size = len
      · rw [← heq, hf, List.length_cons] at hmade
        simp only [heq, if_true] at hlive hsame hmade ⊢
        omega
      · simp only [heq, if_false] at hlive
        omega

/-- A call makes a block of some length only where a new peak needs one. -/
theorem madeCount_after (hh : h.Partitioned) (c : Call) (len : Nat) :
    (h.after c).madeCount len = max (h.madeCount len) ((h.after c).liveCount len) := by
  have hle := liveCount_le_madeCount (h.after c) len
  rcases after_cases h c with hs | ⟨size, hs⟩ | ⟨ptr, hf⟩
  · have hsame := hs.madeCount len
    omega
  · rw [hs.madeCount, hs.liveCount]
    exact madeCount_allocate hh size len
  · have hsame : (h.after c).madeCount len = h.madeCount len :=
      ((recorded_free hf).map Prod.snd).count_eq len
    omega

/-- After a run there are as many blocks of a length as at its peak, or as there were before. -/
theorem madeCount_afterAll (hh : h.Partitioned) (cs : List Call) (len : Nat) :
    (h.afterAll cs).madeCount len = max (h.madeCount len) (h.peak len cs) := by
  induction cs generalizing h with
  | nil =>
      have hle := liveCount_le_madeCount h len
      rw [afterAll_nil, peak_nil]
      omega
  | cons c cs ih =>
      have hbefore := liveCount_le_madeCount h len
      have hthen := liveCount_le_peak (h.after c) len cs
      rw [afterAll_cons, peak_cons, ih (hh.after c), madeCount_after hh c len]
      omega

/-! ## the bytes below the cursor -/

/-- The blocks fill the bytes below the cursor: as many, and none twice. -/
structure Filled (h : Heap) : Prop where
  partitioned : h.Partitioned
  cursor : h.cursor = (h.recorded.map fun b => extent b.2).sum

namespace Filled

theorem new (size : Nat) : Filled (Heap.new size) := ⟨Partitioned.new size, rfl⟩

theorem after (hh : h.Filled) (c : Call) : (h.after c).Filled := by
  refine ⟨hh.partitioned.after c, ?_⟩
  rcases recorded_after hh.partitioned c with ⟨hperm, hcursor⟩ | ⟨len, hperm, hcursor⟩
  · rw [hcursor, (hperm.map fun b => extent b.2).sum_eq, hh.cursor]
  · rw [hcursor, (hperm.map fun b => extent b.2).sum_eq, List.map_cons, List.sum_cons,
      ← hh.cursor, Nat.add_comm]

theorem afterAll (hh : h.Filled) (cs : List Call) : (h.afterAll cs).Filled :=
  afterAll_induction (fun _ c hh => hh.after c) cs hh

/-- The cursor is what the blocks of each length take up. -/
theorem cursor_eq_finsum (hh : h.Filled) : h.cursor = ∑ᶠ len, extent len * h.madeCount len := by
  have hsupport : (Function.support fun len => extent len * h.madeCount len) ⊆
      ((h.recorded.map Prod.snd).toFinset : Set Nat) := by
    intro len hlen
    have hne : h.madeCount len ≠ 0 := by
      intro h0
      simp [h0] at hlen
    simpa [madeCount, List.count_eq_zero] using hne
  have hsum := Finset.sum_list_map_count (h.recorded.map Prod.snd) extent
  rw [List.map_map] at hsum
  rw [hh.cursor, finsum_eq_sum_of_support_subset _ hsupport]
  simpa [madeCount, Function.comp_def, Nat.mul_comm] using hsum

end Filled

end Heap

end CellMachine
