import CellMachine.Proofs.Heap.Call
import Mathlib.Data.List.Pairwise
import Mathlib.Logic.ExistsUnique

/-!
# CellMachine.Proofs.Heap.Partition

The blocks of a heap, live or freed, divide the bytes below the cursor among
themselves: no two share a byte and none is left over.

The two tables of the heap are read as one list, `Heap.recorded`. Up to order,
an operation does one of three things to it:

* freeing moves a block from the live to the freed ones (`recorded_free`);
* reuse moves it back (`recorded_allocate_of_cons`);
* a block above the cursor is added (`recorded_allocate_of_nil`).

`Partitioned` is invariant under all three, hence under every call.
-/

namespace CellMachine

namespace Heap

open List (Perm)

/-- The blocks in an entry of the table of freed blocks, as address and length. -/
def entryBlocks (e : Nat × List Nat) : List (Nat × Nat) := e.2.map (·, e.1)

/-- The freed blocks as address and length. -/
def freedBlocks (h : Heap) : List (Nat × Nat) := h.freed.toList.flatMap entryBlocks

/-- All blocks a heap knows, the live ones before the freed ones, as address and length. -/
def recorded (h : Heap) : List (Nat × Nat) := h.blocks ++ h.freedBlocks

/-- Two blocks have no byte in common. -/
def Apart (a b : Nat × Nat) : Prop := a.1 + extent a.2 ≤ b.1 ∨ b.1 + extent b.2 ≤ a.1

/-- Byte `i` belongs to a block. -/
def Covers (b : Nat × Nat) (i : Nat) : Prop := b.1 ≤ i ∧ i < b.1 + extent b.2

/-- The recorded blocks divide the bytes below the cursor among themselves. -/
structure Partitioned (h : Heap) : Prop where
  /-- No two blocks share a byte. -/
  apart : h.recorded.Pairwise Apart
  /-- No address is recorded twice: as live and as freed, or as freed twice. -/
  nodup : (h.recorded.map Prod.fst).Nodup
  /-- The blocks cover the bytes below the cursor and no others. -/
  cover : ∀ i, i < h.cursor ↔ ∃ b ∈ h.recorded, Covers b i
  cursor_le : h.cursor ≤ h.capacity
  capacity_pos : 0 < h.capacity

theorem Apart.symm {a b : Nat × Nat} (h : Apart a b) : Apart b a := Or.symm h

instance : Std.Symm Apart := ⟨fun _ _ => Apart.symm⟩

/-- Blocks apart from each other start at different addresses. -/
theorem Apart.fst_ne {a b : Nat × Nat} (h : Apart a b) : a.1 ≠ b.1 := by
  have ha := extent_pos a.2
  have hb := extent_pos b.2
  unfold Apart at h
  omega

/-- Blocks apart from each other have no byte in common. -/
theorem Apart.not_covers {a b : Nat × Nat} {i : Nat} (h : Apart a b) (ha : Covers a i) :
    ¬ Covers b i := by
  unfold Apart at h
  unfold Covers at ha ⊢
  omega

/-! ## the tables as lists -/

section TreeMap

variable {β : Type}

theorem nodup_toList (t : Std.TreeMap Nat β) : t.toList.Nodup :=
  t.distinct_keys_toList.imp fun {a b} hne heq => hne (by rw [heq]; simp)

/-- A list without repetitions that holds what can be looked up in a table is the table. -/
theorem toList_perm {t : Std.TreeMap Nat β} {l : List (Nat × β)} (hl : l.Nodup)
    (hmem : ∀ k v, t[k]? = some v ↔ (k, v) ∈ l) : Perm t.toList l := by
  rw [List.perm_ext_iff_of_nodup (nodup_toList t) hl]
  rintro ⟨k, v⟩
  rw [Std.TreeMap.mem_toList_iff_getElem?_eq_some]
  exact hmem k v

/-- A table is its entry at a key, if there is one, and its entries at other keys. -/
theorem toList_perm_erase (t : Std.TreeMap Nat β) (k : Nat) :
    Perm t.toList (t[k]?.toList.map (Prod.mk k) ++ (t.erase k).toList) := by
  have hfresh : ∀ w, (k, w) ∉ (t.erase k).toList := by
    intro w
    rw [Std.TreeMap.mem_toList_iff_getElem?_eq_some]
    simp
  cases hk : t[k]? with
  | none =>
      refine toList_perm (nodup_toList _) fun j w => ?_
      simp only [Option.toList_none, List.map_nil, List.nil_append,
        Std.TreeMap.mem_toList_iff_getElem?_eq_some, Std.TreeMap.getElem?_erase]
      by_cases hj : k = j
      · simp [← hj, hk]
      · simp [hj]
  | some v =>
      refine toList_perm (List.nodup_cons.mpr ⟨hfresh v, nodup_toList _⟩) fun j w => ?_
      change _ ↔ (j, w) ∈ (k, v) :: (t.erase k).toList
      rw [List.mem_cons, Std.TreeMap.mem_toList_iff_getElem?_eq_some, Std.TreeMap.getElem?_erase]
      by_cases hj : k = j
      · simp [← hj, hk, eq_comm]
      · have hne : j ≠ k := fun h => hj h.symm
        simp [hj, hne]

/-- An entry put into a table stands beside the entries at other keys. -/
theorem toList_insert_perm (t : Std.TreeMap Nat β) (k : Nat) (v : β) :
    Perm (t.insert k v).toList ((k, v) :: (t.erase k).toList) := by
  have hsplit := toList_perm_erase (t.insert k v) k
  have hrest : Perm ((t.insert k v).erase k).toList (t.erase k).toList := by
    refine toList_perm (nodup_toList _) fun j w => ?_
    rw [Std.TreeMap.mem_toList_iff_getElem?_eq_some]
    simp only [Std.TreeMap.getElem?_erase, Std.TreeMap.getElem?_insert]
    split <;> simp_all
  rw [Std.TreeMap.getElem?_insert_self] at hsplit
  exact hsplit.trans (hrest.cons (k, v))

end TreeMap

/-- The freed blocks of lengths other than `len`. -/
def freedExcept (h : Heap) (len : Nat) : List (Nat × Nat) :=
  (h.freed.erase len).toList.flatMap entryBlocks

theorem freedBlocks_perm (h : Heap) (len : Nat) :
    Perm h.freedBlocks ((h.freedOf len).map (·, len) ++ h.freedExcept len) := by
  have hsplit := (toList_perm_erase h.freed len).flatMap_right entryBlocks
  rw [freedOf, Std.TreeMap.getD_eq_getD_getElem?]
  cases hk : h.freed[len]? with
  | none => simpa [hk, freedBlocks, freedExcept] using hsplit
  | some ptrs => simpa [hk, freedBlocks, freedExcept, entryBlocks] using hsplit

/-- The freed blocks after the ones of one length were changed. -/
theorem freedBlocks_insert_perm (h : Heap) (len : Nat) (ptrs : List Nat) :
    Perm ({ h with freed := h.freed.insert len ptrs } : Heap).freedBlocks
      (ptrs.map (·, len) ++ h.freedExcept len) := by
  have hsplit := (toList_insert_perm h.freed len ptrs).flatMap_right entryBlocks
  simpa [freedBlocks, freedExcept, entryBlocks] using hsplit

theorem blocks_free {h h' : Heap} {ptr len : Nat} (hl : h.live[ptr]? = some len)
    (hf : h.free ptr = .ok h') : Perm h.blocks ((ptr, len) :: h'.blocks) := by
  obtain ⟨_, -, rfl⟩ := free_eq_ok_iff.mp hf
  have hsplit := toList_perm_erase h.live ptr
  rw [hl] at hsplit
  exact hsplit

/-- Freeing a block moves it from the live to the freed ones. -/
theorem recorded_free {h h' : Heap} {ptr : Nat} (hf : h.free ptr = .ok h') :
    Perm h'.recorded h.recorded := by
  obtain ⟨len, hlive, heq⟩ := free_eq_ok_iff.mp hf
  have hblocks := blocks_free hlive hf
  subst heq
  have hfreed := freedBlocks_insert_perm h len (ptr :: h.freedOf len)
  calc
    Perm _ ((h.live.erase ptr).toList ++
        ((ptr, len) :: ((h.freedOf len).map (·, len) ++ h.freedExcept len))) :=
      List.Perm.append_left _ hfreed
    Perm _ ((h.live.erase ptr).toList ++ ((ptr, len) :: h.freedBlocks)) :=
      List.Perm.append_left _ ((freedBlocks_perm h len).symm.cons _)
    Perm _ ((ptr, len) :: (h.live.erase ptr).toList ++ h.freedBlocks) := List.perm_middle
    Perm _ (h.blocks ++ h.freedBlocks) := List.Perm.append_right _ hblocks.symm

/-- A block that becomes live stands beside the live ones. -/
theorem blocks_insert {h : Heap} {ptr : Nat} (hfresh : h.live[ptr]? = none) (len : Nat) :
    Perm (h.live.insert ptr len).toList ((ptr, len) :: h.blocks) := by
  have hrest := toList_perm_erase h.live ptr
  rw [hfresh] at hrest
  exact (toList_insert_perm h.live ptr len).trans (hrest.symm.cons _)

/-- Reusing a block moves it from the freed to the live ones. -/
theorem recorded_allocate_of_cons {h : Heap} {len ptr : Nat} {rest : List Nat}
    (hf : h.freedOf len = ptr :: rest) (hfresh : h.live[ptr]? = none) :
    Perm (h.allocate len).2.recorded h.recorded := by
  have hfreed := freedBlocks_perm h len
  rw [hf] at hfreed
  rw [allocate_of_cons hf]
  calc
    Perm _ ((ptr, len) :: h.blocks ++ (rest.map (·, len) ++ h.freedExcept len)) :=
      (blocks_insert hfresh len).append (freedBlocks_insert_perm h len rest)
    Perm _ (h.blocks ++ (ptr, len) :: (rest.map (·, len) ++ h.freedExcept len)) :=
      List.perm_middle.symm
    Perm _ (h.blocks ++ h.freedBlocks) := List.Perm.append_left _ hfreed.symm

/-- A block above the cursor is a new one. -/
theorem recorded_allocate_of_nil {h : Heap} {len : Nat} (hf : h.freedOf len = [])
    (hfresh : h.live[h.cursor]? = none) :
    Perm (h.allocate len).2.recorded ((h.cursor, len) :: h.recorded) := by
  rw [allocate_of_nil hf]
  exact (blocks_insert hfresh len).append_right _

theorem mem_recorded_of_live {h : Heap} {ptr len : Nat} (hl : h.live[ptr]? = some len) :
    (ptr, len) ∈ h.recorded :=
  List.mem_append_left _ (Std.TreeMap.mem_toList_iff_getElem?_eq_some.mpr hl)

theorem mem_freedBlocks_of_freedOf {h : Heap} {ptr len : Nat} (hf : ptr ∈ h.freedOf len) :
    (ptr, len) ∈ h.freedBlocks := by
  rw [(freedBlocks_perm h len).mem_iff]
  exact List.mem_append_left _ (List.mem_map_of_mem hf)

/-! ## the invariant -/

namespace Partitioned

variable {h h' : Heap}

/-- Every block ends at or below the cursor. -/
theorem end_le (hh : Partitioned h) {b : Nat × Nat} (hb : b ∈ h.recorded) :
    b.1 + extent b.2 ≤ h.cursor := by
  have hpos := extent_pos b.2
  have hlast : b.1 + extent b.2 - 1 < h.cursor :=
    (hh.cover _).mpr ⟨b, hb, by unfold Covers; omega⟩
  omega

/-- The address of a freed block is not live. -/
theorem not_live_of_freedOf (hh : Partitioned h) {ptr len : Nat} (hf : ptr ∈ h.freedOf len) :
    h.live[ptr]? = none := by
  cases hl : h.live[ptr]? with
  | none => rfl
  | some n =>
      have hlive : ptr ∈ h.blocks.map Prod.fst :=
        List.mem_map_of_mem (Std.TreeMap.mem_toList_iff_getElem?_eq_some.mpr hl)
      have hfreed : ptr ∈ h.freedBlocks.map Prod.fst :=
        List.mem_map_of_mem (mem_freedBlocks_of_freedOf hf)
      have hnodup := hh.nodup
      rw [recorded, List.map_append, List.nodup_append] at hnodup
      exact absurd rfl (hnodup.2.2 ptr hlive ptr hfreed)

/-- No live block starts at the cursor. -/
theorem not_live_cursor (hh : Partitioned h) : h.live[h.cursor]? = none := by
  cases hl : h.live[h.cursor]? with
  | none => rfl
  | some len =>
      have hend := hh.end_le (mem_recorded_of_live hl)
      have hpos := extent_pos len
      simp only at hend
      omega

/-- The invariant does not depend on the order of the blocks, nor on the bytes in them. -/
theorem of_perm (hh : Partitioned h) (hperm : Perm h'.recorded h.recorded)
    (hcursor : h'.cursor = h.cursor) (hcapacity : h.capacity ≤ h'.capacity) : Partitioned h' where
  apart := hperm.symm.pairwise hh.apart Apart.symm
  nodup := (hperm.map Prod.fst).nodup_iff.mpr hh.nodup
  cover i := by
    rw [hcursor, hh.cover i]
    constructor
    · rintro ⟨b, hb, hi⟩
      exact ⟨b, hperm.mem_iff.mpr hb, hi⟩
    · rintro ⟨b, hb, hi⟩
      exact ⟨b, hperm.mem_iff.mp hb, hi⟩
  cursor_le := by
    have := hh.cursor_le
    omega
  capacity_pos := Nat.lt_of_lt_of_le hh.capacity_pos hcapacity

/-- A block added at the cursor takes up exactly the bytes that the cursor moves over. -/
theorem of_cons (hh : Partitioned h) {len : Nat}
    (hperm : Perm h'.recorded ((h.cursor, len) :: h.recorded))
    (hcursor : h'.cursor = h.cursor + extent len) (hcapacity : h'.cursor ≤ h'.capacity) :
    Partitioned h' := by
  have happart : ((h.cursor, len) :: h.recorded).Pairwise Apart :=
    List.pairwise_cons.mpr ⟨fun b hb => Or.inr (hh.end_le hb), hh.apart⟩
  refine ⟨hperm.symm.pairwise happart Apart.symm, ?_, fun i => ?_, hcapacity, ?_⟩
  · rw [(hperm.map Prod.fst).nodup_iff]
    exact List.pairwise_map.mpr (happart.imp Apart.fst_ne)
  · have hsplit : i < h'.cursor ↔ Covers (h.cursor, len) i ∨ i < h.cursor := by
      simp only [Covers]
      omega
    rw [hsplit, hh.cover i]
    constructor
    · rintro (hi | ⟨b, hb, hi⟩)
      · exact ⟨_, hperm.mem_iff.mpr List.mem_cons_self, hi⟩
      · exact ⟨b, hperm.mem_iff.mpr (List.mem_cons_of_mem _ hb), hi⟩
    · rintro ⟨b, hb, hi⟩
      rcases List.mem_cons.mp (hperm.mem_iff.mp hb) with rfl | hb
      · exact Or.inl hi
      · exact Or.inr ⟨b, hb, hi⟩
  · have hpos := extent_pos len
    omega

theorem new (size : Nat) : Partitioned (Heap.new size) where
  apart := List.Pairwise.nil
  nodup := List.Pairwise.nil
  cover i := ⟨fun hi => absurd hi (Nat.not_lt_zero i), fun ⟨_, hb, _⟩ => absurd hb List.not_mem_nil⟩
  cursor_le := Nat.zero_le _
  capacity_pos := Nat.le_max_right size 1

theorem allocate (hh : Partitioned h) (len : Nat) : Partitioned (h.allocate len).2 := by
  cases hf : h.freedOf len with
  | nil =>
      refine hh.of_cons (recorded_allocate_of_nil hf hh.not_live_cursor) ?_ ?_
      · rw [allocate_of_nil hf]
      · rw [allocate_of_nil hf]
        exact le_grown hh.capacity_pos _
  | cons ptr rest =>
      have hfresh := hh.not_live_of_freedOf (hf ▸ List.mem_cons_self)
      refine hh.of_perm (recorded_allocate_of_cons hf hfresh) ?_ (capacity_le_allocate h len)
      rw [allocate_of_cons hf]

theorem free (hh : Partitioned h) {ptr : Nat} (hf : h.free ptr = .ok h') : Partitioned h' := by
  have hperm := recorded_free hf
  obtain ⟨len, -, rfl⟩ := free_eq_ok_iff.mp hf
  exact hh.of_perm hperm rfl (Nat.le_refl _)

theorem write (hh : Partitioned h) {ptr : Nat} {bs : List UInt8} (hw : h.write ptr bs = .ok h') :
    Partitioned h' := by
  obtain ⟨-, rfl⟩ := write_eq_ok_iff.mp hw
  exact hh.of_perm (Perm.refl _) rfl (Nat.le_of_eq (Memory.size_write ..).symm)

/-- Every call keeps the blocks a partition. -/
theorem after (hh : Partitioned h) (c : Call) : Partitioned (h.after c) :=
  after_of_kept (fun _ len hp => hp.allocate len) (fun _ _ _ hp hf => hp.free hf)
    (fun _ _ _ _ hp hw => hp.write hw) h c hh

/-- The bytes below the cursor are those that belong to exactly one block. -/
theorem lt_cursor_iff (hh : Partitioned h) (i : Nat) :
    i < h.cursor ↔ ∃! b, b ∈ h.recorded ∧ Covers b i := by
  rw [hh.cover i]
  constructor
  · rintro ⟨b, hb, hi⟩
    refine ⟨b, ⟨hb, hi⟩, fun c hc => ?_⟩
    by_cases hcb : c = b
    · exact hcb
    · have hapart := hh.apart.forall hc.1 hb hcb
      exact absurd hi (hapart.not_covers hc.2)
  · rintro ⟨b, ⟨hb, hi⟩, -⟩
    exact ⟨b, hb, hi⟩

end Partitioned

/-- **Partition of the heap**: after any calls on a new heap, the live and the freed blocks lie
apart from each other at addresses of their own, and the bytes below the cursor, which stays
within the memory, are exactly those that belong to one of them. -/
theorem partitioned_afterAll (size : Nat) (calls : List Call) :
    Partitioned ((Heap.new size).afterAll calls) ∧
      ∀ i, i < ((Heap.new size).afterAll calls).cursor ↔
        ∃! b, b ∈ ((Heap.new size).afterAll calls).recorded ∧ Covers b i := by
  have hp : Partitioned ((Heap.new size).afterAll calls) :=
    afterAll_induction (fun _ c hh => hh.after c) calls (Partitioned.new size)
  exact ⟨hp, hp.lt_cursor_iff⟩

end Heap

end CellMachine
