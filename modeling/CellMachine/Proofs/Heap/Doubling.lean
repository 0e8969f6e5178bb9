import CellMachine.Proofs.Heap.Growth
import Mathlib.Algebra.Order.Ring.Nat
import Mathlib.Order.Bounds.Basic

/-!
# CellMachine.Proofs.Heap.Doubling

How large the memory becomes. A memory that is too small is doubled until it is
large enough; `Doubles` is this loop as a relation, so that a loop that ends is
told from one that does not. Growth happens in many steps, one for each block
that does not fit, and still comes to doubling the first size as often as the
cursor needs:

* `doubles_iff` — the loop ends, unless it starts from nothing, at the least
  doubling that is large enough;
* `Fitted` — the memory is the least doubling of its first size that reaches the
  cursor, whatever the calls were;
* `Blank` — what lies beyond the memory is zero, so that new bytes are.
-/

namespace CellMachine

namespace Heap

variable {h h' : Heap} {need size stop : Nat}

/-! ## the loop -/

/-- Doubling `size` as long as it is less than `need` ends at `stop`. -/
inductive Doubles (need : Nat) : (size stop : Nat) → Prop
  | done {size : Nat} (henough : need ≤ size) : Doubles need size size
  | twice {size stop : Nat} (hshort : size < need) (hrest : Doubles need (2 * size) stop) :
      Doubles need size stop

/-- Doubling with fuel follows the loop if there is fuel for enough rounds. -/
theorem doubles_doubled (fuel size need : Nat) (hfuel : need ≤ size + fuel)
    (hsize : 0 < size ∨ need = 0) : Doubles need size (doubled fuel size need) := by
  induction fuel generalizing size with
  | zero => exact .done hfuel
  | succ fuel ih =>
      rw [doubled]
      split
      · next henough => exact .done henough
      · next hshort => exact .twice (by omega) (ih (2 * size) (by omega) (by omega))

namespace Doubles

theorem unique {stop' : Nat} (hd : Doubles need size stop) (hd' : Doubles need size stop') :
    stop = stop' := by
  induction hd with
  | done henough =>
      cases hd' with
      | done => rfl
      | twice hshort => omega
  | twice hshort _ ih =>
      cases hd' with
      | done henough => omega
      | twice _ hrest => exact ih hrest

/-- The loop ends at the least doubling that is large enough. -/
theorem exists_isLeast (hd : Doubles need size stop) :
    ∃ k, IsLeast {k | need ≤ size * 2 ^ k} k ∧ stop = size * 2 ^ k := by
  induction hd with
  | done henough => exact ⟨0, ⟨by simpa using henough, fun _ _ => Nat.zero_le _⟩, by simp⟩
  | @twice size stop hshort _ ih =>
      obtain ⟨k, ⟨hk, hleast⟩, rfl⟩ := ih
      have hpow (j : Nat) : size * 2 ^ (j + 1) = 2 * size * 2 ^ j := by
        rw [Nat.pow_succ', ← Nat.mul_assoc, Nat.mul_comm size 2]
      refine ⟨k + 1, ⟨?_, fun j hj => ?_⟩, (hpow k).symm⟩
      · simpa [hpow] using hk
      · cases j with
        | zero =>
            have henough : need ≤ size := by simpa using hj
            omega
        | succ j =>
            have henough : need ≤ 2 * size * 2 ^ j := by simpa [hpow] using hj
            exact Nat.succ_le_succ (hleast henough)

end Doubles

/-- **Where the loop ends**, which it does unless it has to make something of nothing. -/
theorem doubles_iff : Doubles need size stop ↔ (0 < size ∨ need = 0) ∧ stop = grown size need := by
  have hgrown : 0 < size ∨ need = 0 → Doubles need size (grown size need) :=
    doubles_doubled need size need (by omega)
  constructor
  · intro hd
    have hsize : 0 < size ∨ need = 0 := by
      obtain ⟨k, ⟨hk, -⟩, -⟩ := hd.exists_isLeast
      by_cases hzero : size = 0
      · exact .inr (by simpa [hzero] using hk)
      · exact .inl (by omega)
    exact ⟨hsize, hd.unique (hgrown hsize)⟩
  · rintro ⟨hsize, rfl⟩
    exact hgrown hsize

/-! ## the size of the memory -/

/-- The memory is as large as `base`, doubled as often as the cursor needs and no more. -/
def Fitted (base : Nat) (h : Heap) : Prop :=
  ∃ k, IsLeast {k | h.cursor ≤ base * 2 ^ k} k ∧ h.capacity = base * 2 ^ k

namespace Fitted

variable {base : Nat}

theorem new (size : Nat) : Fitted (max size 1) (Heap.new size) :=
  ⟨0, ⟨Nat.zero_le _, fun _ _ => Nat.zero_le _⟩, (Nat.mul_one _).symm⟩

/-- The size depends on the cursor alone. -/
theorem capacity_eq (hh : h.Fitted base) (hh' : h'.Fitted base) (hcursor : h'.cursor = h.cursor) :
    h'.capacity = h.capacity := by
  obtain ⟨k, hk, hcapacity⟩ := hh
  obtain ⟨k', hk', hcapacity'⟩ := hh'
  rw [hcursor] at hk'
  rw [hcapacity', hcapacity, hk'.unique hk]

/-- Doublings of a memory that reached an old cursor, until it reaches a new one, are the first
doublings of its first size that do. -/
theorem grow (hh : h.Fitted base) (hcursor : h.cursor ≤ h'.cursor)
    (hd : Doubles h'.cursor h.capacity h'.capacity) : h'.Fitted base := by
  obtain ⟨k, ⟨-, hleast⟩, hcapacity⟩ := hh
  obtain ⟨n, ⟨hn, hfirst⟩, hstop⟩ := hd.exists_isLeast
  have hpow (j : Nat) : base * 2 ^ (k + j) = h.capacity * 2 ^ j := by
    rw [hcapacity, Nat.pow_add, Nat.mul_assoc]
  refine ⟨k + n, ⟨?_, fun j hj => ?_⟩, by rw [hpow, hstop]⟩
  · simpa [hpow] using hn
  · -- fewer than `k` doublings do not even reach the old cursor
    have hkj : k ≤ j := hleast (Nat.le_trans hcursor hj)
    obtain ⟨i, rfl⟩ := Nat.exists_eq_add_of_le hkj
    have hi : n ≤ i := hfirst (show h'.cursor ≤ h.capacity * 2 ^ i from hpow i ▸ hj)
    omega

theorem same (hh : h.Fitted base) (hcursor : h'.cursor = h.cursor)
    (hcapacity : h'.capacity = h.capacity) : h'.Fitted base := by
  unfold Fitted
  rw [hcursor, hcapacity]
  exact hh

end Fitted

/-- What lies beyond the memory is zero. -/
def Blank (h : Heap) : Prop := ∀ i, h.capacity ≤ i → h.memory.byteAt i = 0

/-- What is kept of the memory while it grows. -/
structure Grown (base : Nat) (h : Heap) : Prop where
  fitted : h.Fitted base
  blank : h.Blank
  capacity_pos : 0 < h.capacity

theorem doubles_allocate (hpos : 0 < h.capacity) {len : Nat} (hf : h.freedOf len = []) :
    Doubles (h.allocate len).2.cursor h.capacity (h.allocate len).2.capacity := by
  rw [allocate_of_nil hf]
  exact doubles_iff.mpr ⟨.inl hpos, rfl⟩

namespace Grown

variable {base : Nat}

theorem new (size : Nat) : Grown (max size 1) (Heap.new size) where
  fitted := .new size
  blank _ _ := rfl
  capacity_pos := Nat.le_max_right size 1

theorem allocate (hh : h.Grown base) (len : Nat) : (h.allocate len).2.Grown base := by
  have hle := capacity_le_allocate h len
  refine ⟨?_, fun i hi => ?_, Nat.lt_of_lt_of_le hh.capacity_pos hle⟩
  · cases hf : h.freedOf len with
    | nil =>
        refine hh.fitted.grow ?_ (doubles_allocate hh.capacity_pos hf)
        rw [allocate_of_nil hf]
        exact Nat.le_add_right ..
    | cons ptr rest =>
        rw [allocate_of_cons hf]
        exact hh.fitted.same rfl rfl
  · rw [byteAt_allocate]
    exact hh.blank i (Nat.le_trans hle hi)

theorem free (hh : h.Grown base) {ptr : Nat} (hf : h.free ptr = .ok h') : h'.Grown base := by
  obtain ⟨len, -, rfl⟩ := free_eq_ok_iff.mp hf
  exact ⟨hh.fitted.same rfl rfl, hh.blank, hh.capacity_pos⟩

/-- A write keeps within the memory. -/
theorem write (hh : h.Grown base) {ptr : Nat} {bs : List UInt8} (hw : h.write ptr bs = .ok h') :
    h'.Grown base := by
  obtain ⟨hrange, rfl⟩ := write_eq_ok_iff.mp hw
  have hsize : ({ h with memory := h.memory.write ptr bs } : Heap).capacity = h.capacity :=
    Memory.size_write ..
  refine ⟨hh.fitted.same rfl hsize, fun i hi => ?_, ?_⟩
  · rw [hsize] at hi
    rw [Memory.byteAt_write, if_neg (by omega)]
    exact hh.blank i hi
  · rw [hsize]
    exact hh.capacity_pos

theorem afterAll (hh : h.Grown base) (calls : List Call) : (h.afterAll calls).Grown base :=
  afterAll_induction (after_of_kept (fun _ len hp => hp.allocate len) (fun _ _ _ hp hf => hp.free hf)
    fun _ _ _ _ hp hw => hp.write hw) calls hh

/-- New bytes are zero. -/
theorem read_new (hh : h.Grown base) {ptr n len : Nat} (hlo : h.capacity ≤ ptr)
    (hhi : ptr + n ≤ (h.allocate len).2.capacity) :
    (h.allocate len).2.read ptr n = .ok (List.replicate n 0) := by
  rw [read_of_le hhi, Memory.read, List.map_eq_replicate_iff.mpr, List.length_range']
  intro i hi
  rw [byteAt_allocate]
  exact hh.blank i (by grind)

end Grown

/-- Old bytes stay. -/
theorem read_allocate_of_le {ptr n : Nat} (hle : ptr + n ≤ h.capacity) (len : Nat) :
    (h.allocate len).2.read ptr n = h.read ptr n := by
  rw [read_of_le hle, read_of_le (Nat.le_trans hle (capacity_le_allocate h len)),
    Memory.read_congr fun i _ _ => byteAt_allocate h len i]

/-- **The memory grows by doubling.** After any calls on a new heap, the memory is as large as its
first size, doubled as often as the cursor needs; calls that move the cursor to the same place come
to the same size. Every request is served, whatever its length: the loop that doubles the memory
ends, and what it ends at is the size from then on, unless a freed block is reused. The bytes that
were in the memory stay, and those that come to it are zero. -/
theorem memory_grows_by_doubling {size : Nat} {calls : List Call}
    (hreached : (Heap.new size).afterAll calls = h) :
    (∃ k, IsLeast {k | h.cursor ≤ max size 1 * 2 ^ k} k ∧ h.capacity = max size 1 * 2 ^ k) ∧
    (∀ calls', ((Heap.new size).afterAll calls').cursor = h.cursor →
      ((Heap.new size).afterAll calls').capacity = h.capacity) ∧
    ∀ len, (∃ stop, Doubles (h.cursor + extent len) h.capacity stop ∧
        (h.allocate len).2.capacity = if h.freedOf len = [] then stop else h.capacity) ∧
      ∀ ptr n,
        (ptr + n ≤ h.capacity → (h.allocate len).2.read ptr n = h.read ptr n) ∧
        (h.capacity ≤ ptr → ptr + n ≤ (h.allocate len).2.capacity →
          (h.allocate len).2.read ptr n = .ok (List.replicate n 0)) := by
  have hgrown (calls : List Call) : ((Heap.new size).afterAll calls).Grown (max size 1) :=
    (Grown.new size).afterAll calls
  have hh := hgrown calls
  rw [hreached] at hh
  refine ⟨hh.fitted, fun calls' => hh.fitted.capacity_eq (hgrown calls').fitted, fun len => ?_⟩
  refine ⟨⟨_, doubles_iff.mpr ⟨.inl hh.capacity_pos, rfl⟩, ?_⟩, fun ptr n =>
    ⟨fun hle => read_allocate_of_le hle len, hh.read_new⟩⟩
  cases hf : h.freedOf len with
  | nil => rw [allocate_of_nil hf]; rfl
  | cons ptr rest => rw [allocate_of_cons hf]; rfl

/-- A memory of three bytes is doubled twice at once. -/
theorem memory_grows_by_doubling_twice :
    ∃ h, (Heap.new 3).afterAll [.allocate 2, .write 0 [7, 8]] = h ∧ h.capacity = 3 ∧
      (h.allocate 10).2.capacity = 12 ∧ (h.allocate 10).2.read 0 2 = .ok [7, 8] ∧
      (h.allocate 10).2.read 3 9 = .ok (List.replicate 9 0) := by
  obtain ⟨-, -, hserved⟩ :=
    memory_grows_by_doubling (h := (Heap.new 3).afterAll [.allocate 2, .write 0 [7, 8]]) rfl
  obtain ⟨-, hbytes⟩ := hserved 10
  exact ⟨_, rfl, rfl, rfl, (hbytes 0 2).1 (by decide), (hbytes 3 9).2 (by decide) (by decide)⟩

end Heap

end CellMachine
