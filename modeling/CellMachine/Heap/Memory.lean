import Std.Data.TreeMap
import Std.Data.TreeMap.Lemmas

/-!
# CellMachine.Heap.Memory

The bytes behind the heap: a size and the bytes written so far. A byte that was
never written is zero, so growing the memory costs nothing.
-/

namespace CellMachine

/-- A zero-initialised memory of `size` bytes. -/
structure Memory where
  size : Nat
  /-- The bytes written so far, by address. -/
  written : Std.TreeMap Nat UInt8 := ∅

namespace Memory

/-- The byte at an address. -/
def byteAt (m : Memory) (a : Nat) : UInt8 := m.written.getD a 0

/-- The `len` bytes from `a` on. -/
def read (m : Memory) (a len : Nat) : List UInt8 := (List.range' a len).map m.byteAt

/-- Writes bytes from `a` on. -/
def write (m : Memory) (a : Nat) : List UInt8 → Memory
  | [] => m
  | b :: bs => write { m with written := m.written.insert a b } (a + 1) bs

@[simp] theorem size_write (m : Memory) (a : Nat) (bs : List UInt8) :
    (m.write a bs).size = m.size := by
  induction bs generalizing m a with
  | nil => rfl
  | cons b bs ih => simp [write, ih]

@[simp] theorem length_read (m : Memory) (a len : Nat) : (m.read a len).length = len := by
  simp [read]

/-- What is read depends on the bytes in the range only. -/
theorem read_congr {m m' : Memory} {a len : Nat}
    (h : ∀ i, a ≤ i → i < a + len → m'.byteAt i = m.byteAt i) : m'.read a len = m.read a len := by
  unfold read
  apply List.map_congr_left
  intro i hi
  obtain ⟨hlo, hhi⟩ := List.mem_range'_1.mp hi
  exact h i hlo hhi

/-- A written byte is read back, and every other byte is as before. -/
theorem byteAt_write (m : Memory) (a i : Nat) (bs : List UInt8) :
    (m.write a bs).byteAt i = if a ≤ i ∧ i < a + bs.length then bs.getD (i - a) 0 else m.byteAt i := by
  induction bs generalizing m a with
  | nil =>
    rw [write, if_neg]
    rw [List.length_nil]
    omega
  | cons b bs ih =>
    rw [write, ih]
    by_cases hi : i = a
    · subst hi
      rw [if_neg (by omega)]
      simp [byteAt]
    · by_cases hr : a ≤ i ∧ i < a + (bs.length + 1)
      · have hsub : i - a = (i - (a + 1)) + 1 := by omega
        rw [if_pos (by omega), if_pos (by simpa using hr), hsub]
        simp
      · rw [if_neg (by omega), if_neg (by simpa using hr)]
        have hne : a ≠ i := fun h => hi h.symm
        simp [byteAt, Std.TreeMap.getD_insert, hne]

/-- What was written is what is read. -/
theorem read_write (m : Memory) (a : Nat) (bs : List UInt8) :
    (m.write a bs).read a bs.length = bs := by
  apply List.ext_getElem (by simp)
  intro i _ h
  simp [read, byteAt_write, h]

end Memory

end CellMachine
