import CellMachine.Cell
import CellMachine.Heap.Memory
import CellMachine.Text.Slots

/-!
# CellMachine.Heap.Basic

The heap: blocks laid side by side in one memory that doubles when it is full.
An address is live while the table of live blocks has it. A freed block is kept
for the next request of exactly its length, last freed first reused; blocks are
neither split nor joined.
-/

namespace CellMachine

/-- The heap. -/
structure Heap where
  memory : Memory
  /-- Where the next new block starts. -/
  cursor : Nat := 0
  /-- The length of each live block, by address. -/
  live : Std.TreeMap Nat Nat := ∅
  /-- The addresses of freed blocks by length, the last freed first. -/
  freed : Std.TreeMap Nat (List Nat) := ∅

namespace Heap

/-- An empty heap on a memory of `size` bytes, at least one. -/
def new (size : Nat) : Heap where
  memory := ⟨max size 1, ∅⟩

/-- The size of the memory. -/
def capacity (h : Heap) : Nat := h.memory.size

/-- The live blocks as address and length, by address. -/
def blocks (h : Heap) : List (Nat × Nat) := h.live.toList

/-- The length of the live block at an address. -/
def length? (h : Heap) (ptr : Nat) : Option Nat := h.live[ptr]?

/-- The addresses of the freed blocks of one length, the last freed first. -/
def freedOf (h : Heap) (len : Nat) : List Nat := h.freed.getD len []

/-- How many bytes a block of a given length takes up: an empty one takes one, so that every
block has an address of its own. -/
def extent (len : Nat) : Nat := max len 1

/-- Doubles `size` until it reaches `need`, at most `fuel` times. -/
def doubled : (fuel size need : Nat) → Nat
  | 0, size, _ => size
  | fuel + 1, size, need => if need ≤ size then size else doubled fuel (2 * size) need

/-- The size a memory grows to so that `need` bytes fit; `need` doublings are more than enough. -/
def grown (size need : Nat) : Nat := doubled need size need

/-- Makes a live block of `len` bytes, from the block of that length freed last if there is one. -/
def allocate (h : Heap) (len : Nat) : Nat × Heap :=
  match h.freedOf len with
  | ptr :: rest =>
    (ptr, { h with live := h.live.insert ptr len, freed := h.freed.insert len rest })
  | [] =>
    let stop := h.cursor + extent len
    (h.cursor, { h with
      memory := { h.memory with size := grown h.memory.size stop }
      cursor := stop
      live := h.live.insert h.cursor len })

/-- The length of the live block at an address. -/
def lengthOf (h : Heap) (ptr : Nat) : Except Fault Nat :=
  match h.length? ptr with
  | some len => .ok len
  | none => .error (.untrackedPointer (reportedAddress ptr))

/-- Frees the live block at an address. -/
def free (h : Heap) (ptr : Nat) : Except Fault Heap := do
  let len ← h.lengthOf ptr
  return { h with
    live := h.live.erase ptr
    freed := h.freed.insert len (ptr :: h.freedOf len) }

/-- Fails unless the `len` bytes from `ptr` on lie in the memory. -/
def checkRange (h : Heap) (ptr len : Nat) : Except Fault Unit :=
  if ptr + len ≤ h.capacity then .ok () else .error (.outOfBounds (reportedAddress ptr) len)

/-- Reads `len` bytes from `ptr` on. -/
def read (h : Heap) (ptr len : Nat) : Except Fault (List UInt8) := do
  h.checkRange ptr len
  return h.memory.read ptr len

/-- Writes bytes from `ptr` on. -/
def write (h : Heap) (ptr : Nat) (bytes : List UInt8) : Except Fault Heap := do
  h.checkRange ptr bytes.length
  return { h with memory := h.memory.write ptr bytes }

/-- Copies `len` bytes from `src` to `dst`; the ranges may overlap. -/
def copy (h : Heap) (src dst len : Nat) : Except Fault Heap := do
  let bytes ← h.read src len
  h.write dst bytes

/-- The bytes of the live block at an address. -/
def readBlock (h : Heap) (ptr : Nat) : Except Fault (List UInt8) := do
  let len ← h.lengthOf ptr
  h.read ptr len

/-- The text in the live block at an address. -/
def readText (h : Heap) (ptr : Nat) : Except Fault String := do
  let bytes ← h.readBlock ptr
  match Text.decode? bytes with
  | some text => return text
  | none => throw (.invalidText (reportedAddress ptr))

end Heap

/-- Actions on a heap; what a failing action did stays done. -/
abbrev HeapM := EStateM Fault Heap

namespace HeapM

variable {α : Type}

/-- Stops unless there is a value. -/
def lift (x : Except Fault α) : HeapM α := fun h =>
  match x with
  | .ok a => .ok a h
  | .error e => .error e h

/-- Reads the heap. -/
def ask (f : Heap → Except Fault α) : HeapM α := fun h => lift (f h) h

/-- Changes the heap, unless that fails. -/
def update (f : Heap → Except Fault Heap) : HeapM Unit := fun h =>
  match f h with
  | .ok h => .ok () h
  | .error e => .error e h

/-- Makes a live block of `len` bytes. -/
def allocate (len : Nat) : HeapM Nat := fun h => .ok (h.allocate len).1 (h.allocate len).2

/-- Makes a live block that holds a text. -/
def allocateText (text : String) : HeapM Nat := do
  let bytes := Text.encode text
  let ptr ← allocate bytes.length
  update (·.write ptr bytes)
  return ptr

end HeapM

end CellMachine
