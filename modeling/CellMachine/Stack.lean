import CellMachine.Cell

/-!
# CellMachine.Stack

The operand stack: bytes in a growing buffer below a cursor. A cell is written
payload first and tag last, so a pop reads the tag and then knows how many
payload bytes lie below it; untagged spans may lie between cells.

`Stack.toList` is the view: the live bytes, bottom first. Popping moves the
cursor and leaves the bytes behind; what a failing pop has consumed stays
consumed.
-/

namespace CellMachine

/-- The operand stack. -/
structure Stack where
  buffer : Array UInt8
  /-- How many bytes are live. -/
  cursor : Nat
  cursor_le : cursor ≤ buffer.size := by simp

namespace Stack

/-- The empty stack with room for `capacity` bytes. -/
def withCapacity (capacity : Nat) : Stack where
  buffer := Array.replicate capacity 0
  cursor := 0

/-- The live bytes, bottom first. -/
def toList (s : Stack) : List UInt8 := (s.buffer.extract 0 s.cursor).toList

/-- How many bytes are on the stack. -/
def length (s : Stack) : Nat := s.cursor

/-- Whether nothing is on the stack. -/
def isEmpty (s : Stack) : Bool := s.cursor == 0

/-- The buffer with room for `need` bytes: if it is too small, at least twice its size. -/
def reserve (buffer : Array UInt8) (need : Nat) : Array UInt8 :=
  if buffer.size < need then
    buffer ++ Array.replicate (max need (buffer.size * 2) - buffer.size) 0
  else buffer

theorem le_size_reserve (buffer : Array UInt8) (need : Nat) :
    need ≤ (reserve buffer need).size := by
  unfold reserve
  split
  · rw [Array.size_append, Array.size_replicate]
    omega
  · omega

/-- Pushes raw bytes. -/
def pushRaw (s : Stack) (bytes : List UInt8) : Stack where
  buffer := overwrite (reserve s.buffer (s.cursor + bytes.length)) s.cursor bytes
  cursor := s.cursor + bytes.length
  cursor_le := by simpa using le_size_reserve s.buffer (s.cursor + bytes.length)

/-- Pushes a payload and then a tag. -/
def push (s : Stack) (payload : List UInt8) (t : Tag) : Stack :=
  (s.pushRaw payload).pushRaw [t.code]

/-- Pushes a cell. -/
def pushCell (s : Stack) (c : Cell) : Stack := s.push c.bytes c.tag

/-- Pops `n` bytes, or none at all if there are fewer. -/
def popSpan (n : Nat) : EStateM Fault Stack (List UInt8) := fun s =>
  if n > s.cursor then .error (.stackUnderflow n s.cursor) s
  else
    .ok (s.buffer.extract (s.cursor - n) s.cursor).toList
      { s with cursor := s.cursor - n, cursor_le := Nat.le_trans (Nat.sub_le ..) s.cursor_le }

/-- Pops the tag byte on top; a byte that is no tag is gone too. -/
def popTag : EStateM Fault Stack Tag := do
  let span ← popSpan 1
  match Tag.ofCode (span.headD 0) with
  | .ok t => return t
  | .error e => throw e

/-- Pops a cell: its tag, then its payload. -/
def popCell : EStateM Fault Stack Cell := do
  let t ← popTag
  let payload ← popSpan t.width
  return Cell.ofBytes t payload

/-- The tag byte on top. -/
def peekTag (s : Stack) : Except Fault Tag :=
  if s.cursor = 0 then .error (.stackUnderflow 1 0)
  else Tag.ofCode (s.buffer.getD (s.cursor - 1) 0)

/-- The cell on top. -/
def peekCell (s : Stack) : Except Fault Cell := do
  let t ← s.peekTag
  if s.cursor < t.width + 1 then .error (.stackUnderflow (t.width + 1) s.cursor)
  else
    let payload := s.buffer.extract (s.cursor - 1 - t.width) (s.cursor - 1)
    .ok (Cell.ofBytes t payload.toList)

/-! ## The operations through the view -/

theorem toList_eq_take (s : Stack) : s.toList = s.buffer.toList.take s.cursor := by
  simp [toList]

@[simp] theorem length_toList (s : Stack) : s.toList.length = s.cursor := by
  have := s.cursor_le
  rw [toList, Array.length_toList, Array.size_extract]
  omega

@[simp] theorem toList_withCapacity (capacity : Nat) : (withCapacity capacity).toList = [] := by
  simp [toList, withCapacity]

theorem take_reserve (buffer : Array UInt8) (need n : Nat) (h : n ≤ buffer.size) :
    (reserve buffer need).toList.take n = buffer.toList.take n := by
  unfold reserve
  split
  · rw [Array.toList_append, List.take_append_of_le_length (by simpa using h)]
  · rfl

/-- Pushing appends at the end, whatever was left in the buffer above the cursor. -/
@[simp] theorem toList_pushRaw (s : Stack) (bytes : List UInt8) :
    (s.pushRaw bytes).toList = s.toList ++ bytes := by
  have hroom := le_size_reserve s.buffer (s.cursor + bytes.length)
  have hlive := s.length_toList
  rw [toList_eq_take] at hlive
  rw [toList_eq_take, toList_eq_take]
  simp only [pushRaw]
  have hnew : (s.buffer.toList.take s.cursor ++ bytes).length = s.cursor + bytes.length := by
    rw [List.length_append, hlive]
  rw [toList_overwrite _ _ _ hroom, take_reserve _ _ _ s.cursor_le,
    List.take_append_of_le_length (Nat.le_of_eq hnew.symm),
    List.take_of_length_le (Nat.le_of_eq hnew)]

@[simp] theorem toList_push (s : Stack) (payload : List UInt8) (t : Tag) :
    (s.push payload t).toList = s.toList ++ payload ++ [t.code] := by
  simp [push]

@[simp] theorem toList_pushCell (s : Stack) (c : Cell) :
    (s.pushCell c).toList = s.toList ++ c.bytes ++ [c.tag.code] := by
  simp [pushCell]

/-- A pop of more bytes than there are fails and removes nothing. -/
theorem popSpan_of_lt {n : Nat} {s : Stack} (h : s.toList.length < n) :
    popSpan n s = .error (.stackUnderflow n s.toList.length) s := by
  rw [length_toList] at h ⊢
  simp [popSpan, h]

/-- A pop of `n` bytes splits them off the end. -/
theorem popSpan_of_le {n : Nat} {s : Stack} (h : n ≤ s.toList.length) :
    ∃ t, popSpan n s = .ok (s.toList.drop (s.toList.length - n)) t ∧
      t.toList = s.toList.take (s.toList.length - n) := by
  have hc := s.cursor_le
  rw [length_toList] at h ⊢
  refine ⟨{ s with cursor := s.cursor - n, cursor_le := by omega }, ?_, ?_⟩
  · have hn : ¬ n > s.cursor := by omega
    simp [popSpan, hn, toList, List.drop_take]
  · simp [toList, List.take_take]

end Stack

end CellMachine
