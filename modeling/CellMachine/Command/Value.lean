import CellMachine.Decimal.Layout
import CellMachine.Heap.Basic

/-!
# CellMachine.Command.Value

Values as host commands see them: the native value of a cell, or a whole text
in place of a pointer to one. Both cells and values are shown to users: numbers in
decimal, texts as they are, references by what they name.
-/

namespace CellMachine

/-- The text of a cell; that of a string is read from the heap. -/
def Cell.display (c : Cell) (h : Heap) : String :=
  match c.tag with
  | .int | .byte | .word | .dword | .dint => toString c.toInt
  | .real => (c.toNative : Binary32).render Decimal.plain
  | .dfloat => (c.toNative : Binary64).render Decimal.plain
  | .bool => toString (c.toNative : Bool)
  | .string =>
    match (c.expectPointer).bind h.readText with
    | .ok text => text
    | .error _ => s!"<invalid string @{c.toInt}>"
  | .struct => s!"struct@{c.toInt}"
  | .ptrHeap => s!"&heap[{c.toInt}]"
  | .ptrReg => s!"&r{c.toInt}"
  | .void => "void"
  | .any => "any"

/-- A value as a host command sees it. -/
inductive Value where
  | void
  | int (n : Int32)
  | real (x : Binary32)
  | bool (b : Bool)
  | byte (n : UInt8)
  | word (n : UInt16)
  | dword (n : UInt32)
  | dint (n : Int64)
  | dfloat (x : Binary64)
  | text (s : String)
  | struct (ptr : Int32)
  | heapPtr (ptr : Int32)
  deriving DecidableEq, Repr, Inhabited

namespace Value

/-- The tag of a value. -/
def tag : Value → Tag
  | void => .void
  | int _ => .int
  | real _ => .real
  | bool _ => .bool
  | byte _ => .byte
  | word _ => .word
  | dword _ => .dword
  | dint _ => .dint
  | dfloat _ => .dfloat
  | text _ => .string
  | struct _ => .struct
  | heapPtr _ => .ptrHeap

/-- The number of an `int`. -/
def asInt? : Value → Option Int32
  | int n => some n
  | _ => none

/-- The number of a `dfloat`. -/
def asDfloat? : Value → Option Binary64
  | dfloat x => some x
  | _ => none

/-- The text of a `string`. -/
def asText? : Value → Option String
  | text s => some s
  | _ => none

/-- The value of a cell that stands for itself: no text, no reference to a register, and not
nothing. -/
def ofCell? (c : Cell) : Option Value :=
  match c.tag with
  | .int => some (int c.toNative)
  | .real => some (real c.toNative)
  | .bool => some (bool c.toNative)
  | .byte => some (byte c.toNative)
  | .word => some (word c.toNative)
  | .dword => some (dword c.toNative)
  | .dint => some (dint c.toNative)
  | .dfloat => some (dfloat c.toNative)
  | .struct => some (struct c.toNative)
  | .ptrHeap => some (heapPtr c.toNative)
  | .string | .void | .ptrReg | .any => none

/-- The cell of a value; a text is put into a new block. -/
def toCell : Value → HeapM Cell
  | void => return Cell.void
  | int n => return .ofNative n
  | real x => return .ofNative x
  | bool b => return .ofNative b
  | byte n => return .ofNative n
  | word n => return .ofNative n
  | dword n => return .ofNative n
  | dint n => return .ofNative n
  | dfloat x => return .ofNative x
  | text s => do
    let ptr ← HeapM.allocateText s
    HeapM.lift (Cell.heapPointer .string ptr)
  | struct p => return .ofInt .struct p.toInt
  | heapPtr p => return .ofInt .ptrHeap p.toInt

/-- The text of a value as commands print it. -/
def display : Value → String
  | void => ""
  | int n => toString n.toInt
  | real x => x.render Decimal.plain
  | bool b => toString b
  | byte n => toString n.toNat
  | word n => toString n.toNat
  | dword n => toString n.toNat
  | dint n => toString n.toInt
  | dfloat x => x.render Decimal.plain
  | text s => s
  | struct p => s!"struct@{p.toInt}"
  | heapPtr p => s!"&heap[{p.toInt}]"

end Value

end CellMachine
