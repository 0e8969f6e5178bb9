/-!
# CellMachine.Tag

The fourteen type tags. A tag fixes how many payload bytes a cell has, whether
it takes part in arithmetic and in which order tags widen into one another.
-/

namespace CellMachine

/-- The type of a cell. -/
inductive Tag where
  /-- Signed 32-bit integer. -/
  | int
  /-- 32-bit float. -/
  | real
  /-- Heap pointer to a text. -/
  | string
  /-- Truth value in one byte. -/
  | bool
  /-- Unsigned 8-bit integer. -/
  | byte
  /-- Unsigned 16-bit integer. -/
  | word
  /-- Unsigned 32-bit integer. -/
  | dword
  /-- Signed 64-bit integer. -/
  | dint
  /-- 64-bit float. -/
  | dfloat
  /-- Heap pointer to a record. -/
  | struct
  /-- No value; also marks an omitted command argument. -/
  | void
  /-- Reference to a register. -/
  | ptrReg
  /-- Reference to a heap address. -/
  | ptrHeap
  /-- Stands for every type in the signature of a command. -/
  | any
  deriving DecidableEq, Repr, Inhabited

namespace Tag

/-- All tags, each at the position of its code. -/
def all : List Tag :=
  [int, real, string, bool, byte, word, dword, dint, dfloat, struct, void, ptrReg, ptrHeap, any]

/-- The byte that stands for a tag in programs and on the stack. -/
def code : Tag → UInt8
  | int => 0
  | real => 1
  | string => 2
  | bool => 3
  | byte => 4
  | word => 5
  | dword => 6
  | dint => 7
  | dfloat => 8
  | struct => 9
  | void => 10
  | ptrReg => 11
  | ptrHeap => 12
  | any => 13

/-- The tag that a byte stands for. -/
def ofCode? (b : UInt8) : Option Tag := all[b.toNat]?

/-- The name of a tag in messages and documents. -/
def name : Tag → String
  | int => "int"
  | real => "real"
  | string => "string"
  | bool => "bool"
  | byte => "byte"
  | word => "word"
  | dword => "dword"
  | dint => "dint"
  | dfloat => "dfloat"
  | struct => "struct"
  | void => "void"
  | ptrReg => "ptr_reg"
  | ptrHeap => "ptr_heap"
  | any => "any"

/-- The tag with a given name. -/
def ofName? (s : String) : Option Tag := all.find? fun t => t.name == s

/-- How many payload bytes a cell of this tag has. -/
def width : Tag → Nat
  | int | real | string | dword | struct | ptrHeap => 4
  | bool | byte | ptrReg => 1
  | word => 2
  | dint | dfloat => 8
  | void | any => 0

/-- The numeric tags, from the narrowest to the widest. -/
def numeric : List Tag := [bool, byte, word, int, dword, real, dint, dfloat]

/-- The place of a tag in the order of promotion. -/
def rank? : Tag → Option Nat
  | bool => some 0
  | byte => some 1
  | word => some 2
  | int => some 3
  | dword => some 4
  | real => some 5
  | dint => some 6
  | dfloat => some 7
  | _ => none

/-- Tags that convert into each other by value. -/
def isNumeric (t : Tag) : Bool := t.rank?.isSome

/-- Tags whose payload can be a heap address. -/
def isPointerLike : Tag → Bool
  | int | string | struct | ptrHeap => true
  | _ => false

/-- The tag two operands meet in: their own when they agree, the higher-ranked of two numeric
ones otherwise. -/
def promote (a b : Tag) : Option Tag :=
  if a = b then some a
  else match a.rank?, b.rank? with
    | some i, some j => some (if i ≥ j then a else b)
    | _, _ => none

@[simp] theorem ofCode?_code (t : Tag) : ofCode? t.code = some t := by cases t <;> rfl

theorem width_le (t : Tag) : t.width ≤ 8 := by cases t <;> decide

end Tag

end CellMachine
