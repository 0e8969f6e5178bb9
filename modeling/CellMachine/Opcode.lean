/-!
# CellMachine.Opcode

The operation codes: one byte each, with the mnemonic under which assembly
listings name them.
-/

namespace CellMachine

/-- The operation an instruction performs. -/
inductive Opcode where
  | noop | push | pushSpan | pushType | pushRegPtr | dupe | discard | discardType
  | add | sub | mul | divide | mod | negate
  | gt | gte | lt | lte | eq | neq | and | or | not
  | cast | store | load | storePtr | loadPtr
  | alloc | free | write | read
  | jump | jumpZero | jumpGtZero | jumpHistory | ret
  | callHost | dbgPrint | breakpoint
  deriving DecidableEq, Repr, Inhabited

namespace Opcode

/-- All opcodes. -/
def all : List Opcode :=
  [noop, push, pushSpan, pushType, pushRegPtr, dupe, discard, discardType,
   add, sub, mul, divide, mod, negate, gt, gte, lt, lte, eq, neq, and, or, not,
   cast, store, load, storePtr, loadPtr, alloc, free, write, read,
   jump, jumpZero, jumpGtZero, jumpHistory, ret, callHost, dbgPrint, breakpoint]

/-- The byte that stands for an opcode. -/
def code : Opcode → UInt8
  | noop => 0x00
  | push => 0x01
  | pushSpan => 0x02
  | pushType => 0x03
  | pushRegPtr => 0x04
  | dupe => 0x05
  | discard => 0x06
  | discardType => 0x07
  | add => 0x10
  | sub => 0x11
  | mul => 0x12
  | divide => 0x13
  | mod => 0x14
  | negate => 0x15
  | gt => 0x20
  | gte => 0x21
  | lt => 0x22
  | lte => 0x23
  | eq => 0x24
  | neq => 0x25
  | and => 0x26
  | or => 0x27
  | not => 0x28
  | cast => 0x30
  | store => 0x31
  | load => 0x32
  | storePtr => 0x33
  | loadPtr => 0x34
  | alloc => 0x40
  | free => 0x41
  | write => 0x42
  | read => 0x43
  | jump => 0x50
  | jumpZero => 0x51
  | jumpGtZero => 0x52
  | jumpHistory => 0x53
  | ret => 0x54
  | callHost => 0x60
  | dbgPrint => 0x61
  | breakpoint => 0x62

/-- The name of an opcode in assembly listings. -/
def mnemonic : Opcode → String
  | noop => "NOOP"
  | push => "PUSH"
  | pushSpan => "PUSH_SPAN"
  | pushType => "PUSH_TYPE"
  | pushRegPtr => "PUSH_REG_PTR"
  | dupe => "DUPE"
  | discard => "DISCARD"
  | discardType => "DISCARD_TYPE"
  | add => "ADD"
  | sub => "SUB"
  | mul => "MUL"
  | divide => "DIVIDE"
  | mod => "MOD"
  | negate => "NEGATE"
  | gt => "GT"
  | gte => "GTE"
  | lt => "LT"
  | lte => "LTE"
  | eq => "EQ"
  | neq => "NEQ"
  | and => "AND"
  | or => "OR"
  | not => "NOT"
  | cast => "CAST"
  | store => "STORE"
  | load => "LOAD"
  | storePtr => "STORE_PTR"
  | loadPtr => "LOAD_PTR"
  | alloc => "ALLOC"
  | free => "FREE"
  | write => "WRITE"
  | read => "READ"
  | jump => "JUMP"
  | jumpZero => "JUMP_ZERO"
  | jumpGtZero => "JUMP_GT_ZERO"
  | jumpHistory => "JUMP_HISTORY"
  | ret => "RETURN"
  | callHost => "CALL_HOST"
  | dbgPrint => "DBG_PRINT"
  | breakpoint => "BREAKPOINT"

/-- The opcode that a byte stands for. -/
def ofCode? (b : UInt8) : Option Opcode := all.find? fun o => o.code == b

/-- The opcode with a given mnemonic. -/
def ofMnemonic? (s : String) : Option Opcode := all.find? fun o => o.mnemonic == s

@[simp] theorem ofCode?_code (o : Opcode) : ofCode? o.code = some o := by cases o <;> rfl

/-- A byte stands for at most one opcode. -/
theorem code_of_ofCode? {b : UInt8} {o : Opcode} (h : ofCode? b = some o) : o.code = b := by
  simpa using List.find?_some h

end Opcode

end CellMachine
