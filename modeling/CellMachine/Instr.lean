import CellMachine.Bytes
import CellMachine.Fault
import CellMachine.Opcode
import CellMachine.Operator.Basic

/-!
# CellMachine.Instr

Instructions: an opcode with its inline operands. `Instr.encode` writes one as
bytes and `Instr.decode` reads one at a position of a program.

Reading moves the position over each part it has read, so after a fault the
position stands where the missing or invalid part begins or ends.
-/

namespace CellMachine

/-- A program is its bytes. -/
abbrev Program := Array UInt8

/-- An instruction with its inline operands. -/
inductive Instr where
  | noop
  /-- Pushes a payload and its tag. -/
  | push (t : Tag) (payload : List UInt8)
  /-- Pushes raw bytes. -/
  | pushSpan (bytes : List UInt8)
  /-- Pushes a bare tag. -/
  | pushType (t : Tag)
  /-- Pushes a reference to a register. -/
  | pushRegPtr (r : UInt8)
  | dupe
  | discard
  | discardType
  | arith (op : ArithOp)
  | negate
  | compare (op : CompareOp)
  | and
  | or
  | not
  | cast (t : Tag)
  | store (r : UInt8)
  | load (r : UInt8)
  /-- Writes a cell to the address in a register. -/
  | storePtr (r : UInt8)
  /-- Reads a cell from the address in a register. -/
  | loadPtr (r : UInt8) (t : Tag)
  | alloc
  | free
  | write
  | read
  | jump
  | jumpZero
  | jumpGtZero
  /-- Jumps and remembers where it came from. -/
  | jumpHistory
  | ret
  | callHost
  | dbgPrint
  | breakpoint
  deriving DecidableEq, Repr

namespace Instr

/-- The opcode of an instruction. -/
def opcode : Instr → Opcode
  | noop => .noop
  | push _ _ => .push
  | pushSpan _ => .pushSpan
  | pushType _ => .pushType
  | pushRegPtr _ => .pushRegPtr
  | dupe => .dupe
  | discard => .discard
  | discardType => .discardType
  | arith .add => .add
  | arith .sub => .sub
  | arith .mul => .mul
  | arith .div => .divide
  | arith .mod => .mod
  | negate => .negate
  | compare .gt => .gt
  | compare .gte => .gte
  | compare .lt => .lt
  | compare .lte => .lte
  | compare .eq => .eq
  | compare .neq => .neq
  | and => .and
  | or => .or
  | not => .not
  | cast _ => .cast
  | store _ => .store
  | load _ => .load
  | storePtr _ => .storePtr
  | loadPtr _ _ => .loadPtr
  | alloc => .alloc
  | free => .free
  | write => .write
  | read => .read
  | jump => .jump
  | jumpZero => .jumpZero
  | jumpGtZero => .jumpGtZero
  | jumpHistory => .jumpHistory
  | ret => .ret
  | callHost => .callHost
  | dbgPrint => .dbgPrint
  | breakpoint => .breakpoint

/-- The bytes of the inline operands. -/
def operandBytes : Instr → List UInt8
  | push t payload => t.code :: payload
  | pushSpan bytes => leBytes 4 bytes.length ++ bytes
  | pushType t | cast t => [t.code]
  | pushRegPtr r | store r | load r | storePtr r => [r]
  | loadPtr r t => [r, t.code]
  | _ => []

/-- The bytes of an instruction. -/
def encode (i : Instr) : List UInt8 := i.opcode.code :: i.operandBytes

/-- Reading from a program: the state is the position. -/
abbrev Reader := EStateM Fault Nat

/-- Reads `n` bytes. -/
def readBytes (p : Program) (n : Nat) : Reader (List UInt8) := fun ip =>
  if ip + n ≤ p.size then .ok (p.extract ip (ip + n)).toList (ip + n)
  else .error (.truncated ip) ip

/-- Reads a byte. -/
def readByte (p : Program) : Reader UInt8 := fun ip =>
  if h : ip < p.size then .ok p[ip] (ip + 1) else .error (.truncated ip) ip

/-- Reads a tag; a byte that is no tag has been read. -/
def readTag (p : Program) : Reader Tag := do
  match Tag.ofCode (← readByte p) with
  | .ok t => return t
  | .error e => throw e

/-- Reads an opcode; a byte that is none has not been read. -/
def readOpcode (p : Program) : Reader Opcode := fun ip =>
  if h : ip < p.size then
    match Opcode.ofCode? p[ip] with
    | some o => .ok o (ip + 1)
    | none => .error (.unknownOpcode p[ip] ip) ip
  else .error (.truncated ip) ip

/-- Reads the inline operands of an opcode. -/
def readOperands (p : Program) : Opcode → Reader Instr
  | .noop => return noop
  | .push => do
    let t ← readTag p
    return push t (← readBytes p t.width)
  | .pushSpan => do
    let len ← readBytes p 4
    return pushSpan (← readBytes p (leNat len))
  | .pushType => return pushType (← readTag p)
  | .pushRegPtr => return pushRegPtr (← readByte p)
  | .dupe => return dupe
  | .discard => return discard
  | .discardType => return discardType
  | .add => return arith .add
  | .sub => return arith .sub
  | .mul => return arith .mul
  | .divide => return arith .div
  | .mod => return arith .mod
  | .negate => return negate
  | .gt => return compare .gt
  | .gte => return compare .gte
  | .lt => return compare .lt
  | .lte => return compare .lte
  | .eq => return compare .eq
  | .neq => return compare .neq
  | .and => return and
  | .or => return or
  | .not => return not
  | .cast => return cast (← readTag p)
  | .store => return store (← readByte p)
  | .load => return load (← readByte p)
  | .storePtr => return storePtr (← readByte p)
  | .loadPtr => do
    let r ← readByte p
    return loadPtr r (← readTag p)
  | .alloc => return alloc
  | .free => return free
  | .write => return write
  | .read => return read
  | .jump => return jump
  | .jumpZero => return jumpZero
  | .jumpGtZero => return jumpGtZero
  | .jumpHistory => return jumpHistory
  | .ret => return ret
  | .callHost => return callHost
  | .dbgPrint => return dbgPrint
  | .breakpoint => return breakpoint

/-- Reads an instruction. -/
def decode (p : Program) : Reader Instr := do
  let o ← readOpcode p
  readOperands p o

end Instr

end CellMachine
