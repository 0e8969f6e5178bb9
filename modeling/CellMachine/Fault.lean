import CellMachine.Tag

/-!
# CellMachine.Fault

Why an operation of the machine stops, and why an assembly has no program.
Each cause carries what its message names; the wording is in `Fault.message`
and `AssemblyFault.message` alone.
-/

namespace CellMachine

/-- Why an operation of the machine stops. -/
inductive Fault where
  /-- The byte at `ip` is not an opcode. -/
  | unknownOpcode (byte : UInt8) (ip : Nat)
  /-- Inline operands starting at `ip` run past the end of the program. -/
  | truncated (ip : Nat)
  /-- A byte in the place of a tag is not one. -/
  | invalidTag (byte : UInt8)
  /-- More bytes were popped than the stack holds. -/
  | stackUnderflow (needed available : Nat)
  /-- No conversion leads from one tag to the other. -/
  | unsupportedCast (source target : Tag)
  /-- An operator has no meaning for these tags. -/
  | unsupportedOperation (symbol : String) (lhs rhs : Tag)
  /-- An operand has the wrong tag. -/
  | tagMismatch (expected found : Tag)
  /-- Integer division or remainder by zero. -/
  | divideByZero
  /-- A command argument does not fit its parameter. -/
  | argumentMismatch (command : String) (index : Nat) (expected found : Tag)
  /-- No command has this address. -/
  | unknownCommand (address : Int)
  /-- A command reported a failure. -/
  | commandFailed (command reason : String)
  /-- No live block starts at this address. -/
  | untrackedPointer (ptr : Int)
  /-- A heap range ends past the memory, or a pointer is no address. -/
  | outOfBounds (ptr : Int) (len : Nat)
  /-- A byte count is negative. -/
  | negativeLength (len : Int)
  /-- A block holds a slot that is no character. -/
  | invalidText (ptr : Int)
  /-- A jump leads outside the program. -/
  | invalidJump (target : Int)
  /-- Too many calls are open. -/
  | callDepthExceeded (limit : Nat)
  /-- There is no call to return from. -/
  | returnWithoutCall
  /-- Every command address is taken. -/
  | tableFull (count : Nat)
  deriving DecidableEq, Repr

/-- A byte as two upper-case hexadecimal digits. -/
def hexByte (b : UInt8) : String :=
  let digits := (Nat.toDigits 16 b.toNat).map Char.toUpper
  String.ofList (List.replicate (2 - digits.length) '0' ++ digits)

/-- The wording of a fault. -/
def Fault.message : Fault → String
  | unknownOpcode byte ip => s!"unknown opcode 0x{hexByte byte} at {ip}"
  | truncated ip => s!"truncated instruction at {ip}"
  | invalidTag byte => s!"invalid type code {byte}"
  | stackUnderflow needed available =>
    s!"stack underflow: needed {needed} bytes, {available} available"
  | unsupportedCast source target => s!"cannot cast {source.name} to {target.name}"
  | unsupportedOperation symbol lhs rhs =>
    s!"operator {symbol} not supported for {lhs.name} and {rhs.name}"
  | tagMismatch expected found =>
    s!"type mismatch: expected {expected.name}, found {found.name}"
  | divideByZero => "division by zero"
  | argumentMismatch command index expected found =>
    s!"host method '{command}' argument {index}: expected {expected.name}, found {found.name}"
  | unknownCommand address => s!"no host method at address {address}"
  | commandFailed command reason => s!"host method '{command}' failed: {reason}"
  | untrackedPointer ptr => s!"untracked heap pointer {ptr}"
  | outOfBounds ptr len => s!"heap access out of bounds: {len} bytes at {ptr}"
  | negativeLength len => s!"negative length {len}"
  | invalidText ptr => s!"invalid string at heap pointer {ptr}"
  | invalidJump target => s!"jump target {target} out of range"
  | callDepthExceeded limit => s!"call depth limit of {limit} exceeded"
  | returnWithoutCall => "return without a recorded call site"
  | tableFull count => s!"host method table is full ({count} methods)"

/-- The tag that a byte stands for, where there must be one. -/
def Tag.ofCode (b : UInt8) : Except Fault Tag :=
  match ofCode? b with
  | some t => .ok t
  | none => .error (.invalidTag b)

/-- Why an assembly has no program. -/
inductive AssemblyFault where
  /-- A jump names a label that was never placed. -/
  | unplacedLabel (label : Nat)
  /-- A jump target exceeds the largest int. -/
  | targetOutOfRange (target : Nat)
  /-- A span is longer than its length field can say. -/
  | spanTooLong (len : Nat)
  deriving DecidableEq, Repr

/-- The wording of an assembly fault. -/
def AssemblyFault.message : AssemblyFault → String
  | unplacedLabel label => s!"label {label} was never placed"
  | targetOutOfRange target => s!"jump target {target} does not fit in an int"
  | spanTooLong len => s!"span of {len} bytes is too long"

end CellMachine
