import CellMachine.Cell
import CellMachine.Instr
import CellMachine.Text.Slots

/-!
# CellMachine.Assembler

Programs from directives. An instruction is written as its bytes; a jump pushes
its target as an int literal of four zero bytes, to be patched once all labels
are placed, and then jumps. A label placed several times stands where it was
placed last.
-/

namespace CellMachine

/-- The jumps that take a label. -/
inductive JumpKind where
  | always | ifZero | ifPositive | call
  deriving DecidableEq, Repr

/-- The instruction that jumps to the target on the stack. -/
def JumpKind.instr : JumpKind → Instr
  | always => .jump
  | ifZero => .jumpZero
  | ifPositive => .jumpGtZero
  | call => .jumpHistory

/-- A line of assembly. -/
inductive Directive where
  /-- A bare opcode byte. -/
  | op (o : Opcode)
  /-- Pushes a tag with a payload of any length. -/
  | pushTagged (t : Tag) (payload : List UInt8)
  /-- Pushes the value in a cell; a bool is written as 0 or 1. -/
  | pushCell (c : Cell)
  | pushSpan (bytes : List UInt8)
  | pushType (t : Tag)
  | pushRegPtr (r : UInt8)
  /-- Builds a text on the heap, through a scratch register, and pushes it. -/
  | pushText (text : String) (scratch : UInt8)
  | store (r : UInt8)
  | load (r : UInt8)
  | storePtr (r : UInt8)
  | loadPtr (r : UInt8) (t : Tag)
  | cast (t : Tag)
  /-- Calls the host command at an address. -/
  | callHost (address : Int32)
  /-- Makes a new label; labels are numbered from 0. -/
  | label
  /-- Places a label here. -/
  | place (label : Nat)
  | jump (kind : JumpKind) (label : Nat)
  deriving DecidableEq, Repr

/-- A program under construction. -/
structure Assembler where
  code : Array UInt8 := #[]
  /-- Where each label stands, if it has been placed. -/
  labels : Array (Option Nat) := #[]
  /-- Where jump targets are to be patched, and with which label, in order of emission. -/
  fixups : Array (Nat × Nat) := #[]

namespace Assembler

/-- The offset of the next byte. -/
def position (a : Assembler) : Nat := a.code.size

/-- Appends bytes. -/
def append (a : Assembler) (bytes : List UInt8) : Assembler := { a with code := a.code ++ bytes }

/-- Appends instructions. -/
def instrs (a : Assembler) (is : List Instr) : Assembler := a.append (is.flatMap Instr.encode)

/-- The instruction that pushes an int. -/
def pushInt (n : Int) : Instr := .push .int (Cell.ofInt .int n).bytes

/-- The instructions that build a text of `bytes` on the heap and push it. -/
def textInstrs (bytes : List UInt8) (scratch : UInt8) : List Instr :=
  [.pushSpan bytes, pushInt bytes.length, .alloc, .store scratch,
   pushInt bytes.length, .load scratch, .write, .load scratch, .cast .string]

/-- Carries out a directive. -/
def emit (a : Assembler) : Directive → Except AssemblyFault Assembler
  | .op o => .ok (a.append [o.code])
  | .pushTagged t payload => .ok (a.instrs [.push t payload])
  | .pushCell c => .ok (a.instrs [.push c.tag c.canonical.bytes])
  | .pushSpan bytes =>
    if bytes.length < byteRange 4 then .ok (a.instrs [.pushSpan bytes])
    else .error (.spanTooLong bytes.length)
  | .pushType t => .ok (a.instrs [.pushType t])
  | .pushRegPtr r => .ok (a.instrs [.pushRegPtr r])
  | .pushText text scratch =>
    let bytes := Text.encode text
    if bytes.length < intLimit then .ok (a.instrs (textInstrs bytes scratch))
    else .error (.spanTooLong bytes.length)
  | .store r => .ok (a.instrs [.store r])
  | .load r => .ok (a.instrs [.load r])
  | .storePtr r => .ok (a.instrs [.storePtr r])
  | .loadPtr r t => .ok (a.instrs [.loadPtr r t])
  | .cast t => .ok (a.instrs [.cast t])
  | .callHost address => .ok (a.instrs [pushInt address.toInt, .callHost])
  | .label => .ok { a with labels := a.labels.push none }
  | .place l => .ok { a with labels := a.labels.setIfInBounds l (some a.position) }
  | .jump kind l =>
    .ok { a.instrs [pushInt 0, kind.instr] with fixups := a.fixups.push (a.position + 2, l) }

/-- Writes the target of a jump into its place. -/
def patch (labels : Array (Option Nat)) (code : Program) (fixup : Nat × Nat) :
    Except AssemblyFault Program :=
  match labels[fixup.2]? with
  | some (some target) =>
    if target < intLimit then .ok (overwrite code fixup.1 (leBytes 4 target))
    else .error (.targetOutOfRange target)
  | _ => .error (.unplacedLabel fixup.2)

/-- Patches all jumps, in order of emission. -/
def finish (a : Assembler) : Except AssemblyFault Program :=
  a.fixups.toList.foldlM (patch a.labels) a.code

/-- The program of a list of directives. -/
def assemble (ds : List Directive) : Except AssemblyFault Program := do
  let a ← ds.foldlM emit {}
  a.finish

end Assembler

end CellMachine
