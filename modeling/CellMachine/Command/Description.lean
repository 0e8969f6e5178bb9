import CellMachine.Command.Basic
import CellMachine.Text.Class

/-!
# CellMachine.Command.Description

Commands as tools for developers list them: the name and the signature, with
every value in a form that shows its type. Texts stand between quotes, with a
backslash before what would end or disguise them.
-/

namespace CellMachine

namespace Text

/-- A character between quotes. -/
def quoteChar (c : Char) : List Char :=
  if c = '\x00' then ['\\', '0']
  else if c = '\t' then ['\\', 't']
  else if c = '\r' then ['\\', 'r']
  else if c = '\n' then ['\\', 'n']
  else if c = '\\' then ['\\', '\\']
  else if c = '"' then ['\\', '"']
  else if isHidden c then ['\\', 'u', '\x7b'] ++ Nat.toDigits 16 c.toNat ++ ['\x7d']
  else [c]

/-- A text between quotes. -/
def quoted (s : String) : String := String.ofList ('"' :: s.toList.flatMap quoteChar ++ ['"'])

end Text

/-- The name of a tag in descriptions. -/
def Tag.title : Tag → String
  | .int => "Int"
  | .real => "Real"
  | .string => "String"
  | .bool => "Bool"
  | .byte => "Byte"
  | .word => "Word"
  | .dword => "DWord"
  | .dint => "DInt"
  | .dfloat => "DFloat"
  | .struct => "Struct"
  | .void => "Void"
  | .ptrReg => "PtrReg"
  | .ptrHeap => "PtrHeap"
  | .any => "Any"

/-- A value in descriptions. -/
def Value.describe : Value → String
  | .void => "Void"
  | .int n => s!"Int({n.toInt})"
  | .real x => s!"Real({x.render Decimal.descriptive})"
  | .bool b => s!"Bool({b})"
  | .byte n => s!"Byte({n.toNat})"
  | .word n => s!"Word({n.toNat})"
  | .dword n => s!"DWord({n.toNat})"
  | .dint n => s!"DInt({n.toInt})"
  | .dfloat x => s!"DFloat({x.render Decimal.descriptive})"
  | .text s => s!"Str({Text.quoted s})"
  | .struct p => s!"Struct({p.toInt})"
  | .heapPtr p => s!"HeapPtr({p.toInt})"

/-- A parameter in descriptions. -/
def Param.describe (p : Param) : String :=
  let default :=
    match p.default with
    | some v => s!"Some({v.describe})"
    | none => "None"
  s!"HostParam \x7b ty: {p.tag.title}, by_ref: {p.byRef}, default: {default} \x7d"

/-- A command in descriptions. -/
def Command.describe {σ : Type} (c : Command σ) : String :=
  let params := ", ".intercalate (c.params.map Param.describe)
  s!"HostMethod \x7b name: {Text.quoted c.name}, params: [{params}], " ++
    s!"returns: {c.returns.title}, .. \x7d"

end CellMachine
