import CellMachine.Bytes

/-!
# CellMachine.Text.Slots

Text in memory: one four-byte little-endian slot per character, holding its
Unicode scalar value.
-/

namespace CellMachine.Text

/-- Bytes per character. -/
def slotWidth : Nat := 4

/-- The character with a given scalar value; surrogates and numbers past the last plane are none. -/
def charOfNat? (n : Nat) : Option Char :=
  if h : n.isValidChar then some (Char.ofNatAux n h) else none

/-- The slots of a text. -/
def encode (text : String) : List UInt8 :=
  text.toList.flatMap fun c => leBytes slotWidth c.toNat

/-- The characters that a byte list holds, a last short slot being extended by zeros. -/
def decodeChars : List UInt8 → Option (List Char)
  | [] => some []
  | [a] => (charOfNat? (leNat [a])).map fun c => [c]
  | [a, b] => (charOfNat? (leNat [a, b])).map fun c => [c]
  | [a, b, c] => (charOfNat? (leNat [a, b, c])).map fun x => [x]
  | a :: b :: c :: d :: rest =>
    match charOfNat? (leNat [a, b, c, d]) with
    | some x => (decodeChars rest).map (x :: ·)
    | none => none

/-- The text that a byte list holds, if every slot is a character. -/
def decode? (bytes : List UInt8) : Option String := (decodeChars bytes).map String.ofList

theorem charOfNat?_toNat (c : Char) : charOfNat? c.toNat = some c := by
  have h : c.toNat.isValidChar := c.valid
  rw [charOfNat?, dif_pos h]
  rfl

end CellMachine.Text
