import CellMachine.Text.CaseTable
import CellMachine.Text.Class

/-!
# CellMachine.Text.Case

Upper and lower case of whole texts. A letter may become several characters,
and a capital sigma at the end of a word becomes the final form.
-/

namespace CellMachine.Text

/-- Where a run moves a code point, if it contains it. -/
def CaseRun.apply? (r : CaseRun) (n : Nat) : Option Nat :=
  if r.first ≤ n ∧ n ≤ r.last ∧ (n - r.first) % r.stride = 0 then some (n + r.shift).toNat
  else none

/-- The characters that a character becomes. -/
def convert (runs : Array CaseRun) (specials : Array (Nat × List Nat)) (c : Char) : List Char :=
  match runs.findSome? fun r => r.apply? c.toNat with
  | some n => [Char.ofNat n]
  | none =>
    match specials.find? fun s => s.1 = c.toNat with
    | some (_, codes) => codes.map Char.ofNat
    | none => [c]

/-- The upper case of a character. -/
def upperChar (c : Char) : List Char := convert upperRuns upperSpecials c

/-- The lower case of a character by itself. -/
def lowerChar (c : Char) : List Char := convert lowerRuns lowerSpecials c

/-- Whether the first character that case rules do not look past has case. -/
def leadsToCased (cs : List Char) : Bool :=
  match cs.dropWhile isCaseIgnorable with
  | c :: _ => isCased c
  | [] => false

/-- The lower case of a text after `before`, which is given backwards. -/
def lowerAfter (before : List Char) : List Char → List Char
  | [] => []
  | c :: rest =>
    let here :=
      if c = 'Σ' then [if leadsToCased before && !leadsToCased rest then 'ς' else 'σ']
      else lowerChar c
    here ++ lowerAfter (c :: before) rest

/-- A text in upper case. -/
def upper (s : String) : String := String.ofList (s.toList.flatMap upperChar)

/-- A text in lower case. -/
def lower (s : String) : String := String.ofList (lowerAfter [] s.toList)

end CellMachine.Text
