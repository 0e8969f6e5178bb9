import CellMachine.Binary.Basic
import CellMachine.Text.Class

/-!
# CellMachine.Decimal.Numeral

Reading numbers from text: an optional sign, digits with at most one point
among or around them, and an optional exponent.
-/

namespace CellMachine

/-- The number `± coefficient · 10 ^ exponent`, as it is written. -/
structure Numeral where
  negative : Bool
  coefficient : Nat
  exponent : Int
  deriving DecidableEq, Repr

namespace Numeral

/-- The number that decimal digits spell. -/
def digitsValue (ds : List Char) : Nat := ds.foldl (fun n d => 10 * n + (d.toNat - '0'.toNat)) 0

/-- The number that the digits of an exponent spell. It stops growing once it has passed 65535,
where every number but zero is beyond reach. -/
def exponentValue (ds : List Char) : Nat :=
  ds.foldl (fun n d => if n < 65536 then 10 * n + (d.toNat - '0'.toNat) else n) 0

/-- Takes a sign off the front of a text. -/
def takeSign : List Char → Bool × List Char
  | '-' :: cs => (true, cs)
  | '+' :: cs => (false, cs)
  | cs => (false, cs)

/-- Takes a point and the digits after it off the front of a text. -/
def takeFraction : List Char → List Char × List Char
  | '.' :: cs => (cs.takeWhile Char.isDigit, cs.dropWhile Char.isDigit)
  | cs => ([], cs)

/-- The exponent that a whole text spells, if it is one; nothing stands for 0. -/
def exponent? : List Char → Option Int
  | [] => some 0
  | mark :: cs =>
    if mark = 'e' ∨ mark = 'E' then
      let (negative, ds) := takeSign cs
      if ds ≠ [] ∧ ds.all Char.isDigit then
        some (if negative then -exponentValue ds else exponentValue ds)
      else none
    else none

/-- The numeral that a whole text spells. -/
def parse? (cs : List Char) : Option Numeral :=
  let (negative, cs) := takeSign cs
  let whole := cs.takeWhile Char.isDigit
  let (fraction, cs) := takeFraction (cs.dropWhile Char.isDigit)
  if whole ++ fraction = [] then none
  else (exponent? cs).map fun e =>
    ⟨negative, digitsValue (whole ++ fraction), e - fraction.length⟩

/-- The nearest float. -/
def toBinary64 (n : Numeral) : Binary64 :=
  let magnitude := Float.ofScientific n.coefficient (n.exponent < 0) n.exponent.natAbs
  if n.negative then (Binary64.ofFloat magnitude).neg else .ofFloat magnitude

/-- The finite float that a whole text spells. -/
def readFinite? (cs : List Char) : Option Binary64 :=
  match parse? cs with
  | some n => if n.toBinary64.isFinite then some n.toBinary64 else none
  | none => none

/-- The number at the front of a text, past white space: the longest part that spells a finite
number, or zero if there is none. -/
def leading (s : String) : Binary64 :=
  let cs := s.toList.dropWhile Text.isBlank
  let parts := (List.range cs.length).reverse.map fun n => cs.take (n + 1)
  (parts.findSome? readFinite?).getD ⟨0⟩

end Numeral

end CellMachine
