import CellMachine.Binary.Basic
import CellMachine.Decimal.Shortest

/-!
# CellMachine.Decimal.Layout

How a float is written: its shortest digits, laid out with a decimal point or
with an exponent as the layout says.
-/

namespace CellMachine

namespace Decimal

/-- The decisions of a written form. -/
structure Layout where
  /-- Whether numbers whose first digit counts `10 ^ e` are written without an exponent. -/
  positional : (e : Int) → Bool
  /-- Whether a whole number written without an exponent ends in `.0`. -/
  wholeMark : Bool

/-- Digits with the point after the first `whole` of them, zeros filling the gap on either side. -/
def positional (layout : Layout) (digits : List Char) (whole : Int) : String :=
  let count : Int := digits.length
  if whole ≤ 0 then
    "0." ++ String.ofList (List.replicate (-whole).toNat '0' ++ digits)
  else if whole < count then
    String.ofList (digits.take whole.toNat ++ '.' :: digits.drop whole.toNat)
  else
    String.ofList (digits ++ List.replicate (whole - count).toNat '0') ++
      (if layout.wholeMark then ".0" else "")

/-- Digits with the point after the first, and an exponent. -/
def scientific (digits : List Char) (e : Int) : String :=
  match digits with
  | [] => ""
  | [d] => String.ofList [d, 'e'] ++ toString e
  | d :: rest => String.ofList (d :: '.' :: rest ++ ['e']) ++ toString e

/-- A nonzero decimal as the layout writes it. -/
def render (layout : Layout) (d : Decimal) : String :=
  let digits := Nat.toDigits 10 d.coefficient
  let whole := d.exponent + digits.length
  if layout.positional (whole - 1) then positional layout digits whole
  else scientific digits (whole - 1)

/-- A decoded float as the layout writes it. -/
def renderFloat (layout : Layout) (f : Binary.Format) : Binary.Decoded → String
  | .nan => "NaN"
  | .infinite negative => (if negative then "-" else "") ++ "inf"
  | .finite negative m e =>
    (if negative then "-" else "") ++
      if m = 0 then positional layout ['0'] 1
      else render layout (shortest f m e)

/-- The layout of values shown to users: never an exponent, and no mark on whole numbers. -/
def plain : Layout := ⟨fun _ => true, false⟩

/-- The layout of values in descriptions: an exponent below `1e-4` and from `1e16` on, and a mark
on whole numbers. -/
def descriptive : Layout := ⟨fun e => -4 ≤ e ∧ e < 16, true⟩

end Decimal

/-- A 32-bit float in a layout. -/
def Binary32.render (layout : Decimal.Layout) (x : Binary32) : String :=
  Decimal.renderFloat layout Binary.single x.decode

/-- A 64-bit float in a layout. -/
def Binary64.render (layout : Decimal.Layout) (x : Binary64) : String :=
  Decimal.renderFloat layout Binary.double x.decode

end CellMachine
