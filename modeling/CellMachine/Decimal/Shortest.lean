import CellMachine.Binary.Format

/-!
# CellMachine.Decimal.Shortest

The shortest decimal that reads back as a given binary number. The reals that
round to a number form an interval around it; of the decimals in the interval
those with the fewest digits are taken, and of these the nearest to the number,
the larger one if two are equally near.

Scaled by a power of ten the number and both ends of its interval are natural
numbers, so the search is exact.
-/

namespace CellMachine

/-- The number `coefficient · 10 ^ exponent`. -/
structure Decimal where
  coefficient : Nat
  exponent : Int
  deriving DecidableEq, Repr

namespace Decimal

/-- How many decimal digits a number has. -/
def digitCount (n : Nat) : Nat := (Nat.toDigits 10 n).length

/-- Moves the zeros at the end of the coefficient into the exponent, at most `fuel` of them. -/
def dropZeros : (fuel coefficient : Nat) → (exponent : Int) → Decimal
  | 0, c, e => ⟨c, e⟩
  | fuel + 1, c, e => if c ≠ 0 ∧ c % 10 = 0 then dropZeros fuel (c / 10) (e + 1) else ⟨c, e⟩

/-- An interval of natural numbers around `value`. -/
structure Interval where
  low : Nat
  value : Nat
  high : Nat
  /-- Whether the ends belong to it. -/
  closed : Bool

/-- Whether a number lies in the interval. -/
def Interval.contains (i : Interval) (n : Nat) : Bool :=
  if i.closed then decide (i.low ≤ n ∧ n ≤ i.high) else decide (i.low < n ∧ n < i.high)

/-- The nearest to `value` of its neighbours among the multiples of `unit` that lie in the
interval, counted in units. -/
def Interval.nearest? (i : Interval) (unit : Nat) : Option Nat :=
  let down := i.value / unit
  let below := i.value % unit
  let downIn := i.contains (down * unit)
  let upIn := below ≠ 0 && i.contains ((down + 1) * unit)
  match downIn, upIn with
  | true, true => some (if below < unit - below then down else down + 1)
  | true, false => some down
  | false, true => some (down + 1)
  | false, false => none

/-- The shortest number in the interval: drops as many digits as leave a neighbour inside, trying
`drop` of them first. -/
def Interval.shortest (i : Interval) : (drop : Nat) → Nat × Nat
  | 0 => (i.value, 0)
  | drop + 1 =>
    match i.nearest? (Nat.pow 10 (drop + 1)) with
    | some n => (n, drop + 1)
    | none => i.shortest drop

/-- The shortest decimal that a format reads as `mantissa · 2 ^ exponent`. The gap below a power of
two is half the gap above it, and an end of the interval rounds to an even mantissa only. -/
def shortest (f : Binary.Format) (mantissa : Nat) (exponent : Int) : Decimal :=
  let half := mantissa = f.implicit ∧ exponent > f.least
  -- In quarters of the gap, scaled by `10 ^ places` to be whole.
  let places := (2 - exponent).toNat
  let scale := Nat.pow 5 places <<< (exponent - 2).toNat
  let interval : Interval :=
    { low := (4 * mantissa - if half then 1 else 2) * scale
      value := 4 * mantissa * scale
      high := (4 * mantissa + 2) * scale
      closed := mantissa % 2 = 0 }
  let (coefficient, dropped) := interval.shortest (digitCount interval.value - 1)
  dropZeros (digitCount coefficient) coefficient (dropped - places)

end Decimal

end CellMachine
