/-!
# CellMachine.Binary.Format

The two binary floating-point formats as bit fields. `Format.decode` reads a
bit pattern as a sign and an exact number `mantissa · 2 ^ exponent`, and
`Format.encode` writes such a number back, so that exact arithmetic on floats
is arithmetic on natural numbers.
-/

namespace CellMachine.Binary

/-- The field widths of a binary format: fraction bits and exponent bits, below one sign bit. -/
structure Format where
  fraction : Nat
  exponent : Nat
  deriving DecidableEq, Repr

/-- The 32-bit format. -/
def single : Format := ⟨23, 8⟩

/-- The 64-bit format. -/
def double : Format := ⟨52, 11⟩

/-- What a bit pattern stands for. -/
inductive Decoded where
  | nan
  | infinite (negative : Bool)
  /-- The number `mantissa · 2 ^ exponent`, or its opposite. -/
  | finite (negative : Bool) (mantissa : Nat) (exponent : Int)
  deriving DecidableEq, Repr

namespace Format

/-- The weight of the implicit leading bit of a mantissa. -/
def implicit (f : Format) : Nat := 1 <<< f.fraction

/-- The exponent field of infinities and NaNs, all ones. -/
def topField (f : Format) : Nat := 1 <<< f.exponent - 1

/-- The exponent field of the numbers from 1 up to 2. -/
def bias (f : Format) : Nat := f.topField / 2

/-- The exponent of the smallest positive number. -/
def least (f : Format) : Int := 1 - f.bias - f.fraction

/-- Reads a bit pattern. -/
def decode (f : Format) (bits : Nat) : Decoded :=
  let negative := bits.testBit (f.fraction + f.exponent)
  let field := (bits >>> f.fraction) % (f.topField + 1)
  let low := bits % f.implicit
  if field = f.topField then
    if low = 0 then .infinite negative else .nan
  else if field = 0 then .finite negative low f.least
  else .finite negative (f.implicit + low) (f.least + (field - 1))

/-- The sign bit in its place. -/
def signBit (f : Format) (negative : Bool) : Nat :=
  if negative then 1 <<< (f.fraction + f.exponent) else 0

/-- The bit pattern of the number `mantissa · 2 ^ (least + shift)` with a mantissa of at most
`fraction + 1` bits: the mantissa is doubled while the exponent allows it, until its leading bit
stands at the implicit place. -/
def encode (f : Format) (negative : Bool) : (mantissa shift : Nat) → Nat
  | m, 0 => f.signBit negative + m
  | m, s + 1 =>
    if m < f.implicit then f.encode negative (2 * m) s
    else f.signBit negative + (s + 1) * f.implicit + m

/-- The bit pattern of the quiet NaN. -/
def quietNaN (f : Format) : Nat :=
  f.topField * f.implicit + f.implicit / 2

/-- The remainder of two bit patterns, exact and with the sign of the first: what is left of the
first after taking away as many times the second as fit. -/
def remainder (f : Format) (x y : Nat) : Nat :=
  match f.decode x, f.decode y with
  | .finite _ _ _, .infinite _ => x
  | .finite negative m p, .finite _ n q =>
    if n = 0 then f.quietNaN
    else
      let low := min p q
      let rest := (m <<< (p - low).toNat) % (n <<< (q - low).toNat)
      f.encode negative rest (low - f.least).toNat
  | _, _ => f.quietNaN

/-- The integer part of a bit pattern, brought into `[lo, hi]`; NaN has integer part 0. -/
def truncate (f : Format) (lo hi : Int) (bits : Nat) : Int :=
  match f.decode bits with
  | .nan => 0
  | .infinite negative => if negative then lo else hi
  | .finite negative m p =>
    let magnitude := if p ≥ 0 then m <<< p.toNat else m >>> (-p).toNat
    max lo (min hi (if negative then -(magnitude : Int) else magnitude))

end Format

end CellMachine.Binary
