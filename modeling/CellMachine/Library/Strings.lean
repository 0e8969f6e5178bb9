import CellMachine.Decimal.Numeral
import CellMachine.Library.Arguments
import CellMachine.Text.Case

/-!
# CellMachine.Library.Strings

The commands on texts, and the parts of texts that they take. Lengths and
positions count characters, and a negative count stands for none.
-/

namespace CellMachine

/-! ## parts of texts -/

namespace Text

/-- The first `n` characters. -/
def left (s : String) (n : Int) : String := String.ofList (s.toList.take n.toNat)

/-- The last `n` characters. -/
def right (s : String) (n : Int) : String :=
  String.ofList (s.toList.drop (s.toList.length - n.toNat))

/-- The `len` characters from the `start`-th on, counted from 1; all of them if `len` is negative. -/
def mid (s : String) (start len : Int) : String :=
  let rest := s.toList.drop (start - 1).toNat
  String.ofList (if len < 0 then rest else rest.take len.toNat)

end Text

/-! ## the commands -/

namespace Library

variable {σ : Type}

/-- The length of a text. -/
def len : Command σ :=
  query "len" [{ tag := .string }] .int fun args => do
    let n := (← text args 0).length
    if n < intLimit then return .int (Int32.ofNat n) else throw (.failed "string too long")

/-- A number as text. -/
def str : Command σ :=
  query "str$" [{ tag := .any }] .string fun args => do
    let v ← value args 0
    if v.tag.isNumeric then return .text v.display else throw (.badArgument 0 .dfloat)

/-- The number at the front of a text. -/
def val : Command σ :=
  query "val" [{ tag := .string }] .dfloat fun args => do
    return .dfloat (Numeral.leading (← text args 0))

/-- A text in upper case. -/
def upper : Command σ :=
  query "upper$" [{ tag := .string }] .string fun args => do
    return .text (Text.upper (← text args 0))

/-- A text in lower case. -/
def lower : Command σ :=
  query "lower$" [{ tag := .string }] .string fun args => do
    return .text (Text.lower (← text args 0))

/-- The first characters of a text. -/
def left : Command σ :=
  query "left$" [{ tag := .string }, { tag := .int }] .string fun args => do
    let n ← int args 1
    return .text (Text.left (← text args 0) n.toInt)

/-- The last characters of a text. -/
def right : Command σ :=
  query "right$" [{ tag := .string }, { tag := .int }] .string fun args => do
    let s ← text args 0
    return .text (Text.right s (← int args 1).toInt)

/-- Characters from the middle of a text. The first one has position 1, and without a length the
whole rest is taken. -/
def mid : Command σ :=
  query "mid$" [{ tag := .string }, { tag := .int }, { tag := .int, default := some (.int (-1)) }]
    .string fun args => do
      let s ← text args 0
      let start := (← int args 1).toInt
      if start < 1 then throw (.failed s!"mid$ start must be >= 1, got {start}")
      return .text (Text.mid s start (← int args 2).toInt)

/-- Adds a text to the end of another one, in place. -/
def append : Command σ where
  name := "append$"
  params := [{ tag := .string, byRef := true }, { tag := .string }]
  run args world :=
    let reply := do
      let tail ← text args 1
      let s ← text args 0
      return .setting args 0 (.text (s ++ tail))
    (reply, world)

/-- The commands on texts, in the order of their addresses. -/
def strings : List (Command σ) := [len, str, val, upper, lower, left, right, mid, append]

end Library

end CellMachine
