import CellMachine.Bytes

/-!
# CellMachine.Json.Basic

JSON documents, as far as settings and snapshots need them.
-/

namespace CellMachine

/-- A JSON document. -/
inductive Json where
  | null
  | bool (b : Bool)
  /-- A number written with digits only. -/
  | natural (n : Nat)
  /-- A number with a sign, a fraction or an exponent. -/
  | number
  /-- A string; without a text if its escapes name half of a surrogate pair. -/
  | string (text : Option String)
  | array (items : List Json)
  /-- The members in the order of the document; names may repeat. -/
  | object (members : List (Option String × Json))
  deriving Inhabited

namespace Json

/-- The values of a record's fields, where there are any. A record is an object, in which a field
stands at most once and other names are passed over, or an array of the fields in order. -/
def fields? (names : List String) : Json → Option (List (Option Json))
  | object members => do
    let members ← members.mapM fun (name, value) => name.map fun n => (n, value)
    let known := (members.map Prod.fst).filter names.contains
    if known.Nodup then some (names.map fun n => List.lookup n members) else none
  | array items =>
    if items.length ≤ names.length then
      some (items.map some ++ List.replicate (names.length - items.length) none)
    else none
  | _ => none

/-- A natural number below a bound. -/
def below? (bound : Nat) : Json → Option Nat
  | natural n => if n < bound then some n else none
  | _ => none

/-- A size or an address: 64 bits. -/
def size? : Json → Option Nat := below? (byteRange 8)

/-- A byte. -/
def byte? (j : Json) : Option UInt8 := (below? 256 j).map UInt8.ofNat

/-- A truth value. -/
def bool? : Json → Option Bool
  | bool b => some b
  | _ => none

/-- A text. -/
def text? : Json → Option String
  | string text => text
  | _ => none

/-- The items of an array, each read in the same way. -/
def list? {α : Type} (read : Json → Option α) : Json → Option (List α)
  | array items => items.mapM read
  | _ => none

end Json

end CellMachine
