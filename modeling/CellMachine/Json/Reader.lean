import CellMachine.Json.Basic
import CellMachine.Text.Slots

/-!
# CellMachine.Json.Reader

Reads a text as one JSON document. Each reader takes a document off the front
of a list of characters and leaves the rest.
-/

namespace CellMachine.Json

/-- What a string holds: characters, and code units written as escapes. -/
inductive Piece where
  | char (c : Char)
  | unit (n : Nat)

/-- The value of a hexadecimal digit. -/
def hexDigit? (c : Char) : Option Nat :=
  if '0' ≤ c ∧ c ≤ '9' then some (c.toNat - '0'.toNat)
  else if 'a' ≤ c ∧ c ≤ 'f' then some (c.toNat - 'a'.toNat + 10)
  else if 'A' ≤ c ∧ c ≤ 'F' then some (c.toNat - 'A'.toNat + 10)
  else none

/-- The character that a backslash and a letter stand for. -/
def escape? : Char → Option Char
  | '"' => some '"'
  | '\\' => some '\\'
  | '/' => some '/'
  | 'b' => some '\x08'
  | 'f' => some '\x0c'
  | 'n' => some '\n'
  | 'r' => some '\r'
  | 't' => some '\t'
  | _ => none

/-- Takes the rest of a string and its closing quote. -/
def pieces? : List Char → Option (List Piece × List Char)
  | '"' :: rest => some ([], rest)
  | '\\' :: 'u' :: a :: b :: c :: d :: rest => do
    let n := (← hexDigit? a) * 4096 + (← hexDigit? b) * 256 + (← hexDigit? c) * 16 + (← hexDigit? d)
    let (ps, rest) ← pieces? rest
    return (.unit n :: ps, rest)
  | '\\' :: e :: rest => do
    let c ← escape? e
    let (ps, rest) ← pieces? rest
    return (.char c :: ps, rest)
  | c :: rest => do
    if c.toNat < 0x20 ∨ c = '\\' then none
    let (ps, rest) ← pieces? rest
    return (.char c :: ps, rest)
  | [] => none

/-- The characters of a string, two halves of a surrogate pair making one. -/
def pieceChars? : List Piece → Option (List Char)
  | [] => some []
  | .char c :: rest => (pieceChars? rest).map (c :: ·)
  | .unit high :: .unit low :: rest =>
    if 0xD800 ≤ high ∧ high < 0xDC00 ∧ 0xDC00 ≤ low ∧ low < 0xE000 then do
      let c ← Text.charOfNat? (0x10000 + (high - 0xD800) * 0x400 + (low - 0xDC00))
      (pieceChars? rest).map (c :: ·)
    else do
      let c ← Text.charOfNat? high
      (pieceChars? (.unit low :: rest)).map (c :: ·)
  | .unit n :: rest => do
    let c ← Text.charOfNat? n
    (pieceChars? rest).map (c :: ·)

/-- Takes the rest of a string, without a text if its escapes make none. -/
def stringText? (cs : List Char) : Option (Option String × List Char) :=
  (pieces? cs).map fun (ps, rest) => ((pieceChars? ps).map String.ofList, rest)

/-- Drops white space. -/
def skipBlanks (cs : List Char) : List Char :=
  cs.dropWhile fun c => c = ' ' ∨ c = '\t' ∨ c = '\n' ∨ c = '\r'

/-- Takes digits, at least one. -/
def digits? (cs : List Char) : Option (List Char × List Char) :=
  match cs.takeWhile Char.isDigit with
  | [] => none
  | ds => some (ds, cs.dropWhile Char.isDigit)

/-- Takes a fraction, if there is a point; tells whether there was one. -/
def fraction? : List Char → Option (Bool × List Char)
  | '.' :: cs => (digits? cs).map fun (_, rest) => (true, rest)
  | cs => some (false, cs)

/-- Takes an exponent, if there is a mark; tells whether there was one. -/
def exponent? : List Char → Option (Bool × List Char)
  | mark :: cs =>
    if mark = 'e' ∨ mark = 'E' then
      let cs :=
        match cs with
        | '+' :: rest | '-' :: rest => rest
        | rest => rest
      (digits? cs).map fun (_, rest) => (true, rest)
    else some (false, mark :: cs)
  | [] => some (false, [])

/-- Takes the whole part of a number: one zero, or digits that start with another. -/
def whole? : List Char → Option (List Char × List Char)
  | '0' :: rest => some (['0'], rest)
  | cs => digits? cs

/-- Takes a number. -/
def number? (cs : List Char) : Option (Json × List Char) := do
  let (signed, cs) :=
    match cs with
    | '-' :: rest => (true, rest)
    | rest => (false, rest)
  let (ds, cs) ← whole? cs
  let (fractional, cs) ← fraction? cs
  let (scaled, cs) ← exponent? cs
  if signed || fractional || scaled then return (.number, cs)
  else return (.natural (ds.foldl (fun n d => 10 * n + (d.toNat - '0'.toNat)) 0), cs)

/-- Takes the rest of a word. -/
def word? (word : String) (value : Json) (cs : List Char) : Option (Json × List Char) :=
  if word.toList.isPrefixOf cs then some (value, cs.drop word.length) else none

mutual

/-- Takes a document; `fuel` bounds the nesting and the number of items. -/
def value? : (fuel : Nat) → List Char → Option (Json × List Char)
  | 0, _ => none
  | fuel + 1, cs =>
    match skipBlanks cs with
    | 'n' :: rest => word? "ull" .null rest
    | 't' :: rest => word? "rue" (.bool true) rest
    | 'f' :: rest => word? "alse" (.bool false) rest
    | '"' :: rest => (stringText? rest).map fun (text, rest) => (.string text, rest)
    | '[' :: rest =>
      match skipBlanks rest with
      | ']' :: rest => some (.array [], rest)
      | rest => (items? fuel rest).map fun (items, rest) => (.array items, rest)
    | '\x7b' :: rest =>
      match skipBlanks rest with
      | '\x7d' :: rest => some (.object [], rest)
      | rest => (members? fuel rest).map fun (members, rest) => (.object members, rest)
    | rest => number? rest

/-- Takes the items of an array that is not empty, and its closing bracket. -/
def items? : (fuel : Nat) → List Char → Option (List Json × List Char)
  | 0, _ => none
  | fuel + 1, cs => do
    let (item, cs) ← value? fuel cs
    match skipBlanks cs with
    | ',' :: rest =>
      let (items, rest) ← items? fuel rest
      return (item :: items, rest)
    | ']' :: rest => return ([item], rest)
    | _ => none

/-- Takes the members of an object that is not empty, and its closing bracket. -/
def members? : (fuel : Nat) → List Char → Option (List (Option String × Json) × List Char)
  | 0, _ => none
  | fuel + 1, cs =>
    match skipBlanks cs with
    | '"' :: rest => do
      let (name, rest) ← stringText? rest
      match skipBlanks rest with
      | ':' :: rest =>
        let (value, rest) ← value? fuel rest
        match skipBlanks rest with
        | ',' :: rest =>
          let (members, rest) ← members? fuel rest
          return ((name, value) :: members, rest)
        | '\x7d' :: rest => return ([(name, value)], rest)
        | _ => none
      | _ => none
    | _ => none

end

/-- Reads a whole text. Every two steps take a character, so twice its length is fuel enough. -/
def parse? (s : String) : Option Json :=
  match value? (2 * s.length + 2) s.toList with
  | some (j, rest) => if (skipBlanks rest).isEmpty then some j else none
  | none => none

end CellMachine.Json
