import CellMachine.Json.Reader
import CellMachine.Snapshot

/-!
# CellMachine.Json.Document

Settings and snapshots as JSON documents.
-/

namespace CellMachine

open Json

/-- A tag: its name, or an object whose one member has that name and the value null. -/
def Tag.ofJson? : Json → Option Tag
  | .string text => text.bind Tag.ofName?
  | .object [(name, .null)] => name.bind Tag.ofName?
  | _ => none

/-- A setting, or its default if it is missing. -/
def Settings.field? (default : Nat) : Option Json → Option Nat
  | some j => size? j
  | none => some default

/-- Settings; missing ones have their defaults. -/
def Settings.ofJson? (j : Json) : Option Settings := do
  let d : Settings := {}
  match ← j.fields? ["initial_heap_size", "stack_capacity", "max_call_depth"] with
  | [heap, stack, depth] =>
    return { initialHeapSize := ← field? d.initialHeapSize heap
             stackCapacity := ← field? d.stackCapacity stack
             maxCallDepth := ← field? d.maxCallDepth depth }
  | _ => none

/-- A register in a snapshot. -/
def RegisterView.ofJson? (j : Json) : Option RegisterView := do
  match ← j.fields? ["address", "type_code", "raw", "display"] with
  | [some address, some tag, some raw, some display] =>
    return { address := ← byte? address
             tag := ← Tag.ofJson? tag
             bytes := ← list? byte? raw
             display := ← text? display }
  | _ => none

/-- A live block in a snapshot. -/
def BlockView.ofJson? (j : Json) : Option BlockView := do
  match ← j.fields? ["ptr", "len"] with
  | [some ptr, some len] => return { ptr := ← size? ptr, len := ← size? len }
  | _ => none

/-- The heap in a snapshot. -/
def HeapView.ofJson? (j : Json) : Option HeapView := do
  match ← j.fields? ["capacity", "cursor", "allocations"] with
  | [some capacity, some cursor, some blocks] =>
    return { capacity := ← size? capacity
             cursor := ← size? cursor
             blocks := ← list? BlockView.ofJson? blocks }
  | _ => none

/-- A snapshot; nothing may be missing. -/
def Snapshot.ofJson? (j : Json) : Option Snapshot := do
  match ← j.fields? ["instruction_pointer", "complete", "stack_bytes", "registers", "heap"] with
  | [some ip, some complete, some stack, some registers, some heap] =>
    return { ip := ← size? ip
             complete := ← bool? complete
             stackBytes := ← size? stack
             registers := ← list? RegisterView.ofJson? registers
             heap := ← HeapView.ofJson? heap }
  | _ => none

end CellMachine
