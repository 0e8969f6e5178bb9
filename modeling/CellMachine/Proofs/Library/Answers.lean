import CellMachine.Proofs.Command.Marshalling
import CellMachine.Proofs.Library.InPlace

/-!
# CellMachine.Proofs.Library.Answers

Calls of commands that take texts and ints and answer with a text. An `Argument`
is what a program means by a cell on the stack, however it supplies it: a text at
an address, an int, either of them in a register that is referred to, or nothing
at all. What a parameter receives depends on the argument alone (`Param.value?`).

* `exists_receives` — arguments that are supplied are received;
* `settle_text` — a text that the host answers with is delivered, unless the heap
  has outgrown the addresses;
* `answersText_of_run`, `failsOn_of_run` — a call comes to what the host's part does.
-/

namespace CellMachine

/-- An argument as a program means it. -/
inductive Argument where
  | text (s : String)
  | int (n : Int32)
  | omitted
  deriving DecidableEq, Repr

/-- The cell supplies the argument, by itself or as a reference to a register. -/
def Argument.SuppliedBy (rs : Registers) (h : Heap) : Argument → Cell → Prop
  | text s, d => d.Supplies rs fun c => ∃ ptr, c.IsText h ptr s
  | int n, d => d.Supplies rs (· = .ofNative n)
  | omitted, d => d.Supplies rs (· = .void)

/-- What a parameter receives for an argument. -/
def Param.value? (p : Param) : Argument → Option Value
  | .text s => if p.tag = .string then some (.text s) else none
  | .int n => if p.tag = .int then some (.int n) else none
  | .omitted => p.default

namespace Command

open StoreM

variable {σ : Type} {name : String} {index : Nat} {p : Param} {ps : List Param} {a : Argument}
  {args : List Argument} {d : Cell} {cells : List Cell} {v : Value} {vs : List Value}
  {rs : Registers} {h : Heap}

/-- What parameters receive for arguments, one for each. -/
def values? : List Param → List Argument → Option (List Value)
  | [], [] => some []
  | p :: ps, a :: as => do
    let v ← p.value? a
    let vs ← values? ps as
    return v :: vs
  | _, _ => none

/-! ## arguments are received -/

theorem argument_of_suppliedBy (hp : p.byRef = false) (hv : p.value? a = some v)
    (hd : a.SuppliedBy rs h d) : ∃ slot, argument name index p d rs h = .ok (v, slot) := by
  cases a with
  | text s =>
      obtain ⟨htag, rfl⟩ : p.tag = .string ∧ .text s = v := by simpa [Param.value?] using hv
      refine argument_of_supplies (P := fun c => ∃ ptr, c.IsText h ptr s) hp hd ?_
      rintro c ⟨ptr, hc⟩
      exact ⟨by simp [hc.tag], marshal_text htag hc⟩
  | int n =>
      obtain ⟨htag, rfl⟩ : p.tag = .int ∧ .int n = v := by simpa [Param.value?] using hv
      refine argument_of_supplies (P := (· = .ofNative n)) hp hd ?_
      rintro c rfl
      exact ⟨nofun, marshal_int htag n⟩
  | omitted =>
      refine argument_of_supplies (P := (· = .void)) hp hd ?_
      rintro c rfl
      exact ⟨nofun, marshal_void hv⟩

/-- Arguments that are supplied are received. -/
theorem exists_receives (name : String) (index : Nat) (hps : ∀ p ∈ ps, p.byRef = false)
    (hvs : values? ps args = some vs)
    (hcells : List.Forall₂ (Argument.SuppliedBy rs h) args cells) :
    ∃ taken, Receives name rs h index ps cells taken ∧ taken.map Prod.fst = vs := by
  induction hcells generalizing index ps vs with
  | nil =>
      cases ps with
      | nil => exact ⟨[], .nil index, Option.some.inj hvs⟩
      | cons p ps => contradiction
  | @cons a d args cells hd _ ih =>
      cases ps with
      | nil => contradiction
      | cons p ps =>
          rw [List.forall_mem_cons] at hps
          obtain ⟨v, hv, hvs⟩ := Option.bind_eq_some_iff.mp hvs
          obtain ⟨ws, hws, hvs⟩ := Option.bind_eq_some_iff.mp hvs
          obtain ⟨slot, harg⟩ := argument_of_suppliedBy hps.1 hv hd
          obtain ⟨taken, hreceives, htaken⟩ := ih (index + 1) hps.2 hws
          refine ⟨(v, slot) :: taken, .cons harg hreceives, ?_⟩
          rw [List.map_cons, htaken]
          exact Option.some.inj hvs

/-- Arguments for parameters by value are at no place on the heap. -/
theorem Receives.register_of_mem_slots {x : Exchange} (hps : ∀ p ∈ ps, p.byRef = false)
    (hreceives : Receives name rs h index ps cells x.taken) (place : Slot) (v : Value)
    (hmem : (some place, v) ∈ x.slots) : ∃ r, place = .register r := by
  obtain ⟨i, hi⟩ := List.getElem?_of_mem hmem
  obtain ⟨⟨u, hu⟩, -⟩ := Exchange.getElem?_slots.mp hi
  obtain ⟨p, d, hp, -, harg⟩ := hreceives.argument_eq hu
  cases place with
  | register r => exact ⟨r, rfl⟩
  | heap ptr =>
      have href := (heapPointer_of_argument harg).2.2.1
      rw [hps p (List.mem_of_getElem? hp)] at href
      contradiction

/-! ## texts are delivered -/

variable {c : Command σ} {st t : Store σ} {text : String}

/-- A text is pushed as the address of a block that holds it, or it has no address. -/
theorem deliver_text (hreturns : c.returns = .string) (hh : st.heap.Partitioned) :
    (∀ t, c.deliver (.text text) st = .ok () t → ∃ (d : Cell) (ptr : Nat), d.IsText t.heap ptr text ∧
      t.stack = st.stack.pushCell d) ∧
    ∀ e t, c.deliver (.text text) st = .error e t → intLimit ≤ t.heap.cursor := by
  have hdeliver : c.deliver (.text text) = c.resultCell (.text text) >>= push := by
    simp [deliver, hreturns]
  have hgrows := Value.grows_toCell (W := fun _ => False) hh (.text text)
  rw [hdeliver]
  cases hcell : (Value.text text).toCell st.heap with
  | error e h' =>
      have hresult : c.resultCell (.text text) st = .error e { st with heap := h' } :=
        bind_run_of_error (onHeap_of_error hcell)
      rw [bind_run_of_error hresult]
      refine ⟨nofun, fun e' t herror => ?_⟩
      obtain ⟨-, rfl⟩ := EStateM.Result.error.inj herror
      exact (cursor_of_toCell_error hh hcell).2
  | ok d h' =>
      have htag : d.tag = .string := Value.tag_toCell hcell
      have hresult : c.resultCell (.text text) st = .ok d { st with heap := h' } := by
        rw [resultCell, bind_run_of_ok (onHeap_of_ok hcell), if_neg (by simp [hreturns, htag])]
        rfl
      rw [bind_run_of_ok hresult]
      refine ⟨fun t hok => ?_, fun e t herror => by contradiction⟩
      obtain ⟨-, rfl⟩ := EStateM.Result.ok.inj hok
      rw [hcell] at hgrows
      obtain ⟨ptr, htext, -⟩ := (Value.storedAs_toCell hcell).isText hh hgrows.partitioned
      exact ⟨d, ptr, htext, rfl⟩

/-- A text that the host answers with is delivered, unless the heap has outgrown the addresses. -/
theorem settle_text (st : Store σ) {x : Exchange} (hreturns : c.returns = .string)
    (hresult : x.reply.result = .text text)
    (hslots : ∀ place v, (some place, v) ∈ x.slots → ∃ r, place = .register r)
    (hh : st.heap.Partitioned) :
    (∀ t, c.settle x st = .ok () t → ∃ (d : Cell) (ptr : Nat), d.IsText t.heap ptr text ∧
      t.stack = st.stack.pushCell d) ∧
    ∀ e t, c.settle x st = .error e t → intLimit ≤ t.heap.cursor := by
  cases hstore : storeBack x.slots st with
  | error e st₁ =>
      rw [settle, bind_run_of_error hstore]
      refine ⟨fun t hok => by contradiction, fun e' t herror => ?_⟩
      obtain ⟨-, rfl⟩ := EStateM.Result.error.inj herror
      exact (cursor_of_storeBack_error hslots hstore hh).2
  | ok _ st₁ =>
      have hsettles := ((keeps_storeBack x.within).ok (.refl st) hstore).2
      rw [settle, bind_run_of_ok hstore, hresult, ← hsettles.stack]
      exact deliver_text hreturns (hsettles.heap hh).partitioned

/-! ## calls -/

/-- A call with the arguments is about to be made: cells that supply them lie on top of `below`. -/
structure Prepared (st : Store σ) (args : List Argument) (below : List UInt8) : Prop where
  partitioned : st.heap.Partitioned
  supplied : ∃ cells, (∀ d ∈ cells, d.WellFormed) ∧
    List.Forall₂ (Argument.SuppliedBy st.registers st.heap) args cells ∧
    st.stack.toList = below ++ Cell.encodeAll cells

/-- The host's part answers with the text to the values that the arguments are received as. A call
runs it once, with these values, and puts the address of a block with the text in the place of the
arguments; it fails only if the heap has outgrown the addresses. -/
def AnswersText (c : Command σ) (args : List Argument) (text : String) : Prop :=
  ∃ vs, values? c.params args = some vs ∧
    (∀ world, (c.run vs world).1.map Reply.result = .ok (.text text)) ∧
    ∀ st below, Prepared st args below → c.hostRuns st = [vs] ∧
      (∀ t, c.invoke st = .ok () t → ∃ (d : Cell) (ptr : Nat), d.IsText t.heap ptr text ∧
        t.stack.toList = below ++ d.encode) ∧
      ∀ e t, c.invoke st = .error e t → intLimit ≤ t.heap.cursor

/-- The host's part fails on the values that the arguments are received as, and so does a call. -/
def FailsOn (c : Command σ) (args : List Argument) (e : CommandError) : Prop :=
  ∃ vs, values? c.params args = some vs ∧ (∀ world, (c.run vs world).1 = .error e) ∧
    ∀ st below, Prepared st args below →
      ∃ t, c.invoke st = .error (.commandFailed c.name e.message) t

/-- A call comes to the text that the host's part answers with. -/
theorem answersText_of_run (hreturns : c.returns = .string)
    (hps : ∀ p ∈ c.params, p.byRef = false) (hvs : values? c.params args = some vs)
    (hrun : ∀ world, (c.run vs world).1.map Reply.result = .ok (.text text)) :
    c.AnswersText args text := by
  refine ⟨vs, hvs, hrun, ?_⟩
  rintro st below ⟨hh, cells, hcells, hsupplied, hstack⟩
  obtain ⟨taken, hreceives, rfl⟩ := exists_receives c.name 0 hps hvs hsupplied
  refine ⟨hostRuns_of_receives c st hcells hstack hreceives, ?_⟩
  have hanswer := hrun st.world
  have houtcome := invoke_outcome c st hcells hreceives.length_cells hstack
  generalize c.invoke st = result at houtcome
  cases houtcome with
  | refused hnone => exact absurd ⟨taken, hreceives⟩ hnone
  | failed hreceives' hfails =>
      rw [hreceives.unique hreceives', hfails] at hanswer
      contradiction
  | @answered x stack world hreceives' hanswers hrest =>
      rw [hreceives.unique hreceives', hanswers] at hanswer
      have hsettle := settle_text { st with stack := stack, world := world } hreturns
        (Except.ok.inj hanswer) (hreceives'.register_of_mem_slots hps) hh
      refine ⟨fun t hok => ?_, hsettle.2⟩
      obtain ⟨d, ptr, htext, hpushed⟩ := hsettle.1 t hok
      exact ⟨d, ptr, htext, by simp [hpushed, hrest, Cell.encode]⟩

theorem failsOn_of_run {e : CommandError} (hps : ∀ p ∈ c.params, p.byRef = false)
    (hvs : values? c.params args = some vs) (hrun : ∀ world, (c.run vs world).1 = .error e) :
    c.FailsOn args e := by
  refine ⟨vs, hvs, hrun, ?_⟩
  rintro st below ⟨-, cells, hcells, hsupplied, hstack⟩
  obtain ⟨taken, hreceives, rfl⟩ := exists_receives c.name 0 hps hvs hsupplied
  have hruns := hostRuns_of_receives c st hcells hstack hreceives
  exact invoke_of_failsWith ⟨_, by rw [hruns, List.mem_singleton], hrun st.world⟩

end Command

end CellMachine
