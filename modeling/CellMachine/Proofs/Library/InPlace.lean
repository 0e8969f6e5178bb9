import CellMachine.Assembler
import CellMachine.Library.Standard
import CellMachine.Proofs.Command.Convention
import CellMachine.Proofs.Machine.Invariant
import CellMachine.Proofs.Machine.Jump
import CellMachine.Proofs.Native

/-!
# CellMachine.Proofs.Library.InPlace

Commands that change their first argument in place. What is stored back is not
only the argument by reference: an argument by value that is a reference to a
register is stored back too, unchanged, and later. If it refers to the register
that the command changes, the change is lost; in all other cases the register has
the new value after the call.

* `invoke_setting` — a call of such a command comes to storing two values;
* `storedAs_storeBack_pair` — which of the two the register ends with;
* `cursor_of_storeBack_error` — storing texts in registers can fail only if the heap
  has outgrown the addresses.
-/

namespace CellMachine

/-! ## arguments -/

namespace Cell

/-- The argument has `P`, or it refers to a register that holds a cell with `P`. -/
def Supplies (d : Cell) (rs : Registers) (P : Cell → Prop) : Prop :=
  P d ∨ ∃ q, d = .registerRef q ∧ P (rs.load q)

/-- The cell is the address of a block that reads as a text. -/
structure IsText (c : Cell) (h : Heap) (ptr : Nat) (text : String) : Prop where
  tag : c.tag = .string
  pointer : c.expectPointer = .ok ptr
  read : h.readText ptr = .ok text

theorem wellFormed_registerRef (r : UInt8) : (registerRef r).WellFormed := wellFormed_ofBytes ..

end Cell

/-- A text over which nothing is written can be read through the cell that it is stored as. -/
theorem Value.StoredAs.isText {h₀ h : Heap} {c : Cell} {text : String}
    (hs : (Value.text text).StoredAs (fun _ => False) h₀ c h) (hh₀ : h₀.Partitioned)
    (hh : h.Partitioned) : ∃ ptr, c.IsText h ptr text ∧ ptr ∉ h₀.live ∧ ptr ∈ h.live := by
  obtain ⟨ptr, rfl, hlimit, hfresh, hlive, hread⟩ := hs.readText hh₀ hh
  have hpointer : (Cell.ofInt .string ptr).expectPointer = .ok ptr :=
    (Cell.expectPointer_eq_ok_iff rfl).mpr (Cell.toInt_ofInt rfl hlimit)
  exact ⟨ptr, ⟨rfl, hpointer, hread⟩, by simp [Std.TreeMap.mem_iff_isSome_getElem?, hfresh],
    by simp [Std.TreeMap.mem_iff_isSome_getElem?, hlive]⟩

namespace Command

variable {σ : Type} {name : String} {index : Nat} {p q : Param} {c d : Cell} {rs : Registers}
  {h : Heap} {v : Value}

theorem marshal_int (hp : p.tag = .int) (n : Int32) :
    marshal name index p (.ofNative n) h = .ok (.int n) := by
  have htag : (Cell.ofNative n).tag = .int := rfl
  simp [marshal, htag, hp, Value.ofCell?, Cell.toNative_ofNative]

theorem marshal_void (hp : p.default = some v) : marshal name index p .void h = .ok v := by
  simp [marshal, Cell.void, hp]

theorem marshal_text {ptr : Nat} {text : String} (hp : p.tag = .string) (hc : c.IsText h ptr text) :
    marshal name index p c h = .ok (.text text) := by
  simp [marshal, hc.tag, hp, textOf, hc.pointer, hc.read, bind, Except.bind, pure, Except.pure]

theorem argument_registerRef {r : UInt8} (hm : marshal name index p (rs.load r) h = .ok v) :
    argument name index p (.registerRef r) rs h = .ok (v, some (.register r)) := by
  have htag : (Cell.registerRef r).tag = .ptrReg := rfl
  simp [argument, resolve, htag, Cell.toNative_registerRef, hm, bind, Except.bind, pure,
    Except.pure]

/-- A parameter by value takes what an argument supplies, and no address of the heap. -/
theorem argument_of_supplies {P : Cell → Prop} (hp : p.byRef = false) (hd : d.Supplies rs P)
    (hP : ∀ c, P c → c.tag ≠ .ptrReg ∧ marshal name index p c h = .ok v) :
    ∃ slot, argument name index p d rs h = .ok (v, slot) := by
  cases hd with
  | inl hd =>
      obtain ⟨htag, hm⟩ := hP d hd
      refine ⟨none, ?_⟩
      simp [argument, resolve, htag, hp, hm, bind, Except.bind, pure, Except.pure]
  | inr hd =>
      obtain ⟨q, rfl, hq⟩ := hd
      exact ⟨_, argument_registerRef (hP _ hq).2⟩

/-! ## storing two values -/

section Pair

variable {st t : Store σ} {r : UInt8} {slot : Option Slot} {x y z : Value}

/-- If neither place is on the heap, only registers are stored to. -/
theorem register_of_mem_pair (hslot : ∀ ptr, slot ≠ some (.heap ptr)) (place : Slot) (v : Value)
    (hmem : (some place, v) ∈ [(some (.register r), z), (slot, y)]) : ∃ q, place = .register q := by
  cases place with
  | register q => exact ⟨q, rfl⟩
  | heap ptr => simp [(hslot ptr).symm] at hmem

/-- A register ends with the second of two values if that is stored there too, and else with the
first. -/
theorem storedAs_storeBack_pair (hslot : ∀ ptr, slot ≠ some (.heap ptr))
    (hok : storeBack [(some (.register r), z), (slot, y)] st = .ok () t) :
    (if slot = some (.register r) then y else z).StoredAs (fun _ => False) st.heap
      (t.registers.load r) t.heap ∧
    Settles (fun _ => False) (fun _ => True) st t := by
  have hwithin : ∀ place v, (some place, v) ∈ [(some (.register r), z), (slot, y)] →
      Slot.Within (fun _ => False) (fun _ => True) v place := by
    intro place v hmem
    obtain ⟨q, rfl⟩ := register_of_mem_pair hslot place v hmem
    trivial
  have hsettles := ((keeps_storeBack hwithin).ok (.refl st) hok).2
  refine ⟨?_, hsettles⟩
  by_cases hsame : slot = some (.register r)
  · rw [if_pos hsame]
    refine storedAs_storeBack (i := 1) hwithin hok (by simp [hsame]) fun j w hj => ?_
    rw [List.getElem?_eq_none (by simp; omega)]
    simp
  · rw [if_neg hsame]
    refine storedAs_storeBack (i := 0) hwithin hok (by simp) fun j w hj => ?_
    cases j with
    | zero => contradiction
    | succ j => cases j <;> simp [hsame]

/-- A call of a command that changes the first of two arguments, which is a register, comes to
storing both arguments back. -/
theorem invoke_setting {c : Command σ} {below : List UInt8} (hparams : c.params = [p, q])
    (hvoid : c.returns = .void) (hd : d.WellFormed)
    (hstack : st.stack.toList = below ++ Cell.encodeAll [.registerRef r, d])
    (hfirst : argument c.name 0 p (.registerRef r) st.registers st.heap =
      .ok (x, some (.register r)))
    (hsecond : argument c.name 1 q d st.registers st.heap = .ok (y, slot))
    (hrun : c.run [x, y] st.world = (.ok (.setting [x, y] 0 z), st.world)) :
    ∃ stack : Stack, stack.toList = below ∧
      c.invoke st = storeBack [(some (.register r), z), (slot, y)] { st with stack := stack } := by
  have hreceives : Receives c.name st.registers st.heap 0 c.params [.registerRef r, d]
      [(x, some (.register r)), (y, slot)] := by
    rw [hparams]
    exact .cons hfirst (.cons hsecond (.nil 2))
  have hcells : ∀ e ∈ [Cell.registerRef r, d], e.WellFormed := by
    simp [Cell.wellFormed_registerRef, hd]
  have hcount : [Cell.registerRef r, d].length = c.params.length := by rw [hparams]; rfl
  rcases takeArguments_of_append c.name 0 hcells hcount hstack with
    ⟨taken, stack, htaken, htake, hbelow⟩ | ⟨hnone, -⟩
  · obtain rfl := hreceives.unique htaken
    refine ⟨stack, hbelow, ?_⟩
    have hcall : c.callHost [x, y] { st with stack := stack } =
        .ok (.setting [x, y] 0 z) { st with stack := stack } := callHost_of_ok hrun
    rw [invoke, bind_run_of_ok htake]
    refine (bind_run_of_ok hcall).trans ?_
    simp only [hvoid, if_true, bind_pure_unit]
    rfl
  · exact absurd ⟨_, hreceives⟩ hnone

/-- Only a text whose address does not fit a cell cannot be stored, and then the heap is that
large. -/
theorem cursor_of_toCell_error {h' : Heap} {e : Fault} (hh : h.Partitioned)
    (herror : v.toCell h = .error e h') : (∃ s, v = .text s) ∧ intLimit ≤ h'.cursor := by
  cases v with
  | text s =>
      obtain ⟨ptr, h₁, htext, -, hlive, -, hgrows⟩ := hh.allocateText_eq_ok (W := fun _ => False) s
      have hptr := hgrows.partitioned.live_lt_cursor hlive
      rw [Value.toCell, bind_run_of_ok htext] at herror
      by_cases hlimit : ptr < intLimit
      · simp [HeapM.lift, Cell.heapPointer, hlimit] at herror
      · simp only [HeapM.lift, Cell.heapPointer, if_neg hlimit, EStateM.Result.error.injEq] at herror
        obtain ⟨-, rfl⟩ := herror
        exact ⟨⟨s, rfl⟩, by omega⟩
  | _ => contradiction

theorem cursor_of_storeBack_error {slots : List (Option Slot × Value)} {e : Fault}
    (hslots : ∀ place v, (some place, v) ∈ slots → ∃ q, place = .register q)
    (herror : storeBack slots st = .error e t) (hh : st.heap.Partitioned) :
    (∃ place s, (place, .text s) ∈ slots) ∧ intLimit ≤ t.heap.cursor := by
  induction slots generalizing st with
  | nil => contradiction
  | cons a rest ih =>
      have hrest : ∀ place v, (some place, v) ∈ rest → ∃ q, place = .register q :=
        fun place v hmem => hslots place v (List.mem_cons_of_mem _ hmem)
      have hlater {st : Store σ} (hh : st.heap.Partitioned)
          (herror : storeBack rest st = .error e t) :
          (∃ place s, (place, .text s) ∈ a :: rest) ∧ intLimit ≤ t.heap.cursor := by
        obtain ⟨⟨place, s, hmem⟩, hcursor⟩ := ih hrest herror hh
        exact ⟨⟨place, s, List.mem_cons_of_mem _ hmem⟩, hcursor⟩
      obtain ⟨slot, v⟩ := a
      cases slot with
      | none => exact hlater hh herror
      | some place =>
          obtain ⟨q, rfl⟩ := hslots place v List.mem_cons_self
          have hgrows := Value.grows_toCell (W := fun _ => False) hh v
          cases hcell : v.toCell st.heap with
          | error e' h' =>
              have hstore : storeAt (.register q) v st = .error e' { st with heap := h' } :=
                bind_run_of_error (StoreM.onHeap_of_error hcell)
              rw [storeBack, bind_run_of_error hstore] at herror
              obtain ⟨-, rfl⟩ := EStateM.Result.error.inj herror
              obtain ⟨⟨s, rfl⟩, hcursor⟩ := cursor_of_toCell_error hh hcell
              exact ⟨⟨_, s, List.mem_cons_self⟩, hcursor⟩
          | ok c h' =>
              have hstore : storeAt (.register q) v st =
                  .ok () { st with heap := h', registers := st.registers.store q c } :=
                bind_run_of_ok (StoreM.onHeap_of_ok hcell)
              rw [storeBack, bind_run_of_ok hstore] at herror
              rw [hcell] at hgrows
              exact hlater hgrows.partitioned herror

/-- **A call that changes a register in place.** If the command receives `x` from the register and
leaves `z` for it, a call that succeeds has put `z` there, unless the second argument refers to this
register too; then `x` is there again. The call fails only if a text gets an address that does not
fit a cell. -/
theorem invoke_inPlace {c : Command σ} {below : List UInt8} (hparams : c.params = [p, q])
    (hvoid : c.returns = .void) (hvalue : q.byRef = false) (hd : d.WellFormed)
    (hstack : st.stack.toList = below ++ Cell.encodeAll [.registerRef r, d])
    (hfirst : marshal c.name 0 p (st.registers.load r) st.heap = .ok x)
    (hagain : marshal c.name 1 q (st.registers.load r) st.heap = .ok x)
    (hsecond : argument c.name 1 q d st.registers st.heap = .ok (y, slot))
    (hrun : c.run [x, y] st.world = (.ok (.setting [x, y] 0 z), st.world)) :
    (∀ t, c.invoke st = .ok () t → t.stack.toList = below ∧
      (st.heap.Partitioned → st.heap.Grows (fun _ => False) t.heap) ∧
      (if d = .registerRef r then x else z).StoredAs (fun _ => False) st.heap
        (t.registers.load r) t.heap) ∧
    ∀ e t, st.heap.Partitioned → c.invoke st = .error e t →
      (∃ s, z = .text s ∨ y = .text s) ∧ intLimit ≤ t.heap.cursor := by
  obtain ⟨stack, hbelow, hinvoke⟩ :=
    invoke_setting hparams hvoid hd hstack (argument_registerRef hfirst) hsecond hrun
  have hslot : ∀ ptr, slot ≠ some (.heap ptr) := by
    rintro ptr rfl
    have href := (heapPointer_of_argument hsecond).2.2.1
    rw [hvalue] at href
    contradiction
  rw [hinvoke]
  constructor
  · intro t hok
    obtain ⟨hstored, hsettles⟩ := storedAs_storeBack_pair hslot hok
    refine ⟨hsettles.stack ▸ hbelow, hsettles.heap, ?_⟩
    have hsame : slot = some (.register r) ↔ d = .registerRef r :=
      (slot_eq_register_iff hsecond r).trans (Cell.eq_registerRef_iff hd r).symm
    by_cases halias : d = .registerRef r
    · rw [if_pos (hsame.mpr halias)] at hstored
      rw [halias, argument_registerRef hagain] at hsecond
      obtain ⟨rfl, -⟩ := Prod.mk.inj (Except.ok.inj hsecond)
      rwa [if_pos halias]
    · rw [if_neg (mt hsame.mp halias)] at hstored
      rwa [if_neg halias]
  · intro e t hh herror
    obtain ⟨⟨place, s, hmem⟩, hcursor⟩ :=
      cursor_of_storeBack_error (register_of_mem_pair hslot) herror hh
    refine ⟨⟨s, ?_⟩, hcursor⟩
    simp only [List.mem_cons, Prod.mk.injEq, List.not_mem_nil, or_false] at hmem
    cases hmem with
    | inl hz => exact .inl hz.2.symm
    | inr hy => exact .inr hy.2.symm

end Pair

end Command

/-! ## numbers and texts -/

namespace Library

open Command

variable {σ : Type} {below : List UInt8} {r : UInt8} {d : Cell}

/-- An `inc` of a register adds to it, unless the step is that register itself. -/
theorem invoke_inc (st : Store σ) (hh : st.heap.Partitioned) (hd : d.WellFormed)
    (hstack : st.stack.toList = below ++ Cell.encodeAll [.registerRef r, d]) {x k : Int32}
    (hx : st.registers.load r = .ofNative x)
    (hk : d = .void ∧ k = 1 ∨ d.Supplies st.registers (· = .ofNative k)) :
    ∃ t, inc.invoke st = .ok () t ∧ t.stack.toList = below ∧
      t.registers.load r = .ofNative (if d = .registerRef r then x else x + k) := by
  obtain ⟨slot, hsecond⟩ : ∃ slot, argument "inc" 1 { tag := .int, default := some (.int 1) } d
      st.registers st.heap = .ok (.int k, slot) := by
    cases hk with
    | inl hvoid =>
        obtain ⟨rfl, rfl⟩ := hvoid
        exact argument_of_supplies (P := (· = .void)) rfl (.inl rfl) fun c hc =>
          hc ▸ ⟨nofun, marshal_void rfl⟩
    | inr hk =>
        exact argument_of_supplies rfl hk fun c hc => hc ▸ ⟨nofun, marshal_int rfl k⟩
  have hcall := invoke_inPlace (c := inc) rfl rfl rfl hd hstack
    (by rw [hx]; exact marshal_int rfl x) (by rw [hx]; exact marshal_int rfl x) hsecond rfl
  cases hinvoke : inc.invoke st with
  | error e t =>
      obtain ⟨⟨s, htext⟩, -⟩ := hcall.2 e t hh hinvoke
      simp at htext
  | ok u t =>
      obtain ⟨hbelow, -, hstored⟩ := hcall.1 t hinvoke
      have hstored : (Value.int (if d = .registerRef r then x else x + k)).StoredAs (fun _ => False)
          st.heap (t.registers.load r) t.heap := by
        rwa [apply_ite Value.int]
      exact ⟨t, rfl, hbelow, (EStateM.Result.ok.inj (hstored t.heap)).1.symm⟩

/-- An `append$` to a register puts the longer text there, unless the tail is that register itself. -/
theorem invoke_append (st : Store σ) (hh : st.heap.Partitioned) (hd : d.WellFormed)
    (hstack : st.stack.toList = below ++ Cell.encodeAll [.registerRef r, d]) {p q : Nat}
    {u v : String} (hu : (st.registers.load r).IsText st.heap p u)
    (hv : d.Supplies st.registers (·.IsText st.heap q v)) :
    (∀ t, append.invoke st = .ok () t → t.stack.toList = below ∧
      ∃ ptr, (t.registers.load r).IsText t.heap ptr (if d = .registerRef r then u else u ++ v) ∧
        ptr ∉ st.heap.live ∧ ptr ∈ t.heap.live ∧ t.heap.readText p = .ok u) ∧
    ∀ e t, append.invoke st = .error e t → intLimit ≤ t.heap.cursor := by
  obtain ⟨slot, hsecond⟩ : ∃ slot, argument "append$" 1 { tag := .string } d st.registers st.heap =
      .ok (.text v, slot) :=
    argument_of_supplies rfl hv fun c hc => ⟨by simp [hc.tag], marshal_text rfl hc⟩
  have hcall := invoke_inPlace (c := append) rfl rfl rfl hd hstack (marshal_text rfl hu)
    (marshal_text rfl hu) hsecond rfl
  refine ⟨fun t hok => ?_, fun e t herror => (hcall.2 e t hh herror).2⟩
  obtain ⟨hbelow, hgrows, hstored⟩ := hcall.1 t hok
  have hstored : (Value.text (if d = .registerRef r then u else u ++ v)).StoredAs (fun _ => False)
      st.heap (t.registers.load r) t.heap := by
    rwa [apply_ite Value.text]
  obtain ⟨ptr, htext, hfresh, hlive⟩ := hstored.isText hh (hgrows hh).partitioned
  exact ⟨hbelow, ptr, htext, hfresh, hlive, (hgrows hh).readText hh hu.read⟩

end Library

/-! ## calls on a machine -/

namespace Machine

open Assembler StoreM

variable {σ : Type} {m : Machine σ} {s : State σ} {ip : Nat} {below : List UInt8} {d a : Cell}
  {n : Int}

/-- A step that calls a command comes to what the call comes to. -/
theorem step_callHost {c : Command σ} (hread : Instr.decode m.program s.ip = .ok .callHost ip)
    (ha : a.WellFormed) (hn : a.expectInt = .ok n) (hc : m.commands.get? n = some c)
    (hstack : s.stack.toList = below ++ a.encode) :
    ∃ stack : Stack, stack.toList = below ∧
      (∀ t, c.invoke { s.toStore with stack := stack } = .ok () t →
        m.step s = .ok .proceed { started s ip with toStore := t }) ∧
      ∀ e t, c.invoke { s.toStore with stack := stack } = .error e t →
        m.step s = .error e { started s ip with toStore := t } := by
  obtain ⟨stack, hpop, hbelow⟩ := pop_of_append s.toStore ha hstack
  have hcall : m.callCommand s.toStore = c.invoke { s.toStore with stack := stack } := by
    rw [callCommand, bind_run_of_ok (popInt_of_pop hn hpop), hc]
  refine ⟨stack, hbelow, fun t hok => ?_, fun e t herror => ?_⟩
  · have hdecide : m.decision .callHost s.toStore = .ok .proceed t :=
      bind_run_of_ok (hcall.trans hok)
    rw [step_of_decided hread hdecide]
    rfl
  · have hdecide : m.decision .callHost s.toStore = .error e t :=
      bind_run_of_error (hcall.trans herror)
    rw [step_of_stopped hread hdecide]

/-- **Commands that change a register in place.** After `inc` the register holds the sum, wrapped to
32 bits, and after `append$` it is the address of a live block with both texts one after the other,
while the block with the old text still reads as it did. The second argument may be a reference to
another register. If it is one to the same register, the register has its old number again, or its
old text in a new block. An `inc` always succeeds, and an `append$` does as long as the addresses of
the heap fit a cell. -/
theorem inPlace_update {C : Cell → Prop} {us : List (State σ)} (hlife : Session m C us s)
    (hread : Instr.decode m.program s.ip = .ok .callHost ip) {r : UInt8} (hd : d.WellFormed)
    (ha : a.WellFormed) (hn : a.expectInt = .ok n)
    (hstack : s.stack.toList = below ++ Cell.encodeAll [.registerRef r, d, a]) :
    (m.commands.get? n = some Library.inc → ∀ x k : Int32, s.registers.load r = .ofNative x →
      (d = .void ∧ k = 1 ∨ d.Supplies s.registers (· = .ofNative k)) →
      ∃ t, m.step s = .ok .proceed t ∧ t.stack.toList = below ∧
        t.registers.load r = .ofNative (if d = .registerRef r then x else x + k)) ∧
    (m.commands.get? n = some Library.append → ∀ (p q : Nat) (u v : String),
      (s.registers.load r).IsText s.heap p u → d.Supplies s.registers (·.IsText s.heap q v) →
      ((finalState (m.step s)).heap.cursor < intLimit → ∃ t, m.step s = .ok .proceed t) ∧
      ∀ t, m.step s = .ok .proceed t → t.stack.toList = below ∧
        ∃ ptr, (t.registers.load r).IsText t.heap ptr (if d = .registerRef r then u else u ++ v) ∧
          ptr ∉ s.heap.live ∧ ptr ∈ t.heap.live ∧ t.heap.readText p = .ok u) := by
  have hh := hlife.partitioned
  have htop : s.stack.toList = below ++ Cell.encodeAll [.registerRef r, d] ++ a.encode := by
    simpa using hstack
  constructor
  · intro hc x k hx hk
    obtain ⟨stack, hargs, hstep, -⟩ := step_callHost hread ha hn hc htop
    obtain ⟨t, hok, hbelow, hload⟩ :=
      Library.invoke_inc { s.toStore with stack := stack } hh hd hargs hx hk
    exact ⟨_, hstep t hok, hbelow, hload⟩
  · intro hc p q u v hu hv
    obtain ⟨stack, hargs, hstep, hstop⟩ := step_callHost hread ha hn hc htop
    have hcall := Library.invoke_append { s.toStore with stack := stack } hh hd hargs hu hv
    cases hinvoke : Library.append.invoke { s.toStore with stack := stack } with
    | error e t =>
        rw [hstop e t hinvoke]
        refine ⟨fun hcursor => ?_, nofun⟩
        have hlimit := hcall.2 e t hinvoke
        exact absurd hcursor (Nat.not_lt.mpr hlimit)
    | ok _ t =>
        rw [hstep t hinvoke]
        refine ⟨fun _ => ⟨_, rfl⟩, fun t' ht => ?_⟩
        obtain ⟨-, rfl⟩ := EStateM.Result.ok.inj ht
        exact hcall.1 t hinvoke

/-- A program that puts 5 into register 0 and calls a standard command with references to it and to
register `q`. -/
def updating (address : Int) (q : UInt8) : Machine Unit where
  program := ([pushInt 5, .store 0, .pushRegPtr 0, .pushRegPtr q, pushInt address,
    .callHost].flatMap Instr.encode).toArray
  commands := ⟨(Library.standard fun _ world => world).toArray⟩
  settings := { stackCapacity := 16, initialHeapSize := 16 }

/-- The program before the call. -/
def beforeUpdating (address : Int) (q : UInt8) : State Unit :=
  finalState ((updating address q).executeUpTo 5 ((updating address q).start ()))

/-- The program before it adds register 1, which has been set to 7 from outside. -/
def beforeInc : State Unit := (beforeUpdating 14 1).setRegister 1 (.ofNative (7 : Int32))

/-- The program before it appends register 1, after both registers have been set to texts. -/
def beforeAppend : State Unit :=
  let s := beforeUpdating 9 1
  ({ s with heap := s.heap.afterAll [.allocateText "ab", .allocateText "c"] }.setRegister 0
    (.ofInt .string 0)).setRegister 1 (.ofInt .string 8)

/-- Register 1 is added or appended to register 0. -/
theorem inPlace_update_distinct :
    (∃ us t, Session (updating 14 1) (fun _ => True) us beforeInc ∧
      beforeInc.registers.load 0 = .ofNative (5 : Int32) ∧
      beforeInc.registers.load 1 = .ofNative (7 : Int32) ∧
      (updating 14 1).step beforeInc = .ok .proceed t ∧
      t.registers.load 0 = .ofNative (12 : Int32)) ∧
    ∃ us t ptr, Session (updating 9 1) (fun _ => True) us beforeAppend ∧
      (beforeAppend.registers.load 0).IsText beforeAppend.heap 0 "ab" ∧
      (beforeAppend.registers.load 1).IsText beforeAppend.heap 8 "c" ∧
      (updating 9 1).step beforeAppend = .ok .proceed t ∧
      (t.registers.load 0).IsText t.heap ptr "abc" := by
  constructor
  · have hlife : Session (updating 14 1) (fun _ => True) _ beforeInc :=
      .setRegister 1 (.execute 0 5 (.start ()) rfl) trivial
    have hread : Instr.decode (updating 14 1).program beforeInc.ip = .ok .callHost 19 := rfl
    have hstack : beforeInc.stack.toList =
        [] ++ Cell.encodeAll [.registerRef 0, .registerRef 1, .ofInt .int 14] := by decide +kernel
    have hn : (Cell.ofInt .int 14).expectInt = .ok 14 := rfl
    have hfive : beforeInc.registers.load 0 = .ofNative (5 : Int32) := by decide +kernel
    have hseven : beforeInc.registers.load 1 = .ofNative (7 : Int32) := by decide +kernel
    obtain ⟨t, hstep, -, hload⟩ :=
      (inPlace_update hlife hread (by decide) (by decide) hn hstack).1 rfl 5 7 hfive
        (.inr (.inr ⟨1, rfl, hseven⟩))
    exact ⟨_, t, hlife, hfive, hseven, hstep, hload⟩
  · have hlife : Session (updating 9 1) (fun _ => True) _ beforeAppend :=
      .setRegister 1 (.setRegister 0 (.callHeap (.allocateText "c") (.callHeap (.allocateText "ab")
        (.execute 0 5 (.start ()) rfl))) trivial) trivial
    have hread : Instr.decode (updating 9 1).program beforeAppend.ip = .ok .callHost 19 := rfl
    have hstack : beforeAppend.stack.toList =
        [] ++ Cell.encodeAll [.registerRef 0, .registerRef 1, .ofInt .int 9] := by decide +kernel
    have hn : (Cell.ofInt .int 9).expectInt = .ok 9 := rfl
    have hab : (beforeAppend.registers.load 0).IsText beforeAppend.heap 0 "ab" :=
      ⟨by decide +kernel, rfl, Heap.readText_of_readBlock rfl⟩
    have hc : (beforeAppend.registers.load 1).IsText beforeAppend.heap 8 "c" :=
      ⟨by decide +kernel, rfl, Heap.readText_of_readBlock rfl⟩
    obtain ⟨hreturns, htext⟩ :=
      (inPlace_update hlife hread (by decide) (by decide) hn hstack).2 rfl 0 8 "ab" "c" hab
        (.inr ⟨1, rfl, hc⟩)
    obtain ⟨t, hstep⟩ := hreturns (by decide +kernel)
    obtain ⟨-, ptr, hptr, -⟩ := htext t hstep
    exact ⟨_, t, ptr, hlife, hab, hc, hstep, hptr⟩

/-- The register that is added is the one that is changed: it holds 5 before and after. -/
theorem inPlace_update_lost :
    ∃ us s t, Session (updating 14 0) (fun _ => True) us s ∧
      Instr.decode (updating 14 0).program s.ip = .ok .callHost 19 ∧
      s.stack.toList = Cell.encodeAll [.registerRef 0, .registerRef 0, .ofInt .int 14] ∧
      (updating 14 0).commands.get? 14 = some Library.inc ∧
      s.registers.load 0 = .ofNative (5 : Int32) ∧ (updating 14 0).step s = .ok .proceed t ∧
      t.registers.load 0 = .ofNative (5 : Int32) ∧
      t.registers.load 0 ≠ .ofNative (5 + 5 : Int32) := by
  have hlife : Session (updating 14 0) (fun _ => True) _ (beforeUpdating 14 0) :=
    .execute 0 5 (.start ()) rfl
  have hafter : (match (updating 14 0).step (beforeUpdating 14 0) with
      | .ok .proceed t => t.registers.load 0 == .ofNative (5 : Int32)
      | .ok .pause _ => false
      | .error _ _ => false) = true := by decide +kernel
  cases hstep : (updating 14 0).step (beforeUpdating 14 0) with
  | error e t =>
      rw [hstep] at hafter
      contradiction
  | ok signal t =>
      rw [hstep] at hafter
      cases signal with
      | pause => contradiction
      | proceed =>
          have hload : t.registers.load 0 = .ofNative (5 : Int32) := eq_of_beq hafter
          exact ⟨_, _, t, hlife, rfl, by decide +kernel, rfl, by decide +kernel, hstep, hload,
            by rw [hload]; decide⟩

end Machine

end CellMachine
