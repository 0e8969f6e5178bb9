import CellMachine.Proofs.Command.Marshalling
import CellMachine.Proofs.Library.InPlace
import CellMachine.Proofs.Machine.Isolation

/-!
# CellMachine.Proofs.Machine.RoundTrip

Calls of commands that leave their arguments alone. The value of every reference
argument is stored back all the same, over what it was read from, so that nothing
is lost only if making a value of a cell and a cell of that value is the way there
and back. It is for all cells but nothing, bools other than 0 and 1, and texts
(`Value.toCell_of_ofCell?`). A text comes back in a new block. As long as the
other places lie in live blocks, nothing is written over that one.

* `keeps_storeBack_of_holds` — storing what is there changes no live block,
* `restored_of_invoke` — what a call that leaves its arguments alone changes.
-/

namespace CellMachine

/-! ## from cells to values and back -/

/-- The value of a cell is made into that cell again. -/
theorem Value.toCell_of_ofCell? {c : Cell} {v : Value} (hc : c.WellFormed)
    (htruth : c.tag = .bool → c.payload = 0 ∨ c.payload = 1) (hv : ofCell? c = some v) (g : Heap) :
    v.toCell g = .ok c g := by
  have hpure {d : Cell} (hd : d = c) : (pure d : HeapM Cell) g = .ok c g := by rw [hd]; rfl
  unfold ofCell? at hv
  split at hv
  case h_3 htag =>
    obtain rfl := Option.some.inj hv
    exact hpure (Cell.ofNative_toNative_bool hc htag (htruth htag))
  case h_9 htag =>
    obtain rfl := Option.some.inj hv
    exact hpure (htag ▸ Cell.ofInt_toNative hc (by rw [htag]; rfl))
  case h_10 htag =>
    obtain rfl := Option.some.inj hv
    exact hpure (htag ▸ Cell.ofInt_toNative hc (by rw [htag]; rfl))
  all_goals
    first
    | contradiction
    | obtain rfl := Option.some.inj hv
      exact hpure (Cell.ofNative_toNative hc (by assumption))

/-- A value that is no text is stored as the one cell that it is made into. -/
theorem Value.StoredAs.toCell_eq {W : Nat → Prop} {h₀ h : Heap} {v : Value} {c : Cell}
    (hs : v.StoredAs W h₀ c h) (hv : v.tag ≠ .string) (g : Heap) : v.toCell g = .ok c g := by
  cases v with
  | text s => exact absurd rfl hv
  | _ => exact hs g

namespace Heap

variable {W : Nat → Prop} {h₀ h h' : Heap}

/-- The range lies in a live block. -/
def InLiveBlock (h : Heap) (ptr len : Nat) : Prop :=
  ∃ q n : Nat, h.live[q]? = some n ∧ q ≤ ptr ∧ ptr + len ≤ q + n

/-- Writing what was there at first changes no live block. -/
theorem Grows.rewrite (hg : h₀.Grows W h) {ptr : Nat} {bs : List UInt8}
    (hread : h₀.memory.read ptr bs.length = bs) (hw : h.write ptr bs = .ok h') : h₀.Grows W h' := by
  have hp := hg.partitioned.write hw
  obtain ⟨-, rfl⟩ := write_eq_ok_iff.mp hw
  refine ⟨hp, hg.live, fun p n i hl hlo hhi hi => ?_⟩
  rw [Memory.byteAt_write]
  by_cases hin : ptr ≤ i ∧ i < ptr + bs.length
  · have hbyte : bs[i - ptr]? = some (bs.getD (i - ptr) 0) := by grind
    have hwas := Memory.byteAt_of_read hread hbyte
    rw [Nat.add_sub_cancel' hin.1] at hwas
    rw [if_pos hin, hwas]
  · rw [if_neg hin]
    exact hg.bytes p n i hl hlo hhi hi

theorem memory_read_of_read {ptr len : Nat} {bs : List UInt8} (hr : h.read ptr len = .ok bs) :
    h.memory.read ptr len = bs := by
  obtain ⟨_, -, hr⟩ := bind_eq_ok hr
  exact Except.ok.inj hr

end Heap

/-- The block of a text is new, so that nothing is written over it in the blocks that were live. -/
theorem Value.StoredAs.untouched {W : Nat → Prop} {h₀ h : Heap} {v : Value} {c : Cell}
    (hs : v.StoredAs W h₀ c h) (hW : ∀ i, W i → h₀.InLiveBlock i 1) (hg : h₀.Grows W h) :
    v.StoredAs (fun _ => False) h₀ c h := by
  cases v with
  | text s =>
      obtain ⟨ptr, hlt, hc, hblock⟩ := hs
      refine ⟨ptr, hlt, hc, fun hh => ?_⟩
      obtain ⟨hfresh, hlive, hbytes⟩ := hblock hh
      refine ⟨hfresh, hlive, fun i b hi _ => hbytes i b hi fun hwritten => ?_⟩
      obtain ⟨q, n, hq, hlo, hhi⟩ := hW _ hwritten
      have hne : ptr ≠ q := by
        rintro rfl
        rw [hfresh] at hq
        contradiction
      have hapart := hg.partitioned.apart_of_live hlive (hg.live q n hq) hne
      obtain ⟨hlen, -⟩ := List.getElem?_eq_some_iff.mp hi
      unfold Heap.Apart Heap.extent at hapart
      omega
  | _ => exact hs

/-! ## arguments -/

/-- The cell `c`, which a parameter finds at a place, is put back as it was when its value is stored
there: it is not nothing, if it is a bool it is 0 or 1, and if the place is on the heap it holds no
text and lies in a live block. -/
structure Param.Restorable (p : Param) (h : Heap) (c : Cell) (slot : Slot) : Prop where
  present : c.tag ≠ .void
  truth : c.tag = .bool → c.payload = 0 ∨ c.payload = 1
  inside : ∀ ptr, slot = .heap ptr → p.tag ≠ .string ∧ h.InLiveBlock ptr p.tag.width

/-- Storing `v` at a place of the heap puts there what `h` has there. -/
def Slot.Holds (h : Heap) (v : Value) : Slot → Prop
  | register _ => True
  | heap ptr => ∃ c : Cell, (∀ g, v.toCell g = .ok c g) ∧
      h.memory.read ptr c.bytes.length = c.bytes

namespace Command

open StoreM

variable {σ : Type} {name : String} {index : Nat} {p : Param} {c d : Cell} {v : Value}
  {rs : Registers} {h : Heap} {slot : Slot}

theorem Marshals.toCell_eq (hm : Marshals p h c v) (hc : c.WellFormed)
    (hplace : p.Restorable h c slot) (hv : v.tag ≠ .string) (g : Heap) : v.toCell g = .ok c g := by
  cases hm with
  | omitted htag => exact absurd htag hplace.present
  | text => exact absurd rfl hv
  | plain hvalue => exact Value.toCell_of_ofCell? hc hplace.truth hvalue g

/-- What is found on the heap is of the type of the parameter. -/
theorem tag_of_argument_heap {ptr : Nat}
    (ha : argument name index p d rs h = .ok (v, some (.heap ptr))) : v.tag = p.tag := by
  obtain ⟨c, hresolve, hm⟩ := argument_eq_ok ha
  have hadmits := hm.admits
  cases resolves_of_resolve hresolve with
  | @heap t _ bytes _ _ hstored =>
      have htag : (Cell.ofBytes t bytes).tag = t := rfl
      unfold Param.Admits at hadmits
      unfold storedTag? at hstored
      grind

theorem holds_of_argument (ha : argument name index p d rs h = .ok (v, some slot))
    (hplace : ∀ c, resolve name index p d rs h = .ok (c, some slot) → p.Restorable h c slot) :
    slot.Holds h v := by
  cases slot with
  | register r => trivial
  | heap ptr =>
      have htag := tag_of_argument_heap ha
      obtain ⟨c, hresolve, hm⟩ := argument_eq_ok ha
      have hrestorable := hplace c hresolve
      have hv : v.tag ≠ .string := htag ▸ (hrestorable.inside ptr rfl).1
      cases resolves_of_resolve hresolve with
      | @heap t _ bytes _ _ _ _ hread =>
          have hlength : bytes.length = t.width := Heap.length_of_read hread
          have hbytes : (Cell.ofBytes t bytes).bytes = bytes := by
            rw [Cell.bytes_ofBytes]
            simp [fitBytes, ← hlength]
          refine ⟨_, hm.toCell_eq (Cell.wellFormed_ofBytes t bytes) hrestorable hv, ?_⟩
          rw [hbytes, hlength]
          exact Heap.memory_read_of_read hread

/-! ## storing back what was there -/

section StoreBack

variable {h₀ : Heap} {W : Nat → Prop}

theorem keeps_storeAt_of_holds (hslot : slot.Holds h₀ v) :
    Keeps (fun st : Store σ => h₀.Grows W st.heap) (fun _ => True) (storeAt slot v)
      fun _ => True := by
  cases slot with
  | register r =>
      refine .bind (Q := fun _ => True) (.onHeap fun st hst => ?_) fun c _ => .setRegister fun _ => id
      have hgrows := hst.trans (Value.grows_toCell hst.partitioned v)
      cases hcell : v.toCell st.heap with
      | ok c heap =>
          rw [hcell] at hgrows
          exact ⟨trivial, hgrows⟩
      | error e heap =>
          rw [hcell] at hgrows
          exact ⟨trivial, hgrows⟩
  | heap ptr =>
      obtain ⟨c, hcell, hread⟩ := hslot
      refine .bind (Q := (· = c)) (.onHeap fun st hst => ?_) fun d hd => ?_
      · rw [hcell]
        exact ⟨rfl, hst⟩
      · -- growth is counted from `h₀`, so that it does not matter what was written in between
        subst hd
        exact .updateHeap (fun st heap hst hw => hst.rewrite hread hw) fun _ _ _ _ => trivial

theorem keeps_storeBack_of_holds {slots : List (Option Slot × Value)}
    (hslots : ∀ slot v, (some slot, v) ∈ slots → slot.Holds h₀ v) :
    Keeps (fun st : Store σ => h₀.Grows W st.heap) (fun _ => True) (storeBack slots)
      fun _ => True := by
  induction slots with
  | nil => exact .pure trivial
  | cons x rest ih =>
      have hrest := ih fun slot v hmem => hslots slot v (List.mem_cons_of_mem _ hmem)
      obtain ⟨slot, v⟩ := x
      cases slot with
      | none => exact hrest
      | some slot =>
          exact .bind (keeps_storeAt_of_holds (hslots slot v List.mem_cons_self)) fun _ _ => hrest

end StoreBack

/-! ## calls that leave their arguments alone -/

/-- What a call with the arguments `cells`, of which the command received `taken`, makes of the store
`st` if it leaves all storage as it was, but for the texts in registers, which are in new blocks.
The last argument that refers to a register counts. -/
structure Restored (cells : List Cell) (taken : List (Value × Option Slot)) (st t : Store σ) :
    Prop where
  named : ∀ (r : UInt8) (i : Nat), cells[i]? = some (.registerRef r) →
    (∀ j, i < j → cells[j]? ≠ some (.registerRef r)) →
    ∃ v, taken[i]? = some (v, some (.register r)) ∧
      (v.tag ≠ .string → t.registers.load r = st.registers.load r) ∧
      ∀ text, v = .text text → ∃ ptr, (t.registers.load r).IsText t.heap ptr text ∧
        ptr ∉ st.heap.live ∧ ptr ∈ t.heap.live
  unnamed : ∀ r, .registerRef r ∉ cells → t.registers.load r = st.registers.load r
  blocks : ∀ ptr len : Nat, st.heap.live[ptr]? = some len →
    t.heap.live[ptr]? = some len ∧ t.heap.memory.read ptr len = st.heap.memory.read ptr len

theorem Exchange.getElem?_slots_of_idle {x : Exchange} (hidle : x.reply.final = x.taken.map Prod.fst)
    {i : Nat} {slot : Option Slot} {v : Value} :
    x.slots[i]? = some (slot, v) ↔ x.taken[i]? = some (v, slot) := by
  rw [getElem?_slots, hidle, List.getElem?_map]
  cases x.taken[i]? with
  | none => simp
  | some a => grind

section Idle

variable {cmd : Command σ} {st t : Store σ} {cells : List Cell} {x : Exchange}

/-- What a call finds at the places of its reference arguments is put back as it was. -/
def PlacesRestorable (cmd : Command σ) (cells : List Cell) (st : Store σ) : Prop :=
  ∀ i p d c slot, cmd.params[i]? = some p → cells[i]? = some d →
    resolve cmd.name i p d st.registers st.heap = .ok (c, some slot) → p.Restorable st.heap c slot

/-- The host answers to what it receives for `cells` by leaving it as it is. -/
def LeavesArguments (cmd : Command σ) (cells : List Cell) (st : Store σ) : Prop :=
  ∀ taken reply world, Receives cmd.name st.registers st.heap 0 cmd.params cells taken →
    cmd.run (taken.map Prod.fst) st.world = (.ok reply, world) → reply.final = taken.map Prod.fst

variable (hreceives : Receives cmd.name st.registers st.heap 0 cmd.params cells x.taken)
  (hidle : x.reply.final = x.taken.map Prod.fst)

include hreceives hidle in
/-- What is stored back is what was received. -/
theorem argument_of_mem_slots {slot : Option Slot} {v : Value} (hmem : (slot, v) ∈ x.slots) :
    ∃ i p d, cmd.params[i]? = some p ∧ cells[i]? = some d ∧
      argument cmd.name i p d st.registers st.heap = .ok (v, slot) := by
  obtain ⟨i, hi⟩ := List.getElem?_of_mem hmem
  obtain ⟨p, d, hp, hd, harg⟩ :=
    hreceives.argument_eq ((Exchange.getElem?_slots_of_idle hidle).mp hi)
  rw [Nat.zero_add] at harg
  exact ⟨i, p, d, hp, hd, harg⟩

include hreceives hidle in
theorem holds_of_mem_slots (hplaces : cmd.PlacesRestorable cells st) (slot : Slot) (v : Value)
    (hmem : (some slot, v) ∈ x.slots) : slot.Holds st.heap v := by
  obtain ⟨i, p, d, hp, hd, harg⟩ := argument_of_mem_slots hreceives hidle hmem
  exact holds_of_argument harg fun c hc => hplaces i p d c slot hp hd hc

include hreceives hidle in
theorem inLiveBlock_of_writes (hplaces : cmd.PlacesRestorable cells st) (a : Nat)
    (ha : x.Writes a) : st.heap.InLiveBlock a 1 := by
  obtain ⟨ptr, v, hmem, hlo, hhi⟩ := ha
  obtain ⟨i, p, d, hp, hd, harg⟩ := argument_of_mem_slots hreceives hidle hmem
  obtain ⟨c, hresolve⟩ := resolve_of_argument harg
  obtain ⟨-, q, n, hq, hqlo, hqhi⟩ := (hplaces i p d c _ hp hd hresolve).inside ptr rfl
  rw [tag_of_argument_heap harg] at hhi
  exact ⟨q, n, hq, by omega, by omega⟩

include hreceives hidle in
/-- Settling what the host left alone changes no live block. -/
theorem grows_settle_of_idle (hplaces : cmd.PlacesRestorable cells st) (hh : st.heap.Partitioned)
    {stack : Stack} {world : σ}
    (hok : cmd.settle x { st with stack := stack, world := world } = .ok () t) :
    st.heap.Grows (fun _ => False) t.heap := by
  obtain ⟨_, st₁, hstore, hdeliver⟩ := bind_run_eq_ok hok
  have hslots := holds_of_mem_slots hreceives hidle hplaces
  have hone : st.heap.Grows (fun _ => False) st₁.heap := by
    refine ((keeps_storeBack_of_holds hslots).ok ?_ hstore).2
    exact .refl hh
  have htwo := ((commits_deliver (W := fun _ => False) (N := fun _ => False) cmd x.reply.result).ok
    (.refl st₁) hdeliver).2.settles
  exact hone.trans (htwo.heap hone.partitioned)

/-- A register is found as it is. -/
theorem toCell_of_register {p : Param} {d : Cell} {v : Value} {i : Nat} {r : UInt8}
    (hst : st.Sound) (hplaces : cmd.PlacesRestorable cells st) (hp : cmd.params[i]? = some p)
    (hd : cells[i]? = some d)
    (harg : argument cmd.name i p d st.registers st.heap = .ok (v, some (.register r)))
    (hv : v.tag ≠ .string) (g : Heap) : v.toCell g = .ok (st.registers.load r) g := by
  obtain ⟨c, hresolve, hm⟩ := argument_eq_ok harg
  have hplace := hplaces i p d c _ hp hd hresolve
  cases resolves_of_resolve hresolve with
  | register => exact hm.toCell_eq (hst.registers _) hplace hv g

include hreceives hidle in
/-- Settling what the host left alone restores storage. -/
theorem restored_of_settle (hst : st.Sound) (hcells : ∀ d ∈ cells, d.WellFormed)
    (hplaces : cmd.PlacesRestorable cells st) {stack : Stack} {world : σ}
    (hok : cmd.settle x { st with stack := stack, world := world } = .ok () t) :
    Restored cells x.taken st t := by
  have hgrows := grows_settle_of_idle hreceives hidle hplaces hst.heap hok
  have hwrites := inLiveBlock_of_writes hreceives hidle hplaces
  have hsettles := ((commits_settle cmd x).ok (.refl _) hok).2.settles
  refine ⟨fun r i hi hlast => ?_, fun r hr => ?_,
    fun ptr len hl => ⟨hgrows.live ptr len hl, hgrows.read hl⟩⟩
  · obtain ⟨v, hv⟩ := hreceives.taken_of_registerRef hcells hi
    obtain ⟨p, d, hp, hd, harg⟩ := hreceives.argument_eq hv
    rw [Nat.zero_add] at harg
    have hslot := (Exchange.getElem?_slots_of_idle hidle).mpr hv
    have hstored := storedAs_settle hok hslot fun j w hj hw =>
      have htaken := (Exchange.getElem?_slots_of_idle hidle).mp hw
      hlast j hj ((hreceives.slot_eq_register_iff hcells htaken r).mp rfl)
    refine ⟨v, hv, fun htag => ?_, fun text htext => ?_⟩
    · have hback := toCell_of_register hst hplaces hp hd harg htag t.heap
      rw [hstored.toCell_eq htag] at hback
      exact (EStateM.Result.ok.inj hback).1
    · -- other values are written into blocks that were live, and the text is in none of them
      subst htext
      have huntouched := hstored.untouched hwrites (hgrows.mono fun _ => False.elim)
      exact huntouched.isText hst.heap hgrows.partitioned
  · exact hsettles.registers r fun hnames => hr (hreceives.mem_of_names hcells hnames)

end Idle

/-- A call that succeeds restores storage, if the host leaves the arguments alone. -/
theorem restored_of_invoke {cmd : Command σ} {st t : Store σ} {cells : List Cell}
    {rest : List UInt8} (hst : st.Sound) (hcells : ∀ d ∈ cells, d.WellFormed)
    (hcount : cells.length = cmd.params.length)
    (hstack : st.stack.toList = rest ++ Cell.encodeAll cells)
    (hplaces : cmd.PlacesRestorable cells st) (hleaves : cmd.LeavesArguments cells st)
    (hok : cmd.invoke st = .ok () t) :
    ∃ taken, Receives cmd.name st.registers st.heap 0 cmd.params cells taken ∧
      Restored cells taken st t := by
  have houtcome := invoke_outcome cmd st hcells hcount hstack
  rw [hok] at houtcome
  generalize hr : (EStateM.Result.ok () t : EStateM.Result Fault (Store σ) Unit) = r at houtcome
  cases houtcome with
  | refused => contradiction
  | failed => contradiction
  | @answered x stack world hreceives hrun _ =>
      have hidle := hleaves _ _ _ hreceives hrun
      exact ⟨x.taken, hreceives, restored_of_settle hreceives hidle hst hcells hplaces hr.symm⟩

end Command

/-! ## calls on a machine -/

namespace Machine

open Command StoreM

variable {σ : Type}

/-- A call that succeeds finds a command and its arguments. -/
theorem calls_of_step {m : Machine σ} {s t : State σ} {signal : Signal} {ip : Nat}
    (hread : Instr.decode m.program s.ip = .ok .callHost ip) (hstep : m.step s = .ok signal t) :
    ∃ c cells, m.Calls s.toStore c cells := by
  obtain ⟨c, cells, -, -, hcalls, -⟩ := callCommand_eq_ok (callCommand_of_step hread hstep)
  exact ⟨c, cells, hcalls⟩

/-- **A call that leaves its arguments alone leaves storage alone**, in every state of a session in
which only well-formed cells are put into registers from outside, whatever type the command returns.
If the host leaves the values that it receives as they are, and if what is found at the places of the
reference arguments can be put back as it was, then a call that succeeds leaves in every register the
cell that was there, or its text in a new block if it was received as one, and in all live blocks the
bytes that they had. -/
theorem idle_call_restores (m : Machine σ) {us : List (State σ)} {s t : State σ} {signal : Signal}
    {ip : Nat} (hlife : Session m Cell.WellFormed us s)
    (hread : Instr.decode m.program s.ip = .ok .callHost ip) (hstep : m.step s = .ok signal t) :
    (∃ c cells, m.Calls s.toStore c cells) ∧
    ∀ c cells, m.Calls s.toStore c cells → c.PlacesRestorable cells s.toStore →
      c.LeavesArguments cells s.toStore →
      ∃ taken, Receives c.name s.registers s.heap 0 c.params cells taken ∧
        Restored cells taken s.toStore t.toStore := by
  refine ⟨calls_of_step hread hstep, fun c cells hcalls hplaces hleaves => ?_⟩
  obtain ⟨rest, a, n, ha, hn, hc, hstack⟩ := hcalls.stack
  obtain ⟨stack, hargs, hreturns, hstops⟩ := step_callHost hread ha hn hc hstack
  have hsound : { s.toStore with stack := stack }.Sound := ⟨hlife.sound.registers, hlife.sound.heap⟩
  cases hinvoke : c.invoke { s.toStore with stack := stack } with
  | error e t' =>
      rw [hstops e t' hinvoke] at hstep
      contradiction
  | ok _ t' =>
      rw [hreturns t' hinvoke] at hstep
      obtain ⟨-, rfl⟩ := EStateM.Result.ok.inj hstep
      obtain ⟨taken, hreceives, hback⟩ :=
        restored_of_invoke hsound hcalls.wellFormed hcalls.count hargs hplaces hleaves hinvoke
      exact ⟨taken, hreceives, hback.named, hback.unnamed, hback.blocks⟩

/-- A command that leaves its arguments alone. -/
def keep : Command Unit where
  name := "keep"
  params := [{ tag := .int }, { tag := .string }, { tag := .byte, byRef := true }]
  run args world := (.ok (.returning args .void), world)

/-- References to two registers and the address of a byte. -/
def keptArguments : List Cell := [.registerRef 0, .registerRef 1, .ofInt .ptrHeap 4]

/-- A machine that calls the command with them. -/
def keeping : Machine Unit where
  program := ([.pushRegPtr 0, .pushRegPtr 1, .push .ptrHeap (leBytes 4 4), Assembler.pushInt 0,
    .callHost].flatMap Instr.encode).toArray
  commands := ⟨#[keep]⟩
  settings := { stackCapacity := 16, initialHeapSize := 8 }

/-- The machine before the call, with a number in register 0 and a text in register 1. -/
def beforeKeeping : State Unit :=
  let s := keeping.start ()
  finalState (keeping.executeUpTo 4
    (({ s with heap := s.heap.after (.allocateText "ab") }.setRegister 0
      (.ofNative (5 : Int32))).setRegister 1 (.ofInt .string 0)))

theorem placesRestorable_keeping :
    keep.PlacesRestorable keptArguments beforeKeeping.toStore := by
  intro i p d c slot hp hd hresolve
  match i with
  | 0 | 1 =>
      obtain rfl := Option.some.inj hp
      obtain rfl := Option.some.inj hd
      obtain ⟨rfl, hslot⟩ := Prod.mk.inj (Except.ok.inj hresolve)
      obtain rfl := Option.some.inj hslot
      exact ⟨by decide +kernel, by decide +kernel, nofun⟩
  | 2 =>
      obtain rfl := Option.some.inj hp
      obtain rfl := Option.some.inj hd
      obtain ⟨rfl, hslot⟩ := Prod.mk.inj (Except.ok.inj hresolve)
      obtain rfl := Option.some.inj hslot
      refine ⟨by decide +kernel, by decide +kernel, fun ptr hptr => ?_⟩
      obtain rfl := Slot.heap.inj hptr
      exact ⟨nofun, 0, 8, rfl, by decide, by decide⟩

theorem leavesArguments_keep (cells : List Cell) (st : Store Unit) :
    keep.LeavesArguments cells st := by
  intro taken reply world _ hrun
  rw [← Except.ok.inj (Prod.mk.inj hrun).1]
  rfl

theorem step_keeping : ∃ t, keeping.step beforeKeeping = .ok .proceed t := by
  have hproceeds : (match keeping.step beforeKeeping with
      | .ok .proceed _ => true
      | .ok .pause _ => false
      | .error _ _ => false) = true := by decide +kernel
  split at hproceeds
  · next t hstep => exact ⟨t, hstep⟩
  · simp at hproceeds
  · simp at hproceeds

/-- The number stays in register 0, the text comes back to register 1 in a new block, and the block
that held it, with the byte, is as it was. -/
theorem idle_call_restores_keeping :
    ∃ us t ptr, Session keeping Cell.WellFormed us beforeKeeping ∧
      beforeKeeping.registers.load 0 = .ofNative (5 : Int32) ∧
      (beforeKeeping.registers.load 1).IsText beforeKeeping.heap 0 "ab" ∧
      keeping.step beforeKeeping = .ok .proceed t ∧
      t.registers.load 0 = .ofNative (5 : Int32) ∧
      (t.registers.load 1).IsText t.heap ptr "ab" ∧ ptr ∉ beforeKeeping.heap.live ∧
      t.heap.memory.read 0 8 = beforeKeeping.heap.memory.read 0 8 := by
  obtain ⟨t, hstep⟩ := step_keeping
  have hlife : Session keeping Cell.WellFormed _ beforeKeeping :=
    .execute 0 4 (.setRegister 1 (.setRegister 0 (.callHeap (.allocateText "ab") (.start ()))
      (Cell.wellFormed_ofNative _)) (Cell.wellFormed_ofInt ..)) rfl
  have hread : Instr.decode keeping.program beforeKeeping.ip = .ok .callHost 17 := rfl
  have hfive : beforeKeeping.registers.load 0 = .ofNative (5 : Int32) := by decide +kernel
  have hab : (beforeKeeping.registers.load 1).IsText beforeKeeping.heap 0 "ab" :=
    ⟨by decide +kernel, rfl, Heap.readText_of_readBlock rfl⟩
  have hstack : beforeKeeping.stack.toList =
      [] ++ Cell.encodeAll keptArguments ++ (Cell.ofInt .int 0).encode := by decide +kernel
  have hcalls : keeping.Calls beforeKeeping.toStore keep keptArguments :=
    ⟨by decide, rfl, [], .ofInt .int 0, 0, by decide, rfl, rfl, hstack⟩
  have hargs : Receives "keep" beforeKeeping.registers beforeKeeping.heap 0 keep.params
      keptArguments [(.int 5, some (.register 0)), (.text "ab", some (.register 1)),
        (.byte 98, some (.heap 4))] :=
    .cons (argument_registerRef (by rw [hfive]; exact marshal_int rfl 5))
      (.cons (argument_registerRef (marshal_text rfl hab)) (.cons rfl (.nil 3)))
  obtain ⟨taken, hreceives, hback⟩ := (idle_call_restores keeping hlife hread hstep).2 keep
    keptArguments hcalls placesRestorable_keeping (leavesArguments_keep _ _)
  obtain rfl := hreceives.unique hargs
  obtain ⟨_, hint, hkept, -⟩ := hback.named 0 0 rfl fun j hj => by
    match j with
    | 1 | 2 => decide
    | _ + 3 => simp [keptArguments]
  obtain ⟨_, htext, -, hnew⟩ := hback.named 1 1 rfl fun j hj => by
    match j with
    | 2 => decide
    | _ + 3 => simp [keptArguments]
  obtain ⟨rfl, -⟩ := Prod.mk.inj (Option.some.inj hint)
  obtain ⟨rfl, -⟩ := Prod.mk.inj (Option.some.inj htext)
  obtain ⟨ptr, hptr, hfresh, -⟩ := hnew "ab" rfl
  exact ⟨_, t, ptr, hlife, hfive, hab, hstep, (hkept nofun).trans hfive, hptr, hfresh,
    (hback.blocks 0 8 rfl).2⟩

end Machine

end CellMachine
