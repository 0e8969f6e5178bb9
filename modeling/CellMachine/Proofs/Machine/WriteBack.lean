import CellMachine.Proofs.Command.Settling
import CellMachine.Proofs.Machine.Invariant

/-!
# CellMachine.Proofs.Machine.WriteBack

What a call of a command can do to blocks of the heap. A heap address that is
passed to a parameter by reference is read at the width of the declared type, but
the value that the host leaves is written at the width of its own. So the call
writes over its slots and nothing else, as long as the host leaves values that
are no wider than declared (`callHost_frame`); a wider one runs into the block
behind (`callHost_overrun`).
-/

namespace CellMachine

namespace Command

variable {σ : Type}

/-- What the first half of a call has taken from the stack and from the host. -/
theorem request_eq_ok {c : Command σ} {x : Exchange} {st st' : Store σ}
    (h : c.request st = .ok x st') :
    ∃ cells, (∀ d ∈ cells, d.WellFormed) ∧
      st.stack.toList = st'.stack.toList ++ Cell.encodeAll cells ∧
      Receives c.name st.registers st.heap 0 c.params cells x.taken ∧
      c.run (x.taken.map Prod.fst) st.world = (.ok x.reply, st'.world) ∧ st'.heap = st.heap := by
  obtain ⟨taken, st₁, htake, h⟩ := bind_run_eq_ok h
  obtain ⟨reply, st₂, hcall, h⟩ := bind_run_eq_ok h
  obtain ⟨rfl, rfl⟩ := EStateM.Result.ok.inj h
  obtain ⟨cells, hcells, hstack, hreceives, hst₁⟩ := takeArguments_eq_ok htake
  cases hrun : c.run (taken.map Prod.fst) st₁.world with
  | mk answer world =>
  cases answer with
  | error e =>
      rw [callHost_of_error hrun] at hcall
      contradiction
  | ok reply' =>
      rw [callHost_of_ok hrun] at hcall
      obtain ⟨rfl, rfl⟩ := EStateM.Result.ok.inj hcall
      rw [hst₁] at hrun
      refine ⟨cells, hcells, hstack, hreceives, hrun, ?_⟩
      rw [hst₁]

/-- Address `i` lies in the slot of a reference argument: the argument is a heap address for a
parameter by reference, and `i` is one of the next bytes, as many as `width` says. -/
def InSlot (c : Command σ) (cells : List Cell) (final : List Value) (width : Param → Value → Nat)
    (i : Nat) : Prop :=
  ∃ (k : Nat) (p : Param) (d : Cell) (v : Value) (ptr : Nat),
    c.params[k]? = some p ∧ cells[k]? = some d ∧ final[k]? = some v ∧
    p.byRef = true ∧ d.tag = .ptrHeap ∧ d.expectPointer = .ok ptr ∧ ptr ≤ i ∧ i < ptr + width p v

/-- What is written back is written from the addresses passed by reference on. -/
theorem Receives.inSlot {c : Command σ} {x : Exchange} {rs : Registers} {h : Heap}
    {cells : List Cell} (hreceives : Receives c.name rs h 0 c.params cells x.taken) {i : Nat}
    (hi : x.Writes i) : c.InSlot cells x.reply.final (fun _ v => v.tag.width) i := by
  obtain ⟨ptr, v, hmem, hlo, hhi⟩ := hi
  obtain ⟨k, hk⟩ := List.getElem?_of_mem hmem
  obtain ⟨⟨u, hu⟩, hv⟩ := Exchange.getElem?_slots.mp hk
  obtain ⟨p, d, hp, hd, harg⟩ := hreceives.argument_eq hu
  obtain ⟨htag, hptr, href, -⟩ := heapPointer_of_argument harg
  exact ⟨k, p, d, v, ptr, hp, hd, hv, href, htag, hptr, hlo, hhi⟩

end Command

namespace Machine

open StoreM

variable {σ : Type} {m : Machine σ}

/-- The arguments `cells` of the command `c` lie on the stack, and its address on top of them. -/
structure Calls (m : Machine σ) (st : Store σ) (c : Command σ) (cells : List Cell) : Prop where
  wellFormed : ∀ d ∈ cells, d.WellFormed
  count : cells.length = c.params.length
  stack : ∃ (rest : List UInt8) (address : Cell) (n : Int), address.WellFormed ∧
    address.expectInt = .ok n ∧ m.commands.get? n = some c ∧
    st.stack.toList = rest ++ Cell.encodeAll cells ++ address.encode

/-- What the first half of a call has taken from the stack and from the host. -/
theorem request_eq_ok {c : Command σ} {x : Command.Exchange} {st st' : Store σ}
    (h : m.request st = .ok (c, x) st') :
    ∃ cells, m.Calls st c cells ∧
      Command.Receives c.name st.registers st.heap 0 c.params cells x.taken ∧
      c.run (x.taken.map Prod.fst) st.world = (.ok x.reply, st'.world) ∧ st'.heap = st.heap := by
  obtain ⟨n, st₁, hint, h⟩ := bind_run_eq_ok h
  obtain ⟨address, st₂, hpop, hlift⟩ := bind_run_eq_ok hint
  obtain ⟨haddress, htop, hst₂⟩ := pop_eq_ok hpop
  obtain ⟨hn, rfl⟩ := lift_eq_ok hlift
  cases hc : m.commands.get? n with
  | none =>
      rw [hc] at h
      contradiction
  | some d =>
      simp only [hc] at h
      obtain ⟨y, st₃, hask, hpure⟩ := bind_run_eq_ok h
      obtain ⟨heq, rfl⟩ := EStateM.Result.ok.inj hpure
      obtain ⟨rfl, rfl⟩ := Prod.mk.inj heq
      obtain ⟨cells, hcells, hstack, hreceives, hrun, hheap⟩ := Command.request_eq_ok hask
      rw [hst₂] at hreceives hrun hheap
      refine ⟨cells, ⟨hcells, hreceives.length_cells, st₃.stack.toList, address, n, haddress, hn, hc,
        ?_⟩, hreceives, hrun, hheap⟩
      rw [htop, hstack]

/-- What a call of a command that succeeds has taken and what it has then settled. -/
theorem callCommand_eq_ok {st st' : Store σ} (h : m.callCommand st = .ok () st') :
    ∃ (c : Command σ) (cells : List Cell) (x : Command.Exchange) (st₁ : Store σ),
      m.Calls st c cells ∧
      Command.Receives c.name st.registers st.heap 0 c.params cells x.taken ∧
      c.run (x.taken.map Prod.fst) st.world = (.ok x.reply, st₁.world) ∧
      st₁.heap = st.heap ∧ c.settle x st₁ = .ok () st' := by
  rw [callCommand_eq] at h
  obtain ⟨⟨c, x⟩, st₁, hask, hsettle⟩ := bind_run_eq_ok h
  obtain ⟨cells, hcalls, hreceives, hrun, hheap⟩ := request_eq_ok hask
  exact ⟨c, cells, x, st₁, hcalls, hreceives, hrun, hheap, hsettle⟩

/-- A step that calls a command works on the store as the call does. -/
theorem callCommand_of_step {s t : State σ} {signal : Signal} {ip : Nat}
    (hread : Instr.decode m.program s.ip = .ok .callHost ip) (hstep : m.step s = .ok signal t) :
    m.callCommand s.toStore = .ok () t.toStore := by
  cases step_outcome hstep with
  | decided hread' hdecide hfollow =>
      rw [hread] at hread'
      obtain ⟨rfl, rfl⟩ := EStateM.Result.ok.inj hread'
      obtain ⟨_, store, hcall, hnext⟩ := bind_run_eq_ok hdecide
      obtain ⟨rfl, rfl⟩ := EStateM.Result.ok.inj hnext
      cases hfollow
      exact hcall

/-- **What a call of a command may write over**, in any state whose heap is partitioned, as it is
all the life of a machine (`Session.partitioned`). A call that succeeds has popped the address of
the command and its arguments `cells`; for these the host received the values in `x.taken` and left
the values `x.reply.final`. A byte of a live block that has changed lies in the slot of a reference
argument, at the width of the value that the host left there; so it lies in the slot as declared if
no value is wider than its slot. -/
theorem callHost_frame (m : Machine σ) {s t : State σ} {signal : Signal} {ip : Nat}
    (hheap : s.heap.Partitioned)
    (hread : Instr.decode m.program s.ip = .ok .callHost ip) (hstep : m.step s = .ok signal t) :
    ∃ (c : Command σ) (cells : List Cell) (x : Command.Exchange),
      m.Calls s.toStore c cells ∧
      Command.Receives c.name s.registers s.heap 0 c.params cells x.taken ∧
      c.run (x.taken.map Prod.fst) s.world = (.ok x.reply, t.world) ∧
      ∀ ptr len i : Nat, s.heap.live[ptr]? = some len → ptr ≤ i → i < ptr + len →
        t.heap.memory.byteAt i ≠ s.heap.memory.byteAt i →
        c.InSlot cells x.reply.final (fun _ v => v.tag.width) i ∧
          ((∀ (k : Nat) (p : Param) (v : Value), c.params[k]? = some p → p.byRef = true →
              x.reply.final[k]? = some v → v.tag.width ≤ p.tag.width) →
            c.InSlot cells x.reply.final (fun p _ => p.tag.width) i) := by
  obtain ⟨c, cells, x, st, hcalls, hreceives, hrun, hkept, hsettle⟩ :=
    callCommand_eq_ok (callCommand_of_step hread hstep)
  have hsettles := ((Command.commits_settle c x).ok (.refl st) hsettle).2.settles
  have hgrows : s.heap.Grows x.Writes t.heap := by
    rw [← hkept] at hheap ⊢
    exact hsettles.heap hheap
  refine ⟨c, cells, x, hcalls, hreceives, ?_, fun ptr len i hl hlo hhi hchanged => ?_⟩
  · rw [hrun, hsettles.world]
  · have hwrites : x.Writes i :=
      Classical.not_not.mp fun hW => hchanged (hgrows.bytes ptr len i hl hlo hhi hW)
    have hslot := hreceives.inSlot hwrites
    refine ⟨hslot, fun hwide => ?_⟩
    obtain ⟨k, p, d, v, q, hp, hd, hv, href, htag, hq, hlo', hhi'⟩ := hslot
    have hle := Nat.add_le_add_left (hwide k p v hp href hv) q
    exact ⟨k, p, d, v, q, hp, hd, hv, href, htag, hq, hlo', Nat.lt_of_lt_of_le hhi' hle⟩

/-- A command that takes a `byte` by reference and leaves a `word`, which is twice as wide. -/
def widen : Command Unit where
  name := "widen"
  params := [{ tag := .byte, byRef := true }]
  run args world := (.ok (.setting args 0 (.word 0xffff)), world)

/-- A machine that calls it with the address 0. -/
def widening : Machine Unit where
  program := #[Opcode.push.code, Tag.ptrHeap.code, 0, 0, 0, 0,
    Opcode.push.code, Tag.int.code, 0, 0, 0, 0, Opcode.callHost.code]
  commands := ⟨#[widen]⟩
  settings := { stackCapacity := 16, initialHeapSize := 2 }

/-- The machine before the call, with two blocks of one byte. -/
def beforeWidening : State Unit :=
  let s := widening.start ()
  finalState (widening.executeUpTo 2 { s with heap := s.heap.afterAll [.allocate 1, .allocate 1] })

theorem widening_run :
    ∃ us s t, Session widening (fun _ => True) us s ∧
      Instr.decode widening.program s.ip = .ok .callHost 13 ∧
      widening.step s = .ok .proceed t ∧
      s.stack.toList = Cell.encodeAll [.ofInt .ptrHeap 0] ++ (Cell.ofInt .int 0).encode ∧
      s.heap.live[1]? = some 1 ∧ s.heap.memory.byteAt 1 = 0 ∧ t.heap.memory.byteAt 1 = 255 := by
  have hlife : Session widening (fun _ => True) _ beforeWidening :=
    .execute 0 2 (.callHeap (.allocate 1) (.callHeap (.allocate 1) (.start ()))) rfl
  have hafter : (match widening.step beforeWidening with
      | .ok .proceed t => t.heap.memory.byteAt 1 == 255
      | .ok .pause _ => false
      | .error _ _ => false) = true := by decide +kernel
  cases hstep : widening.step beforeWidening with
  | error e t =>
      rw [hstep] at hafter
      contradiction
  | ok signal t =>
      rw [hstep] at hafter
      cases signal with
      | pause => contradiction
      | proceed =>
          exact ⟨_, _, t, hlife, rfl, hstep, by decide, by decide, by decide, eq_of_beq hafter⟩

theorem callHost_frame_widening :
    ∃ us s t, Session widening (fun _ => True) us s ∧
      Instr.decode widening.program s.ip = .ok .callHost 13 ∧
      widening.step s = .ok .proceed t ∧ s.heap.live[1]? = some 1 ∧
      ∃ (c : Command Unit) (cells : List Cell) (x : Command.Exchange),
        widening.Calls s.toStore c cells ∧
        Command.Receives c.name s.registers s.heap 0 c.params cells x.taken ∧
        c.run (x.taken.map Prod.fst) s.world = (.ok x.reply, t.world) ∧
        c.InSlot cells x.reply.final (fun _ v => v.tag.width) 1 := by
  obtain ⟨us, s, t, hlife, hread, hstep, -, hlive, hbefore, hafter⟩ := widening_run
  have hchanged : t.heap.memory.byteAt 1 ≠ s.heap.memory.byteAt 1 := by
    rw [hbefore, hafter]
    decide
  obtain ⟨c, cells, x, hcalls, hreceives, hrun, hframe⟩ :=
    callHost_frame widening hlife.partitioned hread hstep
  exact ⟨us, s, t, hlife, hread, hstep, hlive, c, cells, x, hcalls, hreceives, hrun,
    (hframe 1 1 1 hlive (Nat.le_refl 1) (by decide) hchanged).1⟩

/-- **A value that is too wide runs into the next block**: the slot of the argument, one byte at
address 0, ends before the live block at 1, and that block changes. -/
theorem callHost_overrun :
    ∃ us s t, Session widening (fun _ => True) us s ∧
      Instr.decode widening.program s.ip = .ok .callHost 13 ∧
      widening.step s = .ok .proceed t ∧
      s.stack.toList = Cell.encodeAll [.ofInt .ptrHeap 0] ++ (Cell.ofInt .int 0).encode ∧
      widening.commands.get? 0 = some widen ∧ s.heap.live[1]? = some 1 ∧
      s.heap.memory.byteAt 1 = 0 ∧ t.heap.memory.byteAt 1 = 255 ∧
      ∀ final, ¬ widen.InSlot [.ofInt .ptrHeap 0] final (fun p _ => p.tag.width) 1 := by
  obtain ⟨us, s, t, hlife, hread, hstep, hstack, hlive, hbefore, hafter⟩ := widening_run
  refine ⟨us, s, t, hlife, hread, hstep, hstack, rfl, hlive, hbefore, hafter, ?_⟩
  rintro final ⟨k, p, d, v, ptr, hp, hd, -, -, -, hptr, -, hlt⟩
  cases k with
  | succ k => simp at hd
  | zero =>
      obtain rfl := Option.some.inj hp
      obtain rfl := Option.some.inj hd
      obtain rfl : 0 = ptr := Except.ok.inj hptr
      exact Nat.lt_irrefl 1 hlt

end Machine

end CellMachine
