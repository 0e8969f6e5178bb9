import CellMachine.Proofs.Machine.Decision
import CellMachine.Proofs.Machine.Session

/-!
# CellMachine.Proofs.Machine.Invariant

What holds of a machine all its life, whatever bytes its program has: the
position stays in the program or at its end, the open calls are those that were
opened and not closed, each of them returns to right behind a `jumpHistory`,
their number is bounded, and the store stays sound.

`Consistent.step` is the one place where instructions are looked at.
-/

namespace CellMachine

/-- An instruction without operands is read exactly where its opcode stands. -/
theorem Instr.opcode_iff_of_decode {p : Program} {ip ip' : Nat} {i j : Instr}
    (hbare : j.operandBytes = []) (h : decode p ip = .ok i ip') :
    p[ip]? = some j.opcode.code ↔ i = j := by
  constructor
  · intro hbyte
    have hread := decode_of_bare hbare hbyte
    rw [h] at hread
    exact (EStateM.Result.ok.inj hread).1
  · rintro rfl
    exact opcode_of_decode h

namespace Machine

variable {σ : Type} {m : Machine σ}

/-! ## open calls -/

/-- The open calls once an instruction has been started in state `s`: a `jumpHistory` that succeeds
opens a call, which returns behind it, and a `ret` that succeeds closes the innermost one. -/
def callsAfter (m : Machine σ) (calls : List Nat) (s : State σ) : List Nat :=
  match m.step s with
  | .error _ _ => calls
  | .ok _ _ =>
    if m.program[s.ip]? = some Opcode.jumpHistory.code then (s.ip + 1) :: calls
    else if m.program[s.ip]? = some Opcode.ret.code then calls.tail
    else calls

/-- The open calls once instructions have been started in the states of a list, in order. -/
def openCalls (m : Machine σ) (us : List (State σ)) : List Nat := us.foldl m.callsAfter []

@[simp] theorem openCalls_append (m : Machine σ) (us : List (State σ)) (s : State σ) :
    m.openCalls (us ++ [s]) = m.callsAfter (m.openCalls us) s := by
  simp [openCalls]

theorem callsAfter_of_error {s t : State σ} {e : Fault} (hstep : m.step s = .error e t)
    (calls : List Nat) : m.callsAfter calls s = calls := by
  rw [callsAfter, hstep]

theorem callsAfter_of_ok {s t : State σ} {signal : Signal} {i : Instr} {ip : Nat}
    (hstep : m.step s = .ok signal t) (hread : Instr.decode m.program s.ip = .ok i ip)
    (calls : List Nat) :
    m.callsAfter calls s =
      if i = .jumpHistory then (s.ip + 1) :: calls else if i = .ret then calls.tail else calls := by
  have hcall := Instr.opcode_iff_of_decode (j := .jumpHistory) rfl hread
  have hret := Instr.opcode_iff_of_decode (j := .ret) rfl hread
  simp only [Instr.opcode] at hcall hret
  simp only [callsAfter, hstep, hcall, hret]

/-! ## the invariant -/

/-- What holds of a machine in state `s`, after instructions were started in the states `us`. -/
structure Consistent (m : Machine σ) (us : List (State σ)) (s : State σ) : Prop where
  ip_le : s.ip ≤ m.program.size
  depth_le : s.calls.length ≤ m.settings.maxCallDepth
  returns : ∀ r ∈ s.calls,
    1 ≤ r ∧ r ≤ m.program.size ∧ m.program[r - 1]? = some Opcode.jumpHistory.code
  calls_eq : s.calls = m.openCalls us
  registers : ∀ r, (s.registers.load r).WellFormed
  heap : s.heap.Partitioned

namespace Consistent

variable {us : List (State σ)} {s : State σ}

theorem start (m : Machine σ) (world : σ) : Consistent m [] (m.start world) where
  ip_le := Nat.zero_le _
  depth_le := Nat.zero_le _
  returns _ hr := nomatch hr
  calls_eq := rfl
  registers r := by
    have hzero : (Registers.new.load r) = Cell.zero := by simp [Registers.load, Registers.new]
    change (Registers.new.load r).WellFormed
    rw [hzero]
    decide
  heap := .new _

theorem store (h : Consistent m us s) : s.toStore.Sound := ⟨h.registers, h.heap⟩

/-- Steps that change neither the position's place in the program nor the open calls. -/
theorem of_step (h : Consistent m us s) {t : State σ} (hip : t.ip ≤ m.program.size)
    (hcalls : t.calls = s.calls) (hopen : m.callsAfter s.calls s = s.calls)
    (hstore : s.toStore.Follows t.toStore) : Consistent m (us ++ [s]) t where
  ip_le := hip
  depth_le := hcalls ▸ h.depth_le
  returns := hcalls ▸ h.returns
  calls_eq := by rw [openCalls_append, ← h.calls_eq, hopen, hcalls]
  registers := (h.store.follow hstore).registers
  heap := (h.store.follow hstore).heap

/-- **One step keeps the invariant**, whatever it comes to. -/
theorem step (h : Consistent m us s) : Consistent m (us ++ [s]) (finalState (m.step s)) := by
  generalize hstep : m.step s = r
  cases step_outcome hstep with
  | unread hread =>
      exact h.of_step (Instr.keeps_decode.error h.ip_le hread).2 rfl
        (callsAfter_of_error hstep _) (.refl _)
  | stopped hread hdecide =>
      exact h.of_step (Instr.keeps_decode.ok h.ip_le hread).2 rfl (callsAfter_of_error hstep _)
        ((m.keeps_decision _).error (.refl _) hdecide).2
  | @decided i ip next store r hread hdecide hfollow =>
      have hip := (Instr.keeps_decode.ok h.ip_le hread).2
      obtain ⟨hfits, hstore⟩ := (m.keeps_decision i).ok (.refl _) hdecide
      cases hfollow with
      | proceed =>
          obtain ⟨hcall, hret, -⟩ := hfits
          exact h.of_step hip rfl (by rw [callsAfter_of_ok hstep hread, if_neg hcall, if_neg hret])
            hstore
      | pause =>
          obtain rfl : i = .breakpoint := hfits
          exact h.of_step hip rfl (callsAfter_of_ok hstep hread _) hstore
      | jump target =>
          obtain ⟨hjump, hle⟩ := hfits
          refine h.of_step hle rfl ?_ hstore
          rcases hjump with rfl | rfl | rfl <;> exact callsAfter_of_ok hstep hread _
      | tooDeep target _ =>
          exact h.of_step hip rfl (callsAfter_of_error hstep _) hstore
      | noCall _ => exact h.of_step hip rfl (callsAfter_of_error hstep _) hstore
      | print line =>
          obtain rfl : i = .dbgPrint := hfits
          exact h.of_step hip rfl (callsAfter_of_ok hstep hread _) hstore
      | call target hdepth =>
          -- the call returns behind the one byte of the instruction
          obtain ⟨rfl, hle⟩ := hfits
          obtain ⟨-, rfl, -⟩ := Instr.decode_sound hread
          have hbyte := Instr.opcode_of_decode hread
          refine ⟨hle, hdepth, fun r hr => ?_, ?_, (h.store.follow hstore).registers,
            (h.store.follow hstore).heap⟩
          · rcases List.mem_cons.mp hr with rfl | hr
            · exact ⟨Nat.le_add_left .., hip, hbyte⟩
            · exact h.returns r hr
          · rw [openCalls_append, ← h.calls_eq]
            exact (callsAfter_of_ok hstep hread _).symm
      | @back r rest hcalls =>
          obtain rfl : i = .ret := hfits
          change s.calls = r :: rest at hcalls
          have hmem : ∀ q ∈ r :: rest, q ∈ s.calls := fun q hq => hcalls ▸ hq
          have hdepth := h.depth_le
          rw [hcalls, List.length_cons] at hdepth
          refine ⟨(h.returns r (hmem r List.mem_cons_self)).2.1, Nat.le_of_succ_le hdepth,
            fun q hq => h.returns q (hmem q (List.mem_cons_of_mem r hq)), ?_,
            (h.store.follow hstore).registers, (h.store.follow hstore).heap⟩
          rw [openCalls_append, ← h.calls_eq, callsAfter_of_ok hstep hread, hcalls]
          rfl

theorem setRegister (h : Consistent m us s) (r : UInt8) {c : Cell} (hc : c.WellFormed) :
    Consistent m us (s.setRegister r c) :=
  have hstore := h.store.follow ((Store.Follows.refl _).setRegister r hc)
  ⟨h.ip_le, h.depth_le, h.returns, h.calls_eq, hstore.registers, h.heap⟩

theorem callHeap (h : Consistent m us s) (call : Heap.Call) :
    Consistent m us { s with heap := s.heap.after call } :=
  ⟨h.ip_le, h.depth_le, h.returns, h.calls_eq, h.registers, h.heap.after call⟩

end Consistent

/-- The heap is partitioned whatever cells are put into registers from outside. -/
theorem Session.partitioned {C : Cell → Prop} {us : List (State σ)} {s : State σ}
    (h : Session m C us s) : s.heap.Partitioned :=
  h.induct (P := fun _ s => s.heap.Partitioned) (fun _ => .new _)
    (fun _ s hs _ => (m.follows_step s).heap hs) (fun _ _ _ _ hs _ => hs)
    fun _ _ call hs => hs.after call

/-- The invariant survives steps and edits, so it holds all the life of a machine. -/
theorem Session.consistent {us : List (State σ)} {s : State σ}
    (h : Session m Cell.WellFormed us s) : Consistent m us s :=
  h.induct (.start m) (fun _ _ hs _ => hs.step) (fun _ _ r _ hs hc => hs.setRegister r hc)
    fun _ _ call hs => hs.callHeap call

/-- The store is sound if only well-formed cells are put into registers from outside. -/
theorem Session.sound {us : List (State σ)} {s : State σ} (h : Session m Cell.WellFormed us s) :
    s.toStore.Sound :=
  h.consistent.store

/-- **The invariant of machines**: it holds in every state of a session in which only well-formed
cells are put into registers from outside. -/
theorem consistent_of_session (m : Machine σ) {us : List (State σ)} {s : State σ}
    (h : Session m Cell.WellFormed us s) : Consistent m us s :=
  h.consistent

/-- A machine that calls the end of its program. -/
def calling : Machine Unit where
  program := #[Opcode.push.code, Tag.int.code, 7, 0, 0, 0, Opcode.jumpHistory.code]
  commands := .empty
  settings := { stackCapacity := 8, initialHeapSize := 1 }

theorem consistent_of_session_calling :
    ∃ us s, Session calling Cell.WellFormed us s ∧ us.length = 2 ∧ s.calls = [7] ∧
      Consistent calling us s := by
  have hlife : Session calling Cell.WellFormed _ _ :=
    .setRegister 3 (.execute 0 5 (.start ()) rfl) Cell.wellFormed_void
  exact ⟨_, _, hlife, by decide, rfl, consistent_of_session calling hlife⟩

end Machine

end CellMachine
