import CellMachine.Proofs.Machine.Failure
import CellMachine.Proofs.Machine.WriteBack

/-!
# CellMachine.Proofs.Machine.Isolation

Live blocks and the instructions that do not mean them. A step makes a block stop
being live only by a `free` of its address, and it changes a byte of a live block
only by a `storePtr`, a `write` or a call of a command that writes there
(`Overwrites`). All else that touches the heap, that is growth, reuse of freed
blocks, concatenation and the texts of commands, works on blocks that were not
live (`live_blocks_isolated`).
-/

namespace CellMachine

/-! ## blocks that stay -/

namespace Heap

variable {h h₀ : Heap} {D W : Nat → Prop}

/-- What is left of the live blocks of `h₀` in `h`: a block stays live and keeps its length, unless
its address is in `D`, and a block that stays keeps its bytes, except at the addresses in `W`. -/
structure Spares (D W : Nat → Prop) (h₀ h : Heap) : Prop where
  live : ∀ ptr len : Nat, h₀.live[ptr]? = some len →
    h.live[ptr]? = some len ∨ h.live[ptr]? = none ∧ D ptr
  bytes : ∀ ptr len i : Nat, h₀.live[ptr]? = some len → h.live[ptr]? = some len →
    ptr ≤ i → i < ptr + len → h.memory.byteAt i ≠ h₀.memory.byteAt i → W i

theorem Grows.spares (hg : h₀.Grows W h) : h₀.Spares D W h where
  live ptr len hl := Or.inl (hg.live ptr len hl)
  bytes ptr len i hl _ hlo hhi hne :=
    Classical.not_not.mp fun hW => hne (hg.bytes ptr len i hl hlo hhi hW)

theorem Spares.refl (h : Heap) : h.Spares D W h where
  live _ _ hl := Or.inl hl
  bytes _ _ _ _ _ _ _ hne := absurd rfl hne

/-- A write changes bytes in its range only. -/
theorem spares_write {ptr : Nat} {bs : List UInt8} (hw : h₀.write ptr bs = .ok h)
    (hW : ∀ i, ptr ≤ i → i < ptr + bs.length → W i) : h₀.Spares D W h := by
  obtain ⟨-, rfl⟩ := write_eq_ok_iff.mp hw
  refine ⟨fun _ _ hl => Or.inl hl, fun _ _ i _ _ _ _ hne => ?_⟩
  rw [Memory.byteAt_write] at hne
  by_cases hin : ptr ≤ i ∧ i < ptr + bs.length
  · exact hW i hin.1 hin.2
  · rw [if_neg hin] at hne
    exact absurd rfl hne

/-- A block that is freed is the only one that stops being live. -/
theorem spares_free {ptr : Nat} (hf : h₀.free ptr = .ok h) (hD : D ptr) : h₀.Spares D W h := by
  obtain ⟨n, -, rfl⟩ := free_eq_ok_iff.mp hf
  refine ⟨fun q len hl => ?_, fun _ _ _ _ _ _ _ hne => absurd rfl hne⟩
  rw [Std.TreeMap.getElem?_erase]
  by_cases hq : ptr = q
  · subst hq
    exact Or.inr ⟨by simp, hD⟩
  · exact Or.inl (by simp [hq, hl])

end Heap

/-! ## operands -/

namespace StoreM

variable {σ : Type} {st st' : Store σ}

theorem updateHeap_eq_ok {f : Heap → Except Fault Heap} (h : updateHeap f st = .ok () st') :
    ∃ heap, f st.heap = .ok heap ∧ st' = { st with heap := heap } := by
  cases hf : f st.heap with
  | ok heap =>
      have hupdate : HeapM.update f st.heap = .ok () heap := by simp only [HeapM.update, hf]
      rw [updateHeap, onHeap_of_ok hupdate] at h
      exact ⟨heap, rfl, (EStateM.Result.ok.inj h).2.symm⟩
  | error e =>
      have hupdate : HeapM.update f st.heap = .error e st.heap := by simp only [HeapM.update, hf]
      rw [updateHeap, onHeap_of_error hupdate] at h
      contradiction

theorem popLength_eq_ok {n : Nat} (h : popLength st = .ok n st') :
    ∃ c : Cell, c.expectInt = .ok (n : Int) ∧ st.stack.toList = st'.stack.toList ++ c.encode ∧
      st' = { st with stack := st'.stack } := by
  obtain ⟨k, st₁, hint, hlen⟩ := bind_run_eq_ok h
  cases k with
  | negSucc k => contradiction
  | ofNat k =>
      obtain ⟨rfl, rfl⟩ := EStateM.Result.ok.inj hlen
      exact pop_lift_eq_ok hint

theorem popSpan_eq_ok {n : Nat} {bytes : List UInt8}
    (h : onStack (Stack.popSpan n) st = .ok bytes st') :
    bytes.length = n ∧ st.stack.toList = st'.stack.toList ++ bytes ∧
      st' = { st with stack := st'.stack } := by
  cases hp : Stack.popSpan n st.stack with
  | error e stack =>
      rw [onStack_of_error hp] at h
      contradiction
  | ok bs stack =>
      rw [onStack_of_ok hp] at h
      obtain ⟨rfl, rfl⟩ := EStateM.Result.ok.inj h
      obtain ⟨hlen, hbytes⟩ := Stack.popSpan_eq_ok hp
      exact ⟨hlen, hbytes, rfl⟩

end StoreM

/-! ## what instructions write over -/

namespace Machine

open StoreM

variable {σ : Type} {m : Machine σ} {s : State σ}

/-- The instruction that is started in state `s` frees the block at an address. -/
def Frees (m : Machine σ) (s : State σ) (ptr : Nat) : Prop :=
  ∃ (ip : Nat) (below : List UInt8) (c : Cell), Instr.decode m.program s.ip = .ok .free ip ∧
    s.stack.toList = below ++ c.encode ∧ c.expectPointer = .ok ptr

/-- Address `i` lies in a range that the instruction started in state `s` writes to: the target of
a `storePtr` or a `write`, or the slot of a heap address that a call of a command received for a
parameter by reference. -/
inductive Overwrites (m : Machine σ) (s : State σ) (i : Nat) : Prop
  | storePtr {r : UInt8} {ip ptr : Nat} {c : Cell} {below : List UInt8}
      (hread : Instr.decode m.program s.ip = .ok (.storePtr r) ip)
      (hptr : (s.registers.load r).expectPointer = .ok ptr)
      (hstack : s.stack.toList = below ++ c.encode)
      (hlo : ptr ≤ i) (hhi : i < ptr + c.tag.width)
  | write {ip ptr : Nat} {address len : Cell} {bytes below : List UInt8}
      (hread : Instr.decode m.program s.ip = .ok .write ip)
      (hptr : address.expectPointer = .ok ptr)
      (hlen : len.expectInt = .ok (bytes.length : Int))
      (hstack : s.stack.toList = below ++ bytes ++ len.encode ++ address.encode)
      (hlo : ptr ≤ i) (hhi : i < ptr + bytes.length)
  | callHost {ip : Nat} {c : Command σ} {cells : List Cell} {x : Command.Exchange} {world : σ}
      (hread : Instr.decode m.program s.ip = .ok .callHost ip)
      (hcalls : m.Calls s.toStore c cells)
      (hreceives : Command.Receives c.name s.registers s.heap 0 c.params cells x.taken)
      (hrun : c.run (x.taken.map Prod.fst) s.world = (.ok x.reply, world))
      (hslot : c.InSlot cells x.reply.final (fun _ v => v.tag.width) i)

/-- Instructions that neither change blocks nor call a command write to no range. -/
theorem not_overwrites {i : Instr} {ip : Nat} (hread : Instr.decode m.program s.ip = .ok i ip)
    (hblocks : i.changesBlocks = false) (hcall : i ≠ .callHost) (j : Nat) :
    ¬ m.Overwrites s j := by
  intro hj
  cases hj with
  | storePtr hread' =>
      rw [hread] at hread'
      obtain ⟨rfl, -⟩ := EStateM.Result.ok.inj hread'
      contradiction
  | write hread' =>
      rw [hread] at hread'
      obtain ⟨rfl, -⟩ := EStateM.Result.ok.inj hread'
      contradiction
  | callHost hread' =>
      rw [hread] at hread'
      exact hcall (EStateM.Result.ok.inj hread').1

/-! ## instructions that change live blocks -/

theorem spares_storePtr {r : UInt8} {ip : Nat} {st : Store σ}
    (hread : Instr.decode m.program s.ip = .ok (.storePtr r) ip)
    (hact : (Instr.storePtr r).act s.toStore = .ok () st) :
    s.heap.Spares (m.Frees s) (m.Overwrites s) st.heap := by
  obtain ⟨ptr, st₁, hask, hact⟩ := bind_run_eq_ok hact
  obtain ⟨c, st₂, hpop, hupdate⟩ := bind_run_eq_ok hact
  obtain ⟨hptr, rfl⟩ := ask_eq_ok hask
  obtain ⟨-, hstack, hst₂⟩ := pop_eq_ok hpop
  obtain ⟨heap, hw, rfl⟩ := updateHeap_eq_ok hupdate
  rw [hst₂] at hw
  refine Heap.spares_write hw fun i hlo hhi => ?_
  rw [Cell.length_bytes] at hhi
  exact .storePtr hread hptr hstack hlo hhi

theorem spares_write {ip : Nat} {st : Store σ}
    (hread : Instr.decode m.program s.ip = .ok .write ip)
    (hact : Instr.write.act s.toStore = .ok () st) :
    s.heap.Spares (m.Frees s) (m.Overwrites s) st.heap := by
  obtain ⟨ptr, st₁, haddress, hact⟩ := bind_run_eq_ok hact
  obtain ⟨n, st₂, hlength, hact⟩ := bind_run_eq_ok hact
  obtain ⟨bytes, st₃, hspan, hupdate⟩ := bind_run_eq_ok hact
  obtain ⟨address, hptr, htop, hst₁⟩ := pop_lift_eq_ok haddress
  obtain ⟨len, hlen, hmiddle, hst₂⟩ := popLength_eq_ok hlength
  obtain ⟨rfl, hbelow, hst₃⟩ := popSpan_eq_ok hspan
  obtain ⟨heap, hw, rfl⟩ := updateHeap_eq_ok hupdate
  have hstack : s.stack.toList = st₃.stack.toList ++ bytes ++ len.encode ++ address.encode := by
    rw [htop, hmiddle, hbelow]
  rw [hst₃, hst₂, hst₁] at hw
  exact Heap.spares_write hw fun i hlo hhi => .write hread hptr hlen hstack hlo hhi

theorem spares_free {ip : Nat} {st : Store σ}
    (hread : Instr.decode m.program s.ip = .ok .free ip)
    (hact : Instr.free.act s.toStore = .ok () st) :
    s.heap.Spares (m.Frees s) (m.Overwrites s) st.heap := by
  obtain ⟨ptr, st₁, hpop, hupdate⟩ := bind_run_eq_ok hact
  obtain ⟨c, hptr, hstack, hst₁⟩ := pop_lift_eq_ok hpop
  obtain ⟨heap, hf, rfl⟩ := updateHeap_eq_ok hupdate
  rw [hst₁] at hf
  exact Heap.spares_free hf ⟨ip, st₁.stack.toList, c, hread, hstack, hptr⟩

/-- A call of a command writes to the slots of its reference arguments, also if it fails. -/
theorem spares_callHost {ip : Nat} (hh : s.heap.Partitioned)
    (hcursor : s.heap.cursor < intLimit)
    (hread : Instr.decode m.program s.ip = .ok .callHost ip) :
    s.heap.Spares (m.Frees s) (m.Overwrites s)
      (finalState (m.callCommand s.toStore)).heap := by
  rw [callCommand_eq]
  cases hask : m.request s.toStore with
  | error e st =>
      rw [bind_run_of_error hask, finalState_error, (consumed_of_request hh hcursor hask).heap]
      exact .refl _
  | ok answer st =>
      obtain ⟨c, x⟩ := answer
      obtain ⟨cells, hcalls, hreceives, hrun, hheap⟩ := request_eq_ok hask
      have hwrites : ∀ i, x.Writes i → m.Overwrites s i := fun i hi =>
        .callHost hread hcalls hreceives hrun (hreceives.inSlot hi)
      rw [bind_run_of_ok hask]
      have hgrows : s.heap.Grows x.Writes (finalState (c.settle x st)).heap := by
        rw [← hheap] at hh ⊢
        cases hsettle : c.settle x st with
        | ok _ t => exact ((Command.commits_settle c x).ok (.refl st) hsettle).2.settles.heap hh
        | error e t => exact ((Command.commits_settle c x).error (.refl st) hsettle).2.heap hh
      have hspares := hgrows.spares (D := m.Frees s)
      exact ⟨hspares.live, fun ptr len i hl hl' hlo hhi hne =>
        hwrites i (hspares.bytes ptr len i hl hl' hlo hhi hne)⟩

/-! ## all instructions -/

/-- An instruction that changes live blocks does nothing but its action. -/
theorem act_of_decision {i : Instr} {next : Next} {st st' : Store σ}
    (hblocks : i.changesBlocks = true) (hdecide : m.decision i st = .ok next st') :
    i.act st = .ok () st' := by
  rcases Instr.eq_of_changesBlocks hblocks with ⟨r, rfl⟩ | rfl | rfl <;>
  · obtain ⟨_, st₁, hact, hpure⟩ := bind_run_eq_ok hdecide
    obtain ⟨-, rfl⟩ := EStateM.Result.ok.inj hpure
    exact hact

/-- An instruction, whatever it comes to, spares the blocks that it does not mean. -/
theorem spares_decision {i : Instr} {ip : Nat} (hh : s.heap.Partitioned)
    (hcursor : s.heap.cursor < intLimit) (hread : Instr.decode m.program s.ip = .ok i ip) :
    s.heap.Spares (m.Frees s) (m.Overwrites s) (finalState (m.decision i s.toStore)).heap := by
  by_cases hcall : i = .callHost
  · subst hcall
    have hspares := spares_callHost hh hcursor hread
    rw [decision]
    cases hcommand : m.callCommand s.toStore with
    | ok _ st =>
        rw [hcommand] at hspares
        rw [bind_run_of_ok hcommand]
        exact hspares
    | error e st =>
        rw [hcommand] at hspares
        rw [bind_run_of_error hcommand]
        exact hspares
  cases hdecide : m.decision i s.toStore with
  | error e st =>
      have hconsumed := consumed_of_stopped hh hcursor (fun h => absurd h hcall) hdecide
      rw [finalState_error, hconsumed.heap]
      exact .refl _
  | ok next st =>
      rw [finalState_ok]
      cases hblocks : i.changesBlocks with
      | false =>
          have hrules := Store.rules_consumed (W := m.Overwrites s) hh hcursor fun h hg => hg
          have hcommits := hrules.decision m i (fun _ => Store.rawRules_consumed)
            (fun h => by rw [hblocks] at h; contradiction) (fun h => absurd h hcall)
            fun _ _ => trivial
          exact (hcommits.ok (.refl _) hdecide).2.spares
      | true =>
          have hact := act_of_decision hblocks hdecide
          rcases Instr.eq_of_changesBlocks hblocks with ⟨r, rfl⟩ | rfl | rfl
          · exact spares_storePtr hread hact
          · exact spares_write hread hact
          · exact spares_free hread hact

/-- A step, whatever it comes to, spares the blocks that it does not mean. -/
theorem spares_step (hh : s.heap.Partitioned) (hcursor : s.heap.cursor < intLimit) :
    s.heap.Spares (m.Frees s) (m.Overwrites s) (finalState (m.step s)).heap := by
  generalize hstep : m.step s = r
  cases step_outcome hstep with
  | unread hread => exact .refl _
  | stopped hread hdecide =>
      have hspares := spares_decision hh hcursor hread
      rw [hdecide] at hspares
      exact hspares
  | decided hread hdecide hfollow =>
      have hspares := spares_decision hh hcursor hread
      rw [hdecide] at hspares
      cases hfollow <;> exact hspares

/-- **Live blocks are isolated**: in every state of a session, a step that succeeds or fails makes a
block stop being live only by freeing it, changes the length of none, and changes a byte of a block
that stays live only where the instruction writes to. A block that it writes nowhere in has the same
bytes and the same text after it. -/
theorem live_blocks_isolated (m : Machine σ) {C : Cell → Prop} {us : List (State σ)} {s : State σ}
    (hlife : Session m C us s) (hcursor : s.heap.cursor < intLimit) :
    s.heap.Spares (m.Frees s) (m.Overwrites s) (finalState (m.step s)).heap ∧
      ∀ ptr len : Nat, s.heap.live[ptr]? = some len →
        (finalState (m.step s)).heap.live[ptr]? = some len →
        (∀ i, ptr ≤ i → i < ptr + len → ¬ m.Overwrites s i) →
        (finalState (m.step s)).heap.readBlock ptr = s.heap.readBlock ptr ∧
          (finalState (m.step s)).heap.readText ptr = s.heap.readText ptr := by
  have hh := hlife.partitioned
  have hspares : s.heap.Spares (m.Frees s) (m.Overwrites s) _ := spares_step hh hcursor
  refine ⟨hspares, fun ptr len hl hl' hapart => ?_⟩
  have hblock := Heap.readBlock_eq hh ((m.follows_step s).heap hh) hl hl' fun i hlo hhi =>
    Classical.not_not.mp fun hne => hapart i hlo hhi (hspares.bytes ptr len i hl hl' hlo hhi hne)
  exact ⟨hblock, by rw [Heap.readText, Heap.readText, hblock]⟩

/-- A machine that concatenates the text at address 0 with itself. -/
def doubling : Machine Unit where
  program := #[Opcode.push.code, Tag.string.code, 0, 0, 0, 0,
    Opcode.push.code, Tag.string.code, 0, 0, 0, 0, Opcode.add.code]
  commands := .empty
  settings := { stackCapacity := 16, initialHeapSize := 1 }

/-- The machine before the concatenation, with a text and a freed block of twice its length. -/
def beforeDoubling : State Unit :=
  let s := doubling.start ()
  finalState (doubling.executeUpTo 2
    { s with heap := s.heap.afterAll [.allocateText "a", .allocate 8, .free 4] })

theorem live_blocks_isolated_doubling :
    ∃ us, Session doubling (fun _ => True) us beforeDoubling ∧
      beforeDoubling.heap.cursor < intLimit ∧ beforeDoubling.heap.freedOf 8 = [4] ∧
      (finalState (doubling.step beforeDoubling)).heap.live[4]? = some 8 ∧
      beforeDoubling.heap.Spares (doubling.Frees beforeDoubling)
        (doubling.Overwrites beforeDoubling) (finalState (doubling.step beforeDoubling)).heap ∧
      beforeDoubling.heap.readText 0 = .ok "a" ∧
      (finalState (doubling.step beforeDoubling)).heap.readText 0 = .ok "a" := by
  have hlife : Session doubling (fun _ => True) _ beforeDoubling :=
    .execute 0 2 (.callHeap (.free 4) (.callHeap (.allocate 8)
      (.callHeap (.allocateText "a") (.start ())))) rfl
  have hcursor : beforeDoubling.heap.cursor < intLimit := by decide
  have htext : beforeDoubling.heap.readText 0 = .ok "a" := rfl
  have hread : Instr.decode doubling.program beforeDoubling.ip = .ok (.arith .add) 13 := rfl
  obtain ⟨hspares, hsame⟩ := live_blocks_isolated doubling hlife hcursor
  have hafter := hsame 0 4 (by decide) (by decide +kernel) fun i _ _ =>
    not_overwrites hread rfl (by decide) i
  exact ⟨_, hlife, hcursor, by decide, by decide +kernel, hspares, htext, hafter.2.trans htext⟩

end Machine

end CellMachine
