import CellMachine.Proofs.Command.Convention
import CellMachine.Proofs.Machine.Isolation
import CellMachine.Proofs.Machine.Jump

/-!
# CellMachine.Proofs.Machine.Footprint

What an instruction leaves alone, in any state and whether it succeeds or fails.
Registers, open calls, printed lines, live blocks and the position are each
changed by few instructions only, and each of those changes them in one way:
`Footprint` has a field for each, and `footprint_step` says that every step keeps
to it.

Registers and blocks are followed through an instruction's work on the store
(`Effects`), the rest through the way control goes on (`FollowOutcome`). Where
reading stops, the position is bounded by `Opcode.operandLength`, the length that
the bytes behind an opcode announce for its operands.
-/

namespace CellMachine

open StoreM

/-! ## the length of inline operands -/

/-- How many bytes of inline operands an opcode has in front of `following`. A tag that is none
announces no payload. -/
def Opcode.operandLength (o : Opcode) (following : List UInt8) : Nat :=
  match o with
  | .push => 1 + ((following.head?.bind Tag.ofCode?).elim 0 Tag.width)
  | .pushSpan => 4 + leNat (following.take 4)
  | .pushType | .cast | .pushRegPtr | .store | .load | .storePtr => 1
  | .loadPtr => 2
  | _ => 0

namespace Instr

variable {α β : Type} {p : Program} {ip ip' : Nat}

/-- Reading that started at `ip` has ended, with or without success, at most `n` bytes further. -/
def Advances (ip n : Nat) (r : EStateM.Result Fault Nat α) : Prop :=
  ip ≤ finalState r ∧ finalState r ≤ ip + n

theorem Advances.bind {x : Reader α} {f : α → Reader β} {n k : Nat} (hx : Advances ip n (x ip))
    (hf : ∀ a ip', x ip = .ok a ip' → ip' = ip + n ∧ Advances ip' k (f a ip')) :
    Advances ip (n + k) ((x >>= f) ip) := by
  cases h : x ip with
  | error e ip' =>
      rw [h, Advances, finalState_error] at hx
      rw [bind_run_of_error h, Advances, finalState_error]
      omega
  | ok a ip' =>
      obtain ⟨rfl, hrest⟩ := hf a ip' h
      rw [bind_run_of_ok h]
      rw [Advances] at hrest ⊢
      omega

theorem Advances.map {x : Reader α} {n : Nat} (f : α → β) (hx : Advances ip n (x ip)) :
    Advances ip n ((do return f (← x) : Reader β) ip) := by
  cases h : x ip with
  | error e ip' =>
      rw [bind_run_of_error h]
      rwa [h] at hx
  | ok a ip' =>
      rw [bind_run_of_ok h]
      rwa [h] at hx

theorem advances_readByte (p : Program) (ip : Nat) : Advances ip 1 (readByte p ip) := by
  unfold readByte Advances
  split <;> simp

theorem advances_readBytes (p : Program) (n ip : Nat) : Advances ip n (readBytes p n ip) := by
  unfold readBytes Advances
  split <;> simp

theorem advances_readTag (p : Program) (ip : Nat) : Advances ip 1 (readTag p ip) := by
  refine Advances.bind (k := 0) (advances_readByte p ip) fun b ip' h => ?_
  refine ⟨(drop_of_readByte h).1, ?_⟩
  cases Tag.ofCode b <;> exact ⟨Nat.le_refl _, Nat.le_refl _⟩

/-- Operands are read within the length that their opcode announces. -/
theorem advances_readOperands (p : Program) (o : Opcode) (ip : Nat) :
    Advances ip (o.operandLength (p.toList.drop ip)) (readOperands p o ip) := by
  cases o with
  | push =>
      cases htag : readTag p ip with
      | error e ip' =>
          have h := advances_readTag p ip
          rw [htag, Advances, finalState_error] at h
          rw [readOperands, bind_run_of_error htag, Advances, finalState_error]
          exact ⟨h.1, by simp only [Opcode.operandLength]; omega⟩
      | ok t ip' =>
          obtain ⟨rfl, hdrop⟩ := drop_of_readTag htag
          rw [Opcode.operandLength, hdrop, List.head?_cons, Option.bind_some, Tag.ofCode?_code,
            Option.elim_some]
          refine Advances.bind (advances_readTag p ip) fun t' ip' h => ?_
          rw [htag] at h
          obtain ⟨rfl, rfl⟩ := EStateM.Result.ok.inj h
          exact ⟨rfl, .map (push t) (advances_readBytes p t.width _)⟩
  | pushSpan =>
      refine Advances.bind (advances_readBytes p 4 ip) fun len ip' h => ?_
      obtain ⟨hlen, rfl, hdrop⟩ := drop_of_readBytes h
      have htake : (p.toList.drop ip).take 4 = len := by rw [hdrop, ← hlen, List.take_left]
      rw [htake]
      exact ⟨rfl, .map pushSpan (advances_readBytes p (leNat len) _)⟩
  | loadPtr =>
      refine Advances.bind (n := 1) (k := 1) (advances_readByte p ip) fun r ip' h => ?_
      exact ⟨(drop_of_readByte h).1, .map (loadPtr r) (advances_readTag p _)⟩
  | pushType => exact .map pushType (advances_readTag p ip)
  | cast => exact .map cast (advances_readTag p ip)
  | pushRegPtr => exact .map pushRegPtr (advances_readByte p ip)
  | store => exact .map store (advances_readByte p ip)
  | load => exact .map load (advances_readByte p ip)
  | storePtr => exact .map storePtr (advances_readByte p ip)
  | _ => exact ⟨Nat.le_refl _, Nat.le_refl _⟩

/-- A byte that is no opcode is not read. -/
theorem decode_of_unknown {b : UInt8} (hb : p[ip]? = some b) (ho : Opcode.ofCode? b = none) :
    decode p ip = .error (.unknownOpcode b ip) ip := by
  obtain ⟨hlt, rfl⟩ := Array.getElem?_eq_some_iff.mp hb
  have hread : readOpcode p ip = .error (.unknownOpcode p[ip] ip) ip := by
    simp [readOpcode, hlt, ho]
  exact bind_run_of_error hread

/-- An instruction, complete or not, is read within the length that its opcode announces. -/
theorem advances_decode {b : UInt8} {o : Opcode} (hb : p[ip]? = some b)
    (ho : Opcode.ofCode? b = some o) :
    Advances (ip + 1) (o.operandLength (p.toList.drop (ip + 1))) (decode p ip) := by
  obtain ⟨hlt, rfl⟩ := Array.getElem?_eq_some_iff.mp hb
  have hread : readOpcode p ip = .ok o (ip + 1) := by simp [readOpcode, hlt, ho]
  rw [decode, bind_run_of_ok hread]
  exact advances_readOperands p o (ip + 1)

end Instr

/-! ## registers and blocks -/

namespace Store

variable {σ : Type}

/-- A condition on registers and heap is broken by no operand and no result on the stack. -/
theorem operandRules_of_frame {J K : Registers → Heap → Prop} (hJK : ∀ rs h, J rs h → K rs h) :
    OperandRules (fun st : Store σ => J st.registers st.heap) (fun _ => True)
      fun st => K st.registers st.heap where
  plain _ _ := trivial
  pop := .ofStack (Stack.keeps_popCell.mono (fun _ hc => hc) fun _ _ => trivial)
    (fun _ _ => trivial) fun _ _ hst _ => hst
  peek _ _ _ _ := trivial
  setWorld _ _ hst := hst
  done st hst := hJK st.registers st.heap hst
  pushCell _ _ hst := hst

theorem rawRules_of_frame {J K : Registers → Heap → Prop} :
    RawRules (fun st : Store σ => J st.registers st.heap) (fun _ => True)
      fun st => K st.registers st.heap where
  popTag := .ofStack (Stack.keeps_popTag.mono (fun _ hc => hc) fun _ _ => trivial)
    (fun _ _ => trivial) fun _ _ hst _ => hst
  popSpan n := .ofStack ((Stack.keeps_popSpan n).mono (fun _ hc => hc) fun _ _ => trivial)
    (fun _ _ => trivial) fun _ _ hst _ => hst
  pushRaw _ _ hst := hst

/-- Work on the heap leaves the registers. -/
theorem registers_onHeap {α : Type} (rs : Registers) (act : HeapM α) :
    Keeps (fun st : Store σ => st.registers = rs) (fun _ => True) (onHeap act) fun _ => True := by
  refine .onHeap fun st hst => ?_
  cases act st.heap with
  | ok a heap => exact ⟨trivial, hst⟩
  | error e heap => exact ⟨trivial, hst⟩

theorem operandRules_registers (rs : Registers) (i : Instr) :
    OperandRules (fun st : Store σ => st.registers = rs) (fun _ => True)
      fun st => ∀ r, i ≠ .store r → st.registers.load r = rs.load r :=
  operandRules_of_frame (J := fun rs' _ => rs' = rs)
    (K := fun rs' _ => ∀ r, i ≠ .store r → rs'.load r = rs.load r) fun _ _ h _ _ => by rw [h]

/-- An instruction stores to no register but its operand. -/
theorem effects_registers (rs : Registers) (i : Instr) :
    Effects i (fun st : Store σ => st.registers = rs) (fun _ => True)
      fun st => ∀ r, i ≠ .store r → st.registers.load r = rs.load r where
  setRegister r hi st c _ hst q hq := by
    have hne : q ≠ r := fun h => hq (h ▸ hi)
    rw [Registers.load_store_of_ne _ hne, hst]
  binary op _ := by
    have h := operandRules_registers (σ := σ) rs i
    refine .bind h.pop fun rhs _ => .bind h.pop fun lhs _ => ?_
    exact .bind (registers_onHeap rs _) fun c _ => h.push c
  alloc _ len := by
    have h := operandRules_registers (σ := σ) rs i
    refine .bind (registers_onHeap rs _) fun ptr _ => ?_
    exact .bind (h.lift (Cell.tame_heapPointer _ ptr)) fun c _ => h.push c
  write _ st _ _ _ hst _ r _ := by rw [hst]
  free _ st _ _ hst _ r _ := by rw [hst]
  raw _ := rawRules_of_frame (J := fun rs' _ => rs' = rs)
    (K := fun rs' _ => ∀ r, i ≠ .store r → rs'.load r = rs.load r)

theorem operandRules_live (live : Std.TreeMap Nat Nat) :
    OperandRules (fun st : Store σ => st.heap.live = live) (fun _ => True)
      fun st => st.heap.live = live :=
  operandRules_of_frame (J := fun _ h => h.live = live) (K := fun _ h => h.live = live)
    fun _ _ h => h

/-- Instructions that neither allocate nor free nor compute leave the blocks. -/
theorem effects_live (live : Std.TreeMap Nat Nat) {i : Instr} (hi : i ≠ .alloc ∧ i ≠ .free)
    (harith : ∀ op, i ≠ .arith op) :
    Effects i (fun st : Store σ => st.heap.live = live) (fun _ => True)
      fun st => st.heap.live = live where
  setRegister _ _ _ _ _ hst := hst
  binary op hop := absurd hop (harith op)
  alloc h := absurd h hi.1
  write _ st ptr bs h hst hw := by
    obtain ⟨-, rfl⟩ := Heap.write_eq_ok_iff.mp hw
    exact hst
  free h := absurd h hi.2
  raw _ := rawRules_of_frame (J := fun _ h => h.live = live) (K := fun _ h => h.live = live)

/-- An arithmetic operator leaves the blocks unless it adds two texts. -/
theorem live_binary (op : ArithOp) (st : Store σ) :
    (finalState (binary op st)).heap.live = st.heap.live ∨
    op = .add ∧ ∃ rest lhs rhs, st.stack.toList = rest ++ Cell.encode lhs ++ Cell.encode rhs ∧
      lhs.tag = .string ∧ rhs.tag = .string := by
  have hpop := (operandRules_live (σ := σ) st.heap.live).pop
  cases hrhs : pop st with
  | error e st₁ =>
      rw [binary, bind_run_of_error hrhs]
      exact Or.inl (hpop.error rfl hrhs).2
  | ok rhs st₁ =>
  obtain ⟨-, hstack₁, hst₁⟩ := pop_eq_ok hrhs
  cases hlhs : pop st₁ with
  | error e st₂ =>
      rw [binary, bind_run_of_ok hrhs, bind_run_of_error hlhs]
      exact Or.inl (hpop.error (hpop.ok rfl hrhs).2 hlhs).2
  | ok lhs st₂ =>
  obtain ⟨-, hstack₂, hst₂⟩ := pop_eq_ok hlhs
  by_cases htexts : op = .add ∧ lhs.tag = .string ∧ rhs.tag = .string
  · exact Or.inr ⟨htexts.1, st₂.stack.toList, lhs, rhs, by rw [hstack₁, hstack₂], htexts.2⟩
  · refine Or.inl ?_
    have hlive : st₂.heap.live = st.heap.live := by rw [hst₂, hst₁]
    rw [binary, bind_run_of_ok hrhs, bind_run_of_ok hlhs, Cell.binary, if_neg htexts]
    cases Cell.arithmetic op lhs rhs <;> exact hlive

end Store

/-! ## jumps that are taken -/

namespace StoreM

variable {σ : Type} {st st' : Store σ}

theorem popCell_of_pop {c : Cell} (h : pop st = .ok c st') :
    st.stack.popCell = .ok c st'.stack := by
  cases hp : st.stack.popCell with
  | ok d stack =>
      rw [pop_of_popCell hp] at h
      obtain ⟨rfl, rfl⟩ := EStateM.Result.ok.inj h
      rfl
  | error e stack =>
      rw [pop_of_popCell_error hp] at h
      contradiction

theorem pop_of_popTarget {n size : Nat} (h : popTarget size st = .ok n st') :
    ∃ c, pop st = .ok c st' := by
  obtain ⟨k, st₁, hint, h⟩ := bind_run_eq_ok h
  obtain ⟨c, st₂, hpop, hlift⟩ := bind_run_eq_ok hint
  obtain ⟨-, rfl⟩ := lift_eq_ok hlift
  cases k with
  | ofNat k =>
      by_cases hk : k ≤ size
      · simp only [hk, if_true] at h
        obtain ⟨-, rfl⟩ := EStateM.Result.ok.inj h
        exact ⟨c, hpop⟩
      · simp only [hk, if_false] at h
        contradiction
  | negSucc k => contradiction

/-- The cell below a jump's target is the one that its condition asks. -/
theorem second?_of_popTarget {n size : Nat} {st₁ : Store σ} {c : Cell}
    (htarget : popTarget size st = .ok n st₁) (hpop : pop st₁ = .ok c st') :
    st.stack.second? = some c := by
  obtain ⟨d, hd⟩ := pop_of_popTarget htarget
  exact Stack.second?_of_popCell (popCell_of_pop hd) (popCell_of_pop hpop)

end StoreM

namespace Machine

variable {σ : Type} {m : Machine σ} {s : State σ}

/-- Control goes to a target only by a jump that is taken. -/
theorem takes_of_decision {i : Instr} {st st' : Store σ} {next : Next} {target : Nat}
    (hdecide : m.decision i st = .ok next st') (hnext : next = .jump target ∨ next = .call target) :
    ∃ kind : JumpKind, i = kind.instr ∧ kind.takes st.stack = true := by
  have hfits := ((m.keeps_decision i).ok (.refl st) hdecide).1
  obtain rfl | rfl := hnext
  · obtain rfl | rfl | rfl := hfits.1
    · exact ⟨.always, rfl, rfl⟩
    · obtain ⟨n, st₁, htarget, hrest⟩ := bind_run_eq_ok hdecide
      obtain ⟨c, st₂, hpop, hrest⟩ := bind_run_eq_ok hrest
      obtain ⟨hjump, -⟩ := EStateM.Result.ok.inj hrest
      refine ⟨.ifZero, rfl, ?_⟩
      rw [JumpKind.takes, second?_of_popTarget htarget hpop, Option.any_some]
      cases hzero : c.isZero with
      | true => rfl
      | false => simp [hzero] at hjump
    · obtain ⟨n, st₁, htarget, hrest⟩ := bind_run_eq_ok hdecide
      obtain ⟨c, st₂, hpop, hrest⟩ := bind_run_eq_ok hrest
      obtain ⟨positive, st₃, hlift, hlast⟩ := bind_run_eq_ok hrest
      obtain ⟨hjump, -⟩ := EStateM.Result.ok.inj hlast
      refine ⟨.ifPositive, rfl, ?_⟩
      rw [JumpKind.takes, second?_of_popTarget htarget hpop, Option.any_some,
        (lift_eq_ok hlift).1]
      cases positive with
      | true => rfl
      | false => simp at hjump
  · obtain rfl := hfits.1
    exact ⟨.call, rfl, rfl⟩

/-! ## steps -/

/-- The instruction that a step reads. -/
def Reads (m : Machine σ) (s : State σ) (i : Instr) : Prop :=
  ∃ ip, Instr.decode m.program s.ip = .ok i ip

/-- The step calls a command with a reference to register `r` among its arguments. -/
def Passes (m : Machine σ) (s : State σ) (r : UInt8) : Prop :=
  m.Reads s .callHost ∧ ∃ c cells, m.Calls s.toStore c cells ∧ .registerRef r ∈ cells

/-- The step adds two texts. -/
def JoinsTexts (m : Machine σ) (s : State σ) : Prop :=
  m.Reads s (.arith .add) ∧ ∃ (rest : List UInt8) (lhs rhs : Cell),
    s.stack.toList = rest ++ lhs.encode ++ rhs.encode ∧ lhs.tag = .string ∧ rhs.tag = .string

/-- The step sends control elsewhere: it is a jump that is taken or a return, and it succeeds. -/
def Transfers (m : Machine σ) (s : State σ) : Prop :=
  (∃ signal t, m.step s = .ok signal t) ∧
    (m.Reads s .ret ∨ ∃ kind : JumpKind, m.Reads s kind.instr ∧ kind.takes s.stack = true)

/-- What a step from `s` to `t` has left alone. -/
structure Footprint (m : Machine σ) (s t : State σ) : Prop where
  registers : ∀ r, t.registers.load r ≠ s.registers.load r → m.Reads s (.store r) ∨ m.Passes s r
  calls : t.calls = s.calls ∨
    m.Reads s .jumpHistory ∧ t.calls = (s.ip + 1) :: s.calls ∨
    m.Reads s .ret ∧ s.calls = t.ip :: t.calls
  debugLines : t.debugLines = s.debugLines ∨
    m.Reads s .dbgPrint ∧ ∃ line, t.debugLines = s.debugLines ++ [line]
  live : t.heap.live = s.heap.live ∨
    m.Reads s .alloc ∨ m.Reads s .free ∨ m.JoinsTexts s ∨ m.Reads s .callHost
  unknown : ∀ b, m.program[s.ip]? = some b → Opcode.ofCode? b = none → t.ip = s.ip
  ip : ∀ b o, m.program[s.ip]? = some b → Opcode.ofCode? b = some o → ¬ m.Transfers s →
    s.ip < t.ip ∧ t.ip ≤ s.ip + 1 + o.operandLength (m.program.toList.drop (s.ip + 1))

/-- A call of a command leaves every register that it is passed no reference to. -/
theorem registers_callCommand (m : Machine σ) {ip : Nat}
    (hread : Instr.decode m.program s.ip = .ok .callHost ip) (r : UInt8)
    (hr : (finalState (m.callCommand s.toStore)).registers.load r ≠ s.registers.load r) :
    m.Passes s r := by
  have hkeeps := (Store.operandRules_registers (σ := σ) s.registers .callHost).requestCommand m
  rw [callCommand_eq] at hr
  cases hask : m.request s.toStore with
  | error e st =>
      rw [bind_run_of_error hask, finalState_error, (hkeeps.error rfl hask).2] at hr
      contradiction
  | ok answer st =>
      obtain ⟨c, x⟩ := answer
      obtain ⟨cells, hcalls, hreceives, -, -⟩ := request_eq_ok hask
      refine ⟨⟨ip, hread⟩, c, cells, hcalls, ?_⟩
      rw [bind_run_of_ok hask, ← (hkeeps.ok rfl hask).2] at hr
      have hnames : x.Names r := by
        by_contra hnot
        exact hr ((Command.settles_final c x st).registers r hnot)
      exact hreceives.mem_of_names hcalls.wellFormed hnames

theorem registers_decision (m : Machine σ) {i : Instr} (hi : i ≠ .callHost) (st : Store σ)
    {r : UInt8} (hr : i ≠ .store r) :
    (finalState (m.decision i st)).registers.load r = st.registers.load r := by
  have hcommits := (Store.operandRules_registers st.registers i).decision m
    (Store.effects_registers st.registers i) (fun h => absurd h hi) fun _ _ => trivial
  cases h : m.decision i st with
  | ok next st' => exact (hcommits.ok rfl h).2 r hr
  | error e st' => rw [finalState_error, (hcommits.error rfl h).2]

theorem live_decision (m : Machine σ) {i : Instr} (hi : i ≠ .alloc ∧ i ≠ .free)
    (hcall : i ≠ .callHost) (harith : ∀ op, i ≠ .arith op) (st : Store σ) :
    (finalState (m.decision i st)).heap.live = st.heap.live := by
  have hcommits := (Store.operandRules_live st.heap.live).decision m
    (Store.effects_live st.heap.live hi harith) (fun h => absurd h hcall) fun _ _ => trivial
  cases h : m.decision i st with
  | ok next st' => exact (hcommits.ok rfl h).2
  | error e st' => exact (hcommits.error rfl h).2

/-- A step leaves the store as its instruction's work on the store does. -/
theorem toStore_step {i : Instr} {ip : Nat} (hread : Instr.decode m.program s.ip = .ok i ip) :
    (finalState (m.step s)).toStore = finalState (m.decision i s.toStore) := by
  cases hdecide : m.decision i s.toStore with
  | error e store => rw [step_of_stopped hread hdecide, finalState_error, finalState_error]
  | ok next store =>
      have hfollow := m.follow_outcome { started s ip with toStore := store } next
      rw [step_of_decided hread hdecide, finalState_ok]
      generalize m.follow next { started s ip with toStore := store } = r at hfollow ⊢
      cases hfollow <;> rfl

/-- What follows an action without touching the store does not matter. -/
theorem finalState_andThen {α β : Type} (act : StoreM σ α) (b : β) (st : Store σ) :
    finalState ((do let _ ← act; return b : StoreM σ β) st) = finalState (act st) := by
  cases h : act st with
  | ok a st' => rw [bind_run_of_ok h]; rfl
  | error e st' => rw [bind_run_of_error h]; rfl

theorem registers_step (m : Machine σ) (s : State σ) (r : UInt8)
    (hr : (finalState (m.step s)).registers.load r ≠ s.registers.load r) :
    m.Reads s (.store r) ∨ m.Passes s r := by
  cases hread : Instr.decode m.program s.ip with
  | error e ip =>
      rw [step_of_unread hread] at hr
      contradiction
  | ok i ip =>
      rw [toStore_step hread] at hr
      by_cases hcall : i = .callHost
      · subst hcall
        rw [decision, finalState_andThen] at hr
        exact Or.inr (m.registers_callCommand hread r hr)
      · by_cases hstore : i = .store r
        · exact Or.inl ⟨ip, hstore ▸ hread⟩
        · exact absurd (m.registers_decision hcall s.toStore hstore) hr

theorem live_step (m : Machine σ) (s : State σ) :
    (finalState (m.step s)).heap.live = s.heap.live ∨
      m.Reads s .alloc ∨ m.Reads s .free ∨ m.JoinsTexts s ∨ m.Reads s .callHost := by
  cases hread : Instr.decode m.program s.ip with
  | error e ip =>
      rw [step_of_unread hread]
      exact Or.inl rfl
  | ok i ip =>
      rw [toStore_step hread]
      cases i with
      | alloc => exact Or.inr (Or.inl ⟨ip, hread⟩)
      | free => exact Or.inr (Or.inr (Or.inl ⟨ip, hread⟩))
      | callHost => exact Or.inr (Or.inr (Or.inr (Or.inr ⟨ip, hread⟩)))
      | arith op =>
          have hdecide : m.decision (.arith op) s.toStore =
            (do binary op; return .proceed : StoreM σ Next) s.toStore := rfl
          rw [hdecide, finalState_andThen]
          obtain hlive | ⟨rfl, htexts⟩ := Store.live_binary op s.toStore
          · exact Or.inl hlive
          · exact Or.inr (Or.inr (Or.inr (Or.inl ⟨⟨ip, hread⟩, htexts⟩)))
      | _ => refine Or.inl (m.live_decision ?_ ?_ ?_ s.toStore) <;> simp

/-- Unless control is sent elsewhere, a step ends where reading its instruction ended. -/
theorem ip_step (hstay : ¬ m.Transfers s) :
    (finalState (m.step s)).ip = finalState (Instr.decode m.program s.ip) := by
  generalize hstep : m.step s = r
  cases step_outcome hstep with
  | unread hread => rw [hread]; rfl
  | stopped hread _ => rw [hread]; rfl
  | @decided i ip next store _ hread hdecide hfollow =>
      rw [hread, finalState_ok]
      have hjump {target : Nat} (hnext : next = .jump target ∨ next = .call target)
          {signal : Signal} {t : State σ} (hr : r = .ok signal t) : m.Transfers s := by
        obtain ⟨kind, rfl, htakes⟩ := takes_of_decision hdecide hnext
        exact ⟨⟨signal, t, hstep.trans hr⟩, Or.inr ⟨kind, ⟨ip, hread⟩, htakes⟩⟩
      cases hfollow with
      | jump target => exact absurd (hjump (Or.inl rfl) rfl) hstay
      | call target _ => exact absurd (hjump (Or.inr rfl) rfl) hstay
      | back _ =>
          obtain rfl : i = .ret := ((m.keeps_decision i).ok (.refl _) hdecide).1
          exact absurd ⟨⟨_, _, hstep⟩, Or.inl ⟨ip, hread⟩⟩ hstay
      | _ => rfl

theorem calls_step (m : Machine σ) (s : State σ) :
    (finalState (m.step s)).calls = s.calls ∨
    m.Reads s .jumpHistory ∧ (finalState (m.step s)).calls = (s.ip + 1) :: s.calls ∨
    m.Reads s .ret ∧ s.calls = (finalState (m.step s)).ip :: (finalState (m.step s)).calls := by
  generalize hstep : m.step s = r
  cases step_outcome hstep with
  | unread _ => exact Or.inl rfl
  | stopped _ _ => exact Or.inl rfl
  | @decided i ip next store _ hread hdecide hfollow =>
      have hfits := ((m.keeps_decision i).ok (.refl _) hdecide).1
      cases hfollow with
      | call target _ =>
          obtain ⟨rfl, -⟩ := hfits
          obtain ⟨-, rfl, -⟩ := Instr.decode_sound hread
          exact Or.inr (Or.inl ⟨⟨_, hread⟩, rfl⟩)
      | back hcalls =>
          obtain rfl : i = .ret := hfits
          exact Or.inr (Or.inr ⟨⟨ip, hread⟩, hcalls⟩)
      | _ => exact Or.inl rfl

theorem debugLines_step (m : Machine σ) (s : State σ) :
    (finalState (m.step s)).debugLines = s.debugLines ∨
    m.Reads s .dbgPrint ∧ ∃ line, (finalState (m.step s)).debugLines = s.debugLines ++ [line] := by
  generalize hstep : m.step s = r
  cases step_outcome hstep with
  | unread _ => exact Or.inl rfl
  | stopped _ _ => exact Or.inl rfl
  | @decided i ip next store _ hread hdecide hfollow =>
      have hfits := ((m.keeps_decision i).ok (.refl _) hdecide).1
      cases hfollow with
      | print line =>
          obtain rfl : i = .dbgPrint := hfits
          exact Or.inr ⟨⟨ip, hread⟩, line, List.reverse_cons⟩
      | _ => exact Or.inl rfl

/-- **The footprint of an instruction**, in any state and whether it succeeds or fails.

A register changes only by a `store` to it or in a call of a command that is passed a reference to
it; the open calls change by one that a `jumpHistory` adds or a `ret` takes away, the printed lines
by one that a `dbgPrint` adds; blocks come and go in `alloc`, `free`, the addition of two texts and
calls of commands only. Unless control is sent elsewhere, the position ends behind the opcode and not
behind the operands that it announces; it does not move at a byte that is no opcode. -/
theorem footprint_step (m : Machine σ) (s : State σ) : m.Footprint s (finalState (m.step s)) where
  registers := m.registers_step s
  calls := m.calls_step s
  debugLines := m.debugLines_step s
  live := m.live_step s
  unknown b hb ho := by rw [step_of_unread (Instr.decode_of_unknown hb ho)]; rfl
  ip b o hb ho hstay := by
    obtain ⟨hlo, hhi⟩ := Instr.advances_decode hb ho
    rw [ip_step hstay]
    exact ⟨hlo, hhi⟩

end Machine

end CellMachine
