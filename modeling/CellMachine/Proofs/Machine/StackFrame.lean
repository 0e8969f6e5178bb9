import CellMachine.Proofs.Machine.Step
import CellMachine.Proofs.Stack

/-!
# CellMachine.Proofs.Machine.StackFrame

What lies deeper on the stack than an instruction reaches does not matter to it.
Put any bytes under the stack of a state: as long as nothing underflows, the
machine does the same, instruction by instruction, and the bytes stay where they
are (`stack_frame`). So a subroutine or an expression may be looked at on a stack
of its own.

The proof is one rule per way of building actions on a store (`StaysAbove`); only
pops look at the stack, and a pop either finds all it needs above the bytes or
underflows.
-/

namespace CellMachine

/-! ## the stack -/

namespace Stack

variable {below : List UInt8}

/-- The stack `t` is `s` with the bytes `below` under it. -/
def Raised (below : List UInt8) (s t : Stack) : Prop := t.toList = below ++ s.toList

/-- Action on a stack that finds all it needs above the bytes `below`, unless it underflows. -/
abbrev StaysAbove {α : Type} (below : List UInt8) (x : EStateM Fault Stack α) : Prop :=
  Lockstep (Raised below) (fun e => e.isUnderflow = true) x x

theorem staysAbove_popSpan (n : Nat) : StaysAbove below (popSpan n) := by
  intro s t hraised
  by_cases hn : n ≤ s.toList.length
  · obtain ⟨s', hpop, hrest⟩ := popSpan_of_le hn
    have hsplit : t.toList = (below ++ s'.toList) ++ s.toList.drop (s.toList.length - n) := by
      rw [hraised, hrest, List.append_assoc, List.take_append_drop]
    obtain ⟨t', hpop', hrest'⟩ := popSpan_of_append t hsplit
    have hlen : (s.toList.drop (s.toList.length - n)).length = n := by
      simp only [List.length_drop]
      omega
    rw [hlen] at hpop'
    rw [hpop]
    exact ⟨t', hpop', hrest'⟩
  · rw [popSpan_of_lt (by omega)]
    exact Or.inl rfl

theorem staysAbove_popTag : StaysAbove below popTag := by
  refine .bind (staysAbove_popSpan 1) fun span => ?_
  cases Tag.ofCode (span.headD 0) with
  | ok t => exact .pure t
  | error e => exact .throw e

theorem staysAbove_popCell : StaysAbove below popCell :=
  .bind staysAbove_popTag fun t => .bind (staysAbove_popSpan t.width) fun _ => .pure _

/-- The cell on top is the same, if there is a whole one. -/
theorem Raised.peekCell {s t : Stack} (h : Raised below s t) :
    t.peekCell = s.peekCell ∨ ∃ e, s.peekCell = .error e ∧ e.isUnderflow = true := by
  cases hpop : popCell s with
  | ok c s' =>
      obtain ⟨t', hpop', -⟩ := staysAbove_popCell.ok h hpop
      exact Or.inl (by rw [peekCell_of_popCell hpop, peekCell_of_popCell hpop'])
  | error e s' =>
      obtain ⟨e₁, hpeek, hsame⟩ := peekCell_of_popCell_error hpop
      rcases hsame with rfl | ⟨-, hunder⟩
      · rcases staysAbove_popCell.error h hpop with hunder | ⟨t', hpop', -⟩
        · exact Or.inr ⟨e₁, hpeek, hunder⟩
        · obtain ⟨e₂, hpeek', hsame'⟩ := peekCell_of_popCell_error hpop'
          rcases hsame' with rfl | ⟨hunder, -⟩
          · exact Or.inl (by rw [hpeek, hpeek'])
          · exact Or.inr ⟨e₁, hpeek, hunder⟩
      · exact Or.inr ⟨e₁, hpeek, hunder⟩

theorem Raised.pushRaw {s t : Stack} (h : Raised below s t) (bytes : List UInt8) :
    Raised below (s.pushRaw bytes) (t.pushRaw bytes) := by
  simp [Raised, show t.toList = below ++ s.toList from h]

theorem Raised.push {s t : Stack} (h : Raised below s t) (payload : List UInt8) (tag : Tag) :
    Raised below (s.push payload tag) (t.push payload tag) :=
  (h.pushRaw payload).pushRaw [tag.code]

end Stack

/-! ## actions on a store -/

variable {σ α : Type} {below : List UInt8}

/-- The store `st'` is `st` with the bytes `below` under its stack. -/
def Store.Raised (below : List UInt8) (st st' : Store σ) : Prop :=
  ∃ stack, st.stack.Raised below stack ∧ st' = { st with stack := stack }

/-- Action that finds all it needs of the stack above the bytes `below`, unless it underflows. -/
abbrev StaysAbove (below : List UInt8) (x : StoreM σ α) : Prop :=
  Lockstep (Store.Raised below) (fun e => e.isUnderflow = true) x x

namespace StaysAbove

open StoreM

theorem onStack {act : EStateM Fault Stack α} (hact : Stack.StaysAbove below act) :
    StaysAbove below (onStack act : StoreM σ α) := by
  rintro st _ ⟨stack, hstack, rfl⟩
  cases h : act st.stack with
  | ok a s =>
      obtain ⟨t, ht, hraised⟩ := hact.ok hstack h
      rw [onStack_of_ok h, onStack_of_ok ht]
      exact ⟨_, rfl, t, hraised, rfl⟩
  | error e s =>
      rw [onStack_of_error h]
      rcases hact.error hstack h with hunder | ⟨t, ht, hraised⟩
      · exact Or.inl hunder
      · exact Or.inr ⟨_, onStack_of_error ht, t, hraised, rfl⟩

theorem modifyStack {f : Stack → Stack}
    (hf : ∀ s t, Stack.Raised below s t → Stack.Raised below (f s) (f t)) :
    StaysAbove below (modifyStack f : StoreM σ Unit) := by
  rintro st _ ⟨stack, hstack, rfl⟩
  exact ⟨_, rfl, f stack, hf _ _ hstack, rfl⟩

theorem onHeap (act : HeapM α) : StaysAbove below (onHeap act : StoreM σ α) := by
  rintro st _ ⟨stack, hstack, rfl⟩
  cases h : act st.heap with
  | ok a heap =>
      rw [onHeap_of_ok h]
      exact ⟨_, onHeap_of_ok h, stack, hstack, rfl⟩
  | error e heap =>
      rw [onHeap_of_error h]
      exact Or.inr ⟨_, onHeap_of_error h, stack, hstack, rfl⟩

theorem updateHeap (f : Heap → Except Fault Heap) :
    StaysAbove below (updateHeap f : StoreM σ Unit) :=
  onHeap (HeapM.update f)

theorem ask (f : Registers → Heap → Except Fault α) :
    StaysAbove below (ask f : StoreM σ α) := by
  rintro st _ ⟨stack, hstack, rfl⟩
  unfold StoreM.ask
  cases f st.registers st.heap with
  | ok a => exact ⟨_, rfl, stack, hstack, rfl⟩
  | error e => exact Or.inr ⟨_, rfl, stack, hstack, rfl⟩

theorem lift (x : Except Fault α) : StaysAbove below (lift x : StoreM σ α) := by
  cases x with
  | ok a => exact .pure a
  | error e => exact .throw e

theorem setRegister (r : UInt8) (c : Cell) :
    StaysAbove below (setRegister r c : StoreM σ Unit) := by
  rintro st _ ⟨stack, hstack, rfl⟩
  exact ⟨_, rfl, stack, hstack, rfl⟩

/-! ## operands -/

theorem pop : StaysAbove below (pop : StoreM σ Cell) := onStack Stack.staysAbove_popCell

theorem push (c : Cell) : StaysAbove below (push c : StoreM σ Unit) :=
  modifyStack fun _ _ h => h.push c.bytes c.tag

theorem popInt : StaysAbove below (popInt : StoreM σ Int) := .bind pop fun c => lift c.expectInt

theorem popPointer : StaysAbove below (popPointer : StoreM σ Nat) :=
  .bind pop fun c => lift c.expectPointer

theorem popLength : StaysAbove below (popLength : StoreM σ Nat) := by
  refine .bind popInt fun n => ?_
  cases n with
  | ofNat k => exact .pure k
  | negSucc k => exact .throw _

theorem popTarget (size : Nat) : StaysAbove below (popTarget size : StoreM σ Nat) := by
  refine .bind popInt fun n => ?_
  cases n with
  | ofNat k => exact .ite (.pure k) (.throw _)
  | negSucc k => exact .throw _

theorem popTruth : StaysAbove below (popTruth : StoreM σ Bool) := .bind pop fun _ => .pure _

theorem pushBool (b : Bool) : StaysAbove below (pushBool b : StoreM σ Unit) := push _

theorem registerPointer (r : UInt8) : StaysAbove below (registerPointer r : StoreM σ Nat) := ask _

theorem binary (op : ArithOp) : StaysAbove below (binary op : StoreM σ Unit) :=
  .bind pop fun _ => .bind pop fun _ => .bind (onHeap _) push

theorem compare (op : CompareOp) : StaysAbove below (compare op : StoreM σ Unit) :=
  .bind pop fun _ => .bind pop fun _ => .bind (ask _) pushBool

/-- Looking at the cell on top takes nothing off. -/
theorem peek : StaysAbove below (σ := σ) (StoreM.onStack fun s =>
    match s.peekCell with
    | .ok c => .ok c s
    | .error e => .error e s) := by
  refine onStack fun s t hraised => ?_
  rcases hraised.peekCell with hsame | ⟨e, hpeek, hunder⟩
  · rw [hsame]
    cases s.peekCell with
    | ok c => exact ⟨t, rfl, hraised⟩
    | error e => exact Or.inr ⟨t, rfl, hraised⟩
  · rw [hpeek]
    exact Or.inl hunder

/-! ## calls of commands -/

theorem takeArguments (name : String) (index : Nat) (ps : List Param) :
    StaysAbove below (Command.takeArguments name index ps :
      StoreM σ (List (Value × Option Slot))) := by
  induction ps generalizing index with
  | nil => exact .pure []
  | cons p ps ih =>
      exact .bind (ih (index + 1)) fun rest => .bind pop fun c => .bind (ask _) fun a => .pure _

theorem callHost (c : Command σ) (args : List Value) : StaysAbove below (c.callHost args) := by
  rintro st _ ⟨stack, hstack, rfl⟩
  obtain ⟨stack₀, registers, heap, world⟩ := st
  unfold Command.callHost
  rcases hrun : c.run args world with ⟨answer, world'⟩
  cases answer with
  | ok reply =>
      simp only [hrun]
      exact ⟨_, rfl, stack, hstack, rfl⟩
  | error e =>
      simp only [hrun]
      exact Or.inr ⟨_, rfl, stack, hstack, rfl⟩

theorem storeAt (slot : Slot) (v : Value) :
    StaysAbove below (Command.storeAt slot v : StoreM σ Unit) := by
  refine .bind (onHeap v.toCell) fun c => ?_
  cases slot with
  | register r => exact setRegister r c
  | heap ptr => exact updateHeap _

theorem storeBack (slots : List (Option Slot × Value)) :
    StaysAbove below (Command.storeBack slots : StoreM σ Unit) := by
  induction slots with
  | nil => exact .pure ()
  | cons x rest ih =>
      obtain ⟨slot, v⟩ := x
      cases slot with
      | none => exact ih
      | some slot => exact .bind (storeAt slot v) fun _ => ih

theorem resultCell (c : Command σ) (v : Value) : StaysAbove below (c.resultCell v) :=
  .bind (onHeap v.toCell) fun cell => .ite (lift _) (.pure cell)

theorem invoke (c : Command σ) : StaysAbove below c.invoke := by
  refine .bind (takeArguments _ _ _) fun taken => .bind (callHost c _) fun reply => ?_
  refine .bind (storeBack _) fun _ => .ite (.pure ()) (.ite (.throw _) ?_)
  exact .bind (resultCell c _) push

theorem callCommand (m : Machine σ) : StaysAbove below m.callCommand := by
  refine .bind popInt fun address => ?_
  cases m.commands.get? address with
  | some c => exact invoke c
  | none => exact .throw _

/-! ## instructions -/

theorem act (i : Instr) : StaysAbove below (i.act : StoreM σ Unit) := by
  cases i with
  | push t payload => exact modifyStack fun _ _ h => h.push payload t
  | pushSpan bytes => exact modifyStack fun _ _ h => h.pushRaw bytes
  | pushType t => exact modifyStack fun _ _ h => h.pushRaw [t.code]
  | pushRegPtr r => exact push _
  | dupe => exact .bind peek push
  | discard => exact .bind pop fun _ => .pure ()
  | discardType => exact .bind (onStack Stack.staysAbove_popTag) fun _ => .pure ()
  | arith op => exact binary op
  | negate => exact .bind pop fun _ => .bind (lift _) push
  | compare op => exact compare op
  | and => exact .bind popTruth fun _ => .bind popTruth fun _ => pushBool _
  | or => exact .bind popTruth fun _ => .bind popTruth fun _ => pushBool _
  | not => exact .bind popTruth fun _ => pushBool _
  | cast t => exact .bind pop fun _ => .bind (lift _) push
  | store r => exact .bind pop fun c => setRegister r c
  | load r => exact .bind (ask _) push
  | storePtr r => exact .bind (registerPointer r) fun _ => .bind pop fun _ => updateHeap _
  | loadPtr r t =>
      refine .bind (registerPointer r) fun _ => .bind (ask _) fun bytes => ?_
      exact modifyStack fun _ _ h => h.push bytes t
  | alloc => exact .bind popLength fun len => .bind (onHeap _) fun _ => .bind (lift _) push
  | free => exact .bind popPointer fun _ => updateHeap _
  | write =>
      refine .bind popPointer fun _ => .bind popLength fun len => ?_
      exact .bind (onStack (Stack.staysAbove_popSpan len)) fun _ => updateHeap _
  | read =>
      refine .bind popPointer fun _ => .bind popLength fun _ => .bind (ask _) fun bytes => ?_
      exact modifyStack fun _ _ h => h.pushRaw bytes
  | _ => exact .pure ()

theorem decision (m : Machine σ) (i : Instr) : StaysAbove below (m.decision i) := by
  cases i with
  | jump => exact .bind (popTarget _) fun _ => .pure _
  | jumpZero => exact .bind (popTarget _) fun _ => .bind pop fun _ => .pure _
  | jumpGtZero =>
      exact .bind (popTarget _) fun _ => .bind pop fun _ => .bind (lift _) fun _ => .pure _
  | jumpHistory => exact .bind (popTarget _) fun _ => .pure _
  | ret => exact .pure _
  | callHost => exact .bind (callCommand m) fun _ => .pure _
  | dbgPrint => exact .bind pop fun _ => .bind (ask _) fun _ => .pure _
  | breakpoint => exact .pure _
  | _ => exact .bind (act _) fun _ => .pure _

end StaysAbove

/-! ## machines -/

/-- The state `s'` is `s` with the bytes `below` under its stack. -/
def State.Raised (below : List UInt8) (s s' : State σ) : Prop :=
  ∃ stack, s.stack.Raised below stack ∧ s' = { s with stack := stack }

namespace Machine

variable {m : Machine σ}

/-- Control goes on without a look at the stack. -/
theorem lockstep_follow (m : Machine σ) (next : Next) :
    Lockstep (State.Raised below) (fun e => e.isUnderflow = true) (m.follow next)
      (m.follow next) := by
  rintro s _ ⟨stack, hstack, rfl⟩
  have hleft := m.follow_outcome s next
  have hright := m.follow_outcome { s with stack := stack } next
  revert hleft hright
  generalize m.follow next s = r
  generalize m.follow next { s with stack := stack } = r'
  intro hleft hright
  cases hleft with
  | proceed => cases hright; exact ⟨_, rfl, stack, hstack, rfl⟩
  | pause => cases hright; exact ⟨_, rfl, stack, hstack, rfl⟩
  | jump target => cases hright; exact ⟨_, rfl, stack, hstack, rfl⟩
  | print line => cases hright; exact ⟨_, rfl, stack, hstack, rfl⟩
  | call target hdepth =>
      cases hright with
      | call => exact ⟨_, rfl, stack, hstack, rfl⟩
      | tooDeep _ hdepth' => exact absurd hdepth (Nat.not_lt.mpr hdepth')
  | tooDeep target hdepth =>
      cases hright with
      | call _ hdepth' => exact absurd hdepth' (Nat.not_lt.mpr hdepth)
      | tooDeep => exact Or.inr ⟨_, rfl, stack, hstack, rfl⟩
  | back hcalls =>
      cases hright with
      | back hcalls' =>
          obtain ⟨rfl, rfl⟩ := List.cons.inj (hcalls.symm.trans hcalls')
          exact ⟨_, rfl, stack, hstack, rfl⟩
      | noCall hcalls' => exact absurd (hcalls.symm.trans hcalls') (List.cons_ne_nil _ _)
  | noCall hcalls =>
      cases hright with
      | back hcalls' => exact absurd (hcalls'.symm.trans hcalls) (List.cons_ne_nil _ _)
      | noCall => exact Or.inr ⟨_, rfl, stack, hstack, rfl⟩

/-- **One instruction** does the same whatever lies under the stack, unless it underflows. -/
theorem lockstep_step (m : Machine σ) :
    Lockstep (State.Raised below) (fun e => e.isUnderflow = true) m.step m.step := by
  rintro s _ ⟨stack, hstack, rfl⟩
  cases hread : Instr.decode m.program s.ip with
  | error e ip =>
      have hright : m.step { s with stack := stack } = .error e _ := step_of_unread hread
      rw [step_of_unread hread, hright]
      exact Or.inr ⟨_, rfl, stack, hstack, rfl⟩
  | ok i ip =>
      have hdecision : StaysAbove below (m.decision i) := StaysAbove.decision m i
      have hstores : s.toStore.Raised below { s.toStore with stack := stack } :=
        ⟨stack, hstack, rfl⟩
      cases hdecide : m.decision i s.toStore with
      | error e store =>
          rw [step_of_stopped hread hdecide]
          rcases hdecision.error hstores hdecide with hunder | ⟨_, hdecide', stack', hraised, rfl⟩
          · exact Or.inl hunder
          · exact Or.inr ⟨_, step_of_stopped hread hdecide', stack', hraised, rfl⟩
      | ok next store =>
          obtain ⟨_, hdecide', stack', hraised, rfl⟩ := hdecision.ok hstores hdecide
          have hright : m.step { s with stack := stack } = _ := step_of_decided hread hdecide'
          rw [step_of_decided hread hdecide, hright]
          exact m.lockstep_follow next _ _ ⟨stack', hraised, rfl⟩

/-! ## runs -/

/-- The result of an action without the state that it leaves. -/
def resultOf : Outcome σ α → Except Fault α
  | .ok a _ => .ok a
  | .error e _ => .error e

/-- The results of the next `k` instructions, also past faults and pauses, and the state that they
lead to; there are fewer if the program ends before. -/
def steps (m : Machine σ) : (k : Nat) → State σ → List (Except Fault Signal) × State σ
  | 0, s => ([], s)
  | k + 1, s =>
    if m.isComplete s then ([], s)
    else
      let (results, t) := m.steps k (finalState (m.step s))
      (resultOf (m.step s) :: results, t)

theorem steps_of_complete {s : State σ} (hend : m.isComplete s = true) (k : Nat) :
    m.steps k s = ([], s) := by
  cases k with
  | zero => rfl
  | succ k => rw [steps, if_pos hend]

theorem steps_succ {s : State σ} (hend : m.isComplete s = false) (k : Nat) :
    m.steps (k + 1) s =
      (resultOf (m.step s) :: (m.steps k (finalState (m.step s))).1,
        (m.steps k (finalState (m.step s))).2) := by
  rw [steps, if_neg (by simp [hend])]

/-- An instruction that does not underflow has the same result and leaves the same state, with the
bytes still under its stack. -/
theorem raised_step {s s' : State σ} (hs : s.Raised below s')
    (hrun : ∀ needed available,
      resultOf (m.step s) ≠ .error (.stackUnderflow needed available)) :
    resultOf (m.step s') = resultOf (m.step s) ∧
      (finalState (m.step s)).Raised below (finalState (m.step s')) := by
  cases hstep : m.step s with
  | ok signal t =>
      obtain ⟨t', hstep', ht⟩ := m.lockstep_step.ok hs hstep
      rw [hstep']
      exact ⟨rfl, ht⟩
  | error e t =>
      rw [hstep] at hrun
      rcases m.lockstep_step.error hs hstep with hunder | ⟨t', hstep', ht⟩
      · cases e with
        | stackUnderflow needed available => exact absurd rfl (hrun needed available)
        | _ => contradiction
      · rw [hstep']
        exact ⟨rfl, ht⟩

/-- **The stack frame rule**: if `k` instructions started in state `s` do not underflow, they have
the same results, faults included, in a state with any bytes under the stack, and lead to the same
state with these bytes under its stack. -/
theorem stack_frame (m : Machine σ) (k : Nat) {s s' : State σ} (hs : s.Raised below s')
    (hrun : ∀ needed available, .error (.stackUnderflow needed available) ∉ (m.steps k s).1) :
    (m.steps k s').1 = (m.steps k s).1 ∧
      (m.steps k s).2.Raised below (m.steps k s').2 := by
  induction k generalizing s s' with
  | zero => exact ⟨rfl, hs⟩
  | succ k ih =>
      have hcomplete : m.isComplete s' = m.isComplete s := by
        obtain ⟨_, -, rfl⟩ := hs
        rfl
      cases hend : m.isComplete s with
      | true =>
          rw [steps_of_complete hend, steps_of_complete (hcomplete.trans hend)]
          exact ⟨rfl, hs⟩
      | false =>
          rw [steps_succ hend] at hrun
          simp only [List.mem_cons, not_or] at hrun
          obtain ⟨hresult, hnext⟩ := raised_step hs fun n a h => (hrun n a).1 h.symm
          obtain ⟨hresults, hfinal⟩ := ih hnext fun n a => (hrun n a).2
          rw [steps_succ hend, steps_succ (hcomplete.trans hend)]
          simp only [hresult, hresults, true_and]
          exact hfinal

/-- A machine that joins the cell on its stack with another by `and`, prints the result and takes the
byte below for a tag. -/
def joining : Machine Unit where
  program := #[Opcode.push.code, Tag.byte.code, 2, Opcode.and.code, Opcode.dbgPrint.code,
    Opcode.discardType.code]
  commands := .empty
  settings := { stackCapacity := 0, initialHeapSize := 1 }

/-- The machine before its first instruction, with bytes on its stack. -/
def joiningOn (bytes : List UInt8) : State Unit :=
  let s := joining.start ()
  { s with stack := s.stack.pushRaw bytes }

theorem stack_frame_joining :
    (joiningOn [99, 3, Tag.byte.code]).Raised [7, 8] (joiningOn [7, 8, 99, 3, Tag.byte.code]) ∧
      (joining.steps 4 (joiningOn [99, 3, Tag.byte.code])).1 =
        [.ok .proceed, .ok .proceed, .ok .proceed, .error (.invalidTag 99)] ∧
      (joining.steps 4 (joiningOn [7, 8, 99, 3, Tag.byte.code])).1 =
        (joining.steps 4 (joiningOn [99, 3, Tag.byte.code])).1 ∧
      (joining.steps 4 (joiningOn [99, 3, Tag.byte.code])).2.Raised [7, 8]
        (joining.steps 4 (joiningOn [7, 8, 99, 3, Tag.byte.code])).2 := by
  have hs : (joiningOn [99, 3, Tag.byte.code]).Raised [7, 8]
      (joiningOn [7, 8, 99, 3, Tag.byte.code]) :=
    ⟨_, show _ = _ by decide, rfl⟩
  have hresults : (joining.steps 4 (joiningOn [99, 3, Tag.byte.code])).1 =
      [.ok .proceed, .ok .proceed, .ok .proceed, .error (.invalidTag 99)] := rfl
  exact ⟨hs, hresults, stack_frame joining 4 hs (by simp [hresults])⟩

end Machine

end CellMachine
