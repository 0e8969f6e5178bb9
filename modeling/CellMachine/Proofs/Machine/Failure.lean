import CellMachine.Proofs.Machine.Invariant
import CellMachine.Proofs.Operator.Concat

/-!
# CellMachine.Proofs.Machine.Failure

What a failing instruction leaves behind. It has popped operands and nothing
else: the stack is a beginning of what it was, and the registers and the heap are
the same. This needs care in two places. A concatenation makes a block and then
goes on, but nothing can fail from there on (`concat_of_live`). And a call of a
command may fail while it stores what the host has answered; up to the answer it
consumes like every other instruction.
-/

namespace CellMachine

/-! ## operators -/

namespace Cell

variable {h : Heap} {W : Nat → Prop}

/-- An operator that fails has not touched the heap, and one that succeeds has changed no block. -/
theorem commits_binary (hh : h.Partitioned) (hcursor : h.cursor < intLimit) (op : ArithOp)
    (lhs rhs : Cell) :
    Commits (· = h) (fun _ => True) (binary op lhs rhs) (fun _ => True) (h.Grows W) := by
  refine .ite (fun _ => ?_) fun _ => ?_
  · rintro h rfl
    cases concat_found_or_error lhs rhs h with
    | inl hfound =>
        obtain ⟨lptr, rptr, llen, rlen, hfound⟩ := hfound
        obtain ⟨ptr, h', hrun, -, -, -, -, hgrows⟩ := concat_of_live hh hcursor hfound
        rw [hrun]
        exact ⟨trivial, hgrows.mono fun _ => False.elim⟩
    | inr herror =>
        obtain ⟨e, hrun⟩ := herror
        rw [hrun]
        exact ⟨trivial, rfl⟩
  · have hlift : Keeps (· = h) (fun _ => True) (HeapM.lift (arithmetic op lhs rhs)) fun _ => True :=
      .liftHeap (fun _ _ => trivial) fun _ _ => trivial
    exact hlift.commits fun _ heq => heq.symm ▸ .refl hh

end Cell

/-! ## consuming -/

namespace Store

variable {σ : Type} {st₀ : Store σ}

theorem stable_shrinks (l : List UInt8) : Stable fun st : Store σ => st.stack.toList <+: l where
  setRegister _ _ _ _ hst := hst
  setHeap _ _ _ hst := hst
  setWorld _ _ hst := hst

theorem rules_shrinks (l : List UInt8) :
    Rules (fun st : Store σ => st.stack.toList <+: l) (fun _ => True) fun _ => True :=
  .of_stable (stable_shrinks l) (fun _ _ => trivial)
    (.ofStack (Stack.shrinks_popCell l) (fun _ hst => hst) fun _ _ _ hstack => hstack)
    (fun _ _ _ _ => trivial) (fun _ _ => trivial) fun _ _ _ => trivial

theorem rawRules_shrinks (l : List UInt8) :
    RawRules (fun st : Store σ => st.stack.toList <+: l) (fun _ => True) fun _ => True where
  popTag := .ofStack (Stack.shrinks_popTag l) (fun _ hst => hst) fun _ _ _ hstack => hstack
  popSpan n := .ofStack (Stack.shrinks_popSpan l n) (fun _ hst => hst) fun _ _ _ hstack => hstack
  pushRaw _ _ _ := trivial

/-- The store `st` is what is left of `st₀` when only operands have been consumed. -/
structure Consumed (st₀ st : Store σ) : Prop where
  stack : st.stack.toList <+: st₀.stack.toList
  registers : st.registers = st₀.registers
  heap : st.heap = st₀.heap

theorem Consumed.refl (st : Store σ) : st.Consumed st := ⟨List.prefix_refl _, rfl, rfl⟩

/-- What only removes bytes from the stack consumes. -/
theorem consumes_onStack {α : Type} {act : EStateM Fault Stack α} {Q : α → Prop}
    (hact : Keeps (fun s => s.toList <+: st₀.stack.toList) (fun _ => True) act Q) :
    Keeps st₀.Consumed (fun _ => True) (StoreM.onStack act) Q :=
  .ofStack hact (fun _ hst => hst.stack) fun _ _ hst hstack => ⟨hstack, hst.registers, hst.heap⟩

/-- Every instruction but a call of a command consumes until it can fail no more. Unless it writes
to the heap or frees a block, `H` holds of the heap in the end, where `H` is anything that holds when
no block has changed. -/
theorem rules_consumed {W : Nat → Prop} {H : Heap → Prop} (hh : st₀.heap.Partitioned)
    (hcursor : st₀.heap.cursor < intLimit) (hH : ∀ h, st₀.heap.Grows W h → H h) :
    Rules st₀.Consumed (fun _ => True) fun st => H st.heap where
  plain _ _ := trivial
  pop := consumes_onStack (Stack.shrinks_popCell _)
  peek _ _ _ _ := trivial
  setWorld _ _ hst := ⟨hst.stack, hst.registers, hst.heap⟩
  done st hst := hH st.heap (hst.heap.symm ▸ .refl hh)
  pushCell _ _ hst := hst
  setRegister st _ _ _ hst := hH st.heap (hst.heap.symm ▸ .refl hh)
  binary op lhs rhs := by
    intro st hst
    have hcommits := Cell.commits_binary (W := W) hh hcursor op lhs rhs
    cases hb : Cell.binary op lhs rhs st.heap with
    | ok c heap =>
        obtain ⟨-, hgrows⟩ := hcommits.ok hst.heap hb
        rw [bind_run_of_ok (StoreM.onHeap_of_ok hb)]
        exact ⟨trivial, hH heap hgrows⟩
    | error e heap =>
        obtain ⟨-, hheap⟩ := hcommits.error hst.heap hb
        rw [bind_run_of_error (StoreM.onHeap_of_error hb)]
        exact ⟨trivial, hst.stack, hst.registers, hheap⟩
  alloc len := by
    intro st hst
    have hptr : (st.heap.allocate len).1 < intLimit := by
      rw [hst.heap]
      exact Nat.lt_of_le_of_lt (hh.allocate_le_cursor len) hcursor
    have hcell : Cell.heapPointer .ptrHeap (st.heap.allocate len).1 = .ok _ := if_pos hptr
    have hblock : HeapM.allocate len st.heap = .ok _ _ := rfl
    rw [bind_run_of_ok (StoreM.onHeap_of_ok hblock)]
    simp only [StoreM.lift, hcell, bind, EStateM.bind]
    refine ⟨trivial, hH _ ?_⟩
    rw [hst.heap]
    exact hh.grows_allocate len

theorem rawRules_consumed {H : Heap → Prop} :
    RawRules st₀.Consumed (fun _ => True) fun st => H st.heap where
  popTag := consumes_onStack (Stack.shrinks_popTag _)
  popSpan n := consumes_onStack (Stack.shrinks_popSpan _ n)
  pushRaw _ _ hst := hst

end Store

/-! ## failing instructions -/

namespace Machine

variable {σ : Type} {m : Machine σ}

/-- An instruction that fails on the store has removed bytes from the stack, if anything. -/
theorem shrinks_of_stopped {i : Instr} {st st' : Store σ} {e : Fault}
    (hdecide : m.decision i st = .error e st') : st'.stack.toList <+: st.stack.toList :=
  (((Store.rules_shrinks st.stack.toList).decision m i (fun _ => Store.rawRules_shrinks _)
    (fun _ => (Store.rules_shrinks _).blocks (Store.stable_shrinks _))
    (fun _ => Store.stable_shrinks _) fun _ _ => trivial).error (List.prefix_refl _) hdecide).2

section Consumed

variable {st st' : Store σ} {e : Fault} (hh : st.heap.Partitioned)
  (hcursor : st.heap.cursor < intLimit)

include hh hcursor

theorem rules_of_partitioned : Rules st.Consumed (fun _ => True) fun _ => True :=
  Store.rules_consumed (W := fun _ => False) (H := fun _ => True) hh hcursor fun _ _ => trivial

theorem consumed_of_request (hask : m.request st = .error e st') : st.Consumed st' :=
  (((rules_of_partitioned hh hcursor).requestCommand m).error (.refl st) hask).2

/-- A failing instruction has only consumed, unless it is a call of a command that the host has
answered. -/
theorem consumed_of_stopped {i : Instr}
    (hcall : i = .callHost → ∃ e' st₁, m.request st = .error e' st₁)
    (hdecide : m.decision i st = .error e st') : st.Consumed st' := by
  by_cases hi : i = .callHost
  · obtain ⟨e', st₁, hask⟩ := hcall hi
    subst hi
    have hstop : m.decision .callHost st = .error e' st₁ := by
      rw [decision, callCommand_eq]
      exact bind_run_of_error (bind_run_of_error hask)
    rw [hstop] at hdecide
    obtain ⟨-, rfl⟩ := EStateM.Result.error.inj hdecide
    exact consumed_of_request hh hcursor hask
  · have hcommits := (rules_of_partitioned hh hcursor).decision m i
      (fun _ => Store.rawRules_consumed (H := fun _ => True))
      (fun _ => ⟨fun _ _ _ _ _ _ => trivial, fun _ _ _ _ _ => trivial⟩)
      (fun h => absurd h hi) fun _ _ => trivial
    exact (hcommits.error (.refl st) hdecide).2

/-- Where control cannot go on as an instruction decided, it has only consumed. -/
theorem consumed_of_unfollowed {i : Instr} {next : Next} {s t : State σ}
    (hdecide : m.decision i st = .ok next st') (hfollow : FollowOutcome m s next (.error e t)) :
    st.Consumed st' := by
  have hfits := ((m.keeps_decision i).ok (.refl st) hdecide).1
  cases hfollow with
  | tooDeep target _ =>
      obtain ⟨rfl, -⟩ := hfits
      have hkeeps : Keeps st.Consumed (fun _ => True) (m.decision .jumpHistory) fun _ => True :=
        .bind ((rules_of_partitioned hh hcursor).popTarget (fun _ => trivial) _) fun _ _ =>
          .pure trivial
      exact (hkeeps.ok (.refl st) hdecide).2
  | noCall _ =>
      obtain rfl : i = .ret := hfits
      obtain ⟨-, rfl⟩ := EStateM.Result.ok.inj hdecide
      exact .refl st

end Consumed

/-- **A failing instruction only consumes operands**: the stack that it leaves is a beginning of
what it was, and the open calls and the printed lines are the same. So are the registers and the
heap, unless the instruction is a call of a command that fails after the host has answered. -/
theorem failed_step_consumes (m : Machine σ) {C : Cell → Prop} {us : List (State σ)}
    {s t : State σ} {e : Fault} (hlife : Session m C us s) (hcursor : s.heap.cursor < intLimit)
    (hfail : m.step s = .error e t) :
    t.stack.toList <+: s.stack.toList ∧ t.calls = s.calls ∧ t.printed = s.printed ∧
      ((∀ ip, Instr.decode m.program s.ip = .ok .callHost ip →
          ∃ e' st, m.request s.toStore = .error e' st) →
        t.registers = s.registers ∧ t.heap = s.heap) := by
  have hh := hlife.partitioned
  cases step_outcome hfail with
  | unread hread => exact ⟨List.prefix_refl _, rfl, rfl, fun _ => ⟨rfl, rfl⟩⟩
  | @stopped i ip _ store hread hdecide =>
      refine ⟨shrinks_of_stopped hdecide, rfl, rfl, fun hcall => ?_⟩
      have hconsumed := consumed_of_stopped hh hcursor (fun hi => hcall ip (hi ▸ hread)) hdecide
      exact ⟨hconsumed.registers, hconsumed.heap⟩
  | decided hread hdecide hfollow =>
      have hconsumed := consumed_of_unfollowed hh hcursor hdecide hfollow
      cases hfollow with
      | tooDeep | noCall =>
          exact ⟨hconsumed.stack, rfl, rfl, fun _ => ⟨hconsumed.registers, hconsumed.heap⟩⟩

/-- A machine that calls a command with one argument, which the host refuses. -/
def refusing : Machine Unit where
  program := #[Opcode.push.code, Tag.byte.code, 7,
    Opcode.push.code, Tag.int.code, 0, 0, 0, 0, Opcode.callHost.code]
  commands := ⟨#[{
    name := "refuse"
    params := [{ tag := .byte }]
    run := fun _ world => (.error (.failed "refused"), world) }]⟩
  settings := { stackCapacity := 8, initialHeapSize := 1 }

theorem failed_step_consumes_refusing :
    ∃ us s t, Session refusing (fun _ => True) us s ∧ s.heap.cursor < intLimit ∧
      refusing.step s = .error (.commandFailed "refuse" "refused") t ∧
      s.stack.toList = [7, Tag.byte.code, 0, 0, 0, 0, Tag.int.code] ∧
      t.stack.toList <+: s.stack.toList ∧ t.calls = s.calls ∧ t.printed = s.printed ∧
      t.registers = s.registers ∧ t.heap = s.heap := by
  obtain ⟨us, s, t, st, hlife, hcursor, hfail, hstack, hask⟩ :
      ∃ us s t st, Session refusing (fun _ => True) us s ∧ s.heap.cursor < intLimit ∧
        refusing.step s = .error (.commandFailed "refuse" "refused") t ∧
        s.stack.toList = [7, Tag.byte.code, 0, 0, 0, 0, Tag.int.code] ∧
        refusing.request s.toStore = .error (.commandFailed "refuse" "refused") st :=
    ⟨_, _, _, _, .execute 0 2 (.start ()) rfl, by decide, rfl, by decide, rfl⟩
  obtain ⟨hshrinks, hcalls, hprinted, hsame⟩ :=
    failed_step_consumes refusing hlife hcursor hfail
  exact ⟨us, s, t, hlife, hcursor, hfail, hstack, hshrinks, hcalls, hprinted,
    hsame fun _ _ => ⟨_, st, hask⟩⟩

end Machine

end CellMachine
