import CellMachine.Assembler
import CellMachine.Proofs.Machine.Decision
import CellMachine.Proofs.Stack

/-!
# CellMachine.Proofs.Machine.Jump

What a step does to control, by the kind of its instruction. An instruction
that is no transfer goes on behind itself, a `ret` goes back to an open call,
and a jump that finds its target on top of the stack, as a push has just left it
there, goes to the target if it is taken (`JumpKind.takes`) and on behind itself
if not. None of them fails by a stray fault.
-/

namespace CellMachine

/-! ## targets on the stack -/

namespace Cell

theorem expectInt_ofInt {n : Nat} (hn : n < intLimit) : (ofInt .int n).expectInt = .ok n := by
  have htag : (ofInt .int n).tag = .int := rfl
  rw [expectInt, if_pos htag, toInt_ofInt rfl hn]

end Cell

namespace Stack

/-- The int `n` is on top. -/
def Holds (s : Stack) (n : Nat) : Prop := ∃ s', popCell s = .ok (Cell.ofInt .int n) s'

/-- The cell below the one on top. -/
def second? (s : Stack) : Option Cell :=
  match (popCell >>= fun _ => popCell) s with
  | .ok c _ => some c
  | .error _ _ => none

theorem second?_of_popCell {s s₁ s₂ : Stack} {c d : Cell} (hc : popCell s = .ok c s₁)
    (hd : popCell s₁ = .ok d s₂) : second? s = some d := by
  rw [second?, bind_run_of_ok hc, hd]

end Stack

/-- Whether a jump with its target on top of the stack is taken: a conditional one asks the cell
below the target. -/
def JumpKind.takes : JumpKind → Stack → Bool
  | always, _ | call, _ => true
  | ifZero, s => s.second?.any Cell.isZero
  | ifPositive, s => s.second?.any fun c => c.isPositive.toOption.getD false

/-- How control goes on after a jump that is taken. -/
def JumpKind.next : JumpKind → Nat → Next
  | call, n => .call n
  | _, n => .jump n

namespace StoreM

variable {σ : Type}

theorem pop_of_popCell {store : Store σ} {c : Cell} {stack : Stack}
    (h : store.stack.popCell = .ok c stack) : pop store = .ok c { store with stack := stack } :=
  onStack_of_ok h

theorem pop_of_popCell_error {store : Store σ} {e : Fault} {stack : Stack}
    (h : store.stack.popCell = .error e stack) :
    pop store = .error e { store with stack := stack } :=
  onStack_of_error h

theorem popInt_of_pop {store store' : Store σ} {c : Cell} {n : Int} (hc : c.expectInt = .ok n)
    (h : pop store = .ok c store') : popInt store = .ok n store' := by
  rw [popInt, bind_run_of_ok h, hc]
  rfl

theorem popTarget_of_holds {store : Store σ} {n size : Nat} {stack : Stack} (hn : n < intLimit)
    (hle : n ≤ size) (htop : store.stack.popCell = .ok (Cell.ofInt .int n) stack) :
    popTarget size store = .ok n { store with stack := stack } := by
  have hint := popInt_of_pop (Cell.expectInt_ofInt hn) (pop_of_popCell htop)
  rw [popTarget, bind_run_of_ok hint]
  change (if n ≤ size then pure n else throw _ : StoreM σ Nat) _ = _
  rw [if_pos hle]
  rfl

end StoreM

namespace Machine

open StoreM

variable {σ : Type} {m : Machine σ} {s : State σ}

/-- A jump with its target on top of the stack goes there if it is taken; it can fail for want of
a condition only. -/
theorem decision_of_holds (m : Machine σ) (kind : JumpKind) {store : Store σ} {n : Nat}
    (hn : n < intLimit) (hle : n ≤ m.program.size) (htop : store.stack.Holds n) :
    (∃ store', m.decision kind.instr store =
      .ok (if kind.takes store.stack then kind.next n else .proceed) store') ∨
    ∃ e store', m.decision kind.instr store = .error e store' ∧ e.isStray = false := by
  obtain ⟨stack, htop⟩ := htop
  have htarget := popTarget_of_holds hn hle htop
  cases kind with
  | always =>
      refine Or.inl ⟨{ store with stack := stack }, ?_⟩
      rw [JumpKind.instr, decision, bind_run_of_ok htarget]
      rfl
  | call =>
      refine Or.inl ⟨{ store with stack := stack }, ?_⟩
      rw [JumpKind.instr, decision, bind_run_of_ok htarget]
      rfl
  | ifZero =>
      rw [JumpKind.instr, decision, bind_run_of_ok htarget]
      cases hcond : stack.popCell with
      | error e stack' =>
          exact Or.inr ⟨e, _, bind_run_of_error (pop_of_popCell_error hcond),
            (Stack.keeps_popCell.error trivial hcond).1⟩
      | ok c stack' =>
          rw [bind_run_of_ok (pop_of_popCell hcond), JumpKind.takes,
            Stack.second?_of_popCell htop hcond, Option.any_some]
          exact Or.inl ⟨_, rfl⟩
  | ifPositive =>
      rw [JumpKind.instr, decision, bind_run_of_ok htarget]
      cases hcond : stack.popCell with
      | error e stack' =>
          exact Or.inr ⟨e, _, bind_run_of_error (pop_of_popCell_error hcond),
            (Stack.keeps_popCell.error trivial hcond).1⟩
      | ok c stack' =>
          rw [bind_run_of_ok (pop_of_popCell hcond), JumpKind.takes,
            Stack.second?_of_popCell htop hcond, Option.any_some]
          cases hpos : c.isPositive with
          | error e => exact Or.inr ⟨e, _, rfl, c.tame_isPositive.not_stray e hpos⟩
          | ok positive => exact Or.inl ⟨_, rfl⟩

/-! ## steps by kind of instruction -/

/-- An instruction that is no transfer goes on behind itself, also if it fails. -/
theorem step_of_not_transfer {i : Instr} {ip : Nat}
    (hread : Instr.decode m.program s.ip = .ok i ip) (hi : i.isTransfer = false) :
    (finalState (m.step s)).ip = ip ∧ (finalState (m.step s)).calls = s.calls ∧
      ∀ e t, m.step s = .error e t → e.isStray = false := by
  cases hdecide : m.decision i s.toStore with
  | error e store =>
      rw [step_of_stopped hread hdecide]
      refine ⟨rfl, rfl, fun e' t h => ?_⟩
      obtain ⟨rfl, -⟩ := EStateM.Result.error.inj h
      exact ((m.sound_decision hi).error (.refl _) hdecide).1
  | ok next store =>
      rw [step_of_decided hread hdecide]
      have hfits := ((m.sound_decision hi).ok (.refl _) hdecide).1
      cases next with
      | proceed => exact ⟨rfl, rfl, fun _ _ h => nomatch h⟩
      | pause => exact ⟨rfl, rfl, fun _ _ h => nomatch h⟩
      | print line => exact ⟨rfl, rfl, fun _ _ h => nomatch h⟩
      | jump target => rcases hfits.1 with rfl | rfl | rfl <;> contradiction
      | call target => rw [hfits.1] at hi; contradiction
      | back => rw [show i = .ret from hfits] at hi; contradiction

/-- A push of an int leaves it on top of the stack. -/
theorem step_of_pushInt {n ip : Nat}
    (hread : Instr.decode m.program s.ip = .ok (Assembler.pushInt n) ip) :
    ∃ t, m.step s = .ok .proceed t ∧ t.ip = ip ∧ t.calls = s.calls ∧ t.stack.Holds n := by
  have hdecide : m.decision (Assembler.pushInt n) s.toStore =
      .ok .proceed { s.toStore with stack := s.stack.push (Cell.ofInt .int n).bytes .int } := rfl
  refine ⟨_, step_of_decided hread hdecide, rfl, rfl, ?_⟩
  have htop : (s.stack.push (Cell.ofInt .int n).bytes .int).toList =
      s.stack.toList ++ (Cell.ofInt .int n).encode := by
    rw [Stack.toList_push, List.append_assoc]
    rfl
  obtain ⟨stack, hpop, -⟩ := Stack.popCell_of_append _ (Cell.wellFormed_ofInt .int n) htop
  exact ⟨stack, hpop⟩

/-- A `ret` goes back to an open call, or fails and goes on behind itself. -/
theorem step_of_ret {ip : Nat} (hread : Instr.decode m.program s.ip = .ok .ret ip) :
    ((finalState (m.step s)).ip = ip ∨ (finalState (m.step s)).ip ∈ s.calls) ∧
      (∀ r ∈ (finalState (m.step s)).calls, r ∈ s.calls) ∧
      ∀ e t, m.step s = .error e t → e.isStray = false := by
  have hdecide : m.decision .ret s.toStore = .ok .back s.toStore := rfl
  rw [step_of_decided hread hdecide]
  have hfollow := m.follow_outcome { started s ip with toStore := s.toStore } .back
  generalize m.follow .back { started s ip with toStore := s.toStore } = r at hfollow ⊢
  cases hfollow with
  | @back r rest hcalls =>
      change s.calls = r :: rest at hcalls
      rw [hcalls]
      exact ⟨Or.inr List.mem_cons_self, fun q hq => List.mem_cons_of_mem r hq,
        fun _ _ h => nomatch h⟩
  | noCall hcalls =>
      refine ⟨Or.inl rfl, fun q hq => hq, fun e t h => ?_⟩
      obtain ⟨rfl, -⟩ := EStateM.Result.error.inj h
      rfl

/-- A jump that is taken goes to its target; a call fails if too many calls are open. -/
theorem follow_next (m : Machine σ) (kind : JumpKind) (s : State σ) (n : Nat) :
    (∃ t, m.follow (kind.next n) s = .ok .proceed t ∧ t.ip = n ∧
      (t.calls = s.calls ∨ t.calls = s.ip :: s.calls)) ∨
    ∃ e, m.follow (kind.next n) s = .error e s ∧ e.isStray = false := by
  cases kind with
  | call =>
      have hfollow := m.follow_outcome s (.call n)
      rw [JumpKind.next]
      generalize m.follow (.call n) s = r at hfollow ⊢
      cases hfollow with
      | call _ _ => exact Or.inl ⟨_, rfl, rfl, Or.inr rfl⟩
      | tooDeep _ _ => exact Or.inr ⟨_, rfl, rfl⟩
  | always => exact Or.inl ⟨_, rfl, rfl, Or.inl rfl⟩
  | ifZero => exact Or.inl ⟨_, rfl, rfl, Or.inl rfl⟩
  | ifPositive => exact Or.inl ⟨_, rfl, rfl, Or.inl rfl⟩

/-- A jump with its target on top of the stack. -/
theorem step_of_jump {kind : JumpKind} {n ip : Nat} (hn : n < intLimit) (hle : n ≤ m.program.size)
    (htop : s.stack.Holds n) (hread : Instr.decode m.program s.ip = .ok kind.instr ip) :
    (∀ signal t, m.step s = .ok signal t → t.ip = if kind.takes s.stack then n else ip) ∧
      (∀ e t, m.step s = .error e t → e.isStray = false ∧ t.ip = ip) ∧
      ((finalState (m.step s)).calls = s.calls ∨
        (finalState (m.step s)).calls = ip :: s.calls) := by
  rcases m.decision_of_holds kind hn hle htop with ⟨store, hdecide⟩ | ⟨e, store, hdecide, htame⟩
  · rw [step_of_decided hread hdecide]
    by_cases htakes : kind.takes s.stack
    · simp only [htakes, if_true]
      rcases m.follow_next kind { started s ip with toStore := store } n with
        ⟨t, hfollow, hip, hcalls⟩ | ⟨e, hfollow, htame⟩
      · rw [hfollow]
        refine ⟨fun signal t' h => ?_, fun _ _ h => (nomatch h), hcalls⟩
        obtain ⟨-, rfl⟩ := EStateM.Result.ok.inj h
        exact hip
      · rw [hfollow]
        refine ⟨fun _ _ h => (nomatch h), fun e' t h => ?_, Or.inl rfl⟩
        obtain ⟨rfl, rfl⟩ := EStateM.Result.error.inj h
        exact ⟨htame, rfl⟩
    · simp only [htakes]
      refine ⟨fun signal t h => ?_, fun _ _ h => (nomatch h), Or.inl rfl⟩
      obtain ⟨-, rfl⟩ := EStateM.Result.ok.inj h
      rfl
  · rw [step_of_stopped hread hdecide]
    refine ⟨fun _ _ h => (nomatch h), fun e' t h => ?_, Or.inl rfl⟩
    obtain ⟨rfl, rfl⟩ := EStateM.Result.error.inj h
    exact ⟨htame, rfl⟩

end Machine

end CellMachine
