import CellMachine.Machine.Run
import CellMachine.Proofs.Heap.Call
import CellMachine.Proofs.Machine.Step

/-!
# CellMachine.Proofs.Machine.Session

What a machine goes through. `Execution` is execution as a relation, with the
states in which instructions were started; `execution_iff` says that it is what
`executeUpTo` computes, so that proofs about executions are inductions over it.

A `Session` is the life of a machine: executions one after another, also past
faults, and in between edits of registers and calls of the heap from outside.
`Session.induct` is the one induction over sessions: what holds at the start and
survives each single step and each edit holds all the time.
-/

namespace CellMachine

namespace Machine

variable {σ : Type}

/-- The states in which an execution of up to `n` instructions starts one. -/
def startedUpTo (m : Machine σ) : Nat → State σ → List (State σ)
  | 0, _ => []
  | n + 1, s =>
    if m.isComplete s then []
    else
      s ::
        match m.step s with
        | .ok .proceed s => m.startedUpTo n s
        | _ => []

/-! ## executions -/

/-- An execution of up to `n` instructions from a state: the states in which it starts one and
what it comes to. -/
inductive Execution (m : Machine σ) :
    Nat → State σ → List (State σ) → Outcome σ Status → Prop
  | complete {n : Nat} {s : State σ} (hend : m.isComplete s = true) :
      Execution m n s [] (.ok .complete s)
  | suspended {s : State σ} (hend : m.isComplete s = false) :
      Execution m 0 s [] (.ok .suspended s)
  | proceed {n : Nat} {s t : State σ} {us : List (State σ)}
      {r : Outcome σ Status} (hend : m.isComplete s = false)
      (hstep : m.step s = .ok .proceed t) (hrest : Execution m n t us r) :
      Execution m (n + 1) s (s :: us) r
  | breakpoint {n : Nat} {s t : State σ} (hend : m.isComplete s = false)
      (hstep : m.step s = .ok .pause t) : Execution m (n + 1) s [s] (.ok .breakpoint t)
  | fail {n : Nat} {s t : State σ} {e : Fault} (hend : m.isComplete s = false)
      (hstep : m.step s = .error e t) : Execution m (n + 1) s [s] (.error e t)

theorem execution_executeUpTo (m : Machine σ) (n : Nat) (s : State σ) :
    Execution m n s (m.startedUpTo n s) (m.executeUpTo n s) := by
  induction n generalizing s with
  | zero =>
      cases hend : m.isComplete s with
      | true =>
          simp only [executeUpTo, startedUpTo, hend, if_true]
          exact .complete hend
      | false =>
          simp only [executeUpTo, startedUpTo, hend, Bool.false_eq_true, if_false]
          exact .suspended hend
  | succ n ih =>
      cases hend : m.isComplete s with
      | true =>
          simp only [executeUpTo, startedUpTo, hend, if_true]
          exact .complete hend
      | false =>
          simp only [executeUpTo, startedUpTo, hend, Bool.false_eq_true, if_false]
          cases hstep : m.step s with
          | error e t => exact .fail hend hstep
          | ok signal t =>
              cases signal with
              | proceed => exact .proceed hend hstep (ih t)
              | pause => exact .breakpoint hend hstep

/-- Executions are what `executeUpTo` computes. -/
theorem execution_iff {m : Machine σ} {n : Nat} {s : State σ} {us : List (State σ)}
    {r : Outcome σ Status} :
    Execution m n s us r ↔ m.startedUpTo n s = us ∧ m.executeUpTo n s = r := by
  constructor
  · intro h
    induction h with
    | @complete n s hend => cases n <;> simp [startedUpTo, executeUpTo, hend]
    | suspended hend => simp [startedUpTo, executeUpTo, hend]
    | proceed hend hstep _ ih => simp [startedUpTo, executeUpTo, hend, hstep, ih]
    | breakpoint hend hstep => simp [startedUpTo, executeUpTo, hend, hstep]
    | fail hend hstep => simp [startedUpTo, executeUpTo, hend, hstep]
  · rintro ⟨rfl, rfl⟩
    exact m.execution_executeUpTo n s

/-- An execution with a budget, or with fuel where the budget is 0, is one of so many instructions. -/
theorem executeUpTo_of_execute {m : Machine σ} {fuel budget : Nat} {s : State σ}
    {r : Outcome σ Status} (h : m.execute fuel budget s = some r) :
    m.executeUpTo (if budget = 0 then fuel else budget) s = r := by
  unfold execute at h
  by_cases hb : budget = 0
  · subst hb
    simp only [ne_eq, not_true_eq_false, if_false] at h
    rw [if_pos rfl]
    split at h
    · contradiction
    · exact Option.some.inj h
  · rw [if_pos hb] at h
    rw [if_neg hb]
    exact Option.some.inj h

/-! ## sessions -/

/-- The life of a machine up to a state, where cells in `C` may be put into registers from outside.
The list has the states in which instructions were started, in order. -/
inductive Session (m : Machine σ) (C : Cell → Prop) : List (State σ) → State σ → Prop
  | start (world : σ) : Session m C [] (m.start world)
  | execute {us : List (State σ)} {s : State σ} (fuel budget : Nat)
      {r : Outcome σ Status} (hlife : Session m C us s)
      (hrun : m.execute fuel budget s = some r) :
      Session m C (us ++ m.startedUpTo (if budget = 0 then fuel else budget) s) (finalState r)
  | setRegister {us : List (State σ)} {s : State σ} (r : UInt8) {c : Cell}
      (hlife : Session m C us s) (hc : C c) : Session m C us (s.setRegister r c)
  | callHeap {us : List (State σ)} {s : State σ} (call : Heap.Call) (hlife : Session m C us s) :
      Session m C us { s with heap := s.heap.after call }

variable {m : Machine σ} {P : List (State σ) → State σ → Prop}

/-- What survives each step survives an execution. -/
theorem Execution.induct
    (hstep : ∀ us s, P us s → m.isComplete s = false → P (us ++ [s]) (finalState (m.step s)))
    {n : Nat} {s : State σ} {vs : List (State σ)} {r : Outcome σ Status}
    (h : Execution m n s vs r) {us : List (State σ)} (hs : P us s) :
    P (us ++ vs) (finalState r) := by
  induction h generalizing us with
  | complete hend => simpa using hs
  | suspended hend => simpa using hs
  | @proceed n s t vs r hend hok hrest ih =>
      have ht := hstep us s hs hend
      rw [hok] at ht
      simpa using ih ht
  | breakpoint hend hok =>
      have ht := hstep us _ hs hend
      rw [hok] at ht
      exact ht
  | fail hend herror =>
      have ht := hstep us _ hs hend
      rw [herror] at ht
      exact ht

/-- **Induction over sessions**: what holds at the start and survives steps and edits holds in
every state of a session. -/
theorem Session.induct {C : Cell → Prop} (hstart : ∀ world, P [] (m.start world))
    (hstep : ∀ us s, P us s → m.isComplete s = false → P (us ++ [s]) (finalState (m.step s)))
    (hset : ∀ us s r c, P us s → C c → P us (s.setRegister r c))
    (hheap : ∀ us s call, P us s → P us { s with heap := s.heap.after call })
    {us : List (State σ)} {s : State σ} (h : Session m C us s) : P us s := by
  induction h with
  | start world => exact hstart world
  | execute fuel budget _ hrun ih =>
      exact (execution_iff.mpr ⟨rfl, executeUpTo_of_execute hrun⟩).induct hstep ih
  | setRegister r _ hc ih => exact hset _ _ r _ ih hc
  | callHeap call _ ih => exact hheap _ _ call ih

end Machine

end CellMachine
