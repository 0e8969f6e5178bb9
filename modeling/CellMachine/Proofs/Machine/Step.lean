import CellMachine.Machine.Step
import CellMachine.Proofs.Instr
import CellMachine.Proofs.Store

/-!
# CellMachine.Proofs.Machine.Step

One instruction in two parts. What it does to the store, and how control goes
on, is its `decision`; the control itself, that is the position, the open calls
and the printed lines, is changed by `follow` alone. `perform_eq` says that this
is what carrying out an instruction amounts to, and `step_outcome` what a step
can come to: it stops while reading, it stops while deciding, or it follows a
decision.

Invariants of steps need to look no further than these three cases.
-/

namespace CellMachine

/-- How control goes on after an instruction has worked on the store. -/
inductive Next where
  /-- With the instruction that comes next. -/
  | proceed
  | pause
  | jump (target : Nat)
  /-- At a target, to come back later. -/
  | call (target : Nat)
  /-- Where the innermost open call came from. -/
  | back
  /-- With the instruction that comes next, after printing a line. -/
  | print (line : String)

/-- What an action on a state comes to. -/
abbrev Outcome (σ α : Type) := EStateM.Result Fault (State σ) α

namespace Machine

open StoreM

variable {σ α β : Type}

/-- What an instruction does to the store, and how control goes on. -/
def decision (m : Machine σ) : Instr → StoreM σ Next
  | .jump => do
    let target ← popTarget m.program.size
    return .jump target
  | .jumpZero => do
    let target ← popTarget m.program.size
    let c ← pop
    return if c.isZero then .jump target else .proceed
  | .jumpGtZero => do
    let target ← popTarget m.program.size
    let c ← pop
    let positive ← lift c.isPositive
    return if positive then .jump target else .proceed
  | .jumpHistory => do
    let target ← popTarget m.program.size
    return .call target
  | .ret => return .back
  | .callHost => do
    m.callCommand
    return .proceed
  | .dbgPrint => do
    let c ← pop
    let line ← ask fun _ h => .ok (c.display h)
    return .print line
  | .breakpoint => return .pause
  | i => do
    i.act
    return .proceed

/-- Lets control go on. -/
def follow (m : Machine σ) : Next → MachineM σ Signal
  | .proceed => return .proceed
  | .pause => return .pause
  | .jump target => do
    goTo target
    return .proceed
  | .call target => do
    m.openCall target
    return .proceed
  | .back => do
    closeCall
    return .proceed
  | .print line => do
    print line
    return .proceed

/-! ## working on the store of a state -/

theorem onStore_of_ok {act : StoreM σ α} {s : State σ} {a : α} {store : Store σ}
    (h : act s.toStore = .ok a store) : onStore act s = .ok a { s with toStore := store } := by
  obtain ⟨st, ip, current, calls, printed, executed⟩ := s
  simp only at h
  simp only [onStore, h]

theorem onStore_of_error {act : StoreM σ α} {s : State σ} {e : Fault} {store : Store σ}
    (h : act s.toStore = .error e store) :
    onStore act s = .error e { s with toStore := store } := by
  obtain ⟨st, ip, current, calls, printed, executed⟩ := s
  simp only at h
  simp only [onStore, h]

@[simp] theorem onStore_pure (a : α) : (onStore (pure a) : MachineM σ α) = pure a := rfl

@[simp] theorem onStore_bind (x : StoreM σ α) (f : α → StoreM σ β) :
    onStore (x >>= f) = (onStore x >>= fun a => onStore (f a) : MachineM σ β) := by
  funext s
  cases hx : x s.toStore with
  | ok a store =>
      rw [bind_run_of_ok (onStore_of_ok hx)]
      have hbind : (x >>= f) s.toStore = f a store := bind_run_of_ok hx
      cases hf : f a store with
      | ok b store' => rw [onStore_of_ok (hbind.trans hf), onStore_of_ok hf]
      | error e store' => rw [onStore_of_error (hbind.trans hf), onStore_of_error hf]
  | error e store =>
      have hbind : (x >>= f) s.toStore = .error e store := bind_run_of_error hx
      rw [onStore_of_error hbind, bind_run_of_error (onStore_of_error hx)]

/-- **Carrying out an instruction** is deciding on the store and following the decision. -/
theorem perform_eq (m : Machine σ) (i : Instr) :
    m.perform i = onStore (m.decision i) >>= m.follow := by
  cases i with
  | jumpZero =>
      simp only [perform, decision, onStore_bind, onStore_pure, bind_assoc, pure_bind]
      congr 1; funext target; congr 1; funext c
      by_cases hz : c.isZero
      · simp [hz, follow]
      · simp [hz, follow]
  | jumpGtZero =>
      simp only [perform, decision, onStore_bind, onStore_pure, bind_assoc, pure_bind]
      congr 1; funext target; congr 1; funext c; congr 1; funext positive
      cases positive <;> simp [follow]
  | _ =>
      simp only [perform, decision, onStore_bind, onStore_pure, bind_assoc, pure_bind]
      rfl

/-! ## what a step can come to -/

/-- What following a decision can come to. -/
inductive FollowOutcome (m : Machine σ) (s : State σ) :
    Next → Outcome σ Signal → Prop
  | proceed : FollowOutcome m s .proceed (.ok .proceed s)
  | pause : FollowOutcome m s .pause (.ok .pause s)
  | jump (target : Nat) : FollowOutcome m s (.jump target) (.ok .proceed { s with ip := target })
  | call (target : Nat) (hdepth : s.calls.length < m.settings.maxCallDepth) :
      FollowOutcome m s (.call target)
        (.ok .proceed { s with calls := s.ip :: s.calls, ip := target })
  | tooDeep (target : Nat) (hdepth : m.settings.maxCallDepth ≤ s.calls.length) :
      FollowOutcome m s (.call target) (.error (.callDepthExceeded m.settings.maxCallDepth) s)
  | back {r : Nat} {rest : List Nat} (hcalls : s.calls = r :: rest) :
      FollowOutcome m s .back (.ok .proceed { s with calls := rest, ip := r })
  | noCall (hcalls : s.calls = []) : FollowOutcome m s .back (.error .returnWithoutCall s)
  | print (line : String) :
      FollowOutcome m s (.print line) (.ok .proceed { s with printed := line :: s.printed })

theorem follow_outcome (m : Machine σ) (s : State σ) (next : Next) :
    FollowOutcome m s next (m.follow next s) := by
  cases next with
  | proceed => exact .proceed
  | pause => exact .pause
  | jump target => exact .jump target
  | call target =>
      by_cases hdepth : s.calls.length ≥ m.settings.maxCallDepth
      · have hopen : m.openCall target s =
            .error (.callDepthExceeded m.settings.maxCallDepth) s := if_pos hdepth
        rw [follow, bind_run_of_error hopen]
        exact .tooDeep target hdepth
      · have hopen : m.openCall target s =
            .ok () { s with calls := s.ip :: s.calls, ip := target } := if_neg hdepth
        rw [follow, bind_run_of_ok hopen]
        exact .call target (Nat.lt_of_not_ge hdepth)
  | back =>
      cases hcalls : s.calls with
      | nil =>
          have hclose : closeCall s = .error .returnWithoutCall s := by simp only [closeCall, hcalls]
          rw [follow, bind_run_of_error hclose]
          exact .noCall hcalls
      | cons r rest =>
          have hclose : closeCall s = .ok () { s with calls := rest, ip := r } := by
            simp only [closeCall, hcalls]
          rw [follow, bind_run_of_ok hclose]
          exact .back hcalls
  | print line => exact .print line

/-- The state once an instruction has been started and read up to position `ip`. -/
def started (s : State σ) (ip : Nat) : State σ :=
  { s with executed := s.executed + 1, current := s.ip, ip := ip }

/-- What a step from `s` can come to. -/
inductive StepOutcome (m : Machine σ) (s : State σ) :
    Outcome σ Signal → Prop
  /-- There is no instruction. -/
  | unread {e : Fault} {ip : Nat} (hread : Instr.decode m.program s.ip = .error e ip) :
      StepOutcome m s (.error e (started s ip))
  /-- The instruction stops while it works on the store. -/
  | stopped {i : Instr} {ip : Nat} {e : Fault} {store : Store σ}
      (hread : Instr.decode m.program s.ip = .ok i ip)
      (hdecide : m.decision i s.toStore = .error e store) :
      StepOutcome m s (.error e { started s ip with toStore := store })
  /-- Control goes on as the instruction says. -/
  | decided {i : Instr} {ip : Nat} {next : Next} {store : Store σ}
      {r : Outcome σ Signal}
      (hread : Instr.decode m.program s.ip = .ok i ip)
      (hdecide : m.decision i s.toStore = .ok next store)
      (hfollow : FollowOutcome m { started s ip with toStore := store } next r) :
      StepOutcome m s r

theorem step_of_read {m : Machine σ} {s : State σ} {i : Instr} {ip : Nat}
    (hread : Instr.decode m.program s.ip = .ok i ip) : m.step s = m.perform i (started s ip) := by
  have hfetch : m.fetch (started s s.ip) = .ok i (started s ip) := by
    simp only [fetch, started, hread]
  change (m.fetch >>= m.perform) (started s s.ip) = _
  exact bind_run_of_ok hfetch

theorem step_of_unread {m : Machine σ} {s : State σ} {e : Fault} {ip : Nat}
    (hread : Instr.decode m.program s.ip = .error e ip) : m.step s = .error e (started s ip) := by
  have hfetch : m.fetch (started s s.ip) = .error e (started s ip) := by
    simp only [fetch, started, hread]
  change (m.fetch >>= m.perform) (started s s.ip) = _
  exact bind_run_of_error hfetch

theorem step_of_decided {m : Machine σ} {s : State σ} {i : Instr} {ip : Nat} {next : Next}
    {store : Store σ} (hread : Instr.decode m.program s.ip = .ok i ip)
    (hdecide : m.decision i s.toStore = .ok next store) :
    m.step s = m.follow next { started s ip with toStore := store } := by
  have hstore : onStore (m.decision i) (started s ip) =
      .ok next { started s ip with toStore := store } := onStore_of_ok hdecide
  rw [step_of_read hread, perform_eq, bind_run_of_ok hstore]

theorem step_of_stopped {m : Machine σ} {s : State σ} {i : Instr} {ip : Nat} {e : Fault}
    {store : Store σ} (hread : Instr.decode m.program s.ip = .ok i ip)
    (hdecide : m.decision i s.toStore = .error e store) :
    m.step s = .error e { started s ip with toStore := store } := by
  have hstore : onStore (m.decision i) (started s ip) =
      .error e { started s ip with toStore := store } := onStore_of_error hdecide
  rw [step_of_read hread, perform_eq, bind_run_of_error hstore]

theorem step_outcome {m : Machine σ} {s : State σ} {r : Outcome σ Signal}
    (h : m.step s = r) : StepOutcome m s r := by
  subst h
  cases hread : Instr.decode m.program s.ip with
  | error e ip =>
      rw [step_of_unread hread]
      exact .unread hread
  | ok i ip =>
      cases hdecide : m.decision i s.toStore with
      | error e store =>
          rw [step_of_stopped hread hdecide]
          exact .stopped hread hdecide
      | ok next store =>
          rw [step_of_decided hread hdecide]
          exact .decided hread hdecide (m.follow_outcome _ next)

/-- A step counts as one, whatever it comes to. -/
theorem executed_step (m : Machine σ) (s : State σ) :
    (finalState (m.step s)).executed = s.executed + 1 := by
  generalize hstep : m.step s = r
  cases step_outcome hstep with
  | unread _ => rfl
  | stopped _ _ => rfl
  | decided _ _ hfollow => cases hfollow <;> rfl

end Machine

end CellMachine
