import CellMachine.Proofs.Machine.Session

/-!
# CellMachine.Proofs.Machine.Schedule

How an execution is cut into pieces does not matter. `Ends` says what a machine
comes to if it is executed to the end of its program or the first fault, past
all breakpoints; an execution with any budget leads there (`Execution.ends_iff`),
so every schedule of budgets does, and so does `run`.
-/

namespace CellMachine

namespace Machine

variable {σ : Type} {m : Machine σ} {s t : State σ} {us : List (State σ)} {r : Outcome σ Status}
  {q : Outcome σ Unit} {n fuel : Nat}

/-! ## where executions end -/

/-- What execution past all breakpoints comes to: the end of the program or a fault. -/
inductive Ends (m : Machine σ) : State σ → Outcome σ Unit → Prop
  | complete {s : State σ} (hend : m.isComplete s = true) : Ends m s (.ok () s)
  | fail {s t : State σ} {e : Fault} (hend : m.isComplete s = false)
      (hstep : m.step s = .error e t) : Ends m s (.error e t)
  | next {s t : State σ} {signal : Signal} {q : Outcome σ Unit}
      (hend : m.isComplete s = false) (hstep : m.step s = .ok signal t) (hrest : Ends m t q) :
      Ends m s q

theorem ends_iff_of_complete (hend : m.isComplete s = true) : Ends m s q ↔ q = .ok () s := by
  constructor
  · intro h
    cases h with
    | complete _ => rfl
    | fail hend' _ => rw [hend] at hend'; contradiction
    | next hend' _ _ => rw [hend] at hend'; contradiction
  · rintro rfl
    exact .complete hend

theorem ends_iff_of_error {e : Fault} (hend : m.isComplete s = false)
    (hstep : m.step s = .error e t) : Ends m s q ↔ q = .error e t := by
  constructor
  · intro h
    cases h with
    | complete hend' => rw [hend] at hend'; contradiction
    | fail _ hstep' =>
        obtain ⟨rfl, rfl⟩ := EStateM.Result.error.inj (hstep'.symm.trans hstep)
        rfl
    | next _ hstep' _ => rw [hstep] at hstep'; contradiction
  · rintro rfl
    exact .fail hend hstep

theorem ends_iff_of_ok {signal : Signal} (hend : m.isComplete s = false)
    (hstep : m.step s = .ok signal t) : Ends m s q ↔ Ends m t q := by
  constructor
  · intro h
    cases h with
    | complete hend' => rw [hend] at hend'; contradiction
    | fail _ hstep' => rw [hstep] at hstep'; contradiction
    | next _ hstep' hrest =>
        rw [hstep] at hstep'
        obtain ⟨-, rfl⟩ := EStateM.Result.ok.inj hstep'
        exact hrest
  · exact .next hend hstep

/-- An execution ends in one way only. -/
theorem Ends.unique {q' : Outcome σ Unit} (h : Ends m s q) (h' : Ends m s q') : q = q' := by
  induction h with
  | complete hend => exact ((ends_iff_of_complete hend).mp h').symm
  | fail hend hstep => exact ((ends_iff_of_error hend hstep).mp h').symm
  | next hend hstep _ ih => exact ih ((ends_iff_of_ok hend hstep).mp h')

/-- What the outcome of an execution leads to: it is the end, or execution goes on. -/
def Leads (m : Machine σ) (q : Outcome σ Unit) : Outcome σ Status → Prop
  | .ok .complete t => q = .ok () t
  | .ok _ t => Ends m t q
  | .error e t => q = .error e t

/-- **Cutting an execution** after any number of instructions does not change where it ends. -/
theorem Execution.ends_iff (h : Execution m n s us r) : Ends m s q ↔ Leads m q r := by
  induction h with
  | complete hend => exact ends_iff_of_complete hend
  | suspended hend => exact Iff.rfl
  | proceed hend hstep _ ih => exact (ends_iff_of_ok hend hstep).trans ih
  | breakpoint hend hstep => exact ends_iff_of_ok hend hstep
  | fail hend hstep => exact ends_iff_of_error hend hstep

/-! ## schedules -/

/-- An execution with a budget comes back; one without a limit does if some fuel suffices. -/
def Returns (m : Machine σ) (budget : Nat) (s : State σ) (r : Outcome σ Status) : Prop :=
  ∃ fuel, m.execute fuel budget s = some r

/-- Executions with the budgets of a list, one after another, the last of which completes the
program or fails, while those before it are suspended or meet a breakpoint. -/
inductive Scheduled (m : Machine σ) : List Nat → State σ → Outcome σ Unit → Prop
  | complete {budget : Nat} {s t : State σ} (hrun : Returns m budget s (.ok .complete t)) :
      Scheduled m [budget] s (.ok () t)
  | fail {budget : Nat} {s t : State σ} {e : Fault} (hrun : Returns m budget s (.error e t)) :
      Scheduled m [budget] s (.error e t)
  | resume {budget : Nat} {budgets : List Nat} {s t : State σ} {status : Status}
      {q : Outcome σ Unit} (hrun : Returns m budget s (.ok status t))
      (hstatus : status ≠ .complete) (hrest : Scheduled m budgets t q) :
      Scheduled m (budget :: budgets) s q

theorem Returns.ends_iff {budget : Nat} (h : Returns m budget s r) :
    Ends m s q ↔ Leads m q r := by
  obtain ⟨fuel, hrun⟩ := h
  exact (execution_iff.mpr ⟨rfl, executeUpTo_of_execute hrun⟩).ends_iff

theorem Scheduled.ends {budgets : List Nat} (h : Scheduled m budgets s q) : Ends m s q := by
  induction h with
  | complete hrun => exact hrun.ends_iff.mpr rfl
  | fail hrun => exact hrun.ends_iff.mpr rfl
  | @resume budget budgets s t status q hrun hstatus _ ih =>
      refine hrun.ends_iff.mpr ?_
      cases status with
      | complete => contradiction
      | suspended => exact ih
      | breakpoint => exact ih

/-! ## running to the end -/

/-- More fuel does not change an execution that is not suspended. -/
theorem Execution.succ (h : Execution m n s us r) (hr : ∀ t, r ≠ .ok .suspended t) :
    Execution m (n + 1) s us r := by
  induction h with
  | complete hend => exact .complete hend
  | suspended hend => exact absurd rfl (hr _)
  | proceed hend hstep _ ih => exact .proceed hend hstep (ih hr)
  | breakpoint hend hstep => exact .breakpoint hend hstep
  | fail hend hstep => exact .fail hend hstep

theorem execute_zero_eq_some :
    m.execute fuel 0 s = some r ↔ m.executeUpTo fuel s = r ∧ ∀ t, r ≠ .ok .suspended t := by
  simp only [execute, ne_eq, not_true_eq_false, if_false]
  constructor
  · intro h
    split at h
    · contradiction
    · next hne =>
        obtain rfl := Option.some.inj h
        exact ⟨rfl, hne⟩
  · rintro ⟨rfl, hne⟩
    split
    · next t ht => exact absurd ht (hne t)
    · rfl

theorem execute_zero_succ (h : m.execute fuel 0 s = some r) :
    m.execute (fuel + 1) 0 s = some r := by
  obtain ⟨hup, hr⟩ := execute_zero_eq_some.mp h
  have hsucc := (execution_iff.mpr ⟨rfl, hup⟩).succ hr
  exact execute_zero_eq_some.mpr ⟨(execution_iff.mp hsucc).2, hr⟩

/-- The rest of a run after one execution without a limit has come to an outcome. -/
def runRest (m : Machine σ) (fuel : Nat) : Outcome σ Status → Option (Outcome σ Unit)
  | .ok .complete t => some (.ok () t)
  | .ok _ t => m.run fuel t
  | .error e t => some (.error e t)

theorem run_succ_eq_some :
    m.run (fuel + 1) s = some q ↔
      ∃ r, m.execute fuel 0 s = some r ∧ m.runRest fuel r = some q := by
  rw [run]
  cases hrun : m.execute fuel 0 s with
  | none => simp
  | some r =>
      have hround : (∃ r', some r = some r' ∧ m.runRest fuel r' = some q) ↔
          m.runRest fuel r = some q := by simp
      rw [hround]
      cases r with
      | error e t => exact Iff.rfl
      | ok status t => cases status <;> exact Iff.rfl

/-- A run ends where execution past all breakpoints does. -/
theorem ends_of_run (h : m.run fuel s = some q) : Ends m s q := by
  induction fuel generalizing s with
  | zero => contradiction
  | succ fuel ih =>
      obtain ⟨r, hrun, hrest⟩ := run_succ_eq_some.mp h
      refine (Returns.ends_iff ⟨fuel, hrun⟩).mpr ?_
      cases r with
      | error e t => exact (Option.some.inj hrest).symm
      | ok status t =>
          cases status with
          | complete => exact (Option.some.inj hrest).symm
          | suspended => exact ih hrest
          | breakpoint => exact ih hrest

/-- A round comes to the same with other fuel if the rest of the run does. -/
theorem runRest_mono {fuel' : Nat} (hrun : ∀ t, m.run fuel t = some q → m.run fuel' t = some q)
    (h : m.runRest fuel r = some q) : m.runRest fuel' r = some q := by
  cases r with
  | error e t => exact h
  | ok status t =>
      cases status with
      | complete => exact h
      | suspended => exact hrun t h
      | breakpoint => exact hrun t h

/-- More fuel does not change a run that ended. -/
theorem run_succ (h : m.run fuel s = some q) : m.run (fuel + 1) s = some q := by
  induction fuel generalizing s with
  | zero => contradiction
  | succ fuel ih =>
      obtain ⟨r, hrun, hrest⟩ := run_succ_eq_some.mp h
      have hmore := runRest_mono (fun t ht => ih ht) hrest
      exact run_succ_eq_some.mpr ⟨r, execute_zero_succ hrun, hmore⟩

/-- A run can be begun one step earlier. -/
theorem run_of_step {signal : Signal} (hend : m.isComplete s = false)
    (hstep : m.step s = .ok signal t) (h : m.run fuel t = some q) :
    m.run (fuel + 2) s = some q := by
  cases signal with
  | pause =>
      refine run_succ_eq_some.mpr ⟨.ok .breakpoint t, ?_, run_succ h⟩
      exact execute_zero_eq_some.mpr
        ⟨(execution_iff.mp (.breakpoint hend hstep)).2, fun _ h' => nomatch h'⟩
  | proceed =>
      obtain ⟨r, hrun, hrest⟩ := run_succ_eq_some.mp (run_succ h)
      obtain ⟨hup, hr⟩ := execute_zero_eq_some.mp hrun
      have hexec := Execution.proceed hend hstep (execution_iff.mpr ⟨rfl, hup⟩)
      have hmore := runRest_mono (fun t ht => run_succ ht) hrest
      exact run_succ_eq_some.mpr
        ⟨r, execute_zero_eq_some.mpr ⟨(execution_iff.mp hexec).2, hr⟩, hmore⟩

/-- Where execution past all breakpoints ends, a run does with some fuel. -/
theorem run_of_ends (h : Ends m s q) : ∃ fuel, m.run fuel s = some q := by
  induction h with
  | complete hend => exact ⟨1, by simp [run, execute, executeUpTo, hend]⟩
  | fail hend hstep => exact ⟨2, by simp [run, execute, executeUpTo, hend, hstep]⟩
  | next hend hstep _ ih =>
      obtain ⟨fuel, hrun⟩ := ih
      exact ⟨fuel + 2, run_of_step hend hstep hrun⟩

/-! ## what a suspended execution has done -/

theorem executed_of_execution (h : Execution m n s us r) :
    (finalState r).executed = s.executed + us.length := by
  have hstart : s.executed = s.executed + ([] : List (State σ)).length := rfl
  have hcount := h.induct (P := fun vs t => t.executed = s.executed + vs.length)
    (fun vs t ht _ => by
      rw [executed_step, ht, List.length_append, List.length_singleton, Nat.add_assoc]) hstart
  exact hcount

/-- A breakpoint pauses. -/
theorem step_breakpoint (h : m.program[s.ip]? = some Opcode.breakpoint.code) :
    m.step s = .ok .pause (started s (s.ip + 1)) := by
  have hread : Instr.decode m.program s.ip = .ok .breakpoint (s.ip + 1) :=
    Instr.decode_of_bare rfl h
  rw [step_of_read hread]
  rfl

/-- A suspended execution has used up its budget on instructions that do not pause. -/
theorem Execution.of_suspended (h : Execution m n s us (.ok .suspended t)) :
    us.length = n ∧ m.isComplete t = false ∧
      ∀ u ∈ us, m.program[u.ip]? ≠ some Opcode.breakpoint.code := by
  -- only steps that proceed lead on to a suspension
  generalize hr : EStateM.Result.ok Status.suspended t = r at h
  induction h with
  | complete _ => cases hr
  | suspended hend =>
      obtain ⟨-, rfl⟩ := EStateM.Result.ok.inj hr
      exact ⟨rfl, hend, fun u hu => nomatch hu⟩
  | @proceed n s t' us r hend hstep _ ih =>
      obtain ⟨hlen, hcomplete, hall⟩ := ih hr
      refine ⟨by rw [List.length_cons, hlen], hcomplete, fun u hu => ?_⟩
      rcases List.mem_cons.mp hu with rfl | hu
      · intro hbyte
        rw [step_breakpoint hbyte] at hstep
        cases hstep
      · exact hall u hu
  | breakpoint _ _ => cases hr
  | fail _ _ => cases hr

/-! ## schedule independence -/

/-- **Schedule independence**: two schedules that stop come to the same, which is what a run comes
to. An execution with a positive budget that is suspended has started as many instructions as the
budget says, none of them a breakpoint, and is not at the end. -/
theorem schedules_agree (m : Machine σ) (s : State σ) :
    (∀ budgets budgets' q q', Scheduled m budgets s q → Scheduled m budgets' s q' → q = q') ∧
    (∀ budgets q, Scheduled m budgets s q →
      (∃ fuel, m.run fuel s = some q) ∧ ∀ fuel q', m.run fuel s = some q' → q' = q) ∧
    (∀ fuel budget t, 0 < budget → m.execute fuel budget s = some (.ok .suspended t) →
      (m.startedUpTo budget s).length = budget ∧ t.executed = s.executed + budget ∧
      (∀ u ∈ m.startedUpTo budget s, m.program[u.ip]? ≠ some Opcode.breakpoint.code) ∧
      t.ip < m.program.size) := by
  refine ⟨fun _ _ q q' h h' => h.ends.unique h'.ends, fun _ q h => ⟨run_of_ends h.ends, ?_⟩, ?_⟩
  · intro fuel q' hrun
    exact (ends_of_run hrun).unique h.ends
  · intro fuel budget t hpos hrun
    have hup := executeUpTo_of_execute hrun
    rw [if_neg (Nat.ne_of_gt hpos)] at hup
    have hexec : Execution m budget s (m.startedUpTo budget s) (.ok .suspended t) :=
      execution_iff.mpr ⟨rfl, hup⟩
    obtain ⟨hlen, hcomplete, hall⟩ := hexec.of_suspended
    have hexecuted := executed_of_execution hexec
    rw [hlen] at hexecuted
    refine ⟨hlen, hexecuted, hall, ?_⟩
    simpa [isComplete] using hcomplete

/-- A machine that pauses between two instructions. -/
def pausing : Machine Unit where
  program := #[Opcode.noop.code, Opcode.breakpoint.code, Opcode.noop.code]
  commands := .empty

theorem schedules_agree_pausing :
    ∃ q q' t, Scheduled pausing [1, 1, 1] (pausing.start ()) q ∧
      Scheduled pausing [0, 0] (pausing.start ()) q' ∧ q = q' ∧
      (∃ fuel, pausing.run fuel (pausing.start ()) = some q) ∧
      pausing.execute 0 1 (pausing.start ()) = some (.ok .suspended t) ∧ t.ip < 3 := by
  have hsteps : Scheduled pausing [1, 1, 1] (pausing.start ()) _ :=
    .resume ⟨0, rfl⟩ (by decide) (.resume ⟨0, rfl⟩ (by decide) (.complete ⟨0, rfl⟩))
  have hfree : Scheduled pausing [0, 0] (pausing.start ()) _ :=
    .resume ⟨3, rfl⟩ (by decide) (.complete ⟨3, rfl⟩)
  obtain ⟨hagree, hrun, hsuspended⟩ := schedules_agree pausing (pausing.start ())
  obtain ⟨-, -, -, hip⟩ := hsuspended 0 1 _ (by decide) rfl
  exact ⟨_, _, _, hsteps, hfree, hagree _ _ _ _ hsteps hfree, (hrun _ _ hsteps).1, rfl, hip⟩

end Machine

end CellMachine
