import CellMachine.Proofs.Machine.Step
import CellMachine.Proofs.Rules

/-!
# CellMachine.Proofs.Machine.Decision

What instructions decide. Every instruction makes a store that follows the one
it works on, and the way control goes on fits it: a call is opened only by a
`jumpHistory` and closed only by a `ret`, a pause comes only from a `breakpoint`,
and targets lie in the program or at its end (`keeps_decision`). An instruction
that is no transfer of control also stops by no stray fault (`sound_decision`).
-/

namespace CellMachine

/-- Whether an instruction can send control elsewhere than to the next instruction. -/
def Instr.isTransfer : Instr → Bool
  | jump | jumpZero | jumpGtZero | jumpHistory | ret => true
  | _ => false

/-- The way control goes on fits an instruction of a program of `size` bytes. -/
def Next.Fits (size : Nat) (i : Instr) : Next → Prop
  | .proceed => i ≠ .jumpHistory ∧ i ≠ .ret ∧ i ≠ .breakpoint
  | .pause => i = .breakpoint
  | .jump target => (i = .jump ∨ i = .jumpZero ∨ i = .jumpGtZero) ∧ target ≤ size
  | .call target => i = .jumpHistory ∧ target ≤ size
  | .back => i = .ret
  | .print _ => i = .dbgPrint

section Rules

variable {σ : Type} {I : Store σ → Prop} {F : Fault → Prop} {R : Store σ → Prop}

/-- **An instruction commits** if its effects are allowed, and the way control goes on fits it. -/
theorem OperandRules.decision (h : OperandRules I F R) (m : Machine σ) {i : Instr}
    (hi : Effects i I F R)
    (hcall : i = .callHost → Commits I F m.callCommand (fun _ => True) R)
    (hjump : i.isTransfer = true → ∀ n, F (.invalidJump n)) :
    Commits I F (m.decision i) (Next.Fits m.program.size i) R := by
  cases i with
  | jump =>
      exact .bind (h.popTarget (hjump rfl) _) fun _ hle => .pure ⟨Or.inl rfl, hle⟩ h.done
  | jumpZero =>
      refine .bind (h.popTarget (hjump rfl) _) fun _ hle => .bind h.pop fun c _ => .pure ?_ h.done
      split
      · exact ⟨Or.inr (Or.inl rfl), hle⟩
      · simp [Next.Fits]
  | jumpGtZero =>
      refine .bind (h.popTarget (hjump rfl) _) fun _ hle => .bind h.pop fun c _ => ?_
      refine .bind (h.lift c.tame_isPositive) fun positive _ => .pure ?_ h.done
      split
      · exact ⟨Or.inr (Or.inr rfl), hle⟩
      · simp [Next.Fits]
  | jumpHistory => exact .bind (h.popTarget (hjump rfl) _) fun _ hle => .pure ⟨rfl, hle⟩ h.done
  | ret => exact .pure rfl h.done
  | callHost =>
      exact (hcall rfl).andThen fun _ _ st hst => ⟨_, st, rfl, by simp [Next.Fits], hst⟩
  | dbgPrint =>
      refine .bind h.pop fun c _ => .bind (h.ask fun _ heap => .ok (c.display heap)) fun _ _ => ?_
      exact .pure rfl h.done
  | breakpoint => exact .pure rfl h.done
  | _ => exact (h.act hi).andThen fun _ _ st hst => ⟨_, st, rfl, by simp [Next.Fits], hst⟩

/-- Up to the host's answer, a call of a command only consumes. -/
theorem OperandRules.requestCommand (h : OperandRules I F R) (m : Machine σ) :
    Keeps I F m.request fun _ => True := by
  refine .bind h.popInt fun address _ => ?_
  cases m.commands.get? address with
  | some c => exact .bind (h.request c) fun _ _ => .pure trivial
  | none => exact .throw (h.plain _ rfl)

theorem Rules.callCommand (h : Rules I F R) (hI : Stable I) (m : Machine σ) :
    Commits I F m.callCommand (fun _ => True) R := by
  refine .bind h.popInt fun address _ => ?_
  cases m.commands.get? address with
  | some c => exact h.invoke hI c
  | none => exact .throw (h.plain _ rfl)

/-- **Every instruction commits**, and the way control goes on fits it. -/
theorem Rules.decision (h : Rules I F R) (m : Machine σ) (i : Instr)
    (hraw : i.isRaw = true → RawRules I F R)
    (hblocks : i.changesBlocks = true → BlockRules I R) (hcall : i = .callHost → Stable I)
    (hjump : i.isTransfer = true → ∀ n, F (.invalidJump n)) :
    Commits I F (m.decision i) (Next.Fits m.program.size i) R :=
  h.toOperandRules.decision m (h.effects hraw hblocks) (fun hi => h.callCommand (hcall hi) m) hjump

end Rules

namespace Machine

variable {σ : Type} {st₀ : Store σ}

/-- **An instruction that is no transfer of control** lets control go on in a way that fits it and
stops by no stray fault. -/
theorem sound_decision (m : Machine σ) {i : Instr} (hi : i.isTransfer = false) :
    Commits st₀.Follows (fun e => e.isStray = false) (m.decision i) (Next.Fits m.program.size i)
      st₀.Follows := by
  have hF : ∀ e : Fault, e.isStray = false → e.isStray = false := fun _ he => he
  have hrules : Rules st₀.Follows _ st₀.Follows := Store.rules_follows hF
  have hstable := Store.stable_follows st₀
  exact hrules.decision m i (fun _ => Store.rawRules_follows hF) (fun _ => hrules.blocks hstable)
    (fun _ => hstable) fun htransfer => by rw [hi] at htransfer; contradiction

/-- **Every instruction** makes a store that follows and lets control go on in a way that fits. -/
theorem keeps_decision (m : Machine σ) (i : Instr) :
    Commits st₀.Follows (fun _ => True) (m.decision i) (Next.Fits m.program.size i)
      st₀.Follows := by
  have hF : ∀ e : Fault, e.isStray = false → True := fun _ _ => trivial
  have hrules : Rules st₀.Follows _ st₀.Follows := Store.rules_follows hF
  have hstable := Store.stable_follows st₀
  exact hrules.decision m i (fun _ => Store.rawRules_follows hF) (fun _ => hrules.blocks hstable)
    (fun _ => hstable) fun _ _ => trivial

/-- Whatever a step comes to, the store that it leaves follows. -/
theorem follows_step (m : Machine σ) (s : State σ) :
    s.toStore.Follows (finalState (m.step s)).toStore := by
  generalize hstep : m.step s = r
  cases step_outcome hstep with
  | unread hread => exact .refl _
  | stopped hread hdecide => exact ((m.keeps_decision _).error (.refl _) hdecide).2
  | decided hread hdecide hfollow =>
      have hstore := ((m.keeps_decision _).ok (.refl _) hdecide).2
      cases hfollow <;> exact hstore

end Machine

end CellMachine
