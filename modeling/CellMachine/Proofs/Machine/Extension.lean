import CellMachine.Proofs.Machine.StackFrame

/-!
# CellMachine.Proofs.Machine.Extension

Programs can be extended. Bytes appended to a program change nothing of what it
does before it comes to its end: as long as no instruction is cut off there and no
jump leads beyond, the machine takes the same steps with the same results and
faults (`extension_agrees`).

The length of the program is looked at in three places: by the reading of bytes,
by the check of jump targets and by the test for the end. What passes the first two
in a program passes them in every longer one.
-/

namespace CellMachine

/-- Whether a fault says that the program is too short: it ends within an instruction, or a jump
leads outside it. -/
def Fault.isCut : Fault → Bool
  | truncated _ | invalidJump _ => true
  | _ => false

/-- The second action does what the first one does, unless that finds the program too short. -/
abbrev Prolongs {σ α : Type} (x y : EStateM Fault σ α) : Prop :=
  Lockstep (· = ·) (fun e => e.isCut = true) x y

theorem size_le_append (p q : Program) : p.size ≤ (p ++ q).size := by
  rw [Array.size_append]
  omega

/-! ## reading -/

namespace Instr

variable (p q : Program)

theorem prolongs_readByte : Prolongs (readByte p) (readByte (p ++ q)) := by
  rintro ip _ rfl
  unfold readByte
  by_cases hlt : ip < p.size
  · have hlt' : ip < (p ++ q).size := Nat.lt_of_lt_of_le hlt (size_le_append p q)
    rw [dif_pos hlt, dif_pos hlt', Array.getElem_append_left hlt]
    exact ⟨_, rfl, rfl⟩
  · rw [dif_neg hlt]
    exact Or.inl rfl

theorem prolongs_readBytes (n : Nat) : Prolongs (readBytes p n) (readBytes (p ++ q) n) := by
  rintro ip _ rfl
  unfold readBytes
  by_cases hle : ip + n ≤ p.size
  · have hle' : ip + n ≤ (p ++ q).size := Nat.le_trans hle (size_le_append p q)
    have hbytes : (p ++ q).extract ip (ip + n) = p.extract ip (ip + n) := by
      have hnone : q.extract (ip - p.size) (ip + n - p.size) = #[] := by
        rw [Nat.sub_eq_zero_of_le hle]
        simp
      rw [Array.extract_append, hnone, Array.append_empty]
    rw [if_pos hle, if_pos hle', hbytes]
    exact ⟨_, rfl, rfl⟩
  · rw [if_neg hle]
    exact Or.inl rfl

theorem prolongs_readTag : Prolongs (readTag p) (readTag (p ++ q)) := by
  refine .bind (prolongs_readByte p q) fun b => ?_
  cases Tag.ofCode b with
  | ok t => exact .pure t
  | error e => exact .throw e

theorem prolongs_readOpcode : Prolongs (readOpcode p) (readOpcode (p ++ q)) := by
  rintro ip _ rfl
  unfold readOpcode
  by_cases hlt : ip < p.size
  · have hlt' : ip < (p ++ q).size := Nat.lt_of_lt_of_le hlt (size_le_append p q)
    rw [dif_pos hlt, dif_pos hlt', Array.getElem_append_left hlt]
    cases Opcode.ofCode? p[ip] with
    | some o => exact ⟨_, rfl, rfl⟩
    | none => exact Or.inr ⟨_, rfl, rfl⟩
  · rw [dif_neg hlt]
    exact Or.inl rfl

theorem prolongs_readOperands (o : Opcode) :
    Prolongs (readOperands p o) (readOperands (p ++ q) o) := by
  have hbyte := prolongs_readByte p q
  have htag := prolongs_readTag p q
  have hbytes := prolongs_readBytes p q
  cases o with
  | push => exact .bind htag fun t => .bind (hbytes t.width) fun _ => .pure _
  | pushSpan => exact .bind (hbytes 4) fun len => .bind (hbytes (leNat len)) fun _ => .pure _
  | pushType => exact .bind htag fun _ => .pure _
  | pushRegPtr => exact .bind hbyte fun _ => .pure _
  | cast => exact .bind htag fun _ => .pure _
  | store => exact .bind hbyte fun _ => .pure _
  | load => exact .bind hbyte fun _ => .pure _
  | storePtr => exact .bind hbyte fun _ => .pure _
  | loadPtr => exact .bind hbyte fun _ => .bind htag fun _ => .pure _
  | _ => exact .pure _

/-- What is read as an instruction is read in every longer program too. -/
theorem prolongs_decode : Prolongs (decode p) (decode (p ++ q)) :=
  .bind (prolongs_readOpcode p q) (prolongs_readOperands p q)

end Instr

/-! ## jumping -/

/-- A target that lies in a program lies in every longer one. -/
theorem StoreM.prolongs_popTarget {σ : Type} {size size' : Nat} (hle : size ≤ size') :
    Prolongs (popTarget size : StoreM σ Nat) (popTarget size') := by
  refine .bind (.refl popInt) fun n => ?_
  cases n with
  | negSucc k => exact .throw _
  | ofNat k =>
      by_cases hk : k ≤ size
      · simp only [hk, Nat.le_trans hk hle, if_true]
        exact .pure k
      · simp only [hk, if_false]
        exact fun _ _ _ => Or.inl rfl

namespace Machine

variable {σ : Type}

/-- The machine with bytes appended to its program. -/
def extend (m : Machine σ) (q : Program) : Machine σ := { m with program := m.program ++ q }

theorem size_le_extend (m : Machine σ) (q : Program) :
    m.program.size ≤ (m.extend q).program.size :=
  size_le_append m.program q

theorem prolongs_decision (m : Machine σ) (q : Program) (i : Instr) :
    Prolongs (m.decision i) ((m.extend q).decision i) := by
  have htarget := StoreM.prolongs_popTarget (σ := σ) (m.size_le_extend q)
  cases i with
  | jump => exact .bind htarget fun _ => .pure _
  | jumpZero => exact .bind htarget fun _ => .refl _
  | jumpGtZero => exact .bind htarget fun _ => .refl _
  | jumpHistory => exact .bind htarget fun _ => .pure _
  | _ => exact .refl _

theorem follow_extend (m : Machine σ) (q : Program) (next : Next) :
    (m.extend q).follow next = m.follow next := by
  cases next <;> rfl

/-- **One instruction** does the same in every longer program, unless this one is too short. -/
theorem prolongs_step (m : Machine σ) (q : Program) : Prolongs m.step (m.extend q).step := by
  rintro s _ rfl
  have hdecode : Prolongs (Instr.decode m.program) (Instr.decode (m.extend q).program) :=
    Instr.prolongs_decode m.program q
  cases hread : Instr.decode m.program s.ip with
  | error e ip =>
      rw [step_of_unread hread]
      rcases hdecode.error rfl hread with hcut | ⟨_, hread', rfl⟩
      · exact Or.inl hcut
      · exact Or.inr ⟨_, step_of_unread hread', rfl⟩
  | ok i ip =>
      obtain ⟨_, hread', rfl⟩ := hdecode.ok rfl hread
      cases hdecide : m.decision i s.toStore with
      | error e store =>
          rw [step_of_stopped hread hdecide]
          rcases (m.prolongs_decision q i).error rfl hdecide with hcut | ⟨_, hdecide', rfl⟩
          · exact Or.inl hcut
          · exact Or.inr ⟨_, step_of_stopped hread' hdecide', rfl⟩
      | ok next store =>
          obtain ⟨_, hdecide', rfl⟩ := (m.prolongs_decision q i).ok rfl hdecide
          rw [step_of_decided hread hdecide, step_of_decided hread' hdecide', follow_extend]
          exact Lockstep.refl (m.follow next) _ _ rfl

/-! ## runs -/

/-- An instruction that does not find the program too short comes to the same in a longer one. -/
theorem step_extend {m : Machine σ} (q : Program) {s : State σ}
    (hcut : ∀ e t, m.step s = .error e t → e.isCut = false) : (m.extend q).step s = m.step s := by
  cases hstep : m.step s with
  | ok signal t =>
      obtain ⟨_, hstep', rfl⟩ := (m.prolongs_step q).ok rfl hstep
      exact hstep'
  | error e t =>
      rcases (m.prolongs_step q).error rfl hstep with hshort | ⟨_, hstep', rfl⟩
      · rw [hcut e t hstep] at hshort
        contradiction
      · exact hstep'

theorem steps_extend {m : Machine σ} (q : Program) (k : Nat) {s : State σ}
    (hin : ∀ j < k, (m.steps j s).2.ip < m.program.size)
    (hcut : ∀ e, .error e ∈ (m.steps k s).1 → e.isCut = false) :
    (m.extend q).steps k s = m.steps k s ∧ (m.steps k s).1.length = k := by
  induction k generalizing s with
  | zero => exact ⟨rfl, rfl⟩
  | succ k ih =>
      have hip : s.ip < m.program.size := hin 0 (Nat.zero_lt_succ k)
      have hend : m.isComplete s = false := by simpa [isComplete] using hip
      have hend' : (m.extend q).isComplete s = false := by
        have hle := m.size_le_extend q
        simp only [isComplete, decide_eq_false_iff_not]
        omega
      rw [steps_succ hend] at hcut
      have hstep : (m.extend q).step s = m.step s := by
        refine step_extend q fun e t herror => hcut e ?_
        rw [herror]
        exact List.mem_cons_self
      obtain ⟨hsame, hlength⟩ := ih (s := finalState (m.step s))
        (fun j hj => by
          have hj' := hin (j + 1) (Nat.succ_lt_succ hj)
          rwa [steps_succ hend] at hj')
        fun e he => hcut e (List.mem_cons_of_mem _ he)
      rw [steps_succ hend, steps_succ hend', hstep, hsame]
      exact ⟨rfl, by rw [List.length_cons, hlength]⟩

/-- **Programs can be extended**: if a machine takes `k` steps from its start, each from within the
program and none stopped because the program is too short, then with any bytes appended to the
program it takes `k` steps as well, with the same results and faults, and comes to the same state. -/
theorem extension_agrees (m : Machine σ) (q : Program) (world : σ) (k : Nat)
    (hin : ∀ j < k, (m.steps j (m.start world)).2.ip < m.program.size)
    (htruncated : ∀ ip, .error (.truncated ip) ∉ (m.steps k (m.start world)).1)
    (hjump : ∀ target, .error (.invalidJump target) ∉ (m.steps k (m.start world)).1) :
    (m.steps k (m.start world)).1.length = k ∧
      (m.extend q).steps k ((m.extend q).start world) = m.steps k (m.start world) := by
  have hcut : ∀ e, .error e ∈ (m.steps k (m.start world)).1 → e.isCut = false := by
    intro e he
    cases e with
    | truncated ip => exact absurd he (htruncated ip)
    | invalidJump target => exact absurd he (hjump target)
    | _ => rfl
  obtain ⟨hsame, hlength⟩ := steps_extend q k hin hcut
  exact ⟨hlength, hsame⟩

/-- A machine that jumps over a byte which is no opcode and then finds its stack empty. -/
def skipping : Machine Unit where
  program := #[Opcode.push.code, Tag.int.code, 8, 0, 0, 0, Opcode.jump.code, 255, Opcode.discard.code]
  commands := .empty
  settings := { stackCapacity := 8, initialHeapSize := 1 }

theorem extension_agrees_skipping :
    (∀ j < 3, (skipping.steps j (skipping.start ())).2.ip < skipping.program.size) ∧
      (skipping.steps 3 (skipping.start ())).1 =
        [.ok .proceed, .ok .proceed, .error (.stackUnderflow 1 0)] ∧
      (skipping.extend #[Opcode.breakpoint.code]).steps 3
          ((skipping.extend #[Opcode.breakpoint.code]).start ()) =
        skipping.steps 3 (skipping.start ()) := by
  have hin : ∀ j < 3, (skipping.steps j (skipping.start ())).2.ip < skipping.program.size := by
    decide
  have hresults : (skipping.steps 3 (skipping.start ())).1 =
      [.ok .proceed, .ok .proceed, .error (.stackUnderflow 1 0)] := rfl
  exact ⟨hin, hresults,
    (extension_agrees skipping #[Opcode.breakpoint.code] () 3 hin (by simp [hresults])
      (by simp [hresults])).2⟩

end Machine

end CellMachine
