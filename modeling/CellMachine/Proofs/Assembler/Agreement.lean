import CellMachine.Proofs.Assembler.Listing
import CellMachine.Proofs.Machine.Jump
import CellMachine.Proofs.Machine.Session

/-!
# CellMachine.Proofs.Assembler.Agreement

Assembler and machine agree on where instructions begin. Targets travel on the
stack, where a program can leave anything, so the argument rests on where
control can be (`Ready`): at the boundary of two directives, or inside one, and
then, if it is a jump, right behind the push of its target, which is still on
top. Control enters directives at boundaries only: labels and the open calls
stand there.
-/

namespace CellMachine

namespace Directive

/-! ## offsets in a listing -/

/-- An offset at which directives begin or end. -/
def Boundary (ds : List Directive) (offset : Nat) : Prop :=
  ∃ before after, ds = before ++ after ∧ offset = codeSize before

/-- One of the directives, `d`, has the instruction `i` behind its instructions `done`, and it
stands at an offset. -/
def EmittedAt (ds : List Directive) (offset : Nat) (d : Directive) (done : List Instr)
    (i : Instr) : Prop :=
  ∃ before after rest, ds = before ++ d :: after ∧ d.instrs (target ds) = done ++ i :: rest ∧
    offset = codeSize before + (done.flatMap Instr.encode).length

variable {ds : List Directive} {offset : Nat} {d : Directive} {done : List Instr} {i : Instr}

theorem boundary_zero (ds : List Directive) : Boundary ds 0 := ⟨[], ds, rfl, rfl⟩

theorem Boundary.le (h : Boundary ds offset) : offset ≤ codeSize ds := by
  obtain ⟨before, after, rfl, rfl⟩ := h
  rw [codeSize_append]
  exact Nat.le_add_right ..

theorem boundary_of_lastPlace {l n : Nat} (h : lastPlace l ds = some n) : Boundary ds n := by
  obtain ⟨before, after, rfl, -, rfl⟩ := split_of_lastPlace h
  exact ⟨before, place l :: after, rfl, rfl⟩

/-- The directive at a boundary, or the next one that has instructions, begins there. -/
theorem Boundary.emittedAt (h : Boundary ds offset) (hlt : offset < codeSize ds) :
    ∃ d i, EmittedAt ds offset d [] i := by
  obtain ⟨before, after, rfl, rfl⟩ := h
  induction after generalizing before with
  | nil =>
      rw [List.append_nil] at hlt
      exact absurd hlt (Nat.lt_irrefl _)
  | cons d after ih =>
      cases hinstrs : d.instrs (target (before ++ d :: after)) with
      | cons i rest => exact ⟨d, i, before, after, rest, rfl, hinstrs, rfl⟩
      | nil =>
          have hsize : d.size = 0 := by
            rw [← length_bytes (target (before ++ d :: after)), bytes, hinstrs]
            rfl
          have hnext := ih (before ++ [d])
          rw [List.append_assoc, codeSize_append, codeSize_cons, hsize] at hnext
          exact hnext hlt

theorem EmittedAt.mem (h : EmittedAt ds offset d done i) : d ∈ ds := by
  obtain ⟨before, after, rest, rfl, -, -⟩ := h
  exact List.mem_append_right before List.mem_cons_self

theorem EmittedAt.mem_instrs (h : EmittedAt ds offset d done i) : i ∈ d.instrs (target ds) := by
  obtain ⟨before, after, rest, -, hinstrs, -⟩ := h
  rw [hinstrs]
  exact List.mem_append_right done List.mem_cons_self

/-- Behind an instruction there is the next one of the same directive, or a boundary. -/
theorem EmittedAt.next (h : EmittedAt ds offset d done i) :
    Boundary ds (offset + i.encode.length) ∨
      ∃ j, EmittedAt ds (offset + i.encode.length) d (done ++ [i]) j := by
  obtain ⟨before, after, rest, hds, hinstrs, rfl⟩ := h
  cases rest with
  | nil =>
      refine Or.inl ⟨before ++ [d], after, by rw [hds, List.append_assoc]; rfl, ?_⟩
      rw [codeSize_append, codeSize_cons, codeSize_nil, ← length_bytes (target ds), bytes, hinstrs]
      simp [Nat.add_assoc]
  | cons j rest =>
      refine Or.inr ⟨j, before, after, rest, hds, by rw [hinstrs, List.append_assoc]; rfl, ?_⟩
      simp [Nat.add_assoc]

/-- A jump is the push of its target and the instruction that jumps. -/
theorem EmittedAt.jump_cases {kind : JumpKind} {l : Nat}
    (h : EmittedAt ds offset (.jump kind l) done i) :
    (done = [] ∧ i = Assembler.pushInt (target ds l)) ∨
      (done ≠ [] ∧ i = kind.instr ∧ Boundary ds (offset + i.encode.length)) := by
  have hnext := h.next
  obtain ⟨before, after, rest, -, hinstrs, -⟩ := h
  cases done with
  | nil => exact Or.inl ⟨rfl, (List.cons.inj hinstrs).1.symm⟩
  | cons first done =>
      refine Or.inr ⟨List.cons_ne_nil _ _, ?_, hnext.resolve_right ?_⟩
      · have htail := (List.cons.inj hinstrs).2
        cases done with
        | nil => exact (List.cons.inj htail).1.symm
        | cons second done => simp at htail
      · rintro ⟨j, -, -, rest', -, hlonger, -⟩
        have hlen := congrArg List.length hlonger
        simp [instrs] at hlen
        omega

/-- A disciplined directive that is no jump transfers control by `ret` only. -/
theorem isTransfer_of_mem_instrs {target : Nat → Nat} (hd : d.isDisciplined = true)
    (hjump : ¬ ∃ kind l, d = .jump kind l) (hi : i ∈ d.instrs target) :
    i.isTransfer = false ∨ i = .ret := by
  cases d with
  | op o =>
      simp only [isDisciplined, Bool.and_eq_true, Bool.not_eq_true'] at hd
      have hfound := List.find?_some (Option.mem_toList.mp hi)
      obtain rfl := of_decide_eq_true hfound
      obtain ⟨-, hbranch⟩ := hd
      cases i with
      | jump => contradiction
      | jumpZero => contradiction
      | jumpGtZero => contradiction
      | jumpHistory => contradiction
      | ret => exact Or.inr rfl
      | _ => exact Or.inl rfl
  | jump kind l => exact absurd ⟨kind, l, rfl⟩ hjump
  | pushText text scratch =>
      simp only [instrs, Assembler.textInstrs, List.mem_cons, List.not_mem_nil, or_false] at hi
      rcases hi with rfl | rfl | rfl | rfl | rfl | rfl | rfl | rfl | rfl <;> exact Or.inl rfl
  | callHost address =>
      simp only [instrs, List.mem_cons, List.not_mem_nil, or_false] at hi
      rcases hi with rfl | rfl <;> exact Or.inl rfl
  | label => exact absurd hi List.not_mem_nil
  | place l => exact absurd hi List.not_mem_nil
  | _ =>
      obtain rfl := List.mem_singleton.mp hi
      exact Or.inl rfl

end Directive

open Directive

/-! ## laid-out programs -/

theorem Laid.size {ds : List Directive} {p : Program} (h : Laid ds p) : p.size = codeSize ds := by
  have hlen := congrArg List.length h.bytes
  rw [Array.length_toList, length_code] at hlen
  exact hlen

/-- **An emitted instruction is read** where it stands. -/
theorem Laid.decode {ds : List Directive} {p : Program} {offset : Nat} {d : Directive}
    {done : List Instr} {i : Instr} (h : Laid ds p) (hat : EmittedAt ds offset d done i) :
    Instr.decode p offset = .ok i (offset + i.encode.length) := by
  have hsized := h.sized d hat.mem i hat.mem_instrs
  obtain ⟨before, after, rest, hds, hinstrs, rfl⟩ := hat
  have hcode := h.bytes.trans (congrArg (code (target ds)) hds)
  rw [code_append, code_cons, Directive.bytes, hinstrs, List.flatMap_append,
    List.flatMap_cons] at hcode
  have hsplit : p.toList = (code (target ds) before ++ done.flatMap Instr.encode) ++
      (i.encode ++ (rest.flatMap Instr.encode ++ code (target ds) after)) := by
    rw [hcode]
    simp only [List.append_assoc]
  have hlen : (code (target ds) before ++ done.flatMap Instr.encode).length =
      codeSize before + (done.flatMap Instr.encode).length := by
    rw [List.length_append, length_code]
  have hdrop := congrArg (List.drop (codeSize before + (done.flatMap Instr.encode).length)) hsplit
  rw [List.drop_left' hlen] at hdrop
  exact Instr.decode_encode hsized hdrop

/-! ## machines on laid-out programs -/

namespace Machine

variable {σ : Type} {m : Machine σ} {ds : List Directive} {s : State σ}

/-- Control is where directives let it be: at a boundary or inside a directive, in a jump with its
target on top of the stack. The open calls return to boundaries. -/
structure Ready (ds : List Directive) (s : State σ) : Prop where
  calls : ∀ r ∈ s.calls, Boundary ds r
  position : Boundary ds s.ip ∨ ∃ d done i, EmittedAt ds s.ip d done i ∧
    ∀ kind l, d = .jump kind l → s.stack.Holds (target ds l)

/-- The instruction started in state `s` is `i`, which directive `d` emits there. -/
structure Agrees (m : Machine σ) (ds : List Directive) (s : State σ) (d : Directive)
    (i : Instr) : Prop where
  emitted : ∃ done, EmittedAt ds s.ip d done i
  /-- The machine reads the instruction with its operands. -/
  read : Instr.decode m.program s.ip = .ok i (s.ip + i.encode.length)
  /-- A jump that is taken goes to where its label was placed last. -/
  lands : ∀ kind l, d = .jump kind l → i = kind.instr → ∀ signal t, m.step s = .ok signal t →
    if kind.takes s.stack then lastPlace l ds = some t.ip else t.ip = s.ip + i.encode.length
  /-- The step does not fail because control has gone astray. -/
  steady : ∀ e t, m.step s = .error e t → e.isStray = false

namespace Ready

theorem current (h : Ready ds s) (hlt : s.ip < codeSize ds) :
    ∃ d done i, EmittedAt ds s.ip d done i ∧
      (done ≠ [] → ∀ kind l, d = .jump kind l → s.stack.Holds (target ds l)) := by
  rcases h.position with hboundary | ⟨d, done, i, hat, htop⟩
  · obtain ⟨d, i, hat⟩ := hboundary.emittedAt hlt
    exact ⟨d, [], i, hat, fun hne => absurd rfl hne⟩
  · exact ⟨d, done, i, hat, fun _ => htop⟩

/-- A step in a jump. -/
theorem step_jump (hlaid : Laid ds m.program) (h : Ready ds s) {kind : JumpKind} {l : Nat}
    {done : List Instr} {i : Instr} (hat : EmittedAt ds s.ip (.jump kind l) done i)
    (htop : done ≠ [] → s.stack.Holds (target ds l)) :
    Ready ds (finalState (m.step s)) ∧ Agrees m ds s (.jump kind l) i := by
  have hread := hlaid.decode hat
  obtain ⟨hplace, hlt⟩ := hlaid.jumps kind l hat.mem
  have htarget := boundary_of_lastPlace hplace
  rcases hat.jump_cases with ⟨rfl, rfl⟩ | ⟨hdone, rfl, hnext⟩
  · -- the push leaves the target on top, for the jump that comes next
    obtain ⟨t, hstep, hip, hcalls, hholds⟩ := step_of_pushInt hread
    refine ⟨⟨?_, ?_⟩, ⟨⟨_, hat⟩, hread, ?_, ?_⟩⟩
    · rw [hstep]
      exact fun r hr => h.calls r (hcalls ▸ hr)
    · rw [hstep, finalState_ok, hip]
      refine hat.next.imp_right fun ⟨j, hj⟩ => ⟨_, _, j, hj, fun kind' l' heq => ?_⟩
      obtain ⟨rfl, rfl⟩ := Directive.jump.inj heq
      exact hholds
    · intro kind' l' _ heq
      cases kind' <;> contradiction
    · intro e t' herror
      rw [hstep] at herror
      contradiction
  · -- the jump finds it there; taken or not, failed or not, control is at a boundary
    have hle : target ds l ≤ m.program.size := hlaid.size ▸ htarget.le
    obtain ⟨hok, herror, hcalls⟩ := step_of_jump hlt hle (htop hdone) hread
    refine ⟨⟨fun r hr => ?_, Or.inl ?_⟩, ⟨⟨_, hat⟩, hread, ?_, fun e t he => (herror e t he).1⟩⟩
    · rcases hcalls with hcalls | hcalls
      · exact h.calls r (hcalls ▸ hr)
      · rw [hcalls] at hr
        rcases List.mem_cons.mp hr with rfl | hr
        · exact hnext
        · exact h.calls r hr
    · cases hstep : m.step s with
      | ok signal t =>
          rw [finalState_ok, hok signal t hstep]
          split
          · exact htarget
          · exact hnext
      | error e t =>
          rw [finalState_error, (herror e t hstep).2]
          exact hnext
    · intro kind' l' heq _ signal t hstep
      obtain ⟨rfl, rfl⟩ := Directive.jump.inj heq
      rw [hok signal t hstep]
      split
      · exact hplace
      · rfl

/-- A step in a directive that is no jump. -/
theorem step_plain (hlaid : Laid ds m.program) (h : Ready ds s) {d : Directive}
    {done : List Instr} {i : Instr} (hat : EmittedAt ds s.ip d done i)
    (hd : d.isDisciplined = true) (hjump : ¬ ∃ kind l, d = .jump kind l) :
    Ready ds (finalState (m.step s)) ∧ Agrees m ds s d i := by
  have hread := hlaid.decode hat
  have hbehind : ∀ stack : Stack, Boundary ds (s.ip + i.encode.length) ∨
      ∃ d done j, EmittedAt ds (s.ip + i.encode.length) d done j ∧
        ∀ kind l, d = .jump kind l → stack.Holds (target ds l) :=
    fun stack => hat.next.imp_right fun ⟨j, hj⟩ =>
      ⟨d, _, j, hj, fun kind l heq => absurd ⟨kind, l, heq⟩ hjump⟩
  have hlands : ∀ kind l, d = .jump kind l → i = kind.instr → ∀ signal t,
      m.step s = .ok signal t →
      if kind.takes s.stack then lastPlace l ds = some t.ip else t.ip = s.ip + i.encode.length :=
    fun kind l heq => absurd ⟨kind, l, heq⟩ hjump
  rcases isTransfer_of_mem_instrs hd hjump hat.mem_instrs with hi | rfl
  · obtain ⟨hip, hcalls, htame⟩ := step_of_not_transfer hread hi
    refine ⟨⟨fun r hr => h.calls r (hcalls ▸ hr), ?_⟩, ⟨_, hat⟩, hread, hlands, htame⟩
    rw [hip]
    exact hbehind _
  · obtain ⟨hip, hcalls, htame⟩ := step_of_ret hread
    refine ⟨⟨fun r hr => h.calls r (hcalls r hr), ?_⟩, ⟨_, hat⟩, hread, hlands, htame⟩
    rcases hip with hip | hmem
    · rw [hip]
      exact hbehind _
    · exact Or.inl (h.calls _ hmem)

/-- **One step** agrees with the listing and keeps control where it may be. -/
theorem step (hlaid : Laid ds m.program) (hds : ∀ d ∈ ds, d.isDisciplined = true)
    (h : Ready ds s) (hend : m.isComplete s = false) :
    Ready ds (finalState (m.step s)) ∧ ∃ d i, Agrees m ds s d i := by
  have hlt : s.ip < codeSize ds := by
    rw [← hlaid.size]
    simpa [isComplete] using hend
  obtain ⟨d, done, i, hat, htop⟩ := h.current hlt
  by_cases hjump : ∃ kind l, d = .jump kind l
  · obtain ⟨kind, l, rfl⟩ := hjump
    obtain ⟨hready, hagrees⟩ := h.step_jump hlaid hat fun hne => htop hne kind l rfl
    exact ⟨hready, _, _, hagrees⟩
  · obtain ⟨hready, hagrees⟩ := h.step_plain hlaid hat (hds d hat.mem) hjump
    exact ⟨hready, _, _, hagrees⟩

end Ready

/-- **Assembler and machine agree**: in every session on a program assembled from disciplined
directives, whatever is put into registers and done to the heap from outside, each instruction
started is one that a directive emits there. -/
theorem agrees_of_assemble (m : Machine σ) {ds : List Directive}
    (hds : ∀ d ∈ ds, d.isDisciplined = true) (hp : Assembler.assemble ds = .ok m.program)
    {us : List (State σ)} {s : State σ} (h : Session m (fun _ => True) us s) :
    ∀ u ∈ us, ∃ d i, Agrees m ds u d i := by
  have hlaid := Assembler.laid_of_assemble hds hp
  have hrun : Ready ds s ∧ ∀ u ∈ us, ∃ d i, Agrees m ds u d i := by
    refine h.induct (P := fun us s => Ready ds s ∧ ∀ u ∈ us, ∃ d i, Agrees m ds u d i)
      (fun world => ⟨⟨fun _ hr => (nomatch hr), Or.inl (boundary_zero ds)⟩, fun _ hu => (nomatch hu)⟩)
      (fun us s hs hend => ?_) (fun us s r c hs _ => ⟨⟨hs.1.calls, hs.1.position⟩, hs.2⟩)
      fun us s call hs => ⟨⟨hs.1.calls, hs.1.position⟩, hs.2⟩
    obtain ⟨hready, hagrees⟩ := hs.1.step hlaid hds hend
    refine ⟨hready, fun u hu => ?_⟩
    rcases List.mem_append.mp hu with hu | hu
    · exact hs.2 u hu
    · obtain rfl := List.mem_singleton.mp hu
      exact hagrees
  exact hrun.2

/-- Calls a routine that returns at once, and jumps over it. -/
def roundTrip : List Directive :=
  [.label, .label, .jump .call 0, .jump .always 1, .place 0, .op .ret, .place 1]

/-- A machine for the program of `roundTrip`. -/
def roundTripping : Machine Unit where
  program := #[Opcode.push.code, Tag.int.code, 14, 0, 0, 0, Opcode.jumpHistory.code,
    Opcode.push.code, Tag.int.code, 15, 0, 0, 0, Opcode.jump.code, Opcode.ret.code]
  commands := .empty
  settings := { stackCapacity := 8, initialHeapSize := 1 }

theorem agrees_of_assemble_roundTrip :
    Assembler.assemble roundTrip = .ok roundTripping.program ∧
    ∃ us s, Session roundTripping (fun _ => True) us s ∧ us.map (·.ip) = [0, 6, 14, 7, 13] ∧
      ∀ u ∈ us, ∃ d i, Agrees roundTripping roundTrip u d i := by
  have hp : Assembler.assemble roundTrip = .ok roundTripping.program := rfl
  have hlife : Session roundTripping (fun _ => True) _ _ := .execute 0 9 (.start ()) rfl
  exact ⟨hp, _, _, hlife, by decide +kernel,
    agrees_of_assemble roundTripping (by decide) hp hlife⟩

end Machine

end CellMachine
