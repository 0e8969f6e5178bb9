import CellMachine.Proofs.Machine.Decision
import CellMachine.Proofs.Machine.Session

/-!
# CellMachine.Proofs.Machine.Framing

The operand stack is a list of bytes, and nothing in it says where cells begin.
A program that moves whole cells only, without the five opcodes for raw bytes,
still sees a stack of cells all its life, also when it goes on after faults: a
pop that fails has found the stack empty, and no byte of the stack is ever taken
for a tag that it is not.
-/

namespace CellMachine

/-! ## framed stacks -/

namespace Stack

variable {s : Stack}

/-- The bytes of the stack are those of some cells, one after another. -/
def Framed (s : Stack) : Prop :=
  ∃ cells : List Cell, (∀ c ∈ cells, c.WellFormed) ∧ s.toList = Cell.encodeAll cells

theorem framed_withCapacity (capacity : Nat) : (withCapacity capacity).Framed :=
  ⟨[], by simp, by simp⟩

/-- A framed stack is empty, or there is a cell on top of a framed stack. -/
theorem Framed.cases (h : s.Framed) :
    s.toList = [] ∨ ∃ cells c, (∀ d ∈ cells, d.WellFormed) ∧ c.WellFormed ∧
      s.toList = Cell.encodeAll cells ++ Cell.encode c := by
  obtain ⟨cells, hcells, hbytes⟩ := h
  rcases List.eq_nil_or_concat cells with rfl | ⟨below, c, rfl⟩
  · exact Or.inl hbytes
  · simp only [List.concat_eq_append, List.mem_append, List.mem_singleton] at hcells hbytes
    refine Or.inr ⟨below, c, fun d hd => hcells d (Or.inl hd), hcells c (Or.inr rfl), ?_⟩
    rw [hbytes, Cell.encodeAll_append, Cell.encodeAll_cons, Cell.encodeAll_nil, List.append_nil]

/-- A pushed cell is cut to the width of its tag, so it lies on the stack as a well-formed one. -/
theorem Framed.pushCell (h : s.Framed) (c : Cell) : (s.pushCell c).Framed := by
  obtain ⟨cells, hcells, hbytes⟩ := h
  have hcell := Cell.encode_ofBytes (Cell.length_bytes c)
  refine ⟨cells ++ [.ofBytes c.tag c.bytes], ?_, ?_⟩
  · intro d hd
    rcases List.mem_append.mp hd with hd | hd
    · exact hcells d hd
    · rw [List.mem_singleton.mp hd]
      exact Cell.wellFormed_ofBytes _ _
  · simp [hbytes, hcell]

end Stack

/-- The fault is none that bytes on the stack which are no cells would raise: a pop fails only where
nothing is left. -/
def Fault.FitsCells : Fault → Prop
  | stackUnderflow needed available => needed = 1 ∧ available = 0
  | invalidTag _ => False
  | _ => True

theorem Fault.fitsCells_of_isPlain (e : Fault) (h : e.isPlain = true) : e.FitsCells := by
  cases e <;> trivial

/-- Pops of cells leave a framed stack framed. -/
theorem Stack.framed_popCell :
    Keeps Stack.Framed Fault.FitsCells popCell Cell.WellFormed := by
  intro s hs
  rcases hs.cases with hnil | ⟨cells, c, hcells, hc, hbytes⟩
  · rw [popCell_of_nil hnil]
    exact ⟨⟨rfl, rfl⟩, hs⟩
  · obtain ⟨t, hpop, hrest⟩ := popCell_of_append s hc hbytes
    rw [hpop]
    exact ⟨hc, cells, hcells, hrest⟩

theorem Stack.Framed.peekCell {s : Stack} (h : s.Framed) {e : Fault} (he : s.peekCell = .error e) :
    e.FitsCells := by
  rcases h.cases with hnil | ⟨cells, c, -, hc, hbytes⟩
  · rw [peekCell_of_nil hnil] at he
    exact Except.error.inj he ▸ ⟨rfl, rfl⟩
  · rw [peekCell_of_append s hc hbytes] at he
    contradiction

/-! ## instructions that move whole cells -/

/-- The opcodes for raw bytes on the stack. -/
def Opcode.isRaw : Opcode → Bool
  | pushSpan | pushType | discardType | read | write => true
  | _ => false

theorem Instr.isRaw_of_opcode {i : Instr} (hsized : i.Sized) (h : i.opcode.isRaw = false) :
    i.isRaw = false := by
  cases i with
  | push t payload => simpa [isRaw, Sized] using hsized
  | pushSpan | pushType | discardType | read | write => contradiction
  | _ => rfl

namespace Store

variable {σ : Type}

theorem stable_framed : Stable fun st : Store σ => st.stack.Framed where
  setRegister _ _ _ _ hst := hst
  setHeap _ _ _ hst := hst
  setWorld _ _ hst := hst

theorem rules_framed :
    Rules (fun st : Store σ => st.stack.Framed) Fault.FitsCells fun st => st.stack.Framed :=
  .of_stable stable_framed Fault.fitsCells_of_isPlain
    (.ofStack Stack.framed_popCell (fun _ hst => hst) fun _ _ _ hstack => hstack)
    (fun _ _ hst he => hst.peekCell he) (fun _ hst => hst) fun _ c hst => hst.pushCell c

end Store

/-! ## machines that move whole cells -/

namespace Machine

variable {σ : Type} {m : Machine σ}

/-- The instruction that is started in state `s`, if there is one, moves whole cells. -/
def MovesCells (m : Machine σ) (s : State σ) : Prop :=
  ∀ i ip, Instr.decode m.program s.ip = .ok i ip → i.opcode.isRaw = false

/-- A step that moves whole cells leaves a framed stack framed, and its fault, if any, is one of
reading the instruction or fits a stack of cells. -/
theorem framed_step {s : State σ} (hs : s.stack.Framed) (hcells : m.MovesCells s) :
    (finalState (m.step s)).stack.Framed ∧
      ∀ e t, m.step s = .error e t →
        Instr.decode m.program s.ip = .error e t.ip ∨ e.FitsCells := by
  have hdecision : ∀ {i ip}, Instr.decode m.program s.ip = .ok i ip →
      Commits (fun st : Store σ => st.stack.Framed) Fault.FitsCells (m.decision i)
        (Next.Fits m.program.size i) fun st => st.stack.Framed := by
    intro i ip hread
    have hraw := Instr.isRaw_of_opcode (Instr.decode_sound hread).1 (hcells i ip hread)
    refine Store.rules_framed.decision m i (fun h => ?_)
      (fun _ => Store.rules_framed.blocks Store.stable_framed) (fun _ => Store.stable_framed)
      fun _ _ => trivial
    rw [hraw] at h
    contradiction
  generalize hstep : m.step s = r
  cases step_outcome hstep with
  | unread hread =>
      refine ⟨hs, fun e t h => Or.inl ?_⟩
      obtain ⟨rfl, rfl⟩ := EStateM.Result.error.inj h
      exact hread
  | stopped hread hdecide =>
      obtain ⟨hfault, hframed⟩ := (hdecision hread).error hs hdecide
      refine ⟨hframed, fun e t h => Or.inr ?_⟩
      exact (EStateM.Result.error.inj h).1 ▸ hfault
  | decided hread hdecide hfollow =>
      have hframed := ((hdecision hread).ok hs hdecide).2
      cases hfollow with
      | tooDeep | noCall =>
          exact ⟨hframed, fun e t h => Or.inr ((EStateM.Result.error.inj h).1 ▸ trivial)⟩
      | _ => exact ⟨hframed, fun e t h => nomatch h⟩

/-- In a session of instructions that move whole cells, every state has a framed stack. -/
theorem framed_states {C : Cell → Prop} {us : List (State σ)} {s : State σ}
    (h : Session m C us s) (hcells : ∀ u ∈ us, m.MovesCells u) :
    (∀ u ∈ us, u.stack.Framed) ∧ s.stack.Framed := by
  revert hcells
  refine h.induct (P := fun us s => (∀ u ∈ us, m.MovesCells u) →
    (∀ u ∈ us, u.stack.Framed) ∧ s.stack.Framed) ?_ ?_ ?_ ?_
  · exact fun world _ => ⟨by simp, Stack.framed_withCapacity _⟩
  · intro us s ih _ hcells
    simp only [List.mem_append, List.mem_singleton] at hcells ⊢
    obtain ⟨hus, hs⟩ := ih fun u hu => hcells u (Or.inl hu)
    refine ⟨?_, (framed_step hs (hcells s (Or.inr rfl))).1⟩
    rintro u (hu | rfl)
    · exact hus u hu
    · exact hs
  · exact fun us s r c ih _ hcells => ih hcells
  · exact fun us s call ih hcells => ih hcells

/-- **Cell boundaries survive**: in a session of instructions that move whole cells, also past
faults, every state has a stack of cells; a pop fails only where no byte is left, and an invalid tag
is always one that stands in the program. -/
theorem framed_of_session (m : Machine σ) {C : Cell → Prop} {us : List (State σ)} {s : State σ}
    (h : Session m C us s) (hcells : ∀ u ∈ us, m.MovesCells u) :
    (∀ u ∈ us, u.stack.Framed) ∧ s.stack.Framed ∧
      ∀ u ∈ us, ∀ e t, m.step u = .error e t →
        (∀ needed available, e = .stackUnderflow needed available →
          needed = 1 ∧ available = 0) ∧
        ∀ b, e = .invalidTag b →
          Instr.decode m.program u.ip = .error e t.ip ∧ Instr.TagOperandAt m.program u.ip b := by
  obtain ⟨hus, hs⟩ := framed_states h hcells
  refine ⟨hus, hs, fun u hu e t hstep => ?_⟩
  rcases (framed_step (hus u hu) (hcells u hu)).2 e t hstep with hread | hfits
  · have hmisread := Instr.misreads_of_decode hread
    constructor
    · rintro needed available rfl
      exact hmisread.elim
    · rintro b rfl
      exact ⟨hread, hmisread⟩
  · constructor
    · rintro needed available rfl
      exact hfits
    · rintro b rfl
      exact hfits.elim

/-- A machine that pops from an empty stack, pushes a cell and casts it to a tag that is none. -/
def miscasting : Machine Unit where
  program := #[Opcode.discard.code, Opcode.push.code, Tag.byte.code, 7, Opcode.cast.code, 99]
  commands := .empty
  settings := { stackCapacity := 8, initialHeapSize := 1 }

theorem framed_of_session_miscasting :
    ∃ us s, Session miscasting (fun _ => True) us s ∧ (∀ u ∈ us, miscasting.MovesCells u) ∧
      us.map (·.ip) = [0, 1, 4] ∧ s.stack.toList = [7, Tag.byte.code] ∧ s.stack.Framed ∧
      ∀ u ∈ us, ∀ e t, miscasting.step u = .error e t →
        (∀ needed available, e = .stackUnderflow needed available →
          needed = 1 ∧ available = 0) ∧
        ∀ b, e = .invalidTag b → Instr.decode miscasting.program u.ip = .error e t.ip ∧
          Instr.TagOperandAt miscasting.program u.ip b := by
  obtain ⟨us, s, hlife, hips, hstack⟩ : ∃ us s, Session miscasting (fun _ => True) us s ∧
      us.map (·.ip) = [0, 1, 4] ∧ s.stack.toList = [7, Tag.byte.code] :=
    ⟨_, _, .execute 0 5 (.setRegister 3 (.execute 0 5 (.start ()) rfl) (c := .void) trivial) rfl,
      rfl, by decide⟩
  have hmoves : ∀ u : State Unit, u.ip ∈ [0, 1, 4] → miscasting.MovesCells u := by
    intro u hu i ip hread
    simp only [List.mem_cons, List.not_mem_nil, or_false] at hu
    rcases hu with hip | hip | hip
    · rw [hip] at hread
      exact (EStateM.Result.ok.inj hread).1 ▸ rfl
    · rw [hip] at hread
      exact (EStateM.Result.ok.inj hread).1 ▸ rfl
    · rw [hip] at hread
      contradiction
  have hcells : ∀ u ∈ us, miscasting.MovesCells u :=
    fun u hu => hmoves u (hips ▸ List.mem_map_of_mem hu)
  obtain ⟨-, hframed, hfaults⟩ := framed_of_session miscasting hlife hcells
  exact ⟨us, s, hlife, hcells, hips, hstack, hframed, hfaults⟩

end Machine

end CellMachine
