import CellMachine.Proofs.Command.Arguments
import Mathlib.Data.List.Induction

/-!
# CellMachine.Proofs.Stack.Order

Cells come off the operand stack in the reverse of the order in which they were
pushed, whatever bytes lie below them. What comes off is the cell as it was
written (`Cell.written`): its tag and its significant bytes, and nothing beyond
them.

* `popCells_of_append` — cells that lie on top come off one by one;
* `peekCell_eq_ok_iff` — the cell that is seen is the one that would be popped;
* `discard_of_dupe` — a cell that was doubled can be dropped again.
-/

namespace CellMachine

namespace Cell

/-- The cell that is left of a cell when it is written out: zero beyond its significant bytes. -/
def written (c : Cell) : Cell := ofBytes c.tag c.bytes

@[simp] theorem tag_written (c : Cell) : c.written.tag = c.tag := rfl

@[simp] theorem bytes_written (c : Cell) : c.written.bytes = c.bytes := by
  have hcut : c.bytes.take c.tag.width = c.bytes := List.take_of_length_le (by simp)
  simp [written, bytes_ofBytes, fitBytes, hcut]

theorem wellFormed_written (c : Cell) : c.written.WellFormed := wellFormed_ofBytes ..

theorem written_of_wellFormed {c : Cell} (hc : c.WellFormed) : c.written = c := ofBytes_bytes hc

@[simp] theorem encode_written (c : Cell) : c.written.encode = c.encode := by
  simp [encode]

end Cell

namespace Stack

variable {s : Stack} {below : List UInt8}

/-- Pushes cells in order. -/
def pushCells (s : Stack) (cs : List Cell) : Stack := cs.foldl pushCell s

/-- Pops `n` cells, the one on top first. -/
def popCells : (n : Nat) → EStateM Fault Stack (List Cell)
  | 0 => return []
  | n + 1 => do
    let c ← popCell
    let cs ← popCells n
    return c :: cs

@[simp] theorem toList_pushCells (s : Stack) (cs : List Cell) :
    (s.pushCells cs).toList = s.toList ++ Cell.encodeAll cs := by
  induction cs generalizing s with
  | nil => simp [pushCells]
  | cons c cs ih =>
      have hrest := ih (s.pushCell c)
      simp only [pushCells, List.foldl_cons] at hrest ⊢
      rw [hrest]
      simp [Cell.encode]

/-- Cells that lie on top come off one by one, the last one first. -/
theorem popCells_of_append (s : Stack) {cs : List Cell}
    (h : s.toList = below ++ Cell.encodeAll cs) :
    ∃ t, popCells cs.length s = .ok (cs.reverse.map Cell.written) t ∧ t.toList = below := by
  -- the cell on top is the last of the list, so the induction takes cells from its end
  induction cs using List.reverseRecOn generalizing s with
  | nil => exact ⟨s, rfl, by simpa using h⟩
  | append_singleton cs c ih =>
      have htop : s.toList = below ++ Cell.encodeAll cs ++ c.written.encode := by simpa using h
      obtain ⟨s₁, hpop, hrest⟩ := popCell_of_append s c.wellFormed_written htop
      obtain ⟨t, hcells, hbelow⟩ := ih s₁ hrest
      refine ⟨t, ?_, hbelow⟩
      rw [List.length_append, List.length_singleton, popCells, bind_run_of_ok hpop,
        bind_run_of_ok hcells, List.reverse_append]
      rfl

/-- The cell that is seen is the one that would be popped. -/
theorem peekCell_eq_ok_iff (s : Stack) (c : Cell) :
    s.peekCell = .ok c ↔ ∃ t, popCell s = .ok c t := by
  constructor
  · intro hpeek
    cases hpop : popCell s with
    | ok d t =>
        rw [peekCell_of_popCell hpop] at hpeek
        exact ⟨t, by rw [Except.ok.inj hpeek]⟩
    | error e t =>
        obtain ⟨e', herror, -⟩ := peekCell_of_popCell_error hpop
        rw [herror] at hpeek
        contradiction
  · rintro ⟨t, hpop⟩
    exact peekCell_of_popCell hpop

end Stack

/-! ## instructions on the cell on top -/

namespace Instr

open StoreM

variable {σ : Type} {st st' : Store σ}

/-- A cell is doubled by pushing what is seen. -/
theorem dupe_eq_ok (h : dupe.act st = .ok () st') :
    ∃ c, st.stack.peekCell = .ok c ∧ st' = { st with stack := st.stack.pushCell c } := by
  obtain ⟨c, st₁, hpeek, hpush⟩ := bind_run_eq_ok h
  cases hcell : st.stack.peekCell with
  | error e =>
      simp only [onStack, hcell] at hpeek
      contradiction
  | ok d =>
      simp only [onStack, hcell] at hpeek
      obtain ⟨rfl, rfl⟩ := EStateM.Result.ok.inj hpeek
      exact ⟨d, rfl, (EStateM.Result.ok.inj hpush).2.symm⟩

/-- A cell that was doubled can be dropped again. -/
theorem discard_of_dupe (h : dupe.act st = .ok () st') :
    ∃ t, discard.act st' = .ok () t ∧ t.stack.toList = st.stack.toList ∧
      t = { st with stack := t.stack } := by
  obtain ⟨c, hpeek, rfl⟩ := dupe_eq_ok h
  obtain ⟨_, hpop⟩ := (st.stack.peekCell_eq_ok_iff c).mp hpeek
  have htop : (st.stack.pushCell c).toList = st.stack.toList ++ c.encode := by simp [Cell.encode]
  obtain ⟨stack, hdrop, hbelow⟩ := pop_of_append { st with stack := st.stack.pushCell c }
    (Stack.popCell_eq_ok hpop).1 htop
  exact ⟨_, bind_run_of_ok hdrop, hbelow, rfl⟩

end Instr

namespace Stack

/-- **Cells come off in reverse order.** On top of any bytes, cells that are pushed in order are
popped in reverse order, each as it was written, and the bytes below are left. Looking at the cell
on top comes to what popping it would: to the same cell, or to a fault of the same kind, of which
only the numbers of an underflow may differ. So a cell that has been doubled can be dropped, and
nothing has changed. -/
theorem last_in_first_out {σ : Type} (s : Stack) :
    (∀ cs, ∃ t, popCells cs.length (s.pushCells cs) = .ok (cs.reverse.map Cell.written) t ∧
      t.toList = s.toList) ∧
    (∀ c : Cell, c.written.tag = c.tag ∧ c.written.bytes = c.bytes ∧ c.written.WellFormed ∧
      (c.WellFormed → c.written = c)) ∧
    (∀ c, s.peekCell = .ok c ↔ ∃ t, popCell s = .ok c t) ∧
    (∀ e t, popCell s = .error e t → ∃ e', s.peekCell = .error e' ∧
      (e' = e ∨ e.isUnderflow = true ∧ e'.isUnderflow = true)) ∧
    ∀ st st' : Store σ, st.stack = s → Instr.dupe.act st = .ok () st' →
      ∃ t, Instr.discard.act st' = .ok () t ∧ t.stack.toList = s.toList ∧
        t = { st with stack := t.stack } := by
  refine ⟨fun cs => popCells_of_append _ (s.toList_pushCells cs), fun c => ?_, s.peekCell_eq_ok_iff,
    fun e t => peekCell_of_popCell_error, ?_⟩
  · exact ⟨c.tag_written, c.bytes_written, c.wellFormed_written, Cell.written_of_wellFormed⟩
  · rintro st st' rfl hdupe
    exact Instr.discard_of_dupe hdupe

/-- A byte whose payload has a bit too many is doubled and dropped on top of a stray byte, and a
`dint` that is cut short is missed in two ways. -/
theorem last_in_first_out_byte :
    (∃ (st st' t : Store Unit), st.stack.toList = [9, 1, Tag.byte.code] ∧
      Instr.dupe.act st = .ok () st' ∧ Instr.discard.act st' = .ok () t ∧
      t.stack.toList = [9, 1, Tag.byte.code]) ∧
    ∃ (s t : Stack) (e : Fault), s.toList = [1, Tag.dint.code] ∧
      popCell s = .error (.stackUnderflow 8 1) t ∧ s.peekCell = .error e ∧ e.isUnderflow = true := by
  constructor
  · obtain ⟨st, st', hbytes, hdupe⟩ : ∃ st st' : Store Unit,
        st.stack.toList = [9, 1, Tag.byte.code] ∧ Instr.dupe.act st = .ok () st' :=
      ⟨⟨((withCapacity 2).pushRaw [9]).pushCell ⟨.byte, 0x101⟩, .new, .new 1, ()⟩, _, by decide, rfl⟩
    obtain ⟨-, -, -, -, hdrop⟩ := last_in_first_out (σ := Unit) st.stack
    obtain ⟨t, hdiscard, hrest, -⟩ := hdrop st st' rfl hdupe
    exact ⟨st, st', t, hbytes, hdupe, hdiscard, hbytes ▸ hrest⟩
  · obtain ⟨-, -, -, hfails, -⟩ :=
      last_in_first_out (σ := Unit) ((withCapacity 2).pushRaw [1, Tag.dint.code])
    obtain ⟨e, hpeek, hkind⟩ := hfails (.stackUnderflow 8 1) _ rfl
    refine ⟨_, _, e, by decide, rfl, hpeek, ?_⟩
    rcases hkind with rfl | ⟨-, hkind⟩
    · rfl
    · exact hkind

end Stack

end CellMachine
