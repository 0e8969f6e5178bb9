import CellMachine.Proofs.Command.Convention

/-!
# CellMachine.Proofs.Command.Marshalling

The types of what a command receives. An argument is read in two steps: the cell
that it stands for is found, and that cell is made into a value of the parameter's
type. `Marshals` lists the three ways in which the second step succeeds, and all
that is known of the type of a value follows from it: an omitted argument gives
the default, and any other argument a value of the declared type
(`Param.Admits`).

* `marshals_of_marshal`, `Marshals.admits` — one argument,
* `receives_of_mem_hostRuns` — whatever the host's part is run with was received
  for cells that lay on the stack,
* `invoke_of_failsWith` — what becomes of a call whose host's part fails.
-/

namespace CellMachine

open StoreM

theorem Value.tag_ofCell? {c : Cell} {v : Value} (h : ofCell? c = some v) : v.tag = c.tag := by
  unfold ofCell? at h
  split at h <;> simp at h
  all_goals
    subst h
    simp only [tag, *]

theorem Value.ne_void_of_ofCell? {c : Cell} {v : Value} (h : ofCell? c = some v) : v ≠ .void := by
  rintro rfl
  have htag : c.tag = .void := (tag_ofCell? h).symm
  simp [ofCell?, htag] at h

/-- What a parameter may receive for the cell that its argument stands for: the default if the
argument is omitted, and otherwise a value of the declared type. -/
def Param.Admits (p : Param) (c : Cell) (v : Value) : Prop :=
  if c.tag = .void then p.default = some v else v ≠ .void ∧ (p.tag = .any ∨ v.tag = p.tag)

namespace Command

variable {σ : Type} {name : String} {index : Nat} {p : Param} {c : Cell} {v : Value}

/-! ## one argument -/

/-- The ways in which a parameter comes by a value for a cell. -/
inductive Marshals (p : Param) (h : Heap) (c : Cell) : Value → Prop
  | omitted {v : Value} (htag : c.tag = .void) (hdefault : p.default = some v) : Marshals p h c v
  | text {ptr : Nat} {text : String}
      (htag : p.tag = .string ∧ (c.tag = .int ∨ c.tag = .string) ∨ p.tag = .any ∧ c.tag = .string)
      (hpointer : c.expectPointer = .ok ptr) (hread : h.readText ptr = .ok text) :
      Marshals p h c (.text text)
  | plain {v : Value} (hvalue : Value.ofCell? c = some v) (htag : p.tag = .any ∨ p.tag = c.tag) :
      Marshals p h c v

theorem textOf_eq_ok {h : Heap} (hv : textOf c h = .ok v) :
    ∃ ptr text, c.expectPointer = .ok ptr ∧ h.readText ptr = .ok text ∧ v = .text text := by
  obtain ⟨ptr, hpointer, hv⟩ := bind_eq_ok hv
  obtain ⟨text, hread, hv⟩ := bind_eq_ok hv
  exact ⟨ptr, text, hpointer, hread, (Except.ok.inj hv).symm⟩

theorem marshals_of_marshal {h : Heap} (hv : marshal name index p c h = .ok v) :
    Marshals p h c v := by
  unfold marshal at hv
  split at hv
  · next htag hdefault => exact .omitted htag (by rw [hdefault, Except.ok.inj hv])
  · split at hv
    · next hstring =>
      obtain ⟨ptr, text, hpointer, hread, rfl⟩ := textOf_eq_ok hv
      exact .text (.inl hstring) hpointer hread
    · split at hv
      · next hany =>
        obtain ⟨ptr, text, hpointer, hread, rfl⟩ := textOf_eq_ok hv
        exact .text (.inr hany) hpointer hread
      · split at hv
        · next w hvalue =>
          split at hv
          · next htag =>
            rw [Except.ok.injEq] at hv
            exact .plain (hv ▸ hvalue) htag
          · contradiction
        · contradiction

theorem Marshals.admits {h : Heap} (hv : Marshals p h c v) : p.Admits c v := by
  unfold Param.Admits
  cases hv with
  | omitted htag hdefault => rwa [if_pos htag]
  | text htag _ _ =>
      have hvoid : c.tag ≠ .void := by grind
      rw [if_neg hvoid]
      exact ⟨nofun, by grind [Value.tag]⟩
  | plain hvalue htag =>
      have hvoid : c.tag ≠ .void := by
        intro hvoid
        simp [Value.ofCell?, hvoid] at hvalue
      rw [if_neg hvoid, Value.tag_ofCell? hvalue]
      exact ⟨Value.ne_void_of_ofCell? hvalue, htag.imp_right Eq.symm⟩

/-- An argument is the value that its parameter receives for the cell it stands for. -/
theorem argument_eq_ok {rs : Registers} {h : Heap} {slot : Option Slot}
    (ha : argument name index p c rs h = .ok (v, slot)) :
    ∃ e, resolve name index p c rs h = .ok (e, slot) ∧ Marshals p h e v := by
  obtain ⟨⟨e, found⟩, hresolve, hrest⟩ := bind_eq_ok ha
  obtain ⟨w, hmarshal, hpair⟩ := bind_eq_ok hrest
  obtain ⟨rfl, rfl⟩ := Prod.mk.inj (Except.ok.inj hpair)
  exact ⟨e, hresolve, marshals_of_marshal hmarshal⟩

/-! ## the arguments of a call -/

variable {cmd : Command σ} {st : Store σ} {args : List Value}

/-- Taking arguments changes the stack only, whatever it comes to. -/
theorem keeps_takeArguments (st₀ : Store σ) (name : String) (index : Nat) (ps : List Param) :
    Keeps (fun st => st = { st₀ with stack := st.stack }) (fun _ => True)
      (takeArguments name index ps) fun _ => True := by
  induction ps generalizing index with
  | nil => exact .pure trivial
  | cons p ps ih =>
      refine .bind (ih (index + 1)) fun rest _ => .bind (Q := fun _ => True) ?_ fun d _ => ?_
      · refine .onStack fun st hst => ?_
        cases st.stack.popCell with
        | ok d stack => exact ⟨trivial, by rw [hst]⟩
        | error e stack => exact ⟨trivial, by rw [hst]⟩
      · exact .bind (.ask (fun _ _ _ _ => trivial) fun _ _ _ _ => trivial) fun _ _ => .pure trivial

theorem hostRuns_of_receives (cmd : Command σ) (st : Store σ) {cells : List Cell}
    {rest : List UInt8} {taken : List (Value × Option Slot)} (hcells : ∀ d ∈ cells, d.WellFormed)
    (hstack : st.stack.toList = rest ++ Cell.encodeAll cells)
    (hreceives : Receives cmd.name st.registers st.heap 0 cmd.params cells taken) :
    cmd.hostRuns st = [taken.map Prod.fst] :=
  have hrecording := invoke_outcome cmd.recording
    ⟨st.stack, st.registers, st.heap, (st.world, [])⟩ hcells hreceives.length_cells hstack
  congrArg Prod.snd (hrecording.world_of_receives hreceives)

/-- Whatever the host's part of a command is run with was received for cells on the stack. -/
theorem receives_of_mem_hostRuns (hargs : args ∈ cmd.hostRuns st) :
    ∃ rest cells taken, (∀ d ∈ cells, d.WellFormed) ∧
      st.stack.toList = rest ++ Cell.encodeAll cells ∧
      Receives cmd.name st.registers st.heap 0 cmd.params cells taken ∧
      args = taken.map Prod.fst ∧ cmd.hostRuns st = [args] := by
  cases htake : takeArguments cmd.name 0 cmd.params
      (⟨st.stack, st.registers, st.heap, (st.world, [])⟩ : Store (σ × List (List Value))) with
  | error e t =>
      have hst := ((keeps_takeArguments ⟨st.stack, st.registers, st.heap, (st.world, [])⟩
        cmd.name 0 cmd.params).error rfl htake).2
      have hask : cmd.recording.request ⟨st.stack, st.registers, st.heap, (st.world, [])⟩ =
          .error e t := bind_run_of_error htake
      rw [hostRuns, invoke_eq, bind_run_of_error hask, finalState_error, hst] at hargs
      simp at hargs
  | ok taken t =>
      obtain ⟨cells, hcells, hstack, hreceives, -⟩ := takeArguments_eq_ok htake
      have hruns := hostRuns_of_receives cmd st hcells hstack hreceives
      rw [hruns, List.mem_singleton] at hargs
      exact ⟨_, cells, taken, hcells, hstack, hreceives, hargs, hargs ▸ hruns⟩

/-- The host's part of the command is run by a call and reports a failure. -/
def FailsWith (cmd : Command σ) (st : Store σ) (e : CommandError) : Prop :=
  ∃ args ∈ cmd.hostRuns st, (cmd.run args st.world).1 = .error e

/-- A failure that the host's part reports ends the call. -/
theorem invoke_of_failsWith {e : CommandError} (h : cmd.FailsWith st e) :
    ∃ t, cmd.invoke st = .error (.commandFailed cmd.name e.message) t := by
  obtain ⟨args, hargs, hrun⟩ := h
  obtain ⟨rest, cells, taken, hcells, hstack, hreceives, rfl, -⟩ := receives_of_mem_hostRuns hargs
  have houtcome := invoke_outcome cmd st hcells hreceives.length_cells hstack
  generalize cmd.invoke st = result at houtcome
  cases houtcome with
  | refused hnone => exact absurd ⟨taken, hreceives⟩ hnone
  | failed hreceives' hrun' =>
      rw [hreceives.unique hreceives', hrun', Except.error.injEq] at hrun
      exact ⟨_, by rw [hrun]⟩
  | answered hreceives' hrun' _ =>
      rw [hreceives.unique hreceives', hrun'] at hrun
      contradiction

end Command

end CellMachine
