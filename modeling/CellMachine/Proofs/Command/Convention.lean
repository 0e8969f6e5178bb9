import CellMachine.Proofs.Command.Settling

/-!
# CellMachine.Proofs.Command.Convention

The calling convention of host commands as a caller sees it. The arguments lie on
the stack, the first one at the bottom. If each of them is received by its
parameter, the host's part runs, once, with the values received; otherwise it does
not run. A call that succeeds has replaced the arguments on the stack by the
result and has put into each register that an argument refers to what the host
left for the last such argument.
-/

namespace CellMachine

namespace Command

open StoreM

variable {σ : Type}

/-! ## runs of the host's part -/

/-- The command that also keeps a list of the arguments its host's part was run with. -/
def recording (c : Command σ) : Command (σ × List (List Value)) where
  name := c.name
  params := c.params
  returns := c.returns
  run args world := ((c.run args world.1).1, (c.run args world.1).2, world.2 ++ [args])

/-- The arguments of the runs of the host's part that a call makes, in order. -/
def hostRuns (c : Command σ) (st : Store σ) : List (List Value) :=
  (finalState (c.recording.invoke ⟨st.stack, st.registers, st.heap, (st.world, [])⟩)).world.2

/-! ## what a call can come to -/

/-- The three ways of a call of `c` in store `st` with the arguments `cells` on top of `rest`. -/
inductive CallOutcome (c : Command σ) (st : Store σ) (rest : List UInt8) (cells : List Cell) :
    EStateM.Result Fault (Store σ) Unit → Prop
  /-- Some argument is not received. -/
  | refused {e : Fault} {stack : Stack}
      (hnone : ¬ ∃ taken, Receives c.name st.registers st.heap 0 c.params cells taken) :
      CallOutcome c st rest cells (.error e { st with stack := stack })
  /-- The host's part fails. -/
  | failed {taken : List (Value × Option Slot)} {e : CommandError} {stack : Stack} {world : σ}
      (hreceives : Receives c.name st.registers st.heap 0 c.params cells taken)
      (hrun : c.run (taken.map Prod.fst) st.world = (.error e, world)) :
      CallOutcome c st rest cells
        (.error (.commandFailed c.name e.message) { st with stack := stack, world := world })
  /-- The host answers, and the answer is settled. -/
  | answered {x : Exchange} {stack : Stack} {world : σ}
      (hreceives : Receives c.name st.registers st.heap 0 c.params cells x.taken)
      (hrun : c.run (x.taken.map Prod.fst) st.world = (.ok x.reply, world))
      (hstack : stack.toList = rest) :
      CallOutcome c st rest cells (c.settle x { st with stack := stack, world := world })

section Outcome

variable {c : Command σ} {st : Store σ} {rest : List UInt8} {cells : List Cell}
  {r : EStateM.Result Fault (Store σ) Unit}

theorem invoke_outcome (c : Command σ) (st : Store σ) (hcells : ∀ d ∈ cells, d.WellFormed)
    (hcount : cells.length = c.params.length)
    (hstack : st.stack.toList = rest ++ Cell.encodeAll cells) :
    CallOutcome c st rest cells (c.invoke st) := by
  rw [c.invoke_eq]
  rcases takeArguments_of_append c.name 0 hcells hcount hstack with
    ⟨taken, stack, hreceives, htake, hrest⟩ | ⟨hnone, e, stack, htake⟩
  · cases hrun : c.run (taken.map Prod.fst) st.world with
    | mk answer world =>
    cases answer with
    | error e =>
        have hask : c.request st = .error (.commandFailed c.name e.message)
            { st with stack := stack, world := world } := by
          rw [request, bind_run_of_ok htake]
          exact bind_run_of_error (callHost_of_error hrun)
        rw [bind_run_of_error hask]
        exact .failed hreceives hrun
    | ok reply =>
        have hask : c.request st = .ok ⟨taken, reply⟩
            { st with stack := stack, world := world } := by
          rw [request, bind_run_of_ok htake]
          exact bind_run_of_ok (callHost_of_ok hrun)
        rw [bind_run_of_ok hask]
        exact .answered (x := ⟨taken, reply⟩) hreceives hrun hrest
  · have hask : c.request st = .error e { st with stack := stack } := bind_run_of_error htake
    rw [bind_run_of_error hask]
    exact .refused hnone

/-- Settling changes no more than the places of reference arguments, whatever it comes to. -/
theorem settles_final (c : Command σ) (x : Exchange) (st : Store σ) :
    Settles x.Writes x.Names { st with stack := (finalState (c.settle x st)).stack }
      (finalState (c.settle x st)) := by
  cases h : c.settle x st with
  | ok u t => exact ((commits_settle c x).ok (.refl st) h).2.settles
  | error e t =>
      obtain ⟨-, hst⟩ := (commits_settle c x).error (.refl st) h
      exact ⟨rfl, hst.world, hst.registers, hst.heap⟩

/-- The host's part has changed the world if the arguments were received. -/
theorem CallOutcome.world_of_receives (h : CallOutcome c st rest cells r)
    {taken : List (Value × Option Slot)}
    (hreceives : Receives c.name st.registers st.heap 0 c.params cells taken) :
    (finalState r).world = (c.run (taken.map Prod.fst) st.world).2 := by
  cases h with
  | refused hnone => exact absurd ⟨taken, hreceives⟩ hnone
  | failed hreceives' hrun =>
      rw [hreceives.unique hreceives', hrun]
      rfl
  | @answered x stack world hreceives' hrun _ =>
      rw [hreceives.unique hreceives', hrun]
      exact (settles_final c x { st with stack := stack, world := world }).world

theorem CallOutcome.world_of_refused (h : CallOutcome c st rest cells r)
    (hnone : ¬ ∃ taken, Receives c.name st.registers st.heap 0 c.params cells taken) :
    (finalState r).world = st.world ∧ ∃ e t, r = .error e t := by
  cases h with
  | refused => exact ⟨rfl, _, _, rfl⟩
  | failed hreceives => exact absurd ⟨_, hreceives⟩ hnone
  | answered hreceives => exact absurd ⟨_, hreceives⟩ hnone

/-! ## registers -/

/-- The values for a register are stored exactly where an argument refers to it. -/
theorem Receives.slot_eq_register_iff {name : String} {rs : Registers} {h : Heap}
    {ps : List Param} {taken : List (Value × Option Slot)} (hcells : ∀ d ∈ cells, d.WellFormed)
    (hreceives : Receives name rs h 0 ps cells taken) {i : Nat} {u : Value} {slot : Option Slot}
    (hi : taken[i]? = some (u, slot)) (r : UInt8) :
    slot = some (.register r) ↔ cells[i]? = some (.registerRef r) := by
  obtain ⟨p, d, -, hd, harg⟩ := hreceives.argument_eq hi
  rw [hd, Option.some.injEq, Command.slot_eq_register_iff harg,
    Cell.eq_registerRef_iff (hcells d (List.mem_of_getElem? hd))]

theorem Receives.taken_of_registerRef {name : String} {rs : Registers} {h : Heap}
    {ps : List Param} {taken : List (Value × Option Slot)} (hcells : ∀ d ∈ cells, d.WellFormed)
    (hreceives : Receives name rs h 0 ps cells taken) {i : Nat} {r : UInt8}
    (hi : cells[i]? = some (.registerRef r)) :
    ∃ v, taken[i]? = some (v, some (.register r)) := by
  have hlt : i < taken.length := by
    rw [hreceives.length_eq]
    exact (List.getElem?_eq_some_iff.mp hi).1
  obtain ⟨⟨v, slot⟩, hv⟩ : ∃ a, taken[i]? = some a := ⟨_, List.getElem?_eq_getElem hlt⟩
  obtain rfl := (hreceives.slot_eq_register_iff hcells hv r).mpr hi
  exact ⟨v, hv⟩

/-- An argument refers to every register that is stored to. -/
theorem Receives.mem_of_names {name : String} {rs : Registers} {h : Heap} {ps : List Param}
    {x : Exchange} (hcells : ∀ d ∈ cells, d.WellFormed)
    (hreceives : Receives name rs h 0 ps cells x.taken) {q : UInt8} (hq : x.Names q) :
    .registerRef q ∈ cells := by
  obtain ⟨v, hv⟩ := hq
  obtain ⟨i, hi⟩ := List.getElem?_of_mem hv
  obtain ⟨⟨u, hu⟩, -⟩ := Exchange.getElem?_slots.mp hi
  exact List.mem_of_getElem? ((hreceives.slot_eq_register_iff hcells hu q).mp rfl)

/-- A register that no argument refers to keeps its cell, also if the call fails. -/
theorem CallOutcome.register_of_not_mem (h : CallOutcome c st rest cells r)
    (hcells : ∀ d ∈ cells, d.WellFormed) {q : UInt8} (hq : .registerRef q ∉ cells) :
    (finalState r).registers.load q = st.registers.load q := by
  cases h with
  | refused => rfl
  | failed => rfl
  | @answered x stack world hreceives _ _ =>
      exact (settles_final c x { st with stack := stack, world := world }).registers q
        fun hnames => hq (hreceives.mem_of_names hcells hnames)

end Outcome

/-! ## the convention -/

/-- **The calling convention**, for a call with the arguments `cells` on top of `rest`.

The host's part runs exactly if every argument is received by its parameter in the store as it is
before the call; it runs once, with the values received. A register that no argument refers to keeps
its cell. If the call succeeds, then `rest` is left on the stack, with the result on top unless
there is none; and a register holds what the host left for the last argument that refers to it. -/
theorem invoke_convention (c : Command σ) (st : Store σ) {rest : List UInt8} {cells : List Cell}
    (hcells : ∀ d ∈ cells, d.WellFormed) (hcount : cells.length = c.params.length)
    (hstack : st.stack.toList = rest ++ Cell.encodeAll cells) :
    (∀ taken, Receives c.name st.registers st.heap 0 c.params cells taken →
      c.hostRuns st = [taken.map Prod.fst] ∧
        (finalState (c.invoke st)).world = (c.run (taken.map Prod.fst) st.world).2) ∧
    ((¬ ∃ taken, Receives c.name st.registers st.heap 0 c.params cells taken) →
      c.hostRuns st = [] ∧ (finalState (c.invoke st)).world = st.world ∧
        ∃ e t, c.invoke st = .error e t) ∧
    (∀ r, .registerRef r ∉ cells →
      (finalState (c.invoke st)).registers.load r = st.registers.load r) ∧
    ∀ t, c.invoke st = .ok () t → ∃ x : Exchange,
      Receives c.name st.registers st.heap 0 c.params cells x.taken ∧
      c.run (x.taken.map Prod.fst) st.world = (.ok x.reply, t.world) ∧
      (c.returns = .void → t.stack.toList = rest) ∧
      (c.returns ≠ .void → ∃ d : Cell, d.WellFormed ∧
        d.tag = (if c.returns = .any then x.reply.result.tag else c.returns) ∧
        t.stack.toList = rest ++ d.encode) ∧
      ∀ (r : UInt8) (i : Nat) (v : Value), cells[i]? = some (.registerRef r) →
        (∀ j, i < j → cells[j]? ≠ some (.registerRef r)) → x.reply.final[i]? = some v →
        (t.registers.load r).tag = v.tag ∧
          v.StoredAs x.Writes st.heap (t.registers.load r) t.heap := by
  have houtcome := invoke_outcome c st hcells hcount hstack
  have hrecording := invoke_outcome c.recording
    ⟨st.stack, st.registers, st.heap, (st.world, [])⟩ hcells hcount hstack
  refine ⟨fun taken hreceives => ⟨?_, houtcome.world_of_receives hreceives⟩, fun hnone => ?_,
    fun r hr => houtcome.register_of_not_mem hcells hr, fun t hok => ?_⟩
  · exact congrArg Prod.snd (hrecording.world_of_receives hreceives)
  · exact ⟨congrArg Prod.snd (hrecording.world_of_refused hnone).1,
      houtcome.world_of_refused hnone⟩
  · rw [hok] at houtcome
    generalize hr : (EStateM.Result.ok () t : EStateM.Result Fault (Store σ) Unit) = r at houtcome
    cases houtcome with
    | refused => contradiction
    | failed => contradiction
    | @answered x stack world hreceives hrun hrest =>
        have hdelivered := ((commits_settle c x).ok (.refl _) hr.symm).2
        refine ⟨x, hreceives, ?_, fun hvoid => ?_, fun hresult => ?_, ?_⟩
        · rw [hrun, hdelivered.settles.world]
        · rw [hdelivered.void hvoid, hrest]
        · obtain ⟨d, htag, hpushed⟩ := hdelivered.pushed hresult
          refine ⟨.ofBytes d.tag d.bytes, Cell.wellFormed_ofBytes _ _, htag, ?_⟩
          rw [hpushed, Stack.toList_pushCell, Cell.encode_ofBytes (Cell.length_bytes d), hrest,
            List.append_assoc]
        · intro q i v hi hlast hv
          have hlt : i < x.taken.length := by
            rw [hreceives.length_eq]
            exact (List.getElem?_eq_some_iff.mp hi).1
          obtain ⟨⟨u, slot⟩, hu⟩ : ∃ a, x.taken[i]? = some a := ⟨_, List.getElem?_eq_getElem hlt⟩
          obtain rfl := (hreceives.slot_eq_register_iff hcells hu q).mpr hi
          have hslot := Exchange.getElem?_slots.mpr ⟨⟨u, hu⟩, hv⟩
          have hstored := storedAs_settle hr.symm hslot fun j w hj hw => by
            obtain ⟨⟨u', hu'⟩, -⟩ := Exchange.getElem?_slots.mp hw
            exact hlast j hj ((hreceives.slot_eq_register_iff hcells hu' q).mp rfl)
          exact ⟨hstored.tag_eq, hstored⟩

/-- A command that leaves a number for its first argument and a text for its second. -/
def marking : Command Unit where
  name := "mark"
  params := [{ tag := .int }, { tag := .int }]
  returns := .int
  run args world := (.ok {
    result := .byte 5
    final := (args.set 0 (.int 1)).set 1 (.text "a")
    length_final := by simp }, world)

/-- Both arguments refer to register 3, and the text counts. -/
theorem invoke_convention_marking :
    ∃ (st t : Store Unit) (x : Exchange),
      (∀ d ∈ [Cell.registerRef 3, .registerRef 3], d.WellFormed) ∧
      st.stack.toList = [9] ++ Cell.encodeAll [.registerRef 3, .registerRef 3] ∧
      marking.invoke st = .ok () t ∧ marking.hostRuns st = [x.taken.map Prod.fst] ∧
      t.stack.toList = [9] ++ (Cell.ofInt .int 5).encode ∧
      (t.registers.load 3).tag = .string ∧
      (Value.text "a").StoredAs x.Writes st.heap (t.registers.load 3) t.heap := by
  have hcells : ∀ d ∈ [Cell.registerRef 3, .registerRef 3], d.WellFormed := by decide
  obtain ⟨st, t, hstack, hok, hpushed⟩ :
      ∃ st t : Store Unit,
        st.stack.toList = [9] ++ Cell.encodeAll [.registerRef 3, .registerRef 3] ∧
        marking.invoke st = .ok () t ∧ t.stack.toList = [9] ++ (Cell.ofInt .int 5).encode :=
    ⟨⟨(((Stack.withCapacity 8).pushRaw [9]).pushCell (.registerRef 3)).pushCell (.registerRef 3),
      .new, .new 1, ()⟩, _, by decide, rfl, by decide⟩
  obtain ⟨hruns, -, -, hsuccess⟩ := invoke_convention marking st hcells rfl hstack
  obtain ⟨x, hreceives, hrun, -, -, hregisters⟩ := hsuccess t hok
  have hfinal : x.reply.final[1]? = some (.text "a") := by
    rw [← Except.ok.inj (Prod.mk.inj hrun).1]
    simp [hreceives.length_eq]
  have hlast : ∀ j, 1 < j → [Cell.registerRef 3, .registerRef 3][j]? ≠ some (.registerRef 3) := by
    intro j hj
    rw [List.getElem?_eq_none hj]
    exact nofun
  exact ⟨st, t, x, hcells, hstack, hok, (hruns _ hreceives).1, hpushed,
    hregisters 3 1 (.text "a") rfl hlast hfinal⟩

end Command

end CellMachine
