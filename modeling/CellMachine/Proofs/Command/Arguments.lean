import CellMachine.Proofs.Rules

/-!
# CellMachine.Proofs.Command.Arguments

What a command receives. Arguments are popped one by one, the last one first, and
each is read as soon as it is popped; none of this changes a register or the
heap, so that the whole comes to reading every cell against its own parameter in
the store as it was (`Receives`).
-/

namespace CellMachine

namespace StoreM

variable {σ α : Type} {st st' : Store σ}

/-- A cell that lies on top of the stack is popped, and nothing else changes. -/
theorem pop_of_append (st : Store σ) {c : Cell} {below : List UInt8} (hc : c.WellFormed)
    (h : st.stack.toList = below ++ c.encode) :
    ∃ stack, pop st = .ok c { st with stack := stack } ∧ stack.toList = below := by
  obtain ⟨stack, hpop, hbelow⟩ := Stack.popCell_of_append st.stack hc h
  exact ⟨stack, onStack_of_ok hpop, hbelow⟩

theorem pop_eq_ok {c : Cell} (h : pop st = .ok c st') :
    c.WellFormed ∧ st.stack.toList = st'.stack.toList ++ c.encode ∧
      st' = { st with stack := st'.stack } := by
  cases hp : st.stack.popCell with
  | ok d stack =>
      rw [pop, onStack_of_ok hp] at h
      obtain ⟨rfl, rfl⟩ := EStateM.Result.ok.inj h
      obtain ⟨hc, hbytes⟩ := Stack.popCell_eq_ok hp
      exact ⟨hc, hbytes, rfl⟩
  | error e stack =>
      rw [pop, onStack_of_error hp] at h
      contradiction

theorem ask_of_ok {f : Registers → Heap → Except Fault α} {a : α}
    (h : f st.registers st.heap = .ok a) : ask f st = .ok a st := by
  simp only [ask, h]

theorem ask_of_error {f : Registers → Heap → Except Fault α} {e : Fault}
    (h : f st.registers st.heap = .error e) : ask f st = .error e st := by
  simp only [ask, h]

theorem ask_eq_ok {f : Registers → Heap → Except Fault α} {a : α} (h : ask f st = .ok a st') :
    f st.registers st.heap = .ok a ∧ st' = st := by
  cases hf : f st.registers st.heap with
  | ok b =>
      rw [ask_of_ok hf] at h
      obtain ⟨rfl, rfl⟩ := EStateM.Result.ok.inj h
      exact ⟨rfl, rfl⟩
  | error e =>
      rw [ask_of_error hf] at h
      contradiction

theorem lift_eq_ok {x : Except Fault α} {a : α} (h : lift x st = .ok a st') :
    x = .ok a ∧ st' = st := by
  cases x with
  | error e => contradiction
  | ok b =>
      obtain ⟨rfl, rfl⟩ := EStateM.Result.ok.inj h
      exact ⟨rfl, rfl⟩

/-- An operand that is popped and read as something lay on top of the stack. -/
theorem pop_lift_eq_ok {f : Cell → Except Fault α} {a : α}
    (h : (pop >>= fun c => lift (f c)) st = .ok a st') :
    ∃ c : Cell, f c = .ok a ∧ st.stack.toList = st'.stack.toList ++ c.encode ∧
      st' = { st with stack := st'.stack } := by
  obtain ⟨c, st₁, hpop, hlift⟩ := bind_run_eq_ok h
  obtain ⟨-, hstack, hst⟩ := pop_eq_ok hpop
  obtain ⟨ha, rfl⟩ := lift_eq_ok hlift
  exact ⟨c, ha, hstack, hst⟩

end StoreM

theorem Cell.toInt_of_expectInt {c : Cell} {n : Int} (h : c.expectInt = .ok n) : c.toInt = n := by
  unfold expectInt at h
  split at h
  · exact Except.ok.inj h
  · contradiction

namespace Command

open StoreM

/-- What parameters numbered from `index` on receive for cells, one for each: the value and the
place of every argument, read in the given registers and heap. -/
inductive Receives (name : String) (rs : Registers) (h : Heap) :
    (index : Nat) → List Param → List Cell → List (Value × Option Slot) → Prop
  | nil (index : Nat) : Receives name rs h index [] [] []
  | cons {index : Nat} {p : Param} {ps : List Param} {d : Cell} {ds : List Cell}
      {a : Value × Option Slot} {as : List (Value × Option Slot)}
      (harg : argument name index p d rs h = .ok a)
      (hrest : Receives name rs h (index + 1) ps ds as) :
      Receives name rs h index (p :: ps) (d :: ds) (a :: as)

namespace Receives

variable {name : String} {rs : Registers} {h : Heap} {index : Nat} {ps : List Param}
  {ds : List Cell} {as bs : List (Value × Option Slot)}

theorem unique (ha : Receives name rs h index ps ds as) (hb : Receives name rs h index ps ds bs) :
    as = bs := by
  induction ha generalizing bs with
  | nil =>
      cases hb
      rfl
  | cons harg _ ih =>
      cases hb with
      | cons harg' hrest' =>
          rw [harg] at harg'
          rw [Except.ok.inj harg', ih hrest']

theorem length_eq (ha : Receives name rs h index ps ds as) : as.length = ds.length := by
  induction ha with
  | nil => rfl
  | cons _ _ ih => rw [List.length_cons, List.length_cons, ih]

theorem length_cells (ha : Receives name rs h index ps ds as) : ds.length = ps.length := by
  induction ha with
  | nil => rfl
  | cons _ _ ih => rw [List.length_cons, List.length_cons, ih]

/-- Every argument is read against the parameter of its own number. -/
theorem argument_eq (ha : Receives name rs h index ps ds as) {i : Nat} {a : Value × Option Slot}
    (hi : as[i]? = some a) :
    ∃ p d, ps[i]? = some p ∧ ds[i]? = some d ∧ argument name (index + i) p d rs h = .ok a := by
  induction ha generalizing i with
  | nil => simp at hi
  | @cons index p ps d ds b as harg _ ih =>
      cases i with
      | zero =>
          simp only [List.getElem?_cons_zero, Option.some.injEq] at hi
          exact ⟨p, d, rfl, rfl, hi ▸ harg⟩
      | succ i =>
          rw [List.getElem?_cons_succ] at hi
          obtain ⟨q, e, hq, he, hread⟩ := ih hi
          rw [Nat.add_right_comm] at hread
          exact ⟨q, e, hq, he, hread⟩

end Receives

variable {σ : Type} {name : String}

/-- Arguments that are taken were on top of the stack, and are what is received for them. -/
theorem takeArguments_eq_ok {index : Nat} {ps : List Param} {st st' : Store σ}
    {taken : List (Value × Option Slot)} (h : takeArguments name index ps st = .ok taken st') :
    ∃ cells, (∀ d ∈ cells, d.WellFormed) ∧
      st.stack.toList = st'.stack.toList ++ Cell.encodeAll cells ∧
      Receives name st.registers st.heap index ps cells taken ∧
      st' = { st with stack := st'.stack } := by
  induction ps generalizing index taken st' with
  | nil =>
      obtain ⟨rfl, rfl⟩ := EStateM.Result.ok.inj h
      exact ⟨[], by simp, by simp, .nil index, rfl⟩
  | cons p ps ih =>
      obtain ⟨rest, st₁, hrest, h⟩ := bind_run_eq_ok h
      obtain ⟨c, st₂, hpop, h⟩ := bind_run_eq_ok h
      obtain ⟨a, st₃, hask, h⟩ := bind_run_eq_ok h
      obtain ⟨rfl, rfl⟩ := EStateM.Result.ok.inj h
      obtain ⟨cells, hcells, hbytes, hreceives, hst₁⟩ := ih hrest
      obtain ⟨hc, hbelow, hst₂⟩ := pop_eq_ok hpop
      obtain ⟨harg, rfl⟩ := ask_eq_ok hask
      rw [hst₂, hst₁] at harg
      refine ⟨c :: cells, ?_, ?_, .cons harg hreceives, ?_⟩
      · simpa [hc] using hcells
      · rw [hbytes, hbelow, Cell.encodeAll_cons, List.append_assoc]
      · rw [hst₂, hst₁]

/-- Arguments on top of the stack are taken exactly if all of them are received. -/
theorem takeArguments_of_append (name : String) (index : Nat) {ps : List Param} {st : Store σ}
    {cells : List Cell} {below : List UInt8} (hcells : ∀ d ∈ cells, d.WellFormed)
    (hcount : cells.length = ps.length)
    (hstack : st.stack.toList = below ++ Cell.encodeAll cells) :
    (∃ taken stack, Receives name st.registers st.heap index ps cells taken ∧
      takeArguments name index ps st = .ok taken { st with stack := stack } ∧
      stack.toList = below) ∨
    ((¬ ∃ taken, Receives name st.registers st.heap index ps cells taken) ∧
      ∃ e stack, takeArguments name index ps st = .error e { st with stack := stack }) := by
  induction ps generalizing index below cells with
  | nil =>
      obtain rfl := List.length_eq_zero_iff.mp hcount
      rw [Cell.encodeAll_nil, List.append_nil] at hstack
      exact Or.inl ⟨[], st.stack, .nil index, rfl, hstack⟩
  | cons p ps ih =>
      cases cells with
      | nil => contradiction
      | cons d ds =>
      rw [List.forall_mem_cons] at hcells
      rw [Cell.encodeAll_cons, ← List.append_assoc] at hstack
      rcases ih (index + 1) hcells.2 (Nat.succ.inj hcount) hstack with
        ⟨taken, stack, hreceives, htake, hbelow⟩ | ⟨hnone, e, stack, htake⟩
      · obtain ⟨stack', hpop, hbelow'⟩ :=
          pop_of_append { st with stack := stack } hcells.1 hbelow
        dsimp only at hpop
        cases harg : argument name index p d st.registers st.heap with
        | ok a =>
            refine Or.inl ⟨a :: taken, stack', .cons harg hreceives, ?_, hbelow'⟩
            rw [takeArguments, bind_run_of_ok htake, bind_run_of_ok hpop]
            exact bind_run_of_ok (ask_of_ok harg)
        | error e =>
            refine Or.inr ⟨?_, e, stack', ?_⟩
            · rintro ⟨_, hr⟩
              cases hr with
              | cons harg' _ =>
                  rw [harg] at harg'
                  contradiction
            · rw [takeArguments, bind_run_of_ok htake, bind_run_of_ok hpop]
              exact bind_run_of_error (ask_of_error harg)
      · refine Or.inr ⟨?_, e, stack, ?_⟩
        · rintro ⟨_, hr⟩
          cases hr with
          | cons _ hrest => exact hnone ⟨_, hrest⟩
        · rw [takeArguments, bind_run_of_error htake]

/-! ## the host's part -/

theorem callHost_of_ok {c : Command σ} {args : List Value} {st : Store σ} {reply : Reply args}
    {world : σ} (h : c.run args st.world = (.ok reply, world)) :
    c.callHost args st = .ok reply { st with world := world } := by
  obtain ⟨stack, registers, heap, world₀⟩ := st
  simp only at h
  simp only [callHost, h]

theorem callHost_of_error {c : Command σ} {args : List Value} {st : Store σ} {e : CommandError}
    {world : σ} (h : c.run args st.world = (.error e, world)) :
    c.callHost args st = .error (.commandFailed c.name e.message) { st with world := world } := by
  obtain ⟨stack, registers, heap, world₀⟩ := st
  simp only at h
  simp only [callHost, h]

/-! ## references -/

variable {rs : Registers} {h : Heap} {index : Nat} {p : Param} {d : Cell} {v : Value}
  {slot : Option Slot}

theorem resolve_of_argument (ha : argument name index p d rs h = .ok (v, slot)) :
    ∃ c, resolve name index p d rs h = .ok (c, slot) := by
  obtain ⟨⟨c, found⟩, hresolve, hrest⟩ := bind_eq_ok ha
  obtain ⟨w, -, hpair⟩ := bind_eq_ok hrest
  obtain ⟨-, rfl⟩ := Prod.mk.inj (Except.ok.inj hpair)
  exact ⟨c, hresolve⟩

/-- The ways in which the cell that an argument stands for is found. -/
inductive Resolves (p : Param) (d : Cell) (rs : Registers) (h : Heap) : Cell → Option Slot → Prop
  | register (htag : d.tag = .ptrReg) :
      Resolves p d rs h (rs.load d.toNative) (some (.register d.toNative))
  | heap {t : Tag} {ptr : Nat} {bytes : List UInt8} (htag : d.tag = .ptrHeap)
      (hparam : p.byRef = true ∧ p.tag ≠ .ptrHeap) (hstored : storedTag? p.tag = some t)
      (hpointer : d.expectPointer = .ok ptr) (hread : h.read ptr t.width = .ok bytes) :
      Resolves p d rs h (.ofBytes t bytes) (some (.heap ptr))
  | direct (htag : d.tag ≠ .ptrReg) : Resolves p d rs h d none

theorem resolves_of_resolve {c : Cell} (hc : resolve name index p d rs h = .ok (c, slot)) :
    Resolves p d rs h c slot := by
  unfold resolve at hc
  split at hc
  · next htag =>
    obtain ⟨rfl, rfl⟩ := Prod.mk.inj (Except.ok.inj hc)
    exact .register htag
  · next htag =>
    split at hc
    · next hheap =>
      split at hc
      · contradiction
      · next t hstored =>
        obtain ⟨ptr, hpointer, hc⟩ := bind_eq_ok hc
        obtain ⟨bytes, hread, hc⟩ := bind_eq_ok hc
        obtain ⟨rfl, rfl⟩ := Prod.mk.inj (Except.ok.inj hc)
        exact .heap hheap.1 hheap.2 hstored hpointer hread
    · obtain ⟨rfl, rfl⟩ := Prod.mk.inj (Except.ok.inj hc)
      exact .direct htag

/-- The place of an argument is a register exactly if the argument refers to that register. -/
theorem slot_eq_register_iff (ha : argument name index p d rs h = .ok (v, slot)) (r : UInt8) :
    slot = some (.register r) ↔ d.tag = .ptrReg ∧ d.toNative = r := by
  obtain ⟨c, hresolve⟩ := resolve_of_argument ha
  cases resolves_of_resolve hresolve with
  | register htag => simp [htag]
  | heap htag => simp [htag]
  | direct htag => simp [htag]

/-- The place of an argument is on the heap only if the argument is a heap address for a parameter
by reference. -/
theorem heapPointer_of_argument {ptr : Nat}
    (ha : argument name index p d rs h = .ok (v, some (.heap ptr))) :
    d.tag = .ptrHeap ∧ d.expectPointer = .ok ptr ∧ p.byRef = true ∧ p.tag ≠ .ptrHeap := by
  obtain ⟨c, hresolve⟩ := resolve_of_argument ha
  cases resolves_of_resolve hresolve with
  | heap htag hparam _ hpointer _ => exact ⟨htag, hpointer, hparam⟩

end Command

/-! ## references to registers as cells -/

namespace Cell

theorem toNative_registerRef (r : UInt8) : (registerRef r).toNative = r := by
  have hbytes : (registerRef r).bytes = [r] := bytes_ofBytes .ptrReg [r]
  rw [toNative, hbytes]
  simp [Native.ofPayload, Native.ofWord, payloadWidth, leNat]

/-- A well-formed reference to a register is the one that a program pushes. -/
theorem eq_registerRef_iff {d : Cell} (hd : d.WellFormed) (r : UInt8) :
    d = registerRef r ↔ d.tag = .ptrReg ∧ d.toNative = r := by
  constructor
  · rintro rfl
    exact ⟨rfl, toNative_registerRef r⟩
  · rintro ⟨htag, rfl⟩
    have hlen : d.bytes.length = 1 := by rw [length_bytes, htag]; rfl
    obtain ⟨b, hb⟩ := List.length_eq_one_iff.mp hlen
    have hd' : d = registerRef b := by
      rw [registerRef, ← hb, ← htag, ofBytes_bytes hd]
    rw [hd', toNative_registerRef]

end Cell

end CellMachine
