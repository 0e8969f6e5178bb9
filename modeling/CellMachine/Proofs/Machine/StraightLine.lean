import CellMachine.Machine.Run
import CellMachine.Proofs.Command.Arguments
import CellMachine.Proofs.Machine.Jump

/-!
# CellMachine.Proofs.Machine.StraightLine

Code without transfers. Most instructions work on the store alone
(`Instr.isLocal`), so what a sequence of them does can be worked out on the store,
without a machine. It is stated about views: of the stack only the live bytes
matter, not what is left in the buffer above them.

* `Instr.Takes`, with a rule for each kind of instruction — what one does to a
  view;
* `Acts` — what a sequence does to a view, put together from its instructions;
* `executeUpTo_of_actAll` — a machine that stands at the bytes of a sequence goes
  through it and does to its store what the sequence does.
-/

namespace CellMachine

/-- Whether an instruction works on the store alone, so that control goes on behind it. -/
def Instr.isLocal : Instr → Bool
  | jump | jumpZero | jumpGtZero | jumpHistory | ret | callHost | dbgPrint | breakpoint => false
  | _ => true

/-- What of a store later work depends on: of the stack only the live bytes. -/
structure View (σ : Type) where
  bytes : List UInt8
  registers : Registers
  heap : Heap
  world : σ

/-- A store that shows a view, if the stack has its bytes. -/
def View.on {σ : Type} (v : View σ) (stack : Stack) : Store σ :=
  ⟨stack, v.registers, v.heap, v.world⟩

/-! ## operands on the stack -/

namespace StoreM

variable {σ : Type} {below : List UInt8}

theorem popPointer_of_append (st : Store σ) {c : Cell} {ptr : Nat} (hc : c.WellFormed)
    (hptr : c.expectPointer = .ok ptr) (h : st.stack.toList = below ++ c.encode) :
    ∃ stack, popPointer st = .ok ptr { st with stack := stack } ∧ stack.toList = below := by
  obtain ⟨stack, hpop, hbelow⟩ := pop_of_append st hc h
  refine ⟨stack, ?_, hbelow⟩
  rw [popPointer, bind_run_of_ok hpop, hptr]
  rfl

theorem popLength_of_append (st : Store σ) {n : Nat} (hn : n < intLimit)
    (h : st.stack.toList = below ++ (Cell.ofInt .int n).encode) :
    ∃ stack, popLength st = .ok n { st with stack := stack } ∧ stack.toList = below := by
  obtain ⟨stack, hpop, hbelow⟩ := pop_of_append st (Cell.wellFormed_ofInt .int n) h
  refine ⟨stack, ?_, hbelow⟩
  rw [popLength, bind_run_of_ok (popInt_of_pop (Cell.expectInt_ofInt hn) hpop)]
  rfl

end StoreM

/-! ## single instructions -/

namespace Instr

variable {σ : Type} {below : List UInt8} {rs : Registers} {h h' : Heap} {w : σ} {c d : Cell}

/-- The instruction takes every store of the view `v` to one of the view `v'`. -/
def Takes (i : Instr) (v v' : View σ) : Prop :=
  ∀ stack : Stack, stack.toList = v.bytes →
    ∃ stack' : Stack, i.act (v.on stack) = .ok () (v'.on stack') ∧ stack'.toList = v'.bytes

theorem takes_pushSpan (bytes : List UInt8) :
    (pushSpan bytes).Takes ⟨below, rs, h, w⟩ ⟨below ++ bytes, rs, h, w⟩ := by
  intro stack hstack
  exact ⟨stack.pushRaw bytes, rfl, by simp [hstack]⟩

theorem takes_push (c : Cell) :
    (push c.tag c.bytes).Takes ⟨below, rs, h, w⟩ ⟨below ++ c.encode, rs, h, w⟩ := by
  intro stack hstack
  exact ⟨stack.pushCell c, rfl, by simp [hstack, Cell.encode]⟩

theorem takes_load {r : UInt8} (hc : rs.load r = c) :
    (load r).Takes ⟨below, rs, h, w⟩ ⟨below ++ c.encode, rs, h, w⟩ := by
  intro stack hstack
  subst hc
  exact ⟨stack.pushCell (rs.load r), rfl, by simp [hstack, Cell.encode]⟩

theorem takes_store (r : UInt8) (hc : c.WellFormed) :
    (store r).Takes ⟨below ++ c.encode, rs, h, w⟩ ⟨below, rs.store r c, h, w⟩ := by
  intro stack hstack
  obtain ⟨stack', hpop, hbelow⟩ := StoreM.pop_of_append ⟨stack, rs, h, w⟩ hc hstack
  refine ⟨stack', ?_, hbelow⟩
  rw [act, View.on, bind_run_of_ok hpop]
  rfl

theorem takes_cast {t : Tag} (hc : c.WellFormed) (hcast : c.cast t = .ok d) :
    (cast t).Takes ⟨below ++ c.encode, rs, h, w⟩ ⟨below ++ d.encode, rs, h, w⟩ := by
  intro stack hstack
  obtain ⟨stack', hpop, hbelow⟩ := StoreM.pop_of_append ⟨stack, rs, h, w⟩ hc hstack
  refine ⟨stack'.pushCell d, ?_, by simp [hbelow, Cell.encode]⟩
  rw [act, View.on, bind_run_of_ok hpop, hcast]
  rfl

theorem takes_alloc {len : Nat} (hlen : len < intLimit) (hptr : (h.allocate len).1 < intLimit) :
    alloc.Takes ⟨below ++ (Cell.ofInt .int len).encode, rs, h, w⟩
      ⟨below ++ (Cell.ofInt .ptrHeap (h.allocate len).1).encode, rs, (h.allocate len).2, w⟩ := by
  intro stack hstack
  obtain ⟨stack', hpop, hbelow⟩ := StoreM.popLength_of_append ⟨stack, rs, h, w⟩ hlen hstack
  refine ⟨stack'.pushCell (.ofInt .ptrHeap (h.allocate len).1), ?_, by simp [hbelow, Cell.encode]⟩
  rw [act, View.on, bind_run_of_ok hpop]
  simp only [StoreM.onHeap, HeapM.allocate, StoreM.lift, Cell.heapPointer, if_pos hptr, bind,
    EStateM.bind]
  rfl

theorem takes_write {ptr : Nat} {bytes : List UInt8} (hc : c.WellFormed)
    (hptr : c.expectPointer = .ok ptr) (hlen : bytes.length < intLimit)
    (hw : h.write ptr bytes = .ok h') :
    write.Takes ⟨below ++ bytes ++ (Cell.ofInt .int bytes.length).encode ++ c.encode, rs, h, w⟩
      ⟨below, rs, h', w⟩ := by
  intro stack hstack
  obtain ⟨stack₁, hpointer, hstack₁⟩ :=
    StoreM.popPointer_of_append ⟨stack, rs, h, w⟩ hc hptr hstack
  obtain ⟨stack₂, hlength, hstack₂⟩ :=
    StoreM.popLength_of_append ⟨stack₁, rs, h, w⟩ hlen hstack₁
  obtain ⟨stack₃, hspan, hstack₃⟩ := Stack.popSpan_of_append stack₂ hstack₂
  have hbytes : StoreM.onStack (Stack.popSpan bytes.length) ⟨stack₂, rs, h, w⟩ = _ :=
    StoreM.onStack_of_ok hspan
  refine ⟨stack₃, ?_, hstack₃⟩
  rw [act, View.on, bind_run_of_ok hpointer, bind_run_of_ok hlength, bind_run_of_ok hbytes]
  simp only [StoreM.updateHeap, StoreM.onHeap, HeapM.update, hw]
  rfl

/-- Carries out instructions one after another. -/
def actAll : List Instr → StoreM σ Unit
  | [] => return ()
  | i :: is => do
    i.act
    actAll is

end Instr

/-! ## sequences -/

variable {σ : Type}

/-- The instructions, one after another, take every store of the view `v` to one of the view `v'`. -/
def Acts (is : List Instr) (v v' : View σ) : Prop :=
  ∀ stack : Stack, stack.toList = v.bytes →
    ∃ stack' : Stack, Instr.actAll is (v.on stack) = .ok () (v'.on stack') ∧
      stack'.toList = v'.bytes

theorem Acts.nil (v : View σ) : Acts [] v v := fun stack hstack => ⟨stack, rfl, hstack⟩

theorem Acts.cons {i : Instr} {is : List Instr} {v v₁ v' : View σ} (hi : i.Takes v v₁)
    (his : Acts is v₁ v') : Acts (i :: is) v v' := by
  intro stack hstack
  obtain ⟨stack₁, hact, hstack₁⟩ := hi stack hstack
  obtain ⟨stack', hrest, hstack'⟩ := his stack₁ hstack₁
  refine ⟨stack', ?_, hstack'⟩
  rw [Instr.actAll, bind_run_of_ok hact, hrest]

/-! ## machines -/

/-- The state `t` is further on than `s` by `n` instructions of `size` bytes in all, none of which
touches control or prints. -/
structure State.Advanced (n size : Nat) (s t : State σ) : Prop where
  ip : t.ip = s.ip + size
  executed : t.executed = s.executed + n
  calls : t.calls = s.calls
  printed : t.printed = s.printed

namespace Machine

variable {m : Machine σ} {s : State σ}

theorem decision_of_isLocal (m : Machine σ) {i : Instr} (hi : i.isLocal = true) :
    m.decision i = (do i.act; return .proceed) := by
  cases i <;> first | rfl | contradiction

/-- A step over an instruction that works on the store alone. -/
theorem step_of_isLocal {i : Instr} {ip : Nat} {store : Store σ} (hi : i.isLocal = true)
    (hread : Instr.decode m.program s.ip = .ok i ip) (hact : i.act s.toStore = .ok () store) :
    m.step s = .ok .proceed { started s ip with toStore := store } := by
  have hdecide : m.decision i s.toStore = .ok .proceed store := by
    rw [decision_of_isLocal m hi, bind_run_of_ok hact]
    rfl
  rw [step_of_decided hread hdecide]
  rfl

/-- **A machine goes through code without transfers** at whose bytes it stands, and does to its
store what the instructions do one after another. -/
theorem executeUpTo_of_actAll {is : List Instr} (hlocal : ∀ i ∈ is, i.isLocal = true)
    (hsized : ∀ i ∈ is, i.Sized) {rest : List UInt8}
    (hcode : m.program.toList.drop s.ip = is.flatMap Instr.encode ++ rest) {store : Store σ}
    (hrun : Instr.actAll is s.toStore = .ok () store) :
    ∃ t : State σ,
      m.executeUpTo is.length s = .ok (if m.isComplete t then .complete else .suspended) t ∧
      t.toStore = store ∧ s.Advanced is.length (is.flatMap Instr.encode).length t := by
  induction is generalizing s with
  | nil =>
      obtain ⟨-, rfl⟩ := EStateM.Result.ok.inj hrun
      exact ⟨s, rfl, rfl, rfl, rfl, rfl, rfl⟩
  | cons i is ih =>
      rw [List.flatMap_cons, List.append_assoc] at hcode
      have hread := Instr.decode_encode (hsized i List.mem_cons_self) hcode
      have hend : m.isComplete s = false := by
        have hlt : s.ip < m.program.size := Instr.lt_size_of_drop hcode
        simp [isComplete, hlt]
      obtain ⟨⟨⟩, store₁, hact, hrest⟩ := bind_run_eq_ok hrun
      have hstep := step_of_isLocal (hlocal i List.mem_cons_self) hread hact
      obtain ⟨t, hrun', hstore, hadvanced⟩ := ih
        (s := { started s (s.ip + i.encode.length) with toStore := store₁ })
        (fun j hj => hlocal j (List.mem_cons_of_mem i hj))
        (fun j hj => hsized j (List.mem_cons_of_mem i hj)) (Instr.drop_add hcode) hrest
      refine ⟨t, ?_, hstore, ?_⟩
      · rw [List.length_cons, executeUpTo, hend, hstep]
        exact hrun'
      · have hip := hadvanced.ip
        have hexecuted := hadvanced.executed
        simp only [started] at hip hexecuted
        simp only [List.flatMap_cons, List.length_append, List.length_cons]
        exact ⟨by omega, by omega, hadvanced.calls, hadvanced.printed⟩

end Machine

end CellMachine
