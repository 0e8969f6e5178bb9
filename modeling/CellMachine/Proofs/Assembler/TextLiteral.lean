import CellMachine.Proofs.Assembler.Listing
import CellMachine.Proofs.Machine.Invariant
import CellMachine.Proofs.Machine.StraightLine

/-!
# CellMachine.Proofs.Assembler.TextLiteral

The code of a text literal. It pushes the bytes of the text raw, makes a block,
keeps its address in a register, writes the bytes to it and pushes the address
once more, now as a text (`acts_textInstrs`). So a machine that goes through this
code has a new block with the text and its address on top of the stack, and has
changed nothing else but the register.
-/

namespace CellMachine

open Assembler

/-- A pointer cell with another pointer tag holds the same address. -/
theorem Cell.cast_heapPointer (n : Int) : (ofInt .ptrHeap n).cast .string = .ok (ofInt .string n) := by
  have hbytes : (ofInt .ptrHeap n).bytes = (ofInt .string n).bytes := rfl
  have hcell : ofBytes .string (ofInt .string n).bytes = ofInt .string n :=
    ofBytes_bytes (wellFormed_ofInt .string n)
  have htags : ((ofInt .ptrHeap n).tag.isPointerLike && Tag.string.isPointerLike) = true := rfl
  have hne : (ofInt .ptrHeap n).tag ≠ .string := nofun
  rw [cast, if_neg hne, if_pos htags, hbytes, hcell]

variable {σ : Type}

/-- What the code of a text literal does. -/
theorem acts_textInstrs {bytes below : List UInt8} {rs : Registers} {h h' : Heap} {w : σ} {ptr : Nat}
    (scratch : UInt8) (hlen : bytes.length < intLimit) (hptr : ptr = (h.allocate bytes.length).1)
    (hlimit : ptr < intLimit) (hw : (h.allocate bytes.length).2.write ptr bytes = .ok h') :
    Acts (textInstrs bytes scratch) ⟨below, rs, h, w⟩
      ⟨below ++ (Cell.ofInt .string ptr).encode, rs.store scratch (.ofInt .ptrHeap ptr), h', w⟩ := by
  subst hptr
  have hc := Cell.wellFormed_ofInt .ptrHeap (h.allocate bytes.length).1
  have haddress : (Cell.ofInt .ptrHeap (h.allocate bytes.length).1).expectPointer =
      .ok (h.allocate bytes.length).1 :=
    (Cell.expectPointer_eq_ok_iff rfl).mpr (Cell.toInt_ofInt rfl hlimit)
  have hload := rs.load_store_self scratch (.ofInt .ptrHeap (h.allocate bytes.length).1)
  apply Acts.cons (Instr.takes_pushSpan bytes)
  apply Acts.cons (Instr.takes_push (.ofInt .int bytes.length))
  apply Acts.cons (Instr.takes_alloc hlen hlimit)
  apply Acts.cons (Instr.takes_store scratch hc)
  apply Acts.cons (Instr.takes_push (.ofInt .int bytes.length))
  apply Acts.cons (Instr.takes_load hload)
  apply Acts.cons (Instr.takes_write hc haddress hlen hw)
  apply Acts.cons (Instr.takes_load hload)
  apply Acts.cons (Instr.takes_cast hc (Cell.cast_heapPointer _))
  exact Acts.nil _

theorem isLocal_of_mem_textInstrs (bytes : List UInt8) (scratch : UInt8) :
    ∀ i ∈ textInstrs bytes scratch, i.isLocal = true := by
  simp [textInstrs, pushInt, Instr.isLocal]

theorem Assembler.emit_pushText {a b : Assembler} {text : String} {scratch : UInt8}
    (h : a.emit (.pushText text scratch) = .ok b) :
    (Text.encode text).length < intLimit ∧
      b.code.toList = a.code.toList ++ (textInstrs (Text.encode text) scratch).flatMap Instr.encode := by
  simp only [emit] at h
  split at h
  · next hlen =>
      obtain rfl := Except.ok.inj h
      exact ⟨hlen, by simp [instrs, append]⟩
  · contradiction

namespace Machine

/-- **The code of a text literal** works in every state of a machine that stands at it, whatever is
on the stack: its nine instructions put the text into a block that was not live before and push its
address. They leave the address in the scratch register, and they change no other register, no open
call, no printed line and no block that was live. -/
theorem executeUpTo_pushText {m : Machine σ} {C : Cell → Prop} {us : List (State σ)} {s : State σ}
    (hlife : Session m C us s) (hcursor : s.heap.cursor < intLimit) {a b : Assembler}
    {text : String} {scratch : UInt8} (hemit : a.emit (.pushText text scratch) = .ok b)
    {code rest : List UInt8} (hcode : b.code.toList = a.code.toList ++ code)
    (hprogram : m.program.toList.drop s.ip = code ++ rest) :
    ∃ (ptr : Nat) (t : State σ),
      m.executeUpTo 9 s = .ok (if m.isComplete t then .complete else .suspended) t ∧
      t.ip = s.ip + code.length ∧ t.executed = s.executed + 9 ∧
      t.stack.toList = s.stack.toList ++ (Cell.ofInt .string ptr).encode ∧
      (Cell.ofInt .string ptr).toInt = ptr ∧ s.heap.live[ptr]? = none ∧
      t.heap.live[ptr]? = some (4 * text.length) ∧ t.heap.readText ptr = .ok text ∧
      t.registers.load scratch = .ofInt .ptrHeap ptr ∧
      (∀ r, r ≠ scratch → t.registers.load r = s.registers.load r) ∧
      t.calls = s.calls ∧ t.printed = s.printed ∧ t.world = s.world ∧
      ∀ p n : Nat, s.heap.live[p]? = some n →
        t.heap.live[p]? = some n ∧ t.heap.readBlock p = s.heap.readBlock p := by
  have hh := hlife.partitioned
  obtain ⟨hlen, hemitted⟩ := emit_pushText hemit
  obtain rfl := List.append_cancel_left (hcode.symm.trans hemitted)
  obtain ⟨ptr, h', hmake, hfresh, hlive, hread, hgrows⟩ :=
    hh.allocateText_eq_ok (W := fun _ => False) text
  obtain ⟨hptr, hwrite⟩ := Heap.write_of_allocateText hmake
  have hlimit : ptr < intLimit :=
    Nat.lt_of_le_of_lt (hptr ▸ hh.allocate_le_cursor _) hcursor
  obtain ⟨stack, hact, hstack⟩ := acts_textInstrs scratch hlen hptr hlimit hwrite s.stack rfl
  obtain ⟨t, hrun, hstore, hadvanced⟩ := executeUpTo_of_actAll
    (isLocal_of_mem_textInstrs _ scratch) (sized_textInstrs hlen scratch) hprogram hact
  have hregisters : t.registers = s.registers.store scratch (.ofInt .ptrHeap ptr) :=
    congrArg Store.registers hstore
  have hheap : t.heap = h' := congrArg Store.heap hstore
  have hworld := congrArg Store.world hstore
  have htext : h'.readText ptr = .ok text := by
    apply Heap.readText_of_readBlock
    rw [hgrows.partitioned.readBlock_of_live hlive, hread]
  rw [Text.length_encode] at hlive
  refine ⟨ptr, t, hrun, hadvanced.ip, hadvanced.executed, ?_, Cell.toInt_ofInt rfl hlimit, hfresh,
    ?_, ?_, ?_, ?_, hadvanced.calls, hadvanced.printed, hworld, ?_⟩
  · rw [congrArg Store.stack hstore]
    exact hstack
  · rw [hheap, hlive]
    rfl
  · rw [hheap, htext]
  · rw [hregisters, Registers.load_store_self]
  · intro r hr
    rw [hregisters, Registers.load_store_of_ne _ hr]
  · intro p n hp
    rw [hheap]
    exact ⟨hgrows.live p n hp, hgrows.readBlock hh hp⟩

/-- A program that is one literal, with a character past the first plane. -/
def literal : Machine Unit where
  program := ((textInstrs (Text.encode "a😀") 7).flatMap Instr.encode).toArray
  commands := .empty

/-- The literal gets a block that was freed. -/
theorem executeUpTo_pushText_reusing :
    ∃ s : State Unit, Session literal (fun _ => True) [] s ∧ s.heap.cursor < intLimit ∧
      s.heap.freedOf 8 = [0] ∧
      ∃ (ptr : Nat) (t : State Unit),
        literal.executeUpTo 9 s = .ok (if literal.isComplete t then .complete else .suspended) t ∧
        s.heap.live[ptr]? = none ∧ t.heap.live[ptr]? = some 8 ∧ t.heap.readText ptr = .ok "a😀" := by
  have hlife : Session literal (fun _ => True) [] _ :=
    ((Session.start ()).callHeap (.allocate 8)).callHeap (.free 0)
  have hcursor : (((literal.start ()).heap.after (.allocate 8)).after (.free 0)).cursor < intLimit := by
    decide
  have hemit : ({} : Assembler).emit (.pushText "a😀" 7) =
      .ok (({} : Assembler).instrs (textInstrs (Text.encode "a😀") 7)) := by
    have hlen : (Text.encode "a😀").length < intLimit := by decide
    simp only [emit, if_pos hlen]
  have hprogram : literal.program.toList.drop 0 =
      (textInstrs (Text.encode "a😀") 7).flatMap Instr.encode ++ [] := by simp [literal]
  obtain ⟨ptr, t, hrun, -, -, -, -, hfresh, hlive, htext, -⟩ :=
    executeUpTo_pushText hlife hcursor hemit (by simp [instrs, append]) hprogram
  exact ⟨_, hlife, hcursor, by decide, ptr, t, hrun, hfresh, hlive, htext⟩

end Machine

end CellMachine
