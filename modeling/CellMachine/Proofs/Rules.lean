import CellMachine.Machine.Step
import CellMachine.Proofs.Heap.Growth
import CellMachine.Proofs.Stack
import CellMachine.Proofs.Store

/-!
# CellMachine.Proofs.Rules

What instructions do to a store, told once for all invariants. An instruction
first consumes: it pops, reads the registers and the heap, and may fail. What it
leaves behind it leaves at the end, where it can fail no more. A call of a host
command has two halves of this kind: `Command.request`, up to the host's answer,
only consumes; `Command.settle` stores the answer and may still fail.

`OperandRules I F R` is what an invariant `I`, the faults `F` and the final condition
`R` have to allow for operands to be consumed and results to be pushed, and
`Effects i I F R` what else the one instruction `i` asks for; then `i` commits
(`OperandRules.act`). `Rules I F R` allows the effects of every instruction at once
(`Rules.effects`), and a call of a command if the invariant is `Stable` (`Rules.invoke`).
Instructions that put loose bytes on the stack have `RawRules` of their own, those
that write to the heap or free a block `BlockRules`.
-/

namespace CellMachine

open StoreM

/-! ## the two halves of a call -/

namespace Command

variable {σ : Type}

/-- What a call has come to when the host has answered: the arguments with their places, and the
answer. -/
structure Exchange where
  taken : List (Value × Option Slot)
  reply : Reply (taken.map Prod.fst)

/-- The first half of a call: takes the arguments and runs the host's part. -/
def request (c : Command σ) : StoreM σ Exchange := do
  let taken ← takeArguments c.name 0 c.params
  let reply ← c.callHost (taken.map Prod.fst)
  return ⟨taken, reply⟩

/-- The places of the arguments, with the values that the host leaves for them. -/
def Exchange.slots (x : Exchange) : List (Option Slot × Value) :=
  (x.taken.map Prod.snd).zip x.reply.final

/-- Pushes the result. -/
def deliver (c : Command σ) (result : Value) : StoreM σ Unit :=
  if c.returns = .void then return ()
  else if result = .void then
    throw (.commandFailed c.name s!"returned no value, declared {c.returns.name}")
  else do push (← c.resultCell result)

/-- The second half of a call: stores the final arguments back and pushes the result. -/
def settle (c : Command σ) (x : Exchange) : StoreM σ Unit := do
  storeBack x.slots
  c.deliver x.reply.result

theorem invoke_eq (c : Command σ) : c.invoke = c.request >>= c.settle := by
  simp only [invoke, request, settle, bind_assoc, pure_bind]
  rfl

end Command

namespace Machine

variable {σ : Type}

/-- The first half of a `callHost`: finds the command and has the host answer. -/
def request (m : Machine σ) : StoreM σ (Command σ × Command.Exchange) := do
  let address ← popInt
  match m.commands.get? address with
  | some c => return (c, ← c.request)
  | none => throw (.unknownCommand address)

theorem callCommand_eq (m : Machine σ) :
    m.callCommand = m.request >>= fun x => x.1.settle x.2 := by
  simp only [callCommand, request, bind_assoc]
  congr 1
  funext address
  cases m.commands.get? address with
  | some c => simp only [c.invoke_eq, bind_assoc, pure_bind]
  | none => rfl

end Machine

/-! ## what invariants have to allow -/

section Rules

variable {σ : Type}

/-- What an invariant `I`, the faults `F` and the final condition `R` have to allow for operands to
be consumed, with stops only by `F` where `I` holds, and for results to be pushed where `R` holds. -/
structure OperandRules (I : Store σ → Prop) (F : Fault → Prop) (R : Store σ → Prop) : Prop where
  plain : ∀ e, e.isPlain = true → F e
  pop : Keeps I F pop Cell.WellFormed
  peek : ∀ st e, I st → st.stack.peekCell = .error e → F e
  setWorld : ∀ st w, I st → I { st with world := w }
  done : ∀ st, I st → R st
  pushCell : ∀ st c, R st → R { st with stack := st.stack.pushCell c }

/-- What they have to allow for instructions to be stopped only by `F` where `I` holds and to end
only where `R` holds. -/
structure Rules (I : Store σ → Prop) (F : Fault → Prop) (R : Store σ → Prop) : Prop
    extends OperandRules I F R where
  setRegister : ∀ st r c, c.WellFormed → I st →
    R { st with registers := st.registers.store r c }
  binary : ∀ op lhs rhs,
    Commits I F (do push (← onHeap (Cell.binary op lhs rhs))) (fun _ => True) R
  alloc : ∀ len,
    Commits I F (do
      let ptr ← onHeap (HeapM.allocate len)
      push (← lift (Cell.heapPointer .ptrHeap ptr))) (fun _ => True) R

/-- The same for instructions that move bytes which are no whole cell. -/
structure RawRules (I : Store σ → Prop) (F : Fault → Prop) (R : Store σ → Prop) : Prop where
  popTag : Keeps I F (onStack Stack.popTag) fun _ => True
  popSpan : ∀ n, Keeps I F (onStack (Stack.popSpan n)) fun _ => True
  pushRaw : ∀ st bytes, R st → R { st with stack := st.stack.pushRaw bytes }

/-- The same for instructions that write to the heap or free a block. -/
structure BlockRules (I : Store σ → Prop) (R : Store σ → Prop) : Prop where
  write : ∀ st ptr bs h, I st → st.heap.write ptr bs = .ok h → R { st with heap := h }
  free : ∀ st ptr h, I st → st.heap.free ptr = .ok h → R { st with heap := h }

/-- Invariants that changes of registers, heap and world cannot break, as long as the cells put into
registers are well-formed and a partitioned heap stays one. -/
structure Stable (I : Store σ → Prop) : Prop where
  setRegister : ∀ st r c, c.WellFormed → I st → I { st with registers := st.registers.store r c }
  setHeap : ∀ st h, (st.heap.Partitioned → h.Partitioned) → I st → I { st with heap := h }
  setWorld : ∀ st w, I st → I { st with world := w }

end Rules

variable {σ α : Type} {I : Store σ → Prop} {F : Fault → Prop} {R : Store σ → Prop}

/-- Sound work on the heap keeps stable invariants. -/
theorem Stable.onHeap (hI : Stable I) (hplain : ∀ e, e.isPlain = true → F e) {act : HeapM α}
    {Q : α → Prop} (hact : ∀ P, SoundHeapAction P act Q) : Keeps I F (onHeap act) Q := by
  refine .onHeap fun st hst => ?_
  have hstart : st.heap.Partitioned → st.heap.Partitioned := id
  cases hr : act st.heap with
  | ok a heap =>
      obtain ⟨ha, hheap⟩ := (hact _).ok hstart hr
      exact ⟨ha, hI.setHeap st heap hheap hst⟩
  | error e heap =>
      obtain ⟨he, hheap⟩ := (hact _).error hstart hr
      exact ⟨hplain e he, hI.setHeap st heap hheap hst⟩

/-! ## operands and results -/

namespace OperandRules

/-- Tame computations fail by faults that the rules allow. -/
theorem fault (h : OperandRules I F R) {x : Except Fault α} (hx : Tame x) (e : Fault)
    (he : x = .error e) : F e :=
  h.plain e (hx e he)

theorem ask (h : OperandRules I F R) {f : Registers → Heap → Except Fault α}
    (hf : ∀ rs heap, Tame (f rs heap)) : Keeps I F (StoreM.ask f) fun _ => True :=
  .ask (fun _ _ _ _ => trivial) fun _ e _ he => h.fault (hf _ _) e he

theorem lift (h : OperandRules I F R) {x : Except Fault α} (hx : Tame x) :
    Keeps I F (StoreM.lift x) fun _ => True :=
  .lift (fun _ _ => trivial) (h.fault hx)

/-- Pushing a cell is something to end with. -/
theorem push (h : OperandRules I F R) (c : Cell) : Commits I F (StoreM.push c) (fun _ => True) R :=
  fun st hst => ⟨trivial, h.pushCell st c (h.done st hst)⟩

/-- A change of the heap is something to end with. -/
theorem update (h : OperandRules I F R) {f : Heap → Except Fault Heap}
    (htame : ∀ heap, Tame (f heap))
    (hok : ∀ st heap, I st → f st.heap = .ok heap → R { st with heap := heap }) :
    Commits I F (updateHeap f) (fun _ => True) R := by
  rintro ⟨stack, registers, heap, world⟩ hst
  unfold updateHeap StoreM.onHeap HeapM.update
  cases hf : f heap with
  | ok heap' =>
      simp only [hf]
      exact ⟨trivial, hok _ heap' hst hf⟩
  | error e =>
      simp only [hf]
      exact ⟨h.fault (htame heap) e hf, hst⟩

theorem popInt (h : OperandRules I F R) : Keeps I F StoreM.popInt fun _ => True :=
  .bind h.pop fun c _ => h.lift c.tame_expectInt

theorem popPointer (h : OperandRules I F R) : Keeps I F StoreM.popPointer fun _ => True :=
  .bind h.pop fun c _ => h.lift c.tame_expectPointer

theorem popLength (h : OperandRules I F R) : Keeps I F StoreM.popLength fun _ => True := by
  refine .bind h.popInt fun n _ => ?_
  cases n with
  | ofNat k => exact .pure trivial
  | negSucc k => exact .throw (h.plain _ rfl)

/-- The target of a jump lies in the program or at its end. -/
theorem popTarget (h : OperandRules I F R) (hjump : ∀ n, F (.invalidJump n)) (size : Nat) :
    Keeps I F (StoreM.popTarget size) (· ≤ size) := by
  refine .bind h.popInt fun n _ => ?_
  cases n with
  | ofNat k => exact .ite (fun hle => .pure hle) fun _ => .throw (hjump _)
  | negSucc k => exact .throw (hjump _)

theorem popTruth (h : OperandRules I F R) : Keeps I F StoreM.popTruth fun _ => True :=
  .bind h.pop fun _ _ => .pure trivial

theorem registerPointer (h : OperandRules I F R) (r : UInt8) :
    Keeps I F (StoreM.registerPointer r) fun _ => True :=
  h.ask fun rs _ => (rs.load r).tame_expectPointer

theorem takeArguments (h : OperandRules I F R) (name : String) (index : Nat) (ps : List Param) :
    Keeps I F (Command.takeArguments name index ps) fun _ => True := by
  induction ps generalizing index with
  | nil => exact .pure trivial
  | cons p ps ih =>
      refine .bind (ih (index + 1)) fun rest _ => .bind h.pop fun c _ => ?_
      exact .bind (h.ask (Command.tame_argument name index p c)) fun _ _ => .pure trivial

/-- The host's part of a command sees neither stack nor registers nor heap. -/
theorem callHost (h : OperandRules I F R) (c : Command σ) (args : List Value) :
    Keeps I F (c.callHost args) fun _ => True := by
  rintro ⟨stack, registers, heap, world⟩ hst
  unfold Command.callHost
  rcases hr : c.run args world with ⟨r, world'⟩
  have hworld := h.setWorld _ world' hst
  cases r with
  | ok reply =>
      simp only [hr]
      exact ⟨trivial, hworld⟩
  | error e =>
      simp only [hr]
      exact ⟨h.plain _ rfl, hworld⟩

theorem request (h : OperandRules I F R) (c : Command σ) : Keeps I F c.request fun _ => True :=
  .bind (h.takeArguments c.name 0 c.params) fun _ _ => .bind (h.callHost c _) fun _ _ =>
    .pure trivial

end OperandRules

/-! ## stable invariants and calls of commands -/

namespace Rules

/-- For a stable invariant it is enough to look at pops and pushes. -/
theorem of_stable (hI : Stable I) (hplain : ∀ e, e.isPlain = true → F e)
    (hpop : Keeps I F StoreM.pop Cell.WellFormed)
    (hpeek : ∀ st e, I st → st.stack.peekCell = .error e → F e) (hdone : ∀ st, I st → R st)
    (hpush : ∀ st c, R st → R { st with stack := st.stack.pushCell c }) : Rules I F R where
  plain := hplain
  pop := hpop
  peek := hpeek
  setWorld := hI.setWorld
  done := hdone
  pushCell := hpush
  setRegister st r c hc hst := hdone _ (hI.setRegister st r c hc hst)
  binary op lhs rhs :=
    .bind (hI.onHeap hplain fun _ => Cell.sound_binary op lhs rhs) fun c _ st hst =>
      ⟨trivial, hpush st c (hdone st hst)⟩
  alloc len :=
    .bind (hI.onHeap hplain fun _ => HeapM.sound_allocate len) fun ptr _ =>
      .bind (.lift (fun _ _ => trivial) fun e he => hplain e (Cell.tame_heapPointer _ ptr e he))
        fun c _ st hst => ⟨trivial, hpush st c (hdone st hst)⟩

/-- A stable invariant survives writes and frees. -/
theorem blocks (h : Rules I F R) (hI : Stable I) : BlockRules I R where
  write st _ _ heap hst hw := h.done _ (hI.setHeap st heap (fun hp => hp.write hw) hst)
  free st _ heap hst hf := h.done _ (hI.setHeap st heap (fun hp => hp.free hf) hst)

theorem toCell (h : Rules I F R) (hI : Stable I) (v : Value) :
    Keeps I F (onHeap v.toCell) Cell.WellFormed :=
  hI.onHeap h.plain fun _ => v.sound_toCell

theorem storeAt (h : Rules I F R) (hI : Stable I) (slot : Slot) (v : Value) :
    Keeps I F (Command.storeAt slot v) fun _ => True := by
  refine .bind (h.toCell hI v) fun c hc => ?_
  cases slot with
  | register r => exact .setRegister fun st => hI.setRegister st r c hc
  | heap ptr =>
      have hwrite : ∀ P, SoundHeapAction P (HeapM.update (·.write ptr c.bytes)) fun _ => True :=
        fun _ => HeapM.sound_update (fun h => h.tame_write ptr _) fun _ _ hh hw => hh.write hw
      exact hI.onHeap h.plain hwrite

theorem storeBack (h : Rules I F R) (hI : Stable I) (slots : List (Option Slot × Value)) :
    Keeps I F (Command.storeBack slots) fun _ => True := by
  induction slots with
  | nil => exact .pure trivial
  | cons p rest ih =>
      obtain ⟨slot, v⟩ := p
      cases slot with
      | none => exact ih
      | some slot => exact .bind (h.storeAt hI slot v) fun _ _ => ih

theorem resultCell (h : Rules I F R) (hI : Stable I) (c : Command σ) (v : Value) :
    Keeps I F (c.resultCell v) fun _ => True := by
  refine .bind (h.toCell hI v) fun cell _ => .ite (fun _ => ?_) fun _ => .pure trivial
  exact h.lift (Cell.tame_cast cell c.returns)

theorem settle (h : Rules I F R) (hI : Stable I) (c : Command σ) (x : Command.Exchange) :
    Commits I F (c.settle x) (fun _ => True) R := by
  refine .bind (h.storeBack hI _) fun _ _ => ?_
  refine .ite (fun _ => .pure trivial h.done) fun _ => ?_
  refine .ite (fun _ => .throw (h.plain _ rfl)) fun _ => ?_
  exact .bind (h.resultCell hI c _) fun cell _ => h.push cell

/-- **Calls of commands commit**, whatever the host does. -/
theorem invoke (h : Rules I F R) (hI : Stable I) (c : Command σ) :
    Commits I F c.invoke (fun _ => True) R := by
  rw [c.invoke_eq]
  exact .bind (h.request c) fun x _ => h.settle hI c x

end Rules

/-! ## instructions -/

/-- Whether an instruction moves bytes that are no whole cell. -/
def Instr.isRaw : Instr → Bool
  | push t payload => payload.length != t.width
  | pushSpan _ | pushType _ | discardType | write | read => true
  | _ => false

/-- Whether an instruction writes to the heap or frees a block. -/
def Instr.changesBlocks : Instr → Bool
  | storePtr _ | write | free => true
  | _ => false

theorem Instr.eq_of_changesBlocks {i : Instr} (h : i.changesBlocks = true) :
    (∃ r, i = .storePtr r) ∨ i = .write ∨ i = .free := by
  cases i with
  | storePtr r => exact Or.inl ⟨r, rfl⟩
  | write => exact Or.inr (Or.inl rfl)
  | free => exact Or.inr (Or.inr rfl)
  | _ => contradiction

/-- A payload of the right width is pushed as the cell it spells. -/
theorem Stack.push_eq_pushCell (s : Stack) {t : Tag} {payload : List UInt8}
    (h : payload.length = t.width) : s.push payload t = s.pushCell (.ofBytes t payload) := by
  have hbytes : (Cell.ofBytes t payload).bytes = payload := by
    rw [Cell.bytes_ofBytes]
    simp [fitBytes, ← h]
  rw [pushCell, hbytes]
  rfl

/-- What an invariant, the faults and the final condition have to allow of the effects that the
instruction `i` has on registers, heap and loose bytes. -/
structure Effects (i : Instr) (I : Store σ → Prop) (F : Fault → Prop) (R : Store σ → Prop) :
    Prop where
  setRegister : ∀ r, i = .store r → ∀ st c, c.WellFormed → I st →
    R { st with registers := st.registers.store r c }
  binary : ∀ op, i = .arith op → Commits I F (StoreM.binary op) (fun _ => True) R
  alloc : i = .alloc → ∀ len,
    Commits I F (do
      let ptr ← onHeap (HeapM.allocate len)
      push (← lift (Cell.heapPointer .ptrHeap ptr))) (fun _ => True) R
  write : i = .write ∨ (∃ r, i = .storePtr r) → ∀ st ptr bs h, I st →
    st.heap.write ptr bs = .ok h → R { st with heap := h }
  free : i = .free → ∀ st ptr h, I st → st.heap.free ptr = .ok h → R { st with heap := h }
  raw : i.isRaw = true → RawRules I F R

/-- **Instructions that work on the store alone commit** if their effects are allowed. -/
theorem OperandRules.act (h : OperandRules I F R) {i : Instr} (hi : Effects i I F R) :
    Commits I F i.act (fun _ => True) R := by
  cases i with
  | push t payload =>
      by_cases hlen : payload.length = t.width
      · intro st hst
        refine ⟨trivial, ?_⟩
        simp only [Stack.push_eq_pushCell _ hlen]
        exact h.pushCell st _ (h.done st hst)
      · have hr := hi.raw (by simpa [Instr.isRaw] using hlen)
        exact fun st hst => ⟨trivial, hr.pushRaw _ _ (hr.pushRaw st _ (h.done st hst))⟩
  | pushSpan bytes => exact fun st hst => ⟨trivial, (hi.raw rfl).pushRaw st bytes (h.done st hst)⟩
  | pushType t => exact fun st hst => ⟨trivial, (hi.raw rfl).pushRaw st _ (h.done st hst)⟩
  | pushRegPtr r => exact h.push _
  | dupe =>
      refine .bind (Q := fun _ => True) (.onStack fun st hst => ?_) fun c _ => h.push c
      cases hp : st.stack.peekCell with
      | ok c => exact ⟨trivial, hst⟩
      | error e => exact ⟨h.peek st e hst hp, hst⟩
  | discard => exact .bind h.pop fun _ _ => .pure trivial h.done
  | discardType => exact .bind (hi.raw rfl).popTag fun _ _ => .pure trivial h.done
  | arith op => exact hi.binary op rfl
  | negate => exact .bind h.pop fun c _ => .bind (h.lift c.tame_negate) fun _ _ => h.push _
  | compare op =>
      refine .bind h.pop fun rhs _ => .bind h.pop fun lhs _ => ?_
      exact .bind (h.ask fun _ heap => Cell.tame_compare op lhs rhs heap) fun _ _ => h.push _
  | and => exact .bind h.popTruth fun _ _ => .bind h.popTruth fun _ _ => h.push _
  | or => exact .bind h.popTruth fun _ _ => .bind h.popTruth fun _ _ => h.push _
  | not => exact .bind h.popTruth fun _ _ => h.push _
  | cast t => exact .bind h.pop fun c _ => .bind (h.lift (c.tame_cast t)) fun _ _ => h.push _
  | store r =>
      exact .bind h.pop fun c hc st hst => ⟨trivial, hi.setRegister r rfl st c hc hst⟩
  | load r => exact .bind (h.ask fun rs _ => .ok (rs.load r)) fun c _ => h.push c
  | storePtr r =>
      refine .bind (h.registerPointer r) fun ptr _ => .bind h.pop fun c _ => ?_
      exact h.update (fun heap => heap.tame_write ptr c.bytes) fun st =>
        hi.write (Or.inr ⟨r, rfl⟩) st ptr c.bytes
  | loadPtr r t =>
      refine .bind (h.registerPointer r) fun ptr _ => ?_
      refine .bind (Q := fun bytes => bytes.length = t.width) ?_ fun bytes hlen st hst => ?_
      · exact .ask (fun _ _ _ hr => Heap.length_of_read hr) fun _ e _ he =>
          h.fault (Heap.tame_read _ ptr t.width) e he
      · refine ⟨trivial, ?_⟩
        simp only [Stack.push_eq_pushCell _ hlen]
        exact h.pushCell st _ (h.done st hst)
  | alloc => exact .bind h.popLength fun len _ => hi.alloc rfl len
  | free =>
      refine .bind h.popPointer fun ptr _ => ?_
      exact h.update (fun heap => heap.tame_free ptr) fun st => hi.free rfl st ptr
  | write =>
      refine .bind h.popPointer fun ptr _ => .bind h.popLength fun len _ => ?_
      refine .bind ((hi.raw rfl).popSpan len) fun bytes _ => ?_
      exact h.update (fun heap => heap.tame_write ptr bytes) fun st =>
        hi.write (Or.inl rfl) st ptr bytes
  | read =>
      refine .bind h.popPointer fun ptr _ => .bind h.popLength fun len _ => ?_
      refine .bind (h.ask fun _ heap => heap.tame_read ptr len) fun bytes _ st hst => ?_
      exact ⟨trivial, (hi.raw rfl).pushRaw st bytes (h.done st hst)⟩
  | _ => exact .pure trivial h.done

/-- The rules for all instructions allow the effects of each. -/
theorem Rules.effects (h : Rules I F R) {i : Instr} (hraw : i.isRaw = true → RawRules I F R)
    (hblocks : i.changesBlocks = true → BlockRules I R) : Effects i I F R where
  setRegister r _ st c := h.setRegister st r c
  binary op _ := .bind h.pop fun rhs _ => .bind h.pop fun lhs _ => h.binary op lhs rhs
  alloc _ := h.alloc
  write hi := (hblocks (by obtain rfl | ⟨r, rfl⟩ := hi <;> rfl)).write
  free hi := (hblocks (by rw [hi]; rfl)).free
  raw := hraw

/-! ## following a store -/

namespace Store

variable {st₀ : Store σ}

theorem stable_follows (st₀ : Store σ) : Stable st₀.Follows where
  setRegister _ r _ hc hst := hst.setRegister r hc
  setHeap _ _ hheap hst := ⟨hst.registers, fun h => hheap (hst.heap h)⟩
  setWorld _ _ hst := ⟨hst.registers, hst.heap⟩

/-- What works on the stack alone leads to stores that follow. -/
theorem keeps_onStack (hF : ∀ e, e.isStray = false → F e) {act : EStateM Fault Stack α}
    {Q : α → Prop} (hact : Keeps (fun _ => True) (fun e => e.isStray = false) act Q) :
    Keeps st₀.Follows F (onStack act) Q := by
  refine .ofStack (hact.mono (fun _ ha => ha) hF) (fun _ _ => trivial) ?_
  exact fun _ _ hst _ => ⟨hst.registers, hst.heap⟩

theorem rules_follows (hF : ∀ e, e.isStray = false → F e) :
    Rules st₀.Follows F st₀.Follows :=
  .of_stable (stable_follows st₀) (fun e he => hF e (Fault.isStray_of_isPlain he))
    (keeps_onStack hF Stack.keeps_popCell) (fun _ e _ he => hF e (Stack.isStray_of_peekCell he))
    (fun _ hst => hst) fun _ _ hst => ⟨hst.registers, hst.heap⟩

theorem rawRules_follows (hF : ∀ e, e.isStray = false → F e) :
    RawRules st₀.Follows F st₀.Follows where
  popTag := keeps_onStack hF Stack.keeps_popTag
  popSpan n := keeps_onStack hF (Stack.keeps_popSpan n)
  pushRaw _ _ hst := ⟨hst.registers, hst.heap⟩

end Store

end CellMachine
