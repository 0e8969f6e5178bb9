import CellMachine.Proofs.Action

/-!
# CellMachine.Proofs.Heap.Call

Calls of heap operations and sequences of them. A call answers or fails; what a
failing call did stays done. A history of a heap is the calls made on it since it
was new.

The rules of growth that every history rests on are here too:

* `le_grown` — a grown memory has room for what it was grown for;
* `capacity_le_allocate` — allocating never shrinks the memory.
-/

namespace CellMachine

namespace Heap

/-- A call of a heap operation. -/
inductive Call where
  | allocate (len : Nat)
  | free (ptr : Nat)
  | lengthOf (ptr : Nat)
  | read (ptr len : Nat)
  | write (ptr : Nat) (bytes : List UInt8)
  | copy (src dst len : Nat)
  | allocateText (text : String)
  | readText (ptr : Nat)
  deriving DecidableEq, Repr

/-- What a call answers. -/
inductive Answer where
  | done
  /-- An address or a length. -/
  | number (n : Nat)
  | bytes (bs : List UInt8)
  | text (s : String)
  deriving DecidableEq, Repr

/-- Carries out a call. -/
def call : Call → HeapM Answer
  | .allocate len => return .number (← HeapM.allocate len)
  | .free ptr => do
    HeapM.update (·.free ptr)
    return .done
  | .lengthOf ptr => return .number (← HeapM.ask (·.lengthOf ptr))
  | .read ptr len => return .bytes (← HeapM.ask (·.read ptr len))
  | .write ptr bs => do
    HeapM.update (·.write ptr bs)
    return .done
  | .copy src dst len => do
    HeapM.update (·.copy src dst len)
    return .done
  | .allocateText text => return .number (← HeapM.allocateText text)
  | .readText ptr => return .text (← HeapM.ask (·.readText ptr))

/-- The heap after a call, whether it answers or fails. -/
def after (h : Heap) (c : Call) : Heap := finalState (call c h)

/-- The heap after a sequence of calls. -/
def afterAll (h : Heap) (cs : List Call) : Heap := cs.foldl after h

@[simp] theorem afterAll_nil (h : Heap) : h.afterAll [] = h := rfl

@[simp] theorem afterAll_cons (h : Heap) (c : Call) (cs : List Call) :
    h.afterAll (c :: cs) = (h.after c).afterAll cs := rfl

/-- What holds of a heap and is kept by every call holds after every sequence of calls. -/
theorem afterAll_induction {P : Heap → Prop} (hstep : ∀ h c, P h → P (h.after c))
    (cs : List Call) {h : Heap} (hh : P h) : P (h.afterAll cs) := by
  induction cs generalizing h with
  | nil => exact hh
  | cons c cs ih => exact ih (hstep h c hh)

/-! ## what the single operations do -/

theorem extent_pos (len : Nat) : 0 < extent len := by
  unfold extent
  omega

/-- Growing never shrinks. -/
theorem le_doubled (fuel size need : Nat) : size ≤ doubled fuel size need := by
  induction fuel generalizing size with
  | zero => exact Nat.le_refl size
  | succ fuel ih =>
      rw [doubled]
      split
      · exact Nat.le_refl size
      · have h := ih (2 * size)
        omega

/-- Doubling reaches what is needed if there is fuel for enough doublings. -/
theorem need_le_doubled (fuel size need : Nat) (h : need ≤ size + fuel) (hsize : 0 < size) :
    need ≤ doubled fuel size need := by
  induction fuel generalizing size with
  | zero =>
      rw [doubled]
      omega
  | succ fuel ih =>
      rw [doubled]
      split
      · assumption
      · exact ih (2 * size) (by omega) (by omega)

/-- A grown memory has room for what it was grown for. -/
theorem le_grown {size : Nat} (hsize : 0 < size) (need : Nat) : need ≤ grown size need :=
  need_le_doubled need size need (by omega) hsize

/-- A request that a freed block of its length can serve takes the last one freed. -/
theorem allocate_of_cons {h : Heap} {len ptr : Nat} {rest : List Nat}
    (hf : h.freedOf len = ptr :: rest) :
    h.allocate len =
      (ptr, { h with live := h.live.insert ptr len, freed := h.freed.insert len rest }) := by
  rw [allocate, hf]

/-- A request that no freed block can serve takes the bytes above the cursor. -/
theorem allocate_of_nil {h : Heap} {len : Nat} (hf : h.freedOf len = []) :
    h.allocate len =
      (h.cursor, { h with
        memory := { h.memory with size := grown h.memory.size (h.cursor + extent len) }
        cursor := h.cursor + extent len
        live := h.live.insert h.cursor len }) := by
  rw [allocate, hf]

theorem capacity_le_allocate (h : Heap) (len : Nat) :
    h.capacity ≤ (h.allocate len).2.capacity := by
  cases hf : h.freedOf len with
  | nil =>
      rw [allocate_of_nil hf]
      exact le_doubled _ _ _
  | cons ptr rest =>
      rw [allocate_of_cons hf]
      exact Nat.le_refl _

/-- A block is freed if it is live, and its address is then the first to be reused. -/
theorem free_eq_ok_iff {h h' : Heap} {ptr : Nat} :
    h.free ptr = .ok h' ↔ ∃ len, h.live[ptr]? = some len ∧
      h' = { h with
        live := h.live.erase ptr
        freed := h.freed.insert len (ptr :: h.freedOf len) } := by
  cases hl : h.live[ptr]? with
  | none => simp [free, lengthOf, length?, hl, bind, Except.bind]
  | some len =>
      simp only [free, lengthOf, length?, hl, bind, Except.bind, pure, Except.pure]
      constructor
      · intro h1
        exact ⟨len, rfl, (Except.ok.inj h1).symm⟩
      · rintro ⟨len', hlen, rfl⟩
        rw [Option.some.inj hlen]

/-- A write succeeds if its range lies in the memory, and changes the memory alone. -/
theorem write_eq_ok_iff {h h' : Heap} {ptr : Nat} {bs : List UInt8} :
    h.write ptr bs = .ok h' ↔
      ptr + bs.length ≤ h.capacity ∧ h' = { h with memory := h.memory.write ptr bs } := by
  by_cases hr : ptr + bs.length ≤ h.capacity
  · simp only [write, checkRange, bind, Except.bind, pure, Except.pure, hr, true_and]
    exact ⟨fun h1 => (Except.ok.inj h1).symm, fun h1 => congrArg _ h1.symm⟩
  · simp [write, checkRange, bind, Except.bind, hr]

/-- A copy that succeeds is a write of what was read. -/
theorem copy_eq_ok {h h' : Heap} {src dst len : Nat} (hc : h.copy src dst len = .ok h') :
    ∃ bs, h.read src len = .ok bs ∧ h.write dst bs = .ok h' := bind_eq_ok hc

/-- What making, freeing and writing blocks keep is kept by every call. -/
theorem after_of_kept {P : Heap → Prop}
    (hallocate : ∀ h len, P h → P (h.allocate len).2)
    (hfree : ∀ h ptr h', P h → h.free ptr = .ok h' → P h')
    (hwrite : ∀ h ptr bs h', P h → h.write ptr bs = .ok h' → P h')
    (h : Heap) (c : Call) (hh : P h) : P (h.after c) := by
  have hread : ∀ {α : Type} (f : Heap → Except Fault α),
      Keeps P (fun _ => True) (HeapM.ask f) fun _ => True :=
    fun f => .askHeap (fun _ _ _ _ => trivial) fun _ _ _ _ => trivial
  have hkeeps : Keeps P (fun _ => True) (call c) fun _ => True := by
    cases c with
    | allocate len => exact .bind (.allocate fun h => hallocate h len) fun _ _ => .pure trivial
    | free ptr =>
        exact .bind (.update (fun h h' => hfree h ptr h') fun _ _ _ _ => trivial) fun _ _ =>
          .pure trivial
    | lengthOf ptr => exact .bind (hread _) fun _ _ => .pure trivial
    | read ptr len => exact .bind (hread _) fun _ _ => .pure trivial
    | write ptr bs =>
        exact .bind (.update (fun h h' => hwrite h ptr bs h') fun _ _ _ _ => trivial) fun _ _ =>
          .pure trivial
    | copy src dst len =>
        refine .bind (.update (fun h h' hp hc => ?_) fun _ _ _ _ => trivial) fun _ _ => .pure trivial
        obtain ⟨bs, -, hw⟩ := copy_eq_ok hc
        exact hwrite h dst bs h' hp hw
    | allocateText text =>
        exact .bind (.allocateText (hallocate · _) (hwrite · · _) fun _ _ _ _ _ => trivial)
          fun _ _ => .pure trivial
    | readText ptr => exact .bind (hread _) fun _ _ => .pure trivial
  exact hkeeps.final hh

end Heap

end CellMachine
