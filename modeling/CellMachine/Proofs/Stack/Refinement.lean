import CellMachine.Proofs.Stack
import CellMachine.Proofs.Trace

/-!
# CellMachine.Proofs.Stack.Refinement

The operand stack is a plain list of bytes. The buffer that it is kept in, how
that buffer has grown and what pops have left in it above the cursor cannot be
told from outside: every sequence of calls, failing ones included, comes to the
same as on a list, where pushing appends at the end and popping removes there
(`ByteList`).
-/

namespace CellMachine

/-- Looks at the state without changing it. -/
def look {ε σ α : Type} (f : σ → Except ε α) : EStateM ε σ α := fun s =>
  match f s with
  | .ok a => .ok a s
  | .error e => .error e s

/-! ## the list of bytes -/

namespace ByteList

/-- The tag at the end of the list. -/
def topTag (l : List UInt8) : Except Fault Tag :=
  match l.getLast? with
  | none => .error (.stackUnderflow 1 0)
  | some b => Tag.ofCode b

/-- Removes `n` bytes at the end, or none at all if there are fewer. -/
def popSpan (n : Nat) : EStateM Fault (List UInt8) (List UInt8) := fun l =>
  if l.length < n then .error (.stackUnderflow n l.length) l
  else .ok (l.drop (l.length - n)) (l.take (l.length - n))

/-- Removes the byte at the end, also if it is no tag. -/
def popTag : EStateM Fault (List UInt8) Tag := fun l =>
  match topTag l with
  | .ok t => .ok t l.dropLast
  | .error e => .error e l.dropLast

/-- Removes the tag at the end and its payload, or the tag alone if the payload is cut short. -/
def popCell : EStateM Fault (List UInt8) Cell := fun l =>
  match topTag l with
  | .ok t =>
    let below := l.dropLast
    if below.length < t.width then .error (.stackUnderflow t.width below.length) below
    else
      let rest := below.length - t.width
      .ok (.ofBytes t (below.drop rest)) (below.take rest)
  | .error e => .error e l.dropLast

/-- The cell at the end of the list. -/
def topCell (l : List UInt8) : Except Fault Cell :=
  match topTag l with
  | .ok t =>
    let below := l.dropLast
    if below.length < t.width then .error (.stackUnderflow (t.width + 1) l.length)
    else .ok (.ofBytes t (below.drop (below.length - t.width)))
  | .error e => .error e

@[simp] theorem topTag_nil : topTag [] = .error (.stackUnderflow 1 0) := rfl

@[simp] theorem topTag_append (l : List UInt8) (b : UInt8) : topTag (l ++ [b]) = Tag.ofCode b := by
  simp [topTag]

/-- A cell is removed tag first. -/
theorem popCell_eq : popCell = do
    let t ← popTag
    let payload ← popSpan t.width
    return .ofBytes t payload := by
  funext l
  cases htop : topTag l with
  | error e =>
      have htag : popTag l = .error e l.dropLast := by simp only [popTag, htop]
      rw [bind_run_of_error htag]
      simp only [popCell, htop]
  | ok t =>
      have htag : popTag l = .ok t l.dropLast := by simp only [popTag, htop]
      rw [bind_run_of_ok htag]
      by_cases hshort : l.dropLast.length < t.width
      · have hspan : popSpan t.width l.dropLast = _ := if_pos hshort
        rw [bind_run_of_error hspan]
        simp only [popCell, htop, if_pos hshort]
      · have hspan : popSpan t.width l.dropLast = _ := if_neg hshort
        rw [bind_run_of_ok hspan]
        simp only [popCell, htop, if_neg hshort]
        rfl

end ByteList

namespace Stack

/-! ## calls -/

/-- A call of a stack operation. -/
inductive Call where
  | pushRaw (bytes : List UInt8)
  | push (payload : List UInt8) (t : Tag)
  | pushCell (c : Cell)
  | popSpan (n : Nat)
  | popTag
  | peekTag
  | popCell
  | peekCell
  deriving DecidableEq, Repr

/-- What a call answers. -/
inductive Answer where
  | done
  | bytes (bs : List UInt8)
  | tag (t : Tag)
  | cell (c : Cell)
  deriving DecidableEq, Repr

/-- Carries out a call on the stack. -/
def call : Call → EStateM Fault Stack Answer
  | .pushRaw bytes => fun s => .ok .done (s.pushRaw bytes)
  | .push payload t => fun s => .ok .done (s.push payload t)
  | .pushCell c => fun s => .ok .done (s.pushCell c)
  | .popSpan n => return .bytes (← popSpan n)
  | .popTag => return .tag (← popTag)
  | .peekTag => return .tag (← look peekTag)
  | .popCell => return .cell (← popCell)
  | .peekCell => return .cell (← look peekCell)

/-- Carries out a call on a list of bytes. -/
def callBytes : Call → EStateM Fault (List UInt8) Answer
  | .pushRaw bytes => fun l => .ok .done (l ++ bytes)
  | .push payload t => fun l => .ok .done (l ++ payload ++ [t.code])
  | .pushCell c => fun l => .ok .done (l ++ c.bytes ++ [c.tag.code])
  | .popSpan n => return .bytes (← ByteList.popSpan n)
  | .popTag => return .tag (← ByteList.popTag)
  | .peekTag => return .tag (← look ByteList.topTag)
  | .popCell => return .cell (← ByteList.popCell)
  | .peekCell => return .cell (← look ByteList.topCell)

/-! ## the single operations -/

/-- The live bytes of the stack are those of the list. -/
def Shows (s : Stack) (l : List UInt8) : Prop := s.toList = l

variable {s : Stack} {l : List UInt8}

theorem alike_look {α : Type} {f : Stack → Except Fault α} {g : List UInt8 → Except Fault α}
    (hs : s.Shows l) (hf : f s = g l) : Alike Shows (look f s) (look g l) := by
  unfold look
  rw [hf]
  cases g l with
  | ok a => exact .ok a hs
  | error e => exact .error e hs

theorem alike_popSpan (hs : s.Shows l) (n : Nat) :
    Alike Shows (popSpan n s) (ByteList.popSpan n l) := by
  subst hs
  by_cases hn : s.toList.length < n
  · rw [popSpan_of_lt hn, ByteList.popSpan, if_pos hn]
    exact .error _ rfl
  · obtain ⟨s', hpop, hrest⟩ := popSpan_of_le (Nat.le_of_not_lt hn)
    rw [hpop, ByteList.popSpan, if_neg hn]
    exact .ok _ hrest

theorem alike_popTag (hs : s.Shows l) : Alike Shows (popTag s) (ByteList.popTag l) := by
  subst hs
  rcases List.eq_nil_or_concat s.toList with hnil | ⟨below, b, hbytes⟩
  · rw [popTag_of_nil hnil, hnil]
    exact .error _ hnil
  · rw [List.concat_eq_append] at hbytes
    obtain ⟨s', hspan, hrest⟩ := popSpan_of_append s hbytes
    have hspan : popSpan 1 s = .ok [b] s' := hspan
    rw [popTag, bind_run_of_ok hspan, List.headD_cons, ByteList.popTag, hbytes, ByteList.topTag_append,
      List.dropLast_concat]
    cases Tag.ofCode b with
    | ok t => exact .ok t hrest
    | error e => exact .error e hrest

theorem alike_popCell (hs : s.Shows l) : Alike Shows (popCell s) (ByteList.popCell l) := by
  rw [ByteList.popCell_eq]
  exact .bind (alike_popTag hs) fun t _ _ hs => .map _ (alike_popSpan hs t.width)

theorem peekTag_eq (s : Stack) : s.peekTag = ByteList.topTag s.toList := by
  rcases List.eq_nil_or_concat s.toList with hnil | ⟨below, b, hbytes⟩
  · rw [peekTag_of_nil hnil, hnil, ByteList.topTag_nil]
  · rw [List.concat_eq_append] at hbytes
    rw [s.peekTag_of_append hbytes, hbytes, ByteList.topTag_append]

theorem peekCell_eq (s : Stack) : s.peekCell = ByteList.topCell s.toList := by
  rcases List.eq_nil_or_concat s.toList with hnil | ⟨below, b, hbytes⟩
  · rw [peekCell_of_nil hnil, hnil]
    rfl
  · rw [List.concat_eq_append] at hbytes
    have htop : ByteList.topTag s.toList = Tag.ofCode b := by rw [hbytes, ByteList.topTag_append]
    have hbelow : s.toList.dropLast = below := by rw [hbytes, List.dropLast_concat]
    cases htag : Tag.ofCode b with
    | error e =>
        rw [htag] at htop
        rw [peekCell, s.peekTag_eq, ByteList.topCell, htop]
        rfl
    | ok t =>
        rw [htag] at htop
        obtain rfl := Tag.code_of_ofCode htag
        simp only [ByteList.topCell, htop, hbelow]
        by_cases hshort : below.length < t.width
        · rw [peekCell_of_short s hbytes hshort, if_pos hshort]
        · -- the payload lies right below the tag
          have hlen : (below.drop (below.length - t.width)).length = t.width := by
            rw [List.length_drop]
            omega
          have hcell : s.toList = below.take (below.length - t.width) ++
              (Cell.ofBytes t (below.drop (below.length - t.width))).encode := by
            rw [Cell.encode_ofBytes hlen, ← List.append_assoc, List.take_append_drop, hbytes]
          rw [peekCell_of_append s (Cell.wellFormed_ofBytes _ _) hcell, if_neg hshort]

/-! ## sequences of calls -/

/-- **One call** comes to the same on the stack and on the list of its bytes. -/
theorem alike_call (c : Call) (hs : s.Shows l) : Alike Shows (call c s) (callBytes c l) := by
  cases c with
  | pushRaw bytes => exact .ok _ (hs ▸ toList_pushRaw s bytes)
  | push payload t => exact .ok _ (hs ▸ toList_push s payload t)
  | pushCell c => exact .ok _ (hs ▸ toList_pushCell s c)
  | popSpan n => exact .map _ (alike_popSpan hs n)
  | popTag => exact .map _ (alike_popTag hs)
  | peekTag => exact .map _ (alike_look hs (hs ▸ s.peekTag_eq))
  | popCell => exact .map _ (alike_popCell hs)
  | peekCell => exact .map _ (alike_look hs (hs ▸ s.peekCell_eq))

/-- **The operand stack is a list of bytes**: whatever its capacity at first, calls have the same
answers and faults as on a list, and after each of them the live bytes are those of the list. The
same holds from any stack on, whatever its buffer and the bytes above its cursor. -/
theorem refines_bytes (capacity : Nat) (calls : List Call) :
    List.Forall₂ (Alike Shows) (trace call calls (withCapacity capacity))
        (trace callBytes calls []) ∧
      ∀ s : Stack, List.Forall₂ (Alike Shows) (trace call calls s)
        (trace callBytes calls s.toList) := by
  have hrun : ∀ s : Stack, List.Forall₂ (Alike Shows) (trace call calls s)
      (trace callBytes calls s.toList) := fun s =>
    forall₂_trace (P := fun _ _ => True) (fun c _ _ hs _ => alike_call c hs) calls rfl
      fun _ _ => trivial
  refine ⟨?_, hrun⟩
  have hnew := hrun (withCapacity capacity)
  rwa [toList_withCapacity] at hnew

/-- A tag whose payload is missing is all that is removed. -/
example : trace callBytes [.pushRaw [Tag.word.code, 1, Tag.dint.code], .popCell, .popTag, .popTag] [] =
    [.ok .done [5, 1, 7], .error (.stackUnderflow 8 2) [5, 1], .ok (.tag .real) [5],
      .ok (.tag .word) []] := rfl

end Stack

end CellMachine
