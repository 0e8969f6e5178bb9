import CellMachine.Proofs.Instr
import CellMachine.Stack

/-!
# CellMachine.Proofs.Stack

Cells on the operand stack. `Cell.encode` is a cell as it lies there, payload
first and tag last, and pops are stated about the bytes on top:

* `popCell_of_append` — a cell that lies on top comes off whole;
* `popCell_eq_ok` — what comes off is the cell that lay on top;
* `peekCell_of_popCell`, `peekCell_of_popCell_error` — looking at the cell on top
  comes to what popping it would;
* `shrinks_popCell` — whatever a pop comes to, it only removes bytes.
-/

namespace CellMachine

namespace Cell

/-- The bytes of a cell as they lie on the stack. -/
def encode (c : Cell) : List UInt8 := c.bytes ++ [c.tag.code]

/-- The bytes of cells as they lie on the stack, the first cell at the bottom. -/
def encodeAll (cs : List Cell) : List UInt8 := cs.flatMap encode

@[simp] theorem encodeAll_nil : encodeAll [] = [] := rfl

@[simp] theorem encodeAll_cons (c : Cell) (cs : List Cell) :
    encodeAll (c :: cs) = c.encode ++ encodeAll cs := rfl

@[simp] theorem encodeAll_append (cs ds : List Cell) :
    encodeAll (cs ++ ds) = encodeAll cs ++ encodeAll ds := by
  simp [encodeAll]

/-- A payload of the right width and a tag are the bytes of the cell they spell. -/
theorem encode_ofBytes {t : Tag} {payload : List UInt8} (h : payload.length = t.width) :
    (ofBytes t payload).encode = payload ++ [t.code] := by
  have hfit : fitBytes t.width payload = payload := by
    simp [fitBytes, ← h]
  rw [encode, bytes_ofBytes, hfit]
  rfl

end Cell

namespace Stack

variable {s s' : Stack} {below : List UInt8}

/-! ## pops of bytes -/

theorem popSpan_of_append (s : Stack) {bytes : List UInt8} (h : s.toList = below ++ bytes) :
    ∃ s', popSpan bytes.length s = .ok bytes s' ∧ s'.toList = below := by
  have hlen : s.toList.length - bytes.length = below.length := by
    rw [h, List.length_append, Nat.add_sub_cancel]
  have hle : bytes.length ≤ s.toList.length := by
    rw [h, List.length_append]
    exact Nat.le_add_left ..
  obtain ⟨s', hpop, hrest⟩ := popSpan_of_le hle
  rw [hlen, h, List.drop_left] at hpop
  rw [hlen, h, List.take_left] at hrest
  exact ⟨s', hpop, hrest⟩

/-- What a pop of bytes takes off lay on top. -/
theorem popSpan_eq_ok {n : Nat} {bytes : List UInt8} (h : popSpan n s = .ok bytes s') :
    bytes.length = n ∧ s.toList = s'.toList ++ bytes := by
  by_cases hn : n ≤ s.toList.length
  · obtain ⟨t, hpop, hrest⟩ := popSpan_of_le hn
    rw [h] at hpop
    obtain ⟨rfl, rfl⟩ := EStateM.Result.ok.inj hpop
    rw [hrest, List.take_append_drop]
    exact ⟨by simp only [List.length_drop]; omega, rfl⟩
  · rw [popSpan_of_lt (by omega)] at h
    contradiction

/-- A pop of bytes that fails finds too few of them and removes none. -/
theorem popSpan_eq_error {n : Nat} {e : Fault} (h : popSpan n s = .error e s') :
    s.toList.length < n ∧ e = .stackUnderflow n s.toList.length ∧ s' = s := by
  by_cases hn : n ≤ s.toList.length
  · obtain ⟨t, hpop, -⟩ := popSpan_of_le hn
    rw [h] at hpop
    contradiction
  · rw [popSpan_of_lt (by omega)] at h
    obtain ⟨rfl, rfl⟩ := EStateM.Result.error.inj h
    exact ⟨by omega, rfl, rfl⟩

/-! ## pops of cells -/

theorem popTag_of_append (s : Stack) {t : Tag} (h : s.toList = below ++ [t.code]) :
    ∃ s', popTag s = .ok t s' ∧ s'.toList = below := by
  obtain ⟨s', hpop, hrest⟩ := popSpan_of_append s h
  have hspan : popSpan 1 s = .ok [t.code] s' := hpop
  refine ⟨s', ?_, hrest⟩
  rw [popTag, bind_run_of_ok hspan, List.headD_cons, Tag.ofCode_code]
  rfl

theorem popTag_eq_ok {t : Tag} (h : popTag s = .ok t s') : s.toList = s'.toList ++ [t.code] := by
  obtain ⟨span, s₁, hspan, hrest⟩ := bind_run_eq_ok h
  obtain ⟨hlen, hbytes⟩ := popSpan_eq_ok hspan
  obtain ⟨b, rfl⟩ := List.length_eq_one_iff.mp hlen
  rw [List.headD_cons] at hrest
  cases hcode : Tag.ofCode b with
  | error e =>
      simp only [hcode] at hrest
      contradiction
  | ok u =>
      simp only [hcode] at hrest
      obtain ⟨rfl, rfl⟩ := EStateM.Result.ok.inj hrest
      rw [hbytes, Tag.code_of_ofCode hcode]

/-- A cell that lies on top comes off whole. -/
theorem popCell_of_append (s : Stack) {c : Cell} (hc : c.WellFormed)
    (h : s.toList = below ++ c.encode) : ∃ s', popCell s = .ok c s' ∧ s'.toList = below := by
  -- the tag comes off first and says how many bytes lie below it
  rw [Cell.encode, ← List.append_assoc] at h
  obtain ⟨s₁, htag, hrest⟩ := popTag_of_append s h
  obtain ⟨s₂, hpayload, hbelow⟩ := popSpan_of_append s₁ hrest
  rw [Cell.length_bytes] at hpayload
  refine ⟨s₂, ?_, hbelow⟩
  rw [popCell, bind_run_of_ok htag, bind_run_of_ok hpayload, Cell.ofBytes_bytes hc]
  rfl

/-- What a pop of a cell takes off is the cell that lay on top. -/
theorem popCell_eq_ok {c : Cell} (h : popCell s = .ok c s') :
    c.WellFormed ∧ s.toList = s'.toList ++ c.encode := by
  obtain ⟨t, s₁, htag, h⟩ := bind_run_eq_ok h
  obtain ⟨payload, s₂, hpayload, h⟩ := bind_run_eq_ok h
  obtain ⟨rfl, rfl⟩ := EStateM.Result.ok.inj h
  obtain ⟨hlen, hbelow⟩ := popSpan_eq_ok hpayload
  refine ⟨Cell.wellFormed_ofBytes t payload, ?_⟩
  rw [popTag_eq_ok htag, hbelow, Cell.encode_ofBytes hlen, List.append_assoc]

/-- On an empty stack there is not even a tag. -/
theorem popTag_of_nil (h : s.toList = []) : popTag s = .error (.stackUnderflow 1 0) s := by
  have hspan : popSpan 1 s = .error (.stackUnderflow 1 0) s := by
    have hlt : s.toList.length < 1 := by simp [h]
    rw [popSpan_of_lt hlt, h]
    rfl
  exact bind_run_of_error hspan

theorem popCell_of_nil (h : s.toList = []) : popCell s = .error (.stackUnderflow 1 0) s :=
  bind_run_of_error (popTag_of_nil h)

/-! ## looking at the cell on top -/

theorem peekTag_of_append (s : Stack) {b : UInt8} (h : s.toList = below ++ [b]) :
    s.peekTag = Tag.ofCode b := by
  have hlen : s.cursor = below.length + 1 := by
    rw [← s.length_toList, h, List.length_append, List.length_singleton]
  have hbyte : s.buffer.getD (s.cursor - 1) 0 = b := by
    have htop : s.toList[s.cursor - 1]? = some b := by
      rw [h, hlen]
      simp
    rw [toList_eq_take, List.getElem?_take_of_lt (by omega)] at htop
    simp only [Array.getElem?_toList] at htop
    simp [htop]
  rw [peekTag, if_neg (by omega), hbyte]

/-- A cell that lies on top is seen whole. -/
theorem peekCell_of_append (s : Stack) {c : Cell} (hc : c.WellFormed)
    (h : s.toList = below ++ c.encode) : s.peekCell = .ok c := by
  have hlen : s.cursor = below.length + c.tag.width + 1 := by
    rw [← s.length_toList, h, Cell.encode]
    simp only [List.length_append, Cell.length_bytes, List.length_singleton]
    omega
  have htag : s.peekTag = .ok c.tag := by
    rw [Cell.encode, ← List.append_assoc] at h
    rw [s.peekTag_of_append h, Tag.ofCode_code]
  have hpayload :
      (s.buffer.extract (s.cursor - 1 - c.tag.width) (s.cursor - 1)).toList = c.bytes := by
    have hspan : (s.toList.drop below.length).take c.tag.width = c.bytes := by
      rw [h, List.drop_left, Cell.encode, List.take_left' (Cell.length_bytes c)]
    have hfrom : s.cursor - 1 - c.tag.width = below.length := by omega
    rw [toList_eq_take, List.drop_take, List.take_take] at hspan
    rw [Array.toList_extract, List.extract_eq_take_drop, hfrom, ← hspan]
    congr 1
    omega
  unfold peekCell
  rw [htag]
  change (if s.cursor < c.tag.width + 1 then _ else _) = _
  rw [if_neg (by omega), hpayload, Cell.ofBytes_bytes hc]

theorem peekTag_of_nil (h : s.toList = []) : s.peekTag = .error (.stackUnderflow 1 0) := by
  have hcursor : s.cursor = 0 := by rw [← s.length_toList, h, List.length_nil]
  rw [peekTag, if_pos hcursor]

theorem peekCell_of_nil (h : s.toList = []) : s.peekCell = .error (.stackUnderflow 1 0) := by
  rw [peekCell, peekTag_of_nil h]
  rfl

/-- A cell whose payload is cut short is not seen. -/
theorem peekCell_of_short (s : Stack) {t : Tag} (h : s.toList = below ++ [t.code])
    (hshort : below.length < t.width) :
    s.peekCell = .error (.stackUnderflow (t.width + 1) s.toList.length) := by
  have hlen : s.cursor = below.length + 1 := by
    rw [← s.length_toList, h, List.length_append, List.length_singleton]
  unfold peekCell
  rw [s.peekTag_of_append h, Tag.ofCode_code, s.length_toList]
  exact if_pos (by omega)

/-- What would be popped is what is seen. -/
theorem peekCell_of_popCell {c : Cell} (h : popCell s = .ok c s') : s.peekCell = .ok c := by
  obtain ⟨hc, hbytes⟩ := popCell_eq_ok h
  exact peekCell_of_append s hc hbytes

/-- Where a pop would fail, nothing is seen, for the same reason; the numbers of an underflow may
differ, since a pop takes the tag off before it misses the payload. -/
theorem peekCell_of_popCell_error {e : Fault} (h : popCell s = .error e s') :
    ∃ e', s.peekCell = .error e' ∧ (e' = e ∨ e.isUnderflow = true ∧ e'.isUnderflow = true) := by
  rcases bind_run_eq_error h with htag | ⟨t, s₁, htag, hpayload⟩
  · rcases bind_run_eq_error htag with hspan | ⟨span, s₁, hspan, hcode⟩
    · -- there is no tag
      obtain ⟨hshort, rfl, -⟩ := popSpan_eq_error hspan
      have hnil : s.toList = [] := List.length_eq_zero_iff.mp (by omega)
      exact ⟨_, peekCell_of_nil hnil, Or.inr ⟨rfl, rfl⟩⟩
    · -- the byte on top is no tag
      obtain ⟨hlen, hbytes⟩ := popSpan_eq_ok hspan
      obtain ⟨b, rfl⟩ := List.length_eq_one_iff.mp hlen
      have hpeek := s.peekTag_of_append hbytes
      cases hb : Tag.ofCode b with
      | ok t =>
          rw [List.headD_cons, hb] at hcode
          contradiction
      | error e' =>
          rw [List.headD_cons, hb] at hcode
          obtain ⟨rfl, -⟩ := EStateM.Result.error.inj hcode
          rw [hb] at hpeek
          exact ⟨e', by rw [peekCell, hpeek]; rfl, Or.inl rfl⟩
  · -- the payload is cut short
    rcases bind_run_eq_error hpayload with hspan | ⟨payload, s₂, -, hpure⟩
    · obtain ⟨hmissing, rfl, -⟩ := popSpan_eq_error hspan
      exact ⟨_, peekCell_of_short s (popTag_eq_ok htag) hmissing, Or.inr ⟨rfl, rfl⟩⟩
    · contradiction

/-! ## what pops leave -/

section Shrinks

variable (l : List UInt8)

theorem shrinks_popSpan (n : Nat) :
    Keeps (fun s => s.toList <+: l) (fun _ => True) (popSpan n) fun _ => True := by
  intro s hs
  cases h : popSpan n s with
  | ok bytes s' =>
      obtain ⟨-, hbytes⟩ := popSpan_eq_ok h
      rw [hbytes] at hs
      exact ⟨trivial, (List.prefix_append _ _).trans hs⟩
  | error e s' =>
      obtain ⟨-, -, rfl⟩ := popSpan_eq_error h
      exact ⟨trivial, hs⟩

theorem shrinks_popTag :
    Keeps (fun s => s.toList <+: l) (fun _ => True) popTag fun _ => True := by
  refine .bind (shrinks_popSpan l 1) fun span _ => ?_
  cases Tag.ofCode (span.headD 0) with
  | ok t => exact .pure trivial
  | error e => exact .throw trivial

/-- Whatever a pop of a cell comes to, it only removes bytes. -/
theorem shrinks_popCell :
    Keeps (fun s => s.toList <+: l) (fun _ => True) popCell Cell.WellFormed :=
  .bind (shrinks_popTag l) fun t _ => .bind (shrinks_popSpan l t.width) fun payload _ =>
    .pure (Cell.wellFormed_ofBytes t payload)

end Shrinks

end Stack

end CellMachine
