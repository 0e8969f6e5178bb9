import CellMachine.Instr
import CellMachine.Proofs.Action

/-!
# CellMachine.Proofs.Instr

Reading and writing of instructions are inverse to each other:

* `decode_encode` — where the bytes of an instruction stand, it is read;
* `decode_sound` — what is read as an instruction stands there as its bytes.

Both are stated about the bytes from a position on, so that they can be chained
from instruction to instruction. `keeps_decode` adds that reading, successful or
not, never moves the position out of the program, and `misreads_of_decode` what
stops it.
-/

namespace CellMachine

/-- A byte stands for at most one tag. -/
theorem Tag.code_of_ofCode? {b : UInt8} {t : Tag} (h : ofCode? b = some t) : t.code = b := by
  have hcode : all[t.code.toNat]? = some t := t.ofCode?_code
  have hlt : t.code.toNat < all.length := by cases t <;> decide
  have hnodup : all.Nodup := by decide
  have heq := (List.getElem?_inj hlt hnodup).mp (hcode.trans h.symm)
  exact UInt8.toNat_inj.mp heq

theorem Tag.code_of_ofCode {b : UInt8} {t : Tag} (h : ofCode b = .ok t) : t.code = b := by
  unfold ofCode at h
  split at h
  · next u hu => exact Except.ok.inj h ▸ code_of_ofCode? hu
  · contradiction

@[simp] theorem Tag.ofCode_code (t : Tag) : ofCode t.code = .ok t := by
  rw [ofCode, ofCode?_code]

namespace Instr

variable {p : Program} {ip ip' : Nat}

/-- The operands have the sizes that reading assumes: a payload the width of its tag, a span a
length that its length field can say. -/
def Sized : Instr → Prop
  | push t payload => payload.length = t.width
  | pushSpan bytes => bytes.length < byteRange 4
  | _ => True

/-! ## where bytes stand, they are read -/

/-- A position with bytes after it lies in the program. -/
theorem lt_size_of_drop {b : UInt8} {rest : List UInt8} (h : p.toList.drop ip = b :: rest) :
    ip < p.size := by
  have hlen := congrArg List.length h
  rw [List.length_drop, Array.length_toList, List.length_cons] at hlen
  omega

theorem add_length_le_size {bs rest : List UInt8} (hle : ip ≤ p.size)
    (h : p.toList.drop ip = bs ++ rest) : ip + bs.length ≤ p.size := by
  have hlen := congrArg List.length h
  rw [List.length_drop, Array.length_toList, List.length_append] at hlen
  omega

theorem drop_add {bs rest : List UInt8} (h : p.toList.drop ip = bs ++ rest) :
    p.toList.drop (ip + bs.length) = rest := by
  rw [← List.drop_drop, h, List.drop_left]

theorem drop_succ {b : UInt8} {rest : List UInt8} (h : p.toList.drop ip = b :: rest) :
    p.toList.drop (ip + 1) = rest := by
  rw [← List.drop_drop, h, List.drop_one, List.tail_cons]

theorem readByte_of_drop {b : UInt8} {rest : List UInt8} (h : p.toList.drop ip = b :: rest) :
    readByte p ip = .ok b (ip + 1) := by
  have hlt := lt_size_of_drop h
  have hb : p[ip] = b := by
    have hget := List.getElem_cons_drop (show ip < p.toList.length by simpa using hlt)
    rw [h] at hget
    simpa using (List.cons.inj hget).1
  rw [readByte, dif_pos hlt, hb]

theorem readOpcode_of_drop {o : Opcode} {rest : List UInt8}
    (h : p.toList.drop ip = o.code :: rest) : readOpcode p ip = .ok o (ip + 1) := by
  have hlt := lt_size_of_drop h
  have hread := readByte_of_drop h
  rw [readByte, dif_pos hlt] at hread
  have hb : p[ip] = o.code := (EStateM.Result.ok.inj hread).1
  rw [readOpcode, dif_pos hlt, hb, Opcode.ofCode?_code]

theorem readTag_of_drop {t : Tag} {rest : List UInt8} (h : p.toList.drop ip = t.code :: rest) :
    readTag p ip = .ok t (ip + 1) := by
  rw [readTag, bind_run_of_ok (readByte_of_drop h), Tag.ofCode_code]
  rfl

theorem readBytes_of_drop {n : Nat} {bs rest : List UInt8} (hn : bs.length = n)
    (hle : ip ≤ p.size) (h : p.toList.drop ip = bs ++ rest) :
    readBytes p n ip = .ok bs (ip + n) := by
  subst hn
  have hbytes : (p.extract ip (ip + bs.length)).toList = bs := by
    rw [Array.toList_extract, List.extract_eq_take_drop, Nat.add_sub_cancel_left, h, List.take_left]
  rw [readBytes, if_pos (add_length_le_size hle h), hbytes]

/-- Where the operands of an instruction stand, they are read. -/
theorem readOperands_of_drop {i : Instr} {rest : List UInt8} (hi : i.Sized) (hle : ip ≤ p.size)
    (h : p.toList.drop ip = i.operandBytes ++ rest) :
    readOperands p i.opcode ip = .ok i (ip + i.operandBytes.length) := by
  cases i with
  | push t payload =>
      have hrest := drop_succ h
      have hsize := lt_size_of_drop h
      have hlen : payload.length = t.width := hi
      rw [opcode, readOperands, bind_run_of_ok (readTag_of_drop h),
        bind_run_of_ok (readBytes_of_drop hi hsize hrest), operandBytes, List.length_cons, hlen,
        Nat.add_comm t.width, ← Nat.add_assoc]
      rfl
  | pushSpan bytes =>
      rw [operandBytes, List.append_assoc] at h
      have hlen : leNat (leBytes 4 bytes.length) = bytes.length := by
        rw [leNat_leBytes, Nat.mod_eq_of_lt hi]
      have hrest := drop_add h
      have hfield := readBytes_of_drop (length_leBytes 4 bytes.length) hle h
      rw [length_leBytes] at hrest
      have hsize := add_length_le_size hle h
      rw [length_leBytes] at hsize
      rw [opcode, readOperands, bind_run_of_ok hfield, hlen,
        bind_run_of_ok (readBytes_of_drop rfl hsize hrest), operandBytes, List.length_append,
        length_leBytes, ← Nat.add_assoc]
      rfl
  | pushType t =>
      rw [opcode, readOperands, bind_run_of_ok (readTag_of_drop h)]
      rfl
  | pushRegPtr r =>
      rw [opcode, readOperands, bind_run_of_ok (readByte_of_drop h)]
      rfl
  | cast t =>
      rw [opcode, readOperands, bind_run_of_ok (readTag_of_drop h)]
      rfl
  | store r =>
      rw [opcode, readOperands, bind_run_of_ok (readByte_of_drop h)]
      rfl
  | load r =>
      rw [opcode, readOperands, bind_run_of_ok (readByte_of_drop h)]
      rfl
  | storePtr r =>
      rw [opcode, readOperands, bind_run_of_ok (readByte_of_drop h)]
      rfl
  | loadPtr r t =>
      have hrest := drop_succ h
      rw [opcode, readOperands, bind_run_of_ok (readByte_of_drop h),
        bind_run_of_ok (readTag_of_drop hrest)]
      rfl
  | arith op => cases op <;> rfl
  | compare op => cases op <;> rfl
  | _ => rfl

/-- **Where the bytes of an instruction stand, it is read**, and reading goes on after them. -/
theorem decode_encode {i : Instr} {rest : List UInt8} (hi : i.Sized)
    (h : p.toList.drop ip = i.encode ++ rest) : decode p ip = .ok i (ip + i.encode.length) := by
  have hsize := lt_size_of_drop h
  have hrest : p.toList.drop (ip + 1) = i.operandBytes ++ rest := drop_succ h
  have hend : ip + i.encode.length = ip + 1 + i.operandBytes.length := by
    rw [encode, List.length_cons]
    omega
  rw [decode, bind_run_of_ok (readOpcode_of_drop h), hend]
  exact readOperands_of_drop hi hsize hrest

theorem sized_of_bare {i : Instr} (hbare : i.operandBytes = []) : i.Sized := by
  cases i with
  | push t payload => simp [operandBytes] at hbare
  | pushSpan bytes =>
      have hlen := congrArg List.length hbare
      simp [operandBytes] at hlen
  | _ => trivial

/-- An instruction without operands is read wherever its opcode stands. -/
theorem decode_of_bare {i : Instr} (hbare : i.operandBytes = [])
    (h : p[ip]? = some i.opcode.code) : decode p ip = .ok i (ip + 1) := by
  obtain ⟨hlt, hbyte⟩ := Array.getElem?_eq_some_iff.mp h
  have hdrop : p.toList.drop ip = i.encode ++ p.toList.drop (ip + 1) := by
    rw [List.drop_eq_getElem_cons (by simpa using hlt), Array.getElem_toList, hbyte, encode, hbare]
    rfl
  have hread := decode_encode (sized_of_bare hbare) hdrop
  rw [encode, hbare] at hread
  exact hread

/-! ## what is read stands there -/

theorem drop_of_readByte {b : UInt8} (h : readByte p ip = .ok b ip') :
    ip' = ip + 1 ∧ p.toList.drop ip = b :: p.toList.drop ip' := by
  unfold readByte at h
  split at h
  · next hlt =>
      obtain ⟨rfl, rfl⟩ := EStateM.Result.ok.inj h
      refine ⟨rfl, ?_⟩
      rw [List.drop_eq_getElem_cons (by simpa using hlt), Array.getElem_toList]
  · contradiction

theorem drop_of_readTag {t : Tag} (h : readTag p ip = .ok t ip') :
    ip' = ip + 1 ∧ p.toList.drop ip = t.code :: p.toList.drop ip' := by
  obtain ⟨b, ip1, hb, ht⟩ := bind_run_eq_ok h
  cases hcode : Tag.ofCode b with
  | error e => rw [hcode] at ht; contradiction
  | ok u =>
      rw [hcode] at ht
      obtain ⟨rfl, rfl⟩ := EStateM.Result.ok.inj ht
      rw [Tag.code_of_ofCode hcode]
      exact drop_of_readByte hb

theorem drop_of_readBytes {n : Nat} {bs : List UInt8} (h : readBytes p n ip = .ok bs ip') :
    bs.length = n ∧ ip' = ip + n ∧ p.toList.drop ip = bs ++ p.toList.drop ip' := by
  unfold readBytes at h
  split at h
  · next hle =>
      obtain ⟨rfl, rfl⟩ := EStateM.Result.ok.inj h
      refine ⟨by simp; omega, rfl, ?_⟩
      rw [Array.toList_extract, List.extract_eq_take_drop, Nat.add_sub_cancel_left,
        ← List.drop_drop, List.take_append_drop]
  · contradiction

theorem drop_of_readOpcode {o : Opcode} (h : readOpcode p ip = .ok o ip') :
    ip' = ip + 1 ∧ p.toList.drop ip = o.code :: p.toList.drop ip' := by
  unfold readOpcode at h
  split at h
  · next hlt =>
      split at h
      · next u hu =>
          obtain ⟨rfl, rfl⟩ := EStateM.Result.ok.inj h
          refine ⟨rfl, ?_⟩
          rw [List.drop_eq_getElem_cons (by simpa using hlt), Array.getElem_toList,
            Opcode.code_of_ofCode? hu]
      · contradiction
  · contradiction

/-- What is read as operands stands there as their bytes. -/
theorem drop_of_readOperands {o : Opcode} {i : Instr} (h : readOperands p o ip = .ok i ip') :
    i.opcode = o ∧ i.Sized ∧ ip' = ip + i.operandBytes.length ∧
      p.toList.drop ip = i.operandBytes ++ p.toList.drop ip' := by
  cases o with
  | push =>
      obtain ⟨t, ip1, ht, h⟩ := bind_run_eq_ok h
      obtain ⟨payload, ip2, hpayload, h⟩ := bind_run_eq_ok h
      obtain ⟨rfl, rfl⟩ := EStateM.Result.ok.inj h
      obtain ⟨rfl, htag⟩ := drop_of_readTag ht
      obtain ⟨hlen, rfl, hbytes⟩ := drop_of_readBytes hpayload
      refine ⟨rfl, hlen, ?_, ?_⟩
      · rw [operandBytes, List.length_cons]
        omega
      · rw [htag, hbytes]
        rfl
  | pushSpan =>
      obtain ⟨field, ip1, hfield, h⟩ := bind_run_eq_ok h
      obtain ⟨bytes, ip2, hbytes, h⟩ := bind_run_eq_ok h
      obtain ⟨rfl, rfl⟩ := EStateM.Result.ok.inj h
      obtain ⟨hfour, rfl, hdrop⟩ := drop_of_readBytes hfield
      obtain ⟨hlen, rfl, hrest⟩ := drop_of_readBytes hbytes
      have hback : leBytes 4 bytes.length = field := by
        rw [hlen, ← hfour]
        exact leBytes_leNat field
      refine ⟨rfl, ?_, ?_, ?_⟩
      · have hlt := leNat_lt field
        rw [hfour] at hlt
        change bytes.length < byteRange 4
        omega
      · rw [operandBytes, List.length_append, length_leBytes]
        omega
      · rw [hdrop, hrest, operandBytes, hback, List.append_assoc]
  | pushType =>
      obtain ⟨t, ip1, ht, h⟩ := bind_run_eq_ok h
      obtain ⟨rfl, rfl⟩ := EStateM.Result.ok.inj h
      exact ⟨rfl, trivial, drop_of_readTag ht⟩
  | pushRegPtr =>
      obtain ⟨r, ip1, hr, h⟩ := bind_run_eq_ok h
      obtain ⟨rfl, rfl⟩ := EStateM.Result.ok.inj h
      exact ⟨rfl, trivial, drop_of_readByte hr⟩
  | cast =>
      obtain ⟨t, ip1, ht, h⟩ := bind_run_eq_ok h
      obtain ⟨rfl, rfl⟩ := EStateM.Result.ok.inj h
      exact ⟨rfl, trivial, drop_of_readTag ht⟩
  | store =>
      obtain ⟨r, ip1, hr, h⟩ := bind_run_eq_ok h
      obtain ⟨rfl, rfl⟩ := EStateM.Result.ok.inj h
      exact ⟨rfl, trivial, drop_of_readByte hr⟩
  | load =>
      obtain ⟨r, ip1, hr, h⟩ := bind_run_eq_ok h
      obtain ⟨rfl, rfl⟩ := EStateM.Result.ok.inj h
      exact ⟨rfl, trivial, drop_of_readByte hr⟩
  | storePtr =>
      obtain ⟨r, ip1, hr, h⟩ := bind_run_eq_ok h
      obtain ⟨rfl, rfl⟩ := EStateM.Result.ok.inj h
      exact ⟨rfl, trivial, drop_of_readByte hr⟩
  | loadPtr =>
      obtain ⟨r, ip1, hr, h⟩ := bind_run_eq_ok h
      obtain ⟨t, ip2, ht, h⟩ := bind_run_eq_ok h
      obtain ⟨rfl, rfl⟩ := EStateM.Result.ok.inj h
      obtain ⟨rfl, hreg⟩ := drop_of_readByte hr
      obtain ⟨rfl, htag⟩ := drop_of_readTag ht
      exact ⟨rfl, trivial, rfl, by rw [hreg, htag]; rfl⟩
  | _ =>
      obtain ⟨rfl, rfl⟩ := EStateM.Result.ok.inj h
      exact ⟨rfl, trivial, rfl, rfl⟩

/-- **What is read as an instruction stands there as its bytes.** -/
theorem decode_sound {i : Instr} (h : decode p ip = .ok i ip') :
    i.Sized ∧ ip' = ip + i.encode.length ∧ p.toList.drop ip = i.encode ++ p.toList.drop ip' := by
  obtain ⟨o, ip1, ho, h⟩ := bind_run_eq_ok h
  obtain ⟨rfl, hopcode⟩ := drop_of_readOpcode ho
  obtain ⟨rfl, hsized, rfl, hoperands⟩ := drop_of_readOperands h
  refine ⟨hsized, ?_, ?_⟩
  · rw [encode, List.length_cons]
    omega
  · rw [hopcode, hoperands]
    rfl

theorem getElem?_of_drop {b : UInt8} {rest : List UInt8} (h : p.toList.drop ip = b :: rest) :
    p[ip]? = some b := by
  have hhead := congrArg List.head? h
  rw [List.head?_drop, Array.getElem?_toList] at hhead
  exact hhead

/-- The byte where an instruction is read is its opcode. -/
theorem opcode_of_decode {i : Instr} (h : decode p ip = .ok i ip') :
    p[ip]? = some i.opcode.code := by
  obtain ⟨-, -, hdrop⟩ := decode_sound h
  exact getElem?_of_drop hdrop

/-! ## the position stays in the program -/

theorem keeps_readBytes (n : Nat) :
    Keeps (fun ip => ip ≤ p.size) (fun _ => True) (readBytes p n) fun _ => True := by
  intro ip hip
  by_cases hle : ip + n ≤ p.size
  · rw [readBytes, if_pos hle]
    exact ⟨trivial, hle⟩
  · rw [readBytes, if_neg hle]
    exact ⟨trivial, hip⟩

theorem keeps_readByte :
    Keeps (fun ip => ip ≤ p.size) (fun _ => True) (readByte p) fun _ => True := by
  intro ip hip
  by_cases hlt : ip < p.size
  · rw [readByte, dif_pos hlt]
    exact ⟨trivial, hlt⟩
  · rw [readByte, dif_neg hlt]
    exact ⟨trivial, hip⟩

theorem keeps_readTag :
    Keeps (fun ip => ip ≤ p.size) (fun _ => True) (readTag p) fun _ => True := by
  refine .bind keeps_readByte fun b _ => ?_
  split
  · exact .pure trivial
  · exact .throw trivial

theorem keeps_readOpcode :
    Keeps (fun ip => ip ≤ p.size) (fun _ => True) (readOpcode p) fun _ => True := by
  intro ip hip
  by_cases hlt : ip < p.size
  · rw [readOpcode, dif_pos hlt]
    cases Opcode.ofCode? p[ip] with
    | some o => exact ⟨trivial, hlt⟩
    | none => exact ⟨trivial, hip⟩
  · rw [readOpcode, dif_neg hlt]
    exact ⟨trivial, hip⟩

theorem keeps_readOperands (o : Opcode) :
    Keeps (fun ip => ip ≤ p.size) (fun _ => True) (readOperands p o) fun _ => True := by
  cases o with
  | push => exact .bind keeps_readTag fun t _ => .bind (keeps_readBytes _) fun _ _ => .pure trivial
  | pushSpan =>
      exact .bind (keeps_readBytes 4) fun _ _ => .bind (keeps_readBytes _) fun _ _ => .pure trivial
  | pushType => exact .bind keeps_readTag fun _ _ => .pure trivial
  | pushRegPtr => exact .bind keeps_readByte fun _ _ => .pure trivial
  | cast => exact .bind keeps_readTag fun _ _ => .pure trivial
  | store => exact .bind keeps_readByte fun _ _ => .pure trivial
  | load => exact .bind keeps_readByte fun _ _ => .pure trivial
  | storePtr => exact .bind keeps_readByte fun _ _ => .pure trivial
  | loadPtr => exact .bind keeps_readByte fun _ _ => .bind keeps_readTag fun _ _ => .pure trivial
  | _ => exact .pure trivial

/-- Reading, successful or not, leaves the position in the program or at its end. -/
theorem keeps_decode :
    Keeps (fun ip => ip ≤ p.size) (fun _ => True) (decode p) fun _ => True :=
  .bind keeps_readOpcode fun o _ => keeps_readOperands o

/-! ## what stops reading -/

/-- Where an instruction has its inline tag, counted from its opcode. -/
def tagOffset? : Opcode → Option Nat
  | .push | .pushType | .cast => some 1
  | .loadPtr => some 2
  | _ => none

/-- The byte `b` is the inline tag of the instruction whose opcode stands at `ip`. -/
def TagOperandAt (p : Program) (ip : Nat) (b : UInt8) : Prop :=
  ∃ o k, p[ip]? = some (Opcode.code o) ∧ tagOffset? o = some k ∧ p[ip + k]? = some b

/-- The faults of reading an instruction at `ip`: it is cut off, it has no opcode, or its inline tag
is none. -/
def Misreads (p : Program) (ip : Nat) : Fault → Prop
  | .truncated _ | .unknownOpcode _ _ => True
  | .invalidTag b => TagOperandAt p ip b
  | _ => False

theorem readByte_eq_error {e : Fault} (h : readByte p ip = .error e ip') : e = .truncated ip := by
  unfold readByte at h
  split at h
  · contradiction
  · exact (EStateM.Result.error.inj h).1.symm

theorem readBytes_eq_error {n : Nat} {e : Fault} (h : readBytes p n ip = .error e ip') :
    e = .truncated ip := by
  unfold readBytes at h
  split at h
  · contradiction
  · exact (EStateM.Result.error.inj h).1.symm

theorem readTag_eq_error {e : Fault} (h : readTag p ip = .error e ip') :
    e = .truncated ip ∨ ∃ b, e = .invalidTag b ∧ p[ip]? = some b := by
  obtain h | ⟨b, ip1, hb, h⟩ := bind_run_eq_error h
  · exact Or.inl (readByte_eq_error h)
  · refine Or.inr ⟨b, ?_, getElem?_of_drop (drop_of_readByte hb).2⟩
    unfold Tag.ofCode at h
    cases hb : Tag.ofCode? b with
    | some t =>
        rw [hb] at h
        contradiction
    | none =>
        rw [hb] at h
        exact (EStateM.Result.error.inj h).1.symm

/-- A tag that cannot be read at its place is one of the faults of reading. -/
theorem misreads_of_readTag {o : Opcode} {k : Nat} {e : Fault} (ho : p[ip]? = some o.code)
    (hk : tagOffset? o = some k) (h : readTag p (ip + k) = .error e ip') : Misreads p ip e := by
  obtain rfl | ⟨b, rfl, hb⟩ := readTag_eq_error h
  · trivial
  · exact ⟨o, k, ho, hk, hb⟩

theorem misreads_of_readByte {q : Nat} {e : Fault} (h : readByte p q = .error e ip') :
    Misreads p ip e :=
  readByte_eq_error h ▸ trivial

theorem misreads_of_readBytes {q n : Nat} {e : Fault} (h : readBytes p n q = .error e ip') :
    Misreads p ip e :=
  readBytes_eq_error h ▸ trivial

theorem misreads_of_readOperands {o : Opcode} {e : Fault} (ho : p[ip]? = some o.code)
    (h : readOperands p o (ip + 1) = .error e ip') : Misreads p ip e := by
  cases o with
  | push =>
      obtain h | ⟨t, _, -, h⟩ := bind_run_eq_error h
      · exact misreads_of_readTag ho rfl h
      · obtain h | ⟨_, _, -, h⟩ := bind_run_eq_error h
        · exact misreads_of_readBytes h
        · contradiction
  | pushSpan =>
      obtain h | ⟨_, _, -, h⟩ := bind_run_eq_error h
      · exact misreads_of_readBytes h
      · obtain h | ⟨_, _, -, h⟩ := bind_run_eq_error h
        · exact misreads_of_readBytes h
        · contradiction
  | pushType =>
      obtain h | ⟨_, _, -, h⟩ := bind_run_eq_error h
      · exact misreads_of_readTag ho rfl h
      · contradiction
  | cast =>
      obtain h | ⟨_, _, -, h⟩ := bind_run_eq_error h
      · exact misreads_of_readTag ho rfl h
      · contradiction
  | pushRegPtr =>
      obtain h | ⟨_, _, -, h⟩ := bind_run_eq_error h
      · exact misreads_of_readByte h
      · contradiction
  | store =>
      obtain h | ⟨_, _, -, h⟩ := bind_run_eq_error h
      · exact misreads_of_readByte h
      · contradiction
  | load =>
      obtain h | ⟨_, _, -, h⟩ := bind_run_eq_error h
      · exact misreads_of_readByte h
      · contradiction
  | storePtr =>
      obtain h | ⟨_, _, -, h⟩ := bind_run_eq_error h
      · exact misreads_of_readByte h
      · contradiction
  | loadPtr =>
      obtain h | ⟨_, _, hr, h⟩ := bind_run_eq_error h
      · exact misreads_of_readByte h
      · obtain ⟨rfl, -⟩ := drop_of_readByte hr
        obtain h | ⟨_, _, -, h⟩ := bind_run_eq_error h
        · exact misreads_of_readTag ho rfl h
        · contradiction
  | _ => contradiction

/-- **What stops reading** lies in the bytes of the instruction. -/
theorem misreads_of_decode {e : Fault} (h : decode p ip = .error e ip') : Misreads p ip e := by
  obtain h | ⟨o, ip1, ho, h⟩ := bind_run_eq_error h
  · unfold readOpcode at h
    split at h
    · split at h
      · contradiction
      · exact (EStateM.Result.error.inj h).1 ▸ trivial
    · exact (EStateM.Result.error.inj h).1 ▸ trivial
  · obtain ⟨rfl, hdrop⟩ := drop_of_readOpcode ho
    exact misreads_of_readOperands (getElem?_of_drop hdrop) h

end Instr

end CellMachine
