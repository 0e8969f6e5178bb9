import CellMachine.Proofs.Command.Arguments

/-!
# CellMachine.Proofs.Command.Settling

What a command leaves behind when the host has answered. The values of reference
arguments are stored one after another where the references pointed, each text in
a new block, and the result is pushed.

* `keeps_storeBack` — stack and world stay, and so do the registers that nobody
  refers to and the bytes of live blocks that nothing is stored over;
* `storedAs_storeBack` — a register ends with the last of the values that are
  stored in it.
-/

namespace CellMachine

/-! ## values as cells -/

theorem HeapM.lift_eq_ok {α : Type} {x : Except Fault α} {h h' : Heap} {a : α}
    (hl : lift x h = .ok a h') : x = .ok a ∧ h' = h := by
  unfold lift at hl
  split at hl
  · obtain ⟨rfl, rfl⟩ := EStateM.Result.ok.inj hl
    exact ⟨rfl, rfl⟩
  · contradiction

theorem Cell.heapPointer_eq_ok {t : Tag} {ptr : Nat} {c : Cell} (h : heapPointer t ptr = .ok c) :
    ptr < intLimit ∧ c = ofInt t ptr := by
  unfold heapPointer at h
  split at h
  · exact ⟨‹_›, (Except.ok.inj h).symm⟩
  · contradiction

theorem Scalar.tag_toCell (s : Scalar) (t : Tag) : (s.toCell t).tag = t := by
  cases t <;> cases s <;> rfl

/-- A cell that is converted has the tag that it is converted to. -/
theorem Cell.tag_cast {c d : Cell} {t : Tag} (h : c.cast t = .ok d) : d.tag = t := by
  unfold cast at h
  split at h
  · next htag => exact Except.ok.inj h ▸ htag
  · split at h
    · exact Except.ok.inj h ▸ rfl
    · split at h
      · exact Except.ok.inj h ▸ Scalar.tag_toCell ..
      · contradiction

/-- The bytes that a range of the memory is read as. -/
theorem Memory.byteAt_of_read {m : Memory} {a : Nat} {bs : List UInt8}
    (hr : m.read a bs.length = bs) {i : Nat} {b : UInt8} (hi : bs[i]? = some b) :
    m.byteAt (a + i) = b := by
  obtain ⟨hlt, -⟩ := List.getElem?_eq_some_iff.mp hi
  rw [← hr] at hi
  simpa [read, hlt] using hi

/-- Bytes that lie one after another are read. -/
theorem Memory.read_of_byteAt {m : Memory} {a : Nat} {bs : List UInt8}
    (h : ∀ i b, bs[i]? = some b → m.byteAt (a + i) = b) : m.read a bs.length = bs := by
  apply List.ext_getElem (length_read ..)
  intro i _ hi
  have hbyte := h i bs[i] (List.getElem?_eq_getElem hi)
  simpa [read] using hbyte

namespace Value

variable {v : Value} {c : Cell} {h h' h₀ h₁ h₂ : Heap} {W : Nat → Prop}

theorem toCell_text_eq_ok {s : String} (hc : (text s).toCell h = .ok c h') :
    ∃ ptr, HeapM.allocateText s h = .ok ptr h' ∧ ptr < intLimit ∧ c = .ofInt .string ptr := by
  obtain ⟨ptr, h₁, htext, hlift⟩ := bind_run_eq_ok hc
  obtain ⟨hptr, rfl⟩ := HeapM.lift_eq_ok hlift
  exact ⟨ptr, htext, Cell.heapPointer_eq_ok hptr⟩

theorem tag_toCell (hc : v.toCell h = .ok c h') : c.tag = v.tag := by
  cases v with
  | text s =>
      obtain ⟨ptr, -, -, rfl⟩ := toCell_text_eq_ok hc
      rfl
  | _ =>
      obtain ⟨rfl, -⟩ := EStateM.Result.ok.inj hc
      rfl

/-- Making the cell of a value changes no live block, also where there is no cell for the address of
a text. -/
theorem grows_toCell (hh : h.Partitioned) (v : Value) : h.Grows W (finalState (v.toCell h)) := by
  cases v with
  | text s =>
      obtain ⟨ptr, h', htext, -, -, -, hgrows⟩ := hh.allocateText_eq_ok (W := W) s
      rw [toCell, bind_run_of_ok htext]
      unfold HeapM.lift
      split
      · exact hgrows
      · exact hgrows
  | _ => exact .refl hh

/-- Work that makes `h` of `h₀` stores `v` as the cell `c`. A text is stored as the address of a
block that was not live in `h₀` and is in `h`; it holds the text, except at the addresses in `W`. -/
def StoredAs (W : Nat → Prop) (h₀ : Heap) (v : Value) (c : Cell) (h : Heap) : Prop :=
  match v with
  | text s => ∃ ptr : Nat, ptr < intLimit ∧ c = .ofInt .string ptr ∧
      (h₀.Partitioned → h₀.live[ptr]? = none ∧ h.live[ptr]? = some (Text.encode s).length ∧
        ∀ i b, (Text.encode s)[i]? = some b → ¬ W (ptr + i) → h.memory.byteAt (ptr + i) = b)
  | v => ∀ g, v.toCell g = .ok c g

theorem storedAs_toCell (hc : v.toCell h = .ok c h') : v.StoredAs W h c h' := by
  cases v with
  | text s =>
      obtain ⟨ptr, htext, hlt, rfl⟩ := toCell_text_eq_ok hc
      refine ⟨ptr, hlt, rfl, fun hh => ?_⟩
      obtain ⟨ptr', h'', htext', hfresh, hlive, hread, -⟩ := hh.allocateText_eq_ok (W := W) s
      rw [htext] at htext'
      obtain ⟨rfl, rfl⟩ := EStateM.Result.ok.inj htext'
      exact ⟨hfresh, hlive, fun i b hi _ => Memory.byteAt_of_read hread hi⟩
  | _ =>
      obtain ⟨rfl, -⟩ := EStateM.Result.ok.inj hc
      exact fun _ => rfl

namespace StoredAs

/-- Earlier growth may be counted in. -/
theorem after (hs : v.StoredAs W h₁ c h) (hg : h₀.Partitioned → h₀.Grows W h₁) :
    v.StoredAs W h₀ c h := by
  cases v with
  | text s =>
      obtain ⟨ptr, hlt, hc, hblock⟩ := hs
      refine ⟨ptr, hlt, hc, fun hh => ?_⟩
      obtain ⟨hfresh, hlive, hbytes⟩ := hblock (hg hh).partitioned
      exact ⟨(hg hh).not_live hfresh, hlive, hbytes⟩
  | _ => exact hs

/-- Later growth leaves the block of a text. -/
theorem before (hs : v.StoredAs W h₀ c h₁) (hg : h₀.Partitioned → h₁.Grows W h₂) :
    v.StoredAs W h₀ c h₂ := by
  cases v with
  | text s =>
      obtain ⟨ptr, hlt, hc, hblock⟩ := hs
      refine ⟨ptr, hlt, hc, fun hh => ?_⟩
      obtain ⟨hfresh, hlive, hbytes⟩ := hblock hh
      refine ⟨hfresh, (hg hh).live _ _ hlive, fun i b hi hW => ?_⟩
      obtain ⟨hlen, -⟩ := List.getElem?_eq_some_iff.mp hi
      rw [(hg hh).bytes _ _ _ hlive (Nat.le_add_right ..) (by omega) hW]
      exact hbytes i b hi hW
  | _ => exact hs

/-- A text over which nothing is written reads as it was stored. -/
theorem readText {s : String} (hs : (text s).StoredAs (fun _ => False) h₀ c h)
    (hh₀ : h₀.Partitioned) (hh : h.Partitioned) :
    ∃ ptr : Nat, c = .ofInt .string ptr ∧ ptr < intLimit ∧ h₀.live[ptr]? = none ∧
      h.live[ptr]? = some (Text.encode s).length ∧ h.readText ptr = .ok s := by
  obtain ⟨ptr, hlt, hc, hblock⟩ := hs
  obtain ⟨hfresh, hlive, hbytes⟩ := hblock hh₀
  have hread : h.memory.read ptr (Text.encode s).length = Text.encode s :=
    Memory.read_of_byteAt fun i b hi => hbytes i b hi not_false
  refine ⟨ptr, hc, hlt, hfresh, hlive, Heap.readText_of_readBlock ?_⟩
  rw [hh.readBlock_of_live hlive, hread]

theorem tag_eq (hs : v.StoredAs W h₀ c h) : c.tag = v.tag := by
  cases v with
  | text s =>
      obtain ⟨ptr, -, rfl, -⟩ := hs
      rfl
  | _ => exact tag_toCell (hs h)

end StoredAs

end Value

/-! ## storing values back -/

/-- Storing `v` at a place changes only registers in `N` and addresses in `W`. -/
def Slot.Within (W : Nat → Prop) (N : UInt8 → Prop) (v : Value) : Slot → Prop
  | register r => N r
  | heap ptr => ∀ i, ptr ≤ i → i < ptr + v.tag.width → W i

namespace Command

open StoreM

variable {σ : Type} {W : Nat → Prop} {N : UInt8 → Prop} {st₀ st t : Store σ}

/-- What storing values makes of a store if it may change the registers in `N` and write to the
addresses in `W`. -/
structure Settles (W : Nat → Prop) (N : UInt8 → Prop) (st₀ st : Store σ) : Prop where
  stack : st.stack = st₀.stack
  world : st.world = st₀.world
  registers : ∀ r, ¬ N r → st.registers.load r = st₀.registers.load r
  heap : st₀.heap.Partitioned → st₀.heap.Grows W st.heap

theorem Settles.refl (st : Store σ) : Settles W N st st := ⟨rfl, rfl, fun _ _ => rfl, .refl⟩

theorem keeps_toCell (v : Value) :
    Keeps (Settles W N st₀) (fun _ => True) (onHeap v.toCell) fun c => c.tag = v.tag := by
  refine .onHeap fun st hst => ?_
  have hgrows : st₀.heap.Partitioned → st₀.heap.Grows W (finalState (v.toCell st.heap)) :=
    fun hh => (hst.heap hh).trans (Value.grows_toCell (hst.heap hh).partitioned v)
  cases hc : v.toCell st.heap with
  | ok c heap =>
      rw [hc] at hgrows
      exact ⟨Value.tag_toCell hc, hst.stack, hst.world, hst.registers, hgrows⟩
  | error e heap =>
      rw [hc] at hgrows
      exact ⟨trivial, hst.stack, hst.world, hst.registers, hgrows⟩

theorem keeps_storeAt {slot : Slot} {v : Value} (hslot : Slot.Within W N v slot) :
    Keeps (Settles W N st₀) (fun _ => True) (storeAt slot v) fun _ => True := by
  refine .bind (keeps_toCell v) fun c hc => ?_
  cases slot with
  | register r =>
      refine .setRegister fun st hst => ⟨hst.stack, hst.world, fun q hq => ?_, hst.heap⟩
      have hne : q ≠ r := fun heq => hq (heq ▸ hslot)
      rw [Registers.load_store_of_ne _ hne]
      exact hst.registers q hq
  | heap ptr =>
      refine .updateHeap (fun st heap hst hw => ?_) fun _ _ _ _ => trivial
      refine ⟨hst.stack, hst.world, hst.registers, fun hh => ?_⟩
      have hrange : ∀ i, ptr ≤ i → i < ptr + c.bytes.length → W i := by
        rw [Cell.length_bytes, hc]
        exact hslot
      exact (hst.heap hh).trans ((hst.heap hh).partitioned.grows_write hw hrange)

theorem keeps_storeBack {slots : List (Option Slot × Value)}
    (hslots : ∀ slot v, (some slot, v) ∈ slots → Slot.Within W N v slot) :
    Keeps (Settles W N st₀) (fun _ => True) (storeBack slots) fun _ => True := by
  induction slots with
  | nil => exact .pure trivial
  | cons x rest ih =>
      have hrest := ih fun slot v hmem => hslots slot v (List.mem_cons_of_mem _ hmem)
      obtain ⟨slot, v⟩ := x
      cases slot with
      | none => exact hrest
      | some slot =>
          exact .bind (keeps_storeAt (hslots slot v List.mem_cons_self)) fun _ _ => hrest

/-- A value that is stored in a register is there. -/
theorem storedAs_storeAt {r : UInt8} {v : Value} (h : storeAt (.register r) v st = .ok () t) :
    v.StoredAs W st.heap (t.registers.load r) t.heap := by
  obtain ⟨c, st₁, hcell, hset⟩ := bind_run_eq_ok h
  cases hc : v.toCell st.heap with
  | error e heap =>
      rw [onHeap_of_error hc] at hcell
      contradiction
  | ok c' heap =>
      rw [onHeap_of_ok hc] at hcell
      obtain ⟨rfl, rfl⟩ := EStateM.Result.ok.inj hcell
      obtain ⟨-, rfl⟩ := EStateM.Result.ok.inj hset
      rw [Registers.load_store_self]
      exact Value.storedAs_toCell hc

/-- **The last value counts**: a register ends with the last of the values that are stored in it. -/
theorem storedAs_storeBack {slots : List (Option Slot × Value)}
    (hslots : ∀ slot v, (some slot, v) ∈ slots → Slot.Within W (fun _ => True) v slot)
    (h : storeBack slots st = .ok () t) {i : Nat} {r : UInt8} {v : Value}
    (hi : slots[i]? = some (some (.register r), v))
    (hlast : ∀ j w, i < j → slots[j]? ≠ some (some (.register r), w)) :
    v.StoredAs W st.heap (t.registers.load r) t.heap := by
  induction slots generalizing st i with
  | nil => simp at hi
  | cons x rest ih =>
      have hrest : ∀ slot v, (some slot, v) ∈ rest → Slot.Within W (fun _ => True) v slot :=
        fun slot v hmem => hslots slot v (List.mem_cons_of_mem _ hmem)
      obtain ⟨slot, w⟩ := x
      cases i with
      | zero =>
          -- nothing that is stored later goes to this register
          simp only [List.getElem?_cons_zero, Option.some.injEq, Prod.mk.injEq] at hi
          obtain ⟨rfl, rfl⟩ := hi
          obtain ⟨_, st₁, hstore, h⟩ := bind_run_eq_ok h
          have hkeeps : Keeps (Settles W (· ≠ r) st₁) (fun _ => True) (storeBack rest)
              fun _ => True := by
            refine keeps_storeBack fun slot u hmem => ?_
            cases slot with
            | register q =>
                rintro rfl
                obtain ⟨j, hj⟩ := List.getElem?_of_mem hmem
                exact hlast (j + 1) u (Nat.succ_pos j) hj
            | heap ptr => exact hrest (.heap ptr) u hmem
          have hsettles := (hkeeps.ok (.refl st₁) h).2
          have hgrows : st.heap.Partitioned → st₁.heap.Partitioned := by
            have hslot := hslots (.register r) w List.mem_cons_self
            have hone := ((keeps_storeAt hslot).ok (.refl st) hstore).2
            exact fun hh => (hone.heap hh).partitioned
          rw [hsettles.registers r (fun hne => hne rfl)]
          exact (storedAs_storeAt hstore).before fun hh => hsettles.heap (hgrows hh)
      | succ i =>
          rw [List.getElem?_cons_succ] at hi
          have hlast' : ∀ j u, i < j → rest[j]? ≠ some (some (.register r), u) :=
            fun j u hlt => hlast (j + 1) u (Nat.succ_lt_succ hlt)
          cases slot with
          | none => exact ih hrest h hi hlast'
          | some slot =>
              obtain ⟨_, st₁, hstore, h⟩ := bind_run_eq_ok h
              have hslot := hslots slot w List.mem_cons_self
              have hone := ((keeps_storeAt hslot).ok (.refl st) hstore).2
              exact (ih hrest h hi hlast').after hone.heap

/-! ## the result -/

/-- The result is of the declared type, or of its own if every type is allowed. -/
theorem keeps_resultCell (c : Command σ) (v : Value) :
    Keeps (Settles W N st₀) (fun _ => True) (c.resultCell v)
      fun d => d.tag = if c.returns = .any then v.tag else c.returns := by
  refine .bind (keeps_toCell v) fun cell htag => .ite (fun hconvert => ?_) fun hkeep => .pure ?_
  · rw [if_neg hconvert.1]
    exact .lift (fun d hd => Cell.tag_cast hd) fun _ _ => trivial
  · by_cases hany : c.returns = .any
    · rw [if_pos hany, htag]
    · rw [if_neg hany]
      exact Decidable.not_not.mp fun hne => hkeep ⟨hany, hne⟩

/-- The store `t` is `st₀` with the result of a command on its stack, if there is to be one. -/
structure Delivered (W : Nat → Prop) (N : UInt8 → Prop) (c : Command σ) (result : Value)
    (st₀ t : Store σ) : Prop where
  settles : Settles W N { st₀ with stack := t.stack } t
  void : c.returns = .void → t.stack = st₀.stack
  pushed : c.returns ≠ .void → ∃ d : Cell,
    d.tag = (if c.returns = .any then result.tag else c.returns) ∧ t.stack = st₀.stack.pushCell d

theorem commits_deliver (c : Command σ) (result : Value) :
    Commits (Settles W N st₀) (fun _ => True) (c.deliver result) (fun _ => True)
      (Delivered W N c result st₀) := by
  refine .ite (fun hvoid => .pure trivial fun st hst => ?_) fun hresult => ?_
  · exact ⟨⟨rfl, hst.world, hst.registers, hst.heap⟩, fun _ => hst.stack, fun h => absurd hvoid h⟩
  · refine .ite (fun _ => .throw trivial) fun _ => .bind (keeps_resultCell c result) ?_
    intro d htag st hst
    have hpushed := congrArg (·.pushCell d) hst.stack
    exact ⟨trivial, ⟨rfl, hst.world, hst.registers, hst.heap⟩, fun h => absurd h hresult,
      fun _ => ⟨d, htag, hpushed⟩⟩

/-! ## the second half of a call -/

theorem Exchange.getElem?_slots {x : Exchange} {i : Nat} {slot : Option Slot} {v : Value} :
    x.slots[i]? = some (slot, v) ↔
      (∃ u, x.taken[i]? = some (u, slot)) ∧ x.reply.final[i]? = some v := by
  simp [Exchange.slots, List.getElem?_zip_eq_some]

/-- An address to which the value of a reference argument is stored. -/
def Exchange.Writes (x : Exchange) (i : Nat) : Prop :=
  ∃ ptr v, (some (.heap ptr), v) ∈ x.slots ∧ ptr ≤ i ∧ i < ptr + v.tag.width

/-- A register to which the value of a reference argument is stored. -/
def Exchange.Names (x : Exchange) (r : UInt8) : Prop := ∃ v, (some (.register r), v) ∈ x.slots

theorem Exchange.within (x : Exchange) (slot : Slot) (v : Value) (h : (some slot, v) ∈ x.slots) :
    slot.Within x.Writes x.Names v := by
  cases slot with
  | register r => exact ⟨v, h⟩
  | heap ptr => exact fun i hlo hhi => ⟨ptr, v, h, hlo, hhi⟩

/-- **The second half of a call** changes no more than the places of reference arguments, also if it
fails; if it succeeds, the result has been delivered. -/
theorem commits_settle (c : Command σ) (x : Exchange) :
    Commits (Settles x.Writes x.Names st₀) (fun _ => True) (c.settle x) (fun _ => True)
      (Delivered x.Writes x.Names c x.reply.result st₀) :=
  .bind (keeps_storeBack x.within) fun _ _ => commits_deliver c x.reply.result

/-- After a call, a register holds the last of the values that were stored in it. -/
theorem storedAs_settle {c : Command σ} {x : Exchange} (h : c.settle x st = .ok () t) {i : Nat}
    {r : UInt8} {v : Value} (hi : x.slots[i]? = some (some (.register r), v))
    (hlast : ∀ j w, i < j → x.slots[j]? ≠ some (some (.register r), w)) :
    v.StoredAs x.Writes st.heap (t.registers.load r) t.heap := by
  obtain ⟨_, st₁, hstore, hdeliver⟩ := bind_run_eq_ok h
  have hslots : ∀ slot w, (some slot, w) ∈ x.slots →
      Slot.Within x.Writes (fun _ => True) w slot := by
    intro slot w hmem
    cases slot with
    | register q => trivial
    | heap ptr => exact x.within (.heap ptr) w hmem
  have hone := ((keeps_storeBack x.within).ok (.refl st) hstore).2
  -- the delivery of the result touches no register, and the heap only by growing
  have htwo := ((commits_deliver (W := x.Writes) (N := fun _ => False) c x.reply.result).ok
    (.refl st₁) hdeliver).2.settles
  rw [htwo.registers r id]
  exact (storedAs_storeBack hslots hstore hi hlast).before fun hh =>
    htwo.heap (hone.heap hh).partitioned

end Command

end CellMachine
