import CellMachine.Proofs.Heap.Partition
import CellMachine.Proofs.Text

/-!
# CellMachine.Proofs.Heap.Growth

New blocks and old ones. A block that is allocated was not live before, so it has
no byte in common with a block that was. Work that only allocates and writes,
`Grows W`, therefore leaves every live block where it is, and its bytes as they
were, except at the addresses `W` that are written on purpose.

* `fresh_allocate` — an allocated block was not live;
* `allocateText_eq_ok` — a text is put into a new block, which cannot fail;
* `Grows.copy_new` — nor can copying into a new block.
-/

namespace CellMachine

namespace Heap

variable {h h' : Heap}

/-! ## the block that is allocated -/

theorem live_allocate (h : Heap) (len : Nat) :
    (h.allocate len).2.live = h.live.insert (h.allocate len).1 len := by
  cases hf : h.freedOf len with
  | nil => rw [allocate_of_nil hf]
  | cons ptr rest => rw [allocate_of_cons hf]

@[simp] theorem live_allocate_self (h : Heap) (len : Nat) :
    (h.allocate len).2.live[(h.allocate len).1]? = some len := by
  rw [live_allocate, Std.TreeMap.getElem?_insert_self]

@[simp] theorem byteAt_allocate (h : Heap) (len i : Nat) :
    (h.allocate len).2.memory.byteAt i = h.memory.byteAt i := by
  cases hf : h.freedOf len with
  | nil => rw [allocate_of_nil hf]; rfl
  | cons ptr rest => rw [allocate_of_cons hf]

namespace Partitioned

/-- An allocated block was not live. -/
theorem fresh_allocate (hh : h.Partitioned) (len : Nat) :
    h.live[(h.allocate len).1]? = none := by
  cases hf : h.freedOf len with
  | nil =>
      rw [allocate_of_nil hf]
      exact hh.not_live_cursor
  | cons ptr rest =>
      rw [allocate_of_cons hf]
      exact hh.not_live_of_freedOf (hf ▸ List.mem_cons_self)

theorem allocate_le_cursor (hh : h.Partitioned) (len : Nat) : (h.allocate len).1 ≤ h.cursor := by
  cases hf : h.freedOf len with
  | nil =>
      have hptr : (h.allocate len).1 = h.cursor := by rw [allocate_of_nil hf]
      exact Nat.le_of_eq hptr
  | cons ptr rest =>
      have hmem : (ptr, len) ∈ h.recorded :=
        List.mem_append_right _ (mem_freedBlocks_of_freedOf (hf ▸ List.mem_cons_self))
      have hend := hh.end_le hmem
      rw [allocate_of_cons hf]
      simp only at hend ⊢
      omega

/-- A block that was live is not the one allocated. -/
theorem ne_allocate (hh : h.Partitioned) {ptr n : Nat} (hl : h.live[ptr]? = some n) (len : Nat) :
    (h.allocate len).1 ≠ ptr := by
  rintro rfl
  rw [hh.fresh_allocate len] at hl
  contradiction

theorem live_allocate_of_live (hh : h.Partitioned) {ptr n : Nat} (hl : h.live[ptr]? = some n)
    (len : Nat) : (h.allocate len).2.live[ptr]? = some n := by
  rw [live_allocate, Std.TreeMap.getElem?_insert]
  simp [hh.ne_allocate hl len, hl]

/-- Live blocks lie in the memory. -/
theorem live_le_capacity (hh : h.Partitioned) {ptr len : Nat} (hl : h.live[ptr]? = some len) :
    ptr + len ≤ h.capacity := by
  have hend := hh.end_le (mem_recorded_of_live hl)
  have hcursor := hh.cursor_le
  simp only [extent] at hend
  omega

theorem live_lt_cursor (hh : h.Partitioned) {ptr len : Nat} (hl : h.live[ptr]? = some len) :
    ptr < h.cursor := by
  have hend := hh.end_le (mem_recorded_of_live hl)
  have hpos := extent_pos len
  simp only at hend
  omega

/-- Different live blocks have no byte in common. -/
theorem apart_of_live (hh : h.Partitioned) {p q n k : Nat} (hp : h.live[p]? = some n)
    (hq : h.live[q]? = some k) (hne : p ≠ q) : Apart (p, n) (q, k) :=
  hh.apart.forall (mem_recorded_of_live hp) (mem_recorded_of_live hq) (by simp [hne])

end Partitioned

/-! ## reads, writes and copies -/

theorem write_of_le {ptr : Nat} {bs : List UInt8} (hle : ptr + bs.length ≤ h.capacity) :
    h.write ptr bs = .ok { h with memory := h.memory.write ptr bs } :=
  write_eq_ok_iff.mpr ⟨hle, rfl⟩

theorem read_of_le {ptr len : Nat} (hle : ptr + len ≤ h.capacity) :
    h.read ptr len = .ok (h.memory.read ptr len) := by
  simp [read, checkRange, hle, bind, Except.bind, pure, Except.pure]

/-- What is read has the length asked for. -/
theorem length_of_read {ptr len : Nat} {bs : List UInt8} (hr : h.read ptr len = .ok bs) :
    bs.length = len := by
  obtain ⟨_, -, hr⟩ := bind_eq_ok hr
  rw [← Except.ok.inj hr, Memory.length_read]

theorem lengthOf_eq_ok_iff {ptr len : Nat} : h.lengthOf ptr = .ok len ↔ h.live[ptr]? = some len := by
  unfold lengthOf length?
  split
  · next n hn => simp [hn]
  · next hn => simp [hn]

theorem Partitioned.readBlock_of_live (hh : h.Partitioned) {ptr len : Nat}
    (hl : h.live[ptr]? = some len) : h.readBlock ptr = .ok (h.memory.read ptr len) := by
  have hblock : h.readBlock ptr = h.read ptr len := by
    simp [readBlock, lengthOf, length?, hl, bind, Except.bind]
  rw [hblock, read_of_le (hh.live_le_capacity hl)]

theorem readText_of_readBlock {ptr : Nat} {text : String}
    (hr : h.readBlock ptr = .ok (Text.encode text)) : h.readText ptr = .ok text := by
  simp [readText, hr, Text.decode?_encode, bind, Except.bind, pure, Except.pure]

theorem live_of_readBlock {ptr : Nat} {bytes : List UInt8} (hr : h.readBlock ptr = .ok bytes) :
    h.live[ptr]? = some bytes.length := by
  obtain ⟨len, hlen, hbytes⟩ := bind_eq_ok hr
  rw [length_of_read hbytes, lengthOf_eq_ok_iff.mp hlen]

/-- What reads as a text is a block of bytes that hold it. -/
theorem readText_eq_ok {ptr : Nat} {text : String} (hr : h.readText ptr = .ok text) :
    ∃ bytes, h.readBlock ptr = .ok bytes ∧ Text.decode? bytes = some text := by
  obtain ⟨bytes, hblock, hdecode⟩ := bind_eq_ok hr
  cases htext : Text.decode? bytes with
  | none => simp [htext, throw, throwThe, MonadExceptOf.throw] at hdecode
  | some text' =>
      obtain rfl : text' = text := by simpa [htext, pure, Except.pure] using hdecode
      exact ⟨bytes, hblock, htext⟩

/-- A live block whose bytes have not changed reads the same. -/
theorem readBlock_eq {h₀ : Heap} {ptr len : Nat} (hh₀ : h₀.Partitioned) (hh : h.Partitioned)
    (hl₀ : h₀.live[ptr]? = some len) (hl : h.live[ptr]? = some len)
    (hbytes : ∀ i, ptr ≤ i → i < ptr + len → h.memory.byteAt i = h₀.memory.byteAt i) :
    h.readBlock ptr = h₀.readBlock ptr := by
  have hread : h.memory.read ptr len = h₀.memory.read ptr len := Memory.read_congr hbytes
  rw [hh.readBlock_of_live hl, hh₀.readBlock_of_live hl₀, hread]

/-- A text is put into a block by writing its bytes there. -/
theorem allocateText_of_write {text : String}
    (hw : (h.allocate (Text.encode text).length).2.write (h.allocate (Text.encode text).length).1
      (Text.encode text) = .ok h') :
    HeapM.allocateText text h = .ok (h.allocate (Text.encode text).length).1 h' := by
  simp only [HeapM.allocateText, HeapM.allocate, HeapM.update, bind, EStateM.bind, hw]
  rfl

theorem write_of_allocateText {text : String} {ptr : Nat}
    (ha : HeapM.allocateText text h = .ok ptr h') :
    ptr = (h.allocate (Text.encode text).length).1 ∧
      (h.allocate (Text.encode text).length).2.write ptr (Text.encode text) = .ok h' := by
  simp only [HeapM.allocateText, HeapM.allocate, HeapM.update, bind, EStateM.bind] at ha
  cases hw : (h.allocate (Text.encode text).length).2.write
      (h.allocate (Text.encode text).length).1 (Text.encode text) with
  | error e =>
      rw [hw] at ha
      contradiction
  | ok h₁ =>
      rw [hw] at ha
      obtain ⟨rfl, rfl⟩ := EStateM.Result.ok.inj ha
      exact ⟨rfl, hw⟩

/-! ## growth -/

/-- What allocating and writing makes of `h₀`: live blocks stay, and their bytes too except at the
addresses in `W`. -/
structure Grows (W : Nat → Prop) (h₀ h : Heap) : Prop where
  partitioned : h.Partitioned
  live : ∀ ptr len : Nat, h₀.live[ptr]? = some len → h.live[ptr]? = some len
  bytes : ∀ ptr len i : Nat, h₀.live[ptr]? = some len → ptr ≤ i → i < ptr + len → ¬ W i →
    h.memory.byteAt i = h₀.memory.byteAt i

namespace Grows

variable {W : Nat → Prop} {h₀ h₁ h₂ : Heap}

theorem refl (hh : h.Partitioned) : h.Grows W h := ⟨hh, fun _ _ hl => hl, fun _ _ _ _ _ _ _ => rfl⟩

theorem trans (h₁₀ : h₀.Grows W h₁) (h₂₁ : h₁.Grows W h₂) : h₀.Grows W h₂ where
  partitioned := h₂₁.partitioned
  live ptr len hl := h₂₁.live ptr len (h₁₀.live ptr len hl)
  bytes ptr len i hl hlo hhi hW := by
    rw [h₂₁.bytes ptr len i (h₁₀.live ptr len hl) hlo hhi hW, h₁₀.bytes ptr len i hl hlo hhi hW]

theorem mono {W' : Nat → Prop} (hg : h₀.Grows W h) (hW : ∀ i, W i → W' i) : h₀.Grows W' h :=
  ⟨hg.partitioned, hg.live, fun ptr len i hl hlo hhi hi =>
    hg.bytes ptr len i hl hlo hhi fun hwritten => hi (hW i hwritten)⟩

/-- A write into a block that was not live before changes none that was. -/
theorem write_new (hg : h₀.Grows W h) {ptr len : Nat} (hnew : h₀.live[ptr]? = none)
    (hl : h.live[ptr]? = some len) {dst : Nat} {bs : List UInt8} (hlo : ptr ≤ dst)
    (hhi : dst + bs.length ≤ ptr + len) (hw : h.write dst bs = .ok h') : h₀.Grows W h' := by
  have hp := hg.partitioned.write hw
  obtain ⟨-, rfl⟩ := write_eq_ok_iff.mp hw
  refine ⟨hp, hg.live, fun p n i hp₀ hilo hihi hi => ?_⟩
  have hne : p ≠ ptr := by
    rintro rfl
    rw [hnew] at hp₀
    contradiction
  have hapart := hg.partitioned.apart_of_live (hg.live p n hp₀) hl hne
  have hout : ¬ (dst ≤ i ∧ i < dst + bs.length) := by
    unfold Apart extent at hapart
    omega
  rw [Memory.byteAt_write, if_neg hout]
  exact hg.bytes p n i hp₀ hilo hihi hi

/-- A copy of what lies in the memory into a block that was not live before cannot fail. -/
theorem copy_new (hg : h₀.Grows W h) {ptr len : Nat} (hnew : h₀.live[ptr]? = none)
    (hl : h.live[ptr]? = some len) {src dst n : Nat} (hsrc : src + n ≤ h.capacity)
    (hlo : ptr ≤ dst) (hhi : dst + n ≤ ptr + len) :
    ∃ h', h.copy src dst n = .ok h' ∧ h'.live = h.live ∧
      h'.memory = h.memory.write dst (h.memory.read src n) ∧ h₀.Grows W h' := by
  have hroom := hg.partitioned.live_le_capacity hl
  have hlen : (h.memory.read src n).length = n := Memory.length_read ..
  have hw : h.write dst (h.memory.read src n) = _ := write_of_le (by omega)
  have hgrows := hg.write_new hnew hl hlo (by omega) hw
  rw [copy, read_of_le hsrc]
  exact ⟨_, hw, rfl, rfl, hgrows⟩

/-- Where nothing is written on purpose, a block that was live keeps its bytes. -/
theorem read (hg : h₀.Grows (fun _ => False) h) {ptr len : Nat} (hl : h₀.live[ptr]? = some len) :
    h.memory.read ptr len = h₀.memory.read ptr len :=
  Memory.read_congr fun i hlo hhi => hg.bytes ptr len i hl hlo hhi not_false

theorem readBlock (hg : h₀.Grows (fun _ => False) h) (hh₀ : h₀.Partitioned) {ptr len : Nat}
    (hl : h₀.live[ptr]? = some len) : h.readBlock ptr = h₀.readBlock ptr := by
  rw [hg.partitioned.readBlock_of_live (hg.live ptr len hl), hh₀.readBlock_of_live hl, hg.read hl]

theorem readText (hg : h₀.Grows (fun _ => False) h) (hh₀ : h₀.Partitioned) {ptr : Nat}
    {text : String} (hr : h₀.readText ptr = .ok text) : h.readText ptr = .ok text := by
  obtain ⟨bytes, hblock, -⟩ := bind_eq_ok hr
  obtain ⟨len, hlen, -⟩ := bind_eq_ok hblock
  rw [← hr, Heap.readText, hg.readBlock hh₀ (lengthOf_eq_ok_iff.mp hlen), Heap.readText]

/-- A block that is new after growth was not live before. -/
theorem not_live (hg : h₀.Grows W h) {ptr : Nat} (hl : h.live[ptr]? = none) :
    h₀.live[ptr]? = none := by
  cases hl₀ : h₀.live[ptr]? with
  | none => rfl
  | some len =>
      rw [hg.live ptr len hl₀] at hl
      contradiction

end Grows

namespace Partitioned

variable {W : Nat → Prop}

theorem grows_allocate (hh : h.Partitioned) (len : Nat) : h.Grows W (h.allocate len).2 where
  partitioned := hh.allocate len
  live _ _ hl := hh.live_allocate_of_live hl len
  bytes _ _ i _ _ _ _ := byteAt_allocate h len i

/-- A write to addresses in `W` changes no other byte. -/
theorem grows_write (hh : h.Partitioned) {ptr : Nat} {bs : List UInt8}
    (hw : h.write ptr bs = .ok h') (hW : ∀ i, ptr ≤ i → i < ptr + bs.length → W i) :
    h.Grows W h' := by
  refine ⟨hh.write hw, ?_, ?_⟩
  · intro p n hl
    obtain ⟨-, rfl⟩ := write_eq_ok_iff.mp hw
    exact hl
  · intro p n i hl hlo hhi hi
    obtain ⟨-, rfl⟩ := write_eq_ok_iff.mp hw
    rw [Memory.byteAt_write, if_neg]
    exact fun hin => hi (hW i hin.1 hin.2)

/-- **A text is put into a new block**, which cannot fail: the block was not live, it holds the
text, and no other live block changes. -/
theorem allocateText_eq_ok (hh : h.Partitioned) (text : String) :
    ∃ ptr h', HeapM.allocateText text h = .ok ptr h' ∧ h.live[ptr]? = none ∧
      h'.live[ptr]? = some (Text.encode text).length ∧
      h'.memory.read ptr (Text.encode text).length = Text.encode text ∧ h.Grows W h' := by
  have hgrown := hh.grows_allocate (W := W) (Text.encode text).length
  have hfresh := hh.fresh_allocate (Text.encode text).length
  have hlive := live_allocate_self h (Text.encode text).length
  have hwrite := write_of_le (hgrown.partitioned.live_le_capacity hlive)
  have hwritten := hgrown.write_new hfresh hlive (Nat.le_refl _) (Nat.le_refl _) hwrite
  exact ⟨_, _, allocateText_of_write hwrite, hfresh, hlive, Memory.read_write .., hwritten⟩

end Partitioned

end Heap

end CellMachine
