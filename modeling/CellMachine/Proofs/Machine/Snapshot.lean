import CellMachine.Proofs.Machine.Invariant
import CellMachine.Snapshot

/-!
# CellMachine.Proofs.Machine.Snapshot

A snapshot shows a machine as it is. Only the registers that differ from the zero
int are listed, with the significant bytes of their cells; still nothing is lost,
since every cell that gets into a register is zero beyond its significant bytes
(`Consistent.registers`). The blocks that are listed are the live ones, each in its
place below the cursor, and the machine is shown as complete where it stands at the
end of its program.
-/

namespace CellMachine

/-- The zero int is the well-formed cell with its tag and its significant bytes. -/
theorem Cell.eq_zero_iff {c : Cell} (hc : c.WellFormed) :
    c = .zero ↔ c.tag = .int ∧ c.bytes = [0, 0, 0, 0] := by
  constructor
  · rintro rfl
    exact ⟨rfl, rfl⟩
  · rintro ⟨htag, hbytes⟩
    rw [← Cell.ofBytes_bytes hc, htag, hbytes]
    rfl

/-! ## registers that are occupied -/

namespace Registers

variable {rs : Registers}

theorem mem_occupied {r : UInt8} {c : Cell} :
    (r, c) ∈ rs.occupied ↔ rs.load r = c ∧ c ≠ .zero := by
  simp only [occupied, List.mem_filterMap, List.mem_range]
  constructor
  · rintro ⟨i, -, hi⟩
    split at hi
    · contradiction
    · next hne =>
        obtain ⟨rfl, rfl⟩ := Prod.mk.inj (Option.some.inj hi)
        exact ⟨rfl, hne⟩
  · rintro ⟨rfl, hne⟩
    refine ⟨r.toNat, r.toNat_lt, ?_⟩
    rw [UInt8.ofNat_toNat, if_neg hne]

/-- Occupied registers are listed by address. -/
theorem pairwise_occupied (rs : Registers) : rs.occupied.Pairwise fun a b => a.1 < b.1 := by
  have haddress : ∀ {k : Nat} {x : UInt8 × Cell},
      (if rs.load (UInt8.ofNat k) = Cell.zero then none
        else some (UInt8.ofNat k, rs.load (UInt8.ofNat k))) = some x → x.1 = UInt8.ofNat k := by
    intro k x hx
    split at hx
    · contradiction
    · rw [← Option.some.inj hx]
  have hrange := List.Pairwise.and_mem.mp (List.pairwise_lt_range (n := 256))
  refine hrange.filterMap _ fun i j hij a ha b hb => ?_
  obtain ⟨hi, hj, hlt⟩ := hij
  rw [List.mem_range] at hi hj
  rw [haddress ha, haddress hb, UInt8.lt_iff_toNat_lt, UInt8.toNat_ofNat', UInt8.toNat_ofNat']
  omega

end Registers

/-! ## blocks that are live -/

namespace Heap

variable {h : Heap}

theorem pairwise_blocks (h : Heap) : h.blocks.Pairwise fun a b => a.1 < b.1 :=
  Std.TreeMap.ordered_keys_toList.imp fun {_ _} hlt => Nat.compare_eq_lt.mp hlt

theorem mem_blocks {ptr len : Nat} : (ptr, len) ∈ h.blocks ↔ h.live[ptr]? = some len :=
  Std.TreeMap.mem_toList_iff_getElem?_eq_some

/-- Each live block ends before the next one begins. -/
theorem Partitioned.pairwise_end_le (hh : h.Partitioned) :
    h.blocks.Pairwise fun a b => a.1 + extent a.2 ≤ b.1 := by
  have hapart := (List.pairwise_append.mp hh.apart).1
  refine (h.pairwise_blocks.and hapart).imp fun {a b} hab => ?_
  obtain ⟨hlt, hapart⟩ := hab
  unfold Apart at hapart
  omega

end Heap

/-! ## what a snapshot says -/

namespace Snapshot

/-- The cell in a register by a snapshot: what the view of the register shows, and the zero int if
there is none. -/
def cellAt (snap : Snapshot) (r : UInt8) : Cell :=
  match snap.registers.find? (·.address == r) with
  | some v => .ofBytes v.tag v.bytes
  | none => .zero

/-- The registers by a snapshot. -/
def registerFile (snap : Snapshot) : Registers :=
  ⟨Vector.ofFn fun i => snap.cellAt (UInt8.ofNat i)⟩

end Snapshot

namespace Machine

variable {σ : Type} {m : Machine σ} {s : State σ}

/-- The snapshot shows the machine in state `s` as it is. -/
structure Faithful (m : Machine σ) (s : State σ) (snap : Snapshot) : Prop where
  /-- Registers are listed by address. -/
  addresses : snap.registers.Pairwise fun v w => v.address < w.address
  /-- Those are listed that differ from the zero int in their tag or their significant bytes. -/
  registers : ∀ r t bytes,
    (∃ v ∈ snap.registers, v.address = r ∧ v.tag = t ∧ v.bytes = bytes) ↔
      (s.registers.load r).tag = t ∧ (s.registers.load r).bytes = bytes ∧
        ¬ (t = .int ∧ bytes = [0, 0, 0, 0])
  /-- All registers can be recovered. -/
  recovered : snap.registerFile = s.registers
  /-- Blocks are listed by address. -/
  pointers : snap.heap.blocks.Pairwise fun a b => a.ptr < b.ptr
  /-- Those are listed that are live. -/
  blocks : ∀ ptr len, ⟨ptr, len⟩ ∈ snap.heap.blocks ↔ s.heap.live[ptr]? = some len
  /-- Each block ends before the next one begins. -/
  apart : snap.heap.blocks.Pairwise fun a b => a.ptr + Heap.extent a.len ≤ b.ptr
  end_le : ∀ b ∈ snap.heap.blocks, b.ptr + Heap.extent b.len ≤ snap.heap.cursor
  cursor_le : snap.heap.cursor ≤ snap.heap.capacity
  cursor : snap.heap.cursor = s.heap.cursor
  capacity : snap.heap.capacity = s.heap.capacity
  ip : snap.ip = s.ip
  complete : snap.complete = true ↔ snap.ip = m.program.size

/-- How a register is listed. -/
def registerView (s : State σ) (r : UInt8) : RegisterView :=
  let c := s.registers.load r
  ⟨r, c.tag, c.bytes, c.display s.heap⟩

/-- The registers are listed that hold something other than the zero int. -/
theorem mem_registers_snapshot {v : RegisterView} :
    v ∈ (m.snapshot s).registers ↔ ∃ r, s.registers.load r ≠ .zero ∧ v = registerView s r := by
  simp only [snapshot, List.mem_map, Prod.exists]
  constructor
  · rintro ⟨r, c, hmem, rfl⟩
    obtain ⟨rfl, hne⟩ := Registers.mem_occupied.mp hmem
    exact ⟨r, hne, rfl⟩
  · rintro ⟨r, hne, rfl⟩
    exact ⟨r, _, Registers.mem_occupied.mpr ⟨rfl, hne⟩, rfl⟩

/-- What a snapshot says of a register is what is in it. -/
theorem cellAt_snapshot (hs : ∀ r, (s.registers.load r).WellFormed) (r : UInt8) :
    (m.snapshot s).cellAt r = s.registers.load r := by
  unfold Snapshot.cellAt
  cases hfind : (m.snapshot s).registers.find? (·.address == r) with
  | some v =>
      have haddress : v.address = r := by simpa using List.find?_some hfind
      obtain ⟨q, -, rfl⟩ := mem_registers_snapshot.mp (List.mem_of_find?_eq_some hfind)
      obtain rfl : q = r := haddress
      exact Cell.ofBytes_bytes (hs q)
  | none =>
      -- a register that is not listed holds the zero int
      have hzero : s.registers.load r = .zero := by
        by_contra hne
        have hlisted : registerView s r ∈ (m.snapshot s).registers :=
          mem_registers_snapshot.mpr ⟨r, hne, rfl⟩
        exact List.find?_eq_none.mp hfind _ hlisted (by simp [registerView])
      exact hzero.symm

theorem registerFile_snapshot (hs : ∀ r, (s.registers.load r).WellFormed) :
    (m.snapshot s).registerFile = s.registers := by
  have hcells : (Vector.ofFn fun i : Fin 256 => (m.snapshot s).cellAt (UInt8.ofNat i)) =
      s.registers.cells := by
    apply Vector.ext
    intro i hi
    rw [Vector.getElem_ofFn, cellAt_snapshot hs]
    simp [Registers.load, Nat.mod_eq_of_lt hi]
  rw [Snapshot.registerFile, hcells]

/-- What is listed of a register is what is in it, and it is listed unless that is the zero int. -/
theorem listed_iff (hs : ∀ r, (s.registers.load r).WellFormed) (r : UInt8) (t : Tag)
    (bytes : List UInt8) :
    (∃ v ∈ (m.snapshot s).registers, v.address = r ∧ v.tag = t ∧ v.bytes = bytes) ↔
      (s.registers.load r).tag = t ∧ (s.registers.load r).bytes = bytes ∧
        ¬ (t = .int ∧ bytes = [0, 0, 0, 0]) := by
  constructor
  · rintro ⟨v, hv, rfl, rfl, rfl⟩
    obtain ⟨r, hne, rfl⟩ := mem_registers_snapshot.mp hv
    exact ⟨rfl, rfl, fun hzero => hne ((Cell.eq_zero_iff (hs r)).mpr hzero)⟩
  · rintro ⟨rfl, rfl, hne⟩
    have hlisted : registerView s r ∈ (m.snapshot s).registers :=
      mem_registers_snapshot.mpr ⟨r, fun hzero => hne ((Cell.eq_zero_iff (hs r)).mp hzero), rfl⟩
    exact ⟨_, hlisted, rfl, rfl, rfl⟩

/-- **Snapshots are faithful**: in every state of a session in which only well-formed cells are put
into registers from outside, the snapshot shows the machine as it is. -/
theorem snapshot_faithful (m : Machine σ) {us : List (State σ)} {s : State σ}
    (h : Session m Cell.WellFormed us s) : Faithful m s (m.snapshot s) := by
  have hc := h.consistent
  refine
    { addresses := List.pairwise_map.mpr s.registers.pairwise_occupied
      registers := listed_iff hc.registers
      recovered := registerFile_snapshot hc.registers
      pointers := List.pairwise_map.mpr s.heap.pairwise_blocks
      blocks := ?_
      apart := List.pairwise_map.mpr hc.heap.pairwise_end_le
      end_le := ?_
      cursor_le := hc.heap.cursor_le
      cursor := rfl
      capacity := rfl
      ip := rfl
      complete := ?_ }
  · intro ptr len
    simp [snapshot, ← Heap.mem_blocks]
  · intro b hb
    obtain ⟨⟨ptr, len⟩, hblock, rfl⟩ := List.mem_map.mp hb
    exact hc.heap.end_le (List.mem_append_left _ hblock)
  · have hip := hc.ip_le
    simp only [snapshot, isComplete, decide_eq_true_eq]
    omega

/-- A machine that puts 5 into one register and the address of a new block of 3 bytes into another. -/
def filing : Machine Unit where
  program := #[Opcode.push.code, Tag.int.code, 5, 0, 0, 0, Opcode.store.code, 200,
    Opcode.push.code, Tag.int.code, 3, 0, 0, 0, Opcode.alloc.code, Opcode.store.code, 9]
  commands := .empty
  settings := { stackCapacity := 8, initialHeapSize := 1 }

theorem snapshot_faithful_filing :
    ∃ us s, Session filing Cell.WellFormed us s ∧ s.registers.load 1 = .void ∧
      s.registers.load 9 = ⟨.ptrHeap, 0⟩ ∧ s.registers.load 200 = ⟨.int, 5⟩ ∧
      (filing.snapshot s).heap = ⟨4, 3, [⟨0, 3⟩]⟩ ∧ Faithful filing s (filing.snapshot s) := by
  have hlife : Session filing Cell.WellFormed _ _ :=
    .setRegister 1 (.execute 0 9 (.start ()) rfl) Cell.wellFormed_void
  exact ⟨_, _, hlife, by decide +kernel, by decide +kernel, by decide +kernel, by decide +kernel,
    snapshot_faithful filing hlife⟩

end Machine

end CellMachine
