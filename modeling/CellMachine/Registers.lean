import CellMachine.Cell

/-!
# CellMachine.Registers

The 256 registers. An address is one byte, so every address names a register.
-/

namespace CellMachine

/-- The registers, each a cell. -/
structure Registers where
  cells : Vector Cell 256

namespace Registers

/-- All registers hold the zero int. -/
def new : Registers := ⟨Vector.replicate 256 Cell.zero⟩

instance : Inhabited Registers := ⟨new⟩

/-- The cell in a register. -/
def load (rs : Registers) (r : UInt8) : Cell :=
  have h : r.toNat < 256 := r.toNat_lt
  rs.cells[r.toNat]

/-- Puts a cell into a register. -/
def store (rs : Registers) (r : UInt8) (c : Cell) : Registers :=
  ⟨rs.cells.set r.toNat c r.toNat_lt⟩

/-- The registers that hold something other than the zero int, by address. -/
def occupied (rs : Registers) : List (UInt8 × Cell) :=
  (List.range 256).filterMap fun i =>
    let r := UInt8.ofNat i
    let c := rs.load r
    if c = Cell.zero then none else some (r, c)

@[simp] theorem load_store_self (rs : Registers) (r : UInt8) (c : Cell) :
    (rs.store r c).load r = c := by
  simp [load, store]

theorem load_store_of_ne (rs : Registers) {r q : UInt8} (h : q ≠ r) (c : Cell) :
    (rs.store r c).load q = rs.load q := by
  have h' : r.toNat ≠ q.toNat := fun e => h (UInt8.toNat_inj.mp e).symm
  simp [load, store, h']

end Registers

end CellMachine
