import CellMachine.Command.Basic
import Mathlib.Data.List.Forall2
import Mathlib.Order.Bounds.Basic

/-!
# CellMachine.Proofs.Command.Registration

The addresses of commands. Programs hold the address of a command as a number, so
it must not move while a table is filled. A registration adds one command at the
end of a table; `extend` is the table after any number of them.

* `sameName_iff` — names are compared letter by letter, up to the case of ASCII
  letters;
* `find?_eq_some_iff` — a name leads to the least address that bears it;
* `registerAll_of_le` — registrations succeed as long as addresses are `int`s, and
  they extend the table;
* `get?_extend`, `find?_extend` — what has been found once is found again in every
  extension.
-/

namespace CellMachine

namespace CommandTable

/-! ## names -/

/-- Two characters are the same, or the capital and the small form of one ASCII letter. -/
def SameLetter (c d : Char) : Prop :=
  c = d ∨ c.isUpper ∧ d.toNat = c.toNat + 32 ∨ d.isUpper ∧ c.toNat = d.toNat + 32

/-- Two names differ at most in the case of their ASCII letters. -/
def SameLetters (a b : String) : Prop := List.Forall₂ SameLetter a.toList b.toList

theorem isUpper_iff {c : Char} : c.isUpper = true ↔ 'A'.val ≤ c.val ∧ c.val ≤ 'Z'.val :=
  decide_eq_true_iff

theorem isUpper_iff_toNat {c : Char} : c.isUpper = true ↔ 65 ≤ c.toNat ∧ c.toNat ≤ 90 := by
  simp [isUpper_iff, UInt32.le_iff_toNat_le]

/-- The small form of a capital ASCII letter stands 32 places after it. -/
theorem toNat_toLower (c : Char) :
    c.toLower.toNat = if c.isUpper then c.toNat + 32 else c.toNat := by
  by_cases hc : c.isUpper
  · have hrange := isUpper_iff_toNat.mp hc
    have hlower : c.toLower.val = c.val + 32 := congrArg Char.val (dif_pos (isUpper_iff.mp hc))
    have hsum : (c.val + 32).toNat = c.val.toNat + 32 := by
      rw [UInt32.toNat_add]
      show (c.toNat + 32) % 4294967296 = c.toNat + 32
      omega
    rw [if_pos hc, ← Char.toNat_val, hlower, hsum, Char.toNat_val]
  · have hlower : c.toLower = c := dif_neg (mt isUpper_iff.mpr hc)
    rw [if_neg hc, hlower]

/-- Characters with one small form are the two forms of one letter. -/
theorem toLower_eq_toLower_iff {c d : Char} : c.toLower = d.toLower ↔ SameLetter c d := by
  rw [← Char.toNat_inj, toNat_toLower, toNat_toLower, SameLetter, ← Char.toNat_inj (c := c)]
  simp only [isUpper_iff_toNat]
  split <;> split <;> omega

/-- Names are compared letter by letter, up to the case of ASCII letters. -/
theorem sameName_iff {a b : String} : sameName a b = true ↔ SameLetters a b := by
  have hmap : a.toList.map Char.toLower = b.toList.map Char.toLower ↔
      List.Forall₂ (fun c d => c.toLower = d.toLower) a.toList b.toList := by
    rw [← List.forall₂_eq_eq_eq, List.forall₂_map_left_iff, List.forall₂_map_right_iff]
  simp only [sameName, beq_iff_eq, hmap, toLower_eq_toLower_iff]
  rfl

/-! ## lookups -/

variable {σ : Type} {t : CommandTable σ} {c : Command σ} {name : String}

@[simp] theorem get?_natCast (t : CommandTable σ) (i : Nat) : t.get? i = t.commands[i]? := rfl

@[simp] theorem size_empty : (empty : CommandTable σ).size = 0 := rfl

theorem get?_eq_none_iff (t : CommandTable σ) (a : Int) :
    t.get? a = none ↔ a < 0 ∨ (t.size : Int) ≤ a := by
  cases a with
  | ofNat i => simp [size]
  | negSucc i => simp [get?, Int.negSucc_lt_zero]

/-- The command at an address has a name. -/
def Bears (t : CommandTable σ) (name : String) (a : Int) : Prop :=
  ∃ c, t.get? a = some c ∧ SameLetters c.name name

theorem bears_natCast {i : Nat} :
    t.Bears name i ↔ ∃ h : i < t.commands.size, sameName t.commands[i].name name = true := by
  simp only [Bears, get?_natCast, Array.getElem?_eq_some_iff, sameName_iff]
  constructor
  · rintro ⟨c, ⟨hi, rfl⟩, hname⟩
    exact ⟨hi, hname⟩
  · rintro ⟨hi, hname⟩
    exact ⟨_, ⟨hi, rfl⟩, hname⟩

theorem Bears.exists_natCast {b : Int} (hb : t.Bears name b) : ∃ i : Nat, b = i := by
  obtain ⟨c, hget, -⟩ := hb
  cases b with
  | ofNat i => exact ⟨i, rfl⟩
  | negSucc i => simp [get?] at hget

/-- The addresses of a table that is not too large are `int`s, so that none is lost. -/
theorem find?_eq_findIdx? (ht : t.size ≤ intLimit) :
    t.find? name = t.commands.findIdx? fun c => sameName c.name name := by
  cases hindex : t.commands.findIdx? fun c => sameName c.name name with
  | none => simp [find?, hindex]
  | some a =>
      obtain ⟨ha, -⟩ := Array.findIdx?_eq_some_iff_getElem.mp hindex
      have hlt : a < intLimit := Nat.lt_of_lt_of_le ha ht
      simp [find?, hindex, hlt]

/-- A name leads to the least address that bears it. -/
theorem find?_eq_some_iff (ht : t.size ≤ intLimit) {a : Nat} :
    t.find? name = some a ↔ IsLeast {b | t.Bears name b} (a : Int) := by
  have hfirst : t.find? name = some a ↔ t.Bears name a ∧ ∀ j < a, ¬t.Bears name j := by
    rw [find?_eq_findIdx? ht, Array.findIdx?_eq_some_iff_getElem]
    grind [bears_natCast]
  rw [hfirst]
  apply and_congr_right
  intro _
  constructor
  · intro hnone b hb
    obtain ⟨j, rfl⟩ := hb.exists_natCast
    exact Int.ofNat_le.mpr (Nat.le_of_not_lt fun hj => hnone j hj hb)
  · intro hleast j hj hname
    have hle := hleast hname
    omega

/-- A name leads nowhere if no address bears it. -/
theorem find?_eq_none_iff (ht : t.size ≤ intLimit) :
    t.find? name = none ↔ ∀ b, ¬t.Bears name b := by
  constructor
  · intro hnone b hb
    obtain ⟨i, rfl⟩ := hb.exists_natCast
    obtain ⟨hi, hname⟩ := bears_natCast.mp hb
    rw [find?_eq_findIdx? ht, Array.findIdx?_eq_none_iff] at hnone
    simp [hnone _ (Array.getElem_mem hi)] at hname
  · intro hnone
    cases hfind : t.find? name with
    | none => rfl
    | some a => exact absurd ((find?_eq_some_iff ht).mp hfind).1 (hnone a)

/-! ## registrations -/

variable {cs : List (Command σ)}

/-- The table with more commands at its end. -/
def extend (t : CommandTable σ) (cs : List (Command σ)) : CommandTable σ :=
  ⟨t.commands ++ cs.toArray⟩

@[simp] theorem size_extend (t : CommandTable σ) (cs : List (Command σ)) :
    (t.extend cs).size = t.size + cs.length := by
  simp [extend, size]

@[simp] theorem extend_nil (t : CommandTable σ) : t.extend [] = t := by
  simp [extend]

@[simp] theorem extend_extend (t : CommandTable σ) (cs ds : List (Command σ)) :
    (t.extend cs).extend ds = t.extend (cs ++ ds) := by
  simp [extend]

/-- What stands at an address stays there. -/
theorem get?_extend {a : Int} (h : t.get? a = some c) : (t.extend cs).get? a = some c := by
  cases a with
  | ofNat i =>
      obtain ⟨hi, rfl⟩ := Array.getElem?_eq_some_iff.mp h
      simp [get?, extend, Array.getElem?_append_left hi]
  | negSucc i => simp [get?] at h

/-- The first command of an extension stands where the table ended. -/
theorem get?_extend_cons (t : CommandTable σ) (c : Command σ) (cs : List (Command σ)) :
    (t.extend (c :: cs)).get? t.size = some c := by
  simp [extend, size]

/-- The address to which a name leads stays the same. -/
theorem find?_extend {a : Nat} (h : t.find? name = some a) : (t.extend cs).find? name = some a := by
  rw [find?, Option.filter_eq_some_iff] at h
  simp [find?, extend, Array.findIdx?_append, h.1, Option.filter_eq_some_iff, h.2]

theorem register_of_lt (h : t.size < intLimit) : t.register c = .ok (t.size, t.extend [c]) := by
  simp [register, extend, h]

/-- Registrations succeed as long as addresses are `int`s. -/
theorem registerAll_of_le (h : t.size + cs.length ≤ intLimit) :
    t.registerAll cs = .ok (t.extend cs) := by
  induction cs generalizing t with
  | nil => simp [registerAll, pure, Except.pure]
  | cons c cs ih =>
      rw [List.length_cons] at h
      have hrest : (t.extend [c]).registerAll cs = .ok (t.extend (c :: cs)) := by
        rw [ih (by simp; omega), extend_extend, List.singleton_append]
      rw [← hrest, registerAll, List.foldlM_cons, register_of_lt (by omega)]
      rfl

/-- **Addresses are stable and lookups agree.** Commands that are registered in an empty table, no
more than there are `int`s for addresses, are all accepted. An address leads to a command if and only
if it is neither negative nor past the last one, and a name to the least address that bears it. The
next command gets the number of the commands before it as its address and stands there from then on,
whatever is registered later, and a name that leads to an address never leads to another. -/
theorem addresses_stable (cs : List (Command σ)) (hcs : cs.length ≤ intLimit) :
    ∃ t : CommandTable σ, empty.registerAll cs = .ok t ∧ t.size = cs.length ∧
      (∀ a : Int, t.get? a = none ↔ a < 0 ∨ (t.size : Int) ≤ a) ∧
      (∀ name (a : Nat), t.find? name = some a ↔ IsLeast {b | t.Bears name b} (a : Int)) ∧
      (∀ name, t.find? name = none ↔ ∀ b, ¬t.Bears name b) ∧
      ∀ c later, cs.length + (c :: later).length ≤ intLimit →
        ∃ t' u, t.register c = .ok (cs.length, t') ∧ t'.registerAll later = .ok u ∧
          u.get? cs.length = some c ∧ (∀ a d, t.get? a = some d → u.get? a = some d) ∧
          ∀ name a, t.find? name = some a → u.find? name = some a := by
  have hsize : (empty.extend cs).size = cs.length := by simp
  have hfits : (empty.extend cs).size ≤ intLimit := hsize ▸ hcs
  refine ⟨empty.extend cs, registerAll_of_le (by simpa using hcs), hsize,
    get?_eq_none_iff _, fun _ _ => find?_eq_some_iff hfits, fun _ => find?_eq_none_iff hfits, ?_⟩
  intro c later hlater
  rw [← hsize] at hlater ⊢
  rw [List.length_cons] at hlater
  have hall : ((empty.extend cs).extend [c]).registerAll later =
      .ok ((empty.extend cs).extend (c :: later)) := by
    rw [registerAll_of_le (by rw [size_extend, List.length_singleton]; omega), extend_extend,
      List.singleton_append]
  exact ⟨_, _, register_of_lt (by omega), hall, get?_extend_cons .., fun _ _ => get?_extend,
    fun _ _ => find?_extend⟩

/-- A command without parameters that does nothing. -/
def idle (name : String) : Command Unit where
  name := name
  run args w := (.ok (.returning args .void), w)

/-- A command whose name is taken, in other letters, has an address of its own, and the name still
leads to the first command. Letters that are not ASCII have no other case. -/
theorem addresses_stable_taken :
    ∃ t t' u : CommandTable Unit, empty.registerAll [idle "first", idle "Second"] = .ok t ∧
      t.find? "seCond" = some 1 ∧ t.get? 2 = none ∧ t.get? (-1) = none ∧
      t.register (idle "SECOND") = .ok (2, t') ∧ t'.registerAll [idle "é"] = .ok u ∧
      u.get? 2 = some (idle "SECOND") ∧ u.find? "seCond" = some 1 ∧ u.find? "É" = none := by
  obtain ⟨t, hall, hsize, hget, -, -, hnext⟩ :=
    addresses_stable [idle "first", idle "Second"] (by decide)
  obtain ⟨t', u, hregister, hlater, hkept, -, hfind⟩ :=
    hnext (idle "SECOND") [idle "é"] (by decide)
  have ht : t = ⟨#[idle "first", idle "Second"]⟩ := (Except.ok.inj hall).symm
  have hsecond : t.find? "seCond" = some 1 := by rw [ht]; decide +kernel
  have hu : u = ⟨#[idle "first", idle "Second", idle "SECOND", idle "é"]⟩ := by
    subst ht
    cases Except.ok.inj hregister
    exact (Except.ok.inj hlater).symm
  refine ⟨t, t', u, hall, hsecond, ?_, ?_, hregister, hlater, hkept, hfind _ _ hsecond, ?_⟩
  · exact (hget 2).mpr (.inr (by simp [hsize]))
  · exact (hget (-1)).mpr (.inl (by decide))
  · rw [hu]; decide +kernel

end CommandTable

end CellMachine
