import CellMachine.Assembler
import CellMachine.Proofs.Instr
import CellMachine.Proofs.Store

/-!
# CellMachine.Proofs.Assembler.Listing

What an assembled program consists of, read off its directives alone. Given
where labels stand, each directive is a few instructions (`Directive.instrs`);
how many bytes these take does not depend on where the labels stand, so the
place of a label is found by adding sizes (`Directive.lastPlace`).

`laid_of_assemble` says that assembling disciplined directives gives exactly the
bytes of these instructions, with every jump patched to the place of its label.
-/

namespace CellMachine

/-- Whether instructions with this opcode have inline operands. -/
def Opcode.hasOperands : Opcode → Bool
  | push | pushSpan | pushType | pushRegPtr | cast | store | load | storePtr | loadPtr => true
  | _ => false

/-- Whether the opcode jumps to a target on the stack. -/
def Opcode.isJump : Opcode → Bool
  | jump | jumpZero | jumpGtZero | jumpHistory => true
  | _ => false

/-- The instructions without inline operands. -/
def Instr.bare : List Instr :=
  [noop, dupe, discard, discardType, arith .add, arith .sub, arith .mul, arith .div, arith .mod,
   negate, compare .gt, compare .gte, compare .lt, compare .lte, compare .eq, compare .neq,
   and, or, not, alloc, free, write, read, jump, jumpZero, jumpGtZero, jumpHistory, ret, callHost,
   dbgPrint, breakpoint]

namespace Directive

/-! ## the instructions of directives -/

/-- Bare opcodes have no operands and are no jumps, and payloads have the width of their tag. -/
def isDisciplined : Directive → Bool
  | op o => !o.hasOperands && !o.isJump
  | pushTagged t payload => payload.length == t.width
  | _ => true

/-- The instructions of a directive, where `target` says where labels stand. -/
def instrs (target : Nat → Nat) : Directive → List Instr
  | op o => (Instr.bare.find? fun i => i.opcode = o).toList
  | pushTagged t payload => [.push t payload]
  | pushCell c => [.push c.tag c.canonical.bytes]
  | pushSpan bytes => [.pushSpan bytes]
  | pushType t => [.pushType t]
  | pushRegPtr r => [.pushRegPtr r]
  | pushText text scratch => Assembler.textInstrs (Text.encode text) scratch
  | store r => [.store r]
  | load r => [.load r]
  | storePtr r => [.storePtr r]
  | loadPtr r t => [.loadPtr r t]
  | cast t => [.cast t]
  | callHost address => [Assembler.pushInt address.toInt, .callHost]
  | label | place _ => []
  | jump kind l => [Assembler.pushInt (target l), kind.instr]

/-- The bytes of a directive. -/
def bytes (target : Nat → Nat) (d : Directive) : List UInt8 :=
  (d.instrs target).flatMap Instr.encode

/-- The bytes of directives. -/
def code (target : Nat → Nat) (ds : List Directive) : List UInt8 := ds.flatMap (bytes target)

/-- How many bytes a directive takes. -/
def size (d : Directive) : Nat := (d.bytes fun _ => 0).length

/-- How many bytes directives take. -/
def codeSize : List Directive → Nat
  | [] => 0
  | d :: ds => d.size + codeSize ds

@[simp] theorem codeSize_nil : codeSize [] = 0 := rfl

@[simp] theorem codeSize_cons (d : Directive) (ds : List Directive) :
    codeSize (d :: ds) = d.size + codeSize ds := rfl

@[simp] theorem codeSize_append (ds es : List Directive) :
    codeSize (ds ++ es) = codeSize ds + codeSize es := by
  induction ds with
  | nil => simp
  | cons d ds ih => simp [ih, Nat.add_assoc]

@[simp] theorem code_cons (target : Nat → Nat) (d : Directive) (ds : List Directive) :
    code target (d :: ds) = d.bytes target ++ code target ds := by
  simp [code]

@[simp] theorem code_append (target : Nat → Nat) (ds es : List Directive) :
    code target (ds ++ es) = code target ds ++ code target es := by
  simp [code]

theorem encode_pushInt (n : Int) :
    (Assembler.pushInt n).encode =
      [Opcode.push.code, Tag.int.code] ++ (Cell.ofInt .int n).bytes := rfl

@[simp] theorem length_encode_pushInt (n : Int) : (Assembler.pushInt n).encode.length = 6 := by
  simp [encode_pushInt, Cell.ofInt, Tag.width]

/-- **The size of a directive** does not depend on where labels stand. -/
@[simp] theorem length_bytes (target : Nat → Nat) (d : Directive) :
    (d.bytes target).length = d.size := by
  cases d with
  | jump kind l => simp [bytes, size, instrs]
  | _ => rfl

@[simp] theorem length_code (target : Nat → Nat) (ds : List Directive) :
    (code target ds).length = codeSize ds := by
  induction ds with
  | nil => rfl
  | cons d ds ih => simp [ih]

/-! ## where labels stand -/

/-- The offset at which directives place a label last. -/
def lastPlace (l : Nat) : List Directive → Option Nat
  | [] => none
  | d :: ds =>
    match lastPlace l ds with
    | some n => some (d.size + n)
    | none => if d = place l then some 0 else none

theorem not_mem_of_lastPlace_eq_none {l : Nat} {ds : List Directive}
    (h : lastPlace l ds = none) : place l ∉ ds := by
  induction ds with
  | nil => exact List.not_mem_nil
  | cons d ds ih =>
      simp only [lastPlace] at h
      split at h
      · contradiction
      · next hnone =>
          split at h
          · contradiction
          · next hne =>
              intro hmem
              rcases List.mem_cons.mp hmem with heq | hmem
              · exact hne heq.symm
              · exact ih hnone hmem

/-- The last place of a label is before a directive that places it and none that does so again. -/
theorem split_of_lastPlace {l n : Nat} {ds : List Directive} (h : lastPlace l ds = some n) :
    ∃ before after, ds = before ++ place l :: after ∧ place l ∉ after ∧ n = codeSize before := by
  induction ds generalizing n with
  | nil => contradiction
  | cons d ds ih =>
      simp only [lastPlace] at h
      split at h
      · next k hk =>
          obtain ⟨before, after, rfl, hlast, rfl⟩ := ih hk
          refine ⟨d :: before, after, rfl, hlast, ?_⟩
          rw [codeSize_cons]
          exact (Option.some.inj h).symm
      · next hnone =>
          split at h
          · next heq =>
              obtain rfl := heq
              exact ⟨[], ds, rfl, not_mem_of_lastPlace_eq_none hnone, (Option.some.inj h).symm⟩
          · contradiction

/-- Where jumps to a label go. -/
def target (ds : List Directive) (l : Nat) : Nat := (lastPlace l ds).getD 0

/-- Where jump targets are to be patched in directives that begin at an offset. -/
def fixups (offset : Nat) : List Directive → List (Nat × Nat)
  | [] => []
  | jump kind l :: ds => (offset + 2, l) :: fixups (offset + (jump kind l).size) ds
  | d :: ds => fixups (offset + d.size) ds

/-- A directive that is no jump does not ask where labels stand. -/
theorem instrs_of_not_jump {d : Directive} (hjump : ¬ ∃ kind l, d = jump kind l)
    (target target' : Nat → Nat) : d.instrs target = d.instrs target' := by
  cases d with
  | jump kind l => exact absurd ⟨kind, l, rfl⟩ hjump
  | _ => rfl

theorem fixups_of_not_jump {d : Directive} (hjump : ¬ ∃ kind l, d = jump kind l) (offset : Nat)
    (ds : List Directive) : fixups offset (d :: ds) = fixups (offset + d.size) ds := by
  cases d with
  | jump kind l => exact absurd ⟨kind, l, rfl⟩ hjump
  | _ => rfl

end Directive

/-- The program is the one that directives list: its bytes are those of their instructions, each of
which can be read back, and every jump goes to where its label was placed last. -/
structure Laid (ds : List Directive) (p : Program) : Prop where
  bytes : p.toList = Directive.code (Directive.target ds) ds
  sized : ∀ d ∈ ds, ∀ i ∈ d.instrs (Directive.target ds), i.Sized
  jumps : ∀ kind l, .jump kind l ∈ ds →
    Directive.lastPlace l ds = some (Directive.target ds l) ∧ Directive.target ds l < intLimit

/-! ## what directives emit -/

namespace Assembler

open Directive

theorem exists_bare {o : Opcode} (h : o.hasOperands = false) :
    ∃ i, (Instr.bare.find? fun i => i.opcode = o) = some i ∧ i.operandBytes = [] ∧
      i.opcode = o := by
  cases o with
  | push => contradiction
  | pushSpan => contradiction
  | pushType => contradiction
  | pushRegPtr => contradiction
  | cast => contradiction
  | store => contradiction
  | load => contradiction
  | storePtr => contradiction
  | loadPtr => contradiction
  | _ => exact ⟨_, rfl, rfl, rfl⟩

/-- What directives add to a program under construction: their bytes with all targets zero, the
places to be patched and the places of labels. -/
structure Extends (a : Assembler) (ds : List Directive) (b : Assembler) : Prop where
  code : b.code.toList = a.code.toList ++ Directive.code (fun _ => 0) ds
  fixups : b.fixups.toList = a.fixups.toList ++ Directive.fixups a.position ds
  labels : ∀ l n, b.labels[l]? = some (some n) →
    ((lastPlace l ds).map (a.position + ·)).or a.labels[l]?.join = some n
  sized : ∀ d ∈ ds, ∀ target, ∀ i ∈ d.instrs target, i.Sized

/-- A directive that only appends instructions. -/
theorem extends_instrs (a : Assembler) {d : Directive} {is : List Instr}
    (hinstrs : ∀ target, d.instrs target = is) (hfixups : ∀ n, Directive.fixups n [d] = [])
    (hplace : ∀ l, lastPlace l [d] = none) (hsized : ∀ i ∈ is, i.Sized) :
    Extends a [d] (a.instrs is) where
  code := by simp [Assembler.instrs, append, Directive.code, bytes, hinstrs]
  fixups := by rw [hfixups, List.append_nil]; rfl
  labels l n h := by
    rw [hplace]
    change a.labels[l]? = some (some n) at h
    simp [h]
  sized e he target i hi := by
    obtain rfl := List.mem_singleton.mp he
    rw [hinstrs] at hi
    exact hsized i hi

theorem Extends.position {a b : Assembler} {ds : List Directive} (h : Extends a ds b) :
    b.position = a.position + codeSize ds := by
  have hlen := congrArg List.length h.code
  rw [List.length_append, length_code] at hlen
  exact hlen

theorem sized_pushInt (n : Int) : (pushInt n).Sized := by
  simp [pushInt, Instr.Sized, Cell.ofInt]

theorem tag_canonical (c : Cell) : c.canonical.tag = c.tag := by
  unfold Cell.canonical
  split
  · next h => rw [h]; rfl
  · rfl

theorem sized_textInstrs {bytes : List UInt8} (hlen : bytes.length < intLimit) (scratch : UInt8) :
    ∀ i ∈ textInstrs bytes scratch, i.Sized := by
  have hspan : (Instr.pushSpan bytes).Sized := Nat.lt_trans hlen (by decide)
  have hint := sized_pushInt bytes.length
  intro i hi
  simp only [textInstrs, List.mem_cons, List.not_mem_nil, or_false] at hi
  rcases hi with rfl | rfl | rfl | rfl | rfl | rfl | rfl | rfl | rfl
  · exact hspan
  · exact hint
  · trivial
  · trivial
  · exact hint
  · trivial
  · trivial
  · trivial
  · trivial

/-- A directive that only appends an instruction. -/
theorem extends_instr (a : Assembler) {d : Directive} {i : Instr}
    (hinstrs : ∀ target, d.instrs target = [i]) (hfixups : ∀ n, Directive.fixups n [d] = [])
    (hplace : ∀ l, lastPlace l [d] = none) (hsized : i.Sized) : Extends a [d] (a.instrs [i]) := by
  refine extends_instrs a hinstrs hfixups hplace fun j hj => ?_
  obtain rfl := List.mem_singleton.mp hj
  exact hsized

/-- A new label stands nowhere. -/
theorem extends_label (a : Assembler) :
    Extends a [.label] { a with labels := a.labels.push none } where
  code := by simp [Directive.code, bytes, Directive.instrs]
  fixups := by simp [Directive.fixups]
  labels l n h := by
    rw [Array.getElem?_push] at h
    split at h
    · exact nomatch Option.some.inj h
    · simp [lastPlace, h]
  sized d hd target i hi := by
    obtain rfl := List.mem_singleton.mp hd
    exact absurd hi List.not_mem_nil

/-- A label is placed at the end of the code so far. -/
theorem extends_place (a : Assembler) (k : Nat) :
    Extends a [.place k] { a with labels := a.labels.setIfInBounds k (some a.position) } where
  code := by simp [Directive.code, bytes, Directive.instrs]
  fixups := by simp [Directive.fixups]
  labels l n h := by
    rw [Array.getElem?_setIfInBounds] at h
    by_cases hk : k = l
    · subst hk
      rw [if_pos rfl] at h
      split at h
      · obtain rfl := Option.some.inj (Option.some.inj h)
        simp [lastPlace]
      · contradiction
    · rw [if_neg hk] at h
      simp [lastPlace, hk, h]
  sized d hd target i hi := by
    obtain rfl := List.mem_singleton.mp hd
    exact absurd hi List.not_mem_nil

/-- A jump is to be patched behind the opcode and the tag of its push. -/
theorem extends_jump (a : Assembler) (kind : JumpKind) (k : Nat) :
    Extends a [.jump kind k] { a.instrs [pushInt 0, kind.instr] with
      fixups := a.fixups.push (a.position + 2, k) } where
  code := by simp [Assembler.instrs, append, Directive.code, bytes, Directive.instrs]
  fixups := by simp [Directive.fixups]
  labels l n h := by
    change a.labels[l]? = some (some n) at h
    simp [lastPlace, h]
  sized d hd target i hi := by
    obtain rfl := List.mem_singleton.mp hd
    rcases List.mem_cons.mp hi with rfl | hi
    · exact sized_pushInt _
    · obtain rfl := List.mem_singleton.mp hi
      cases kind <;> trivial

/-- **One directive** adds what it lists. -/
theorem extends_of_emit {a b : Assembler} {d : Directive} (hd : d.isDisciplined = true)
    (h : a.emit d = .ok b) : Extends a [d] b := by
  cases d with
  | op o =>
      obtain rfl := Except.ok.inj h
      simp only [isDisciplined, Bool.and_eq_true, Bool.not_eq_true'] at hd
      obtain ⟨i, hfind, hbare, rfl⟩ := exists_bare hd.1
      have hbytes : a.append [i.opcode.code] = a.instrs [i] := by
        simp [Assembler.instrs, Instr.encode, hbare]
      rw [hbytes]
      refine extends_instr a (fun _ => ?_) (fun _ => rfl) (fun _ => rfl) (Instr.sized_of_bare hbare)
      simp only [Directive.instrs, hfind, Option.toList_some]
  | pushTagged t payload =>
      obtain rfl := Except.ok.inj h
      have hwidth : payload.length = t.width := by simpa [isDisciplined] using hd
      exact extends_instr a (fun _ => rfl) (fun _ => rfl) (fun _ => rfl) hwidth
  | pushCell c =>
      obtain rfl := Except.ok.inj h
      have hwidth : c.canonical.bytes.length = c.tag.width := by simp [tag_canonical]
      exact extends_instr a (fun _ => rfl) (fun _ => rfl) (fun _ => rfl) hwidth
  | pushSpan bytes =>
      simp only [emit] at h
      split at h
      · next hlen =>
          obtain rfl := Except.ok.inj h
          exact extends_instr a (fun _ => rfl) (fun _ => rfl) (fun _ => rfl) hlen
      · contradiction
  | pushText text scratch =>
      simp only [emit] at h
      split at h
      · next hlen =>
          obtain rfl := Except.ok.inj h
          exact extends_instrs a (fun _ => rfl) (fun _ => rfl) (fun _ => rfl)
            (sized_textInstrs hlen scratch)
      · contradiction
  | callHost address =>
      obtain rfl := Except.ok.inj h
      refine extends_instrs a (fun _ => rfl) (fun _ => rfl) (fun _ => rfl) fun i hi => ?_
      rcases List.mem_cons.mp hi with rfl | hi
      · exact sized_pushInt _
      · obtain rfl := List.mem_singleton.mp hi
        trivial
  | label =>
      obtain rfl := Except.ok.inj h
      exact extends_label a
  | place k =>
      obtain rfl := Except.ok.inj h
      exact extends_place a k
  | jump kind k =>
      obtain rfl := Except.ok.inj h
      exact extends_jump a kind k
  | _ =>
      obtain rfl := Except.ok.inj h
      exact extends_instr a (fun _ => rfl) (fun _ => rfl) (fun _ => rfl) trivial

theorem fixups_cons (n : Nat) (d : Directive) (ds : List Directive) :
    Directive.fixups n (d :: ds) = Directive.fixups n [d] ++ Directive.fixups (n + d.size) ds := by
  cases d <;> rfl

theorem Extends.cons {a b c : Assembler} {d : Directive} {ds : List Directive}
    (hd : Extends a [d] b) (hds : Extends b ds c) : Extends a (d :: ds) c where
  code := by
    rw [hds.code, hd.code, List.append_assoc, ← code_append]
    rfl
  fixups := by
    have hpos : b.position = a.position + d.size := by simpa using hd.position
    rw [hds.fixups, hd.fixups, hpos, List.append_assoc, ← fixups_cons]
  labels l n hl := by
    have hpos : b.position = a.position + d.size := by simpa using hd.position
    have hlast := hds.labels l n hl
    -- a place in the rest is later than one in `d`, and that one than any before
    cases hplace : lastPlace l ds with
    | some k =>
        rw [hplace, hpos] at hlast
        simp only [lastPlace, hplace, Option.map_some, Option.some_or] at hlast ⊢
        rw [← Nat.add_assoc]
        exact hlast
    | none =>
        rw [hplace, Option.map_none, Option.none_or, Option.join_eq_some_iff] at hlast
        have hfirst := hd.labels l n hlast
        simp only [lastPlace] at hfirst
        simp only [lastPlace, hplace]
        exact hfirst
  sized e he := by
    rcases List.mem_cons.mp he with rfl | he
    · exact hd.sized e List.mem_cons_self
    · exact hds.sized e he

/-- **A list of directives** adds what it lists. -/
theorem extends_of_emits {a b : Assembler} {ds : List Directive}
    (hds : ∀ d ∈ ds, d.isDisciplined = true) (h : ds.foldlM emit a = .ok b) : Extends a ds b := by
  induction ds generalizing a with
  | nil =>
      obtain rfl := Except.ok.inj h
      exact ⟨by simp [Directive.code], by simp [Directive.fixups],
        fun l n hl => by simp [lastPlace, hl], fun d hd => nomatch hd⟩
  | cons d ds ih =>
      rw [List.foldlM_cons] at h
      obtain ⟨a', hd, hrest⟩ := bind_eq_ok h
      exact (extends_of_emit (hds d List.mem_cons_self) hd).cons
        (ih (fun e he => hds e (List.mem_cons_of_mem d he)) hrest)

/-! ## patching -/

theorem toList_overwrite_append {buffer : Array UInt8} {before old new after : List UInt8}
    (h : buffer.toList = before ++ old ++ after) (hlen : new.length = old.length) :
    (overwrite buffer before.length new).toList = before ++ new ++ after := by
  have hfits : before.length + new.length ≤ buffer.size := by
    have hsize := congrArg List.length h
    simp only [Array.length_toList, List.length_append] at hsize
    omega
  have hskip : before.length + new.length = (before ++ old).length := by
    rw [List.length_append, hlen]
  rw [toList_overwrite _ _ _ hfits, hskip, h, List.drop_left, List.append_assoc before old,
    List.take_left]

theorem bytes_jump (target : Nat → Nat) (kind : JumpKind) (l : Nat) :
    (Directive.jump kind l).bytes target =
      [Opcode.push.code, Tag.int.code] ++ leBytes 4 (target l) ++ kind.instr.encode := by
  simp [bytes, Directive.instrs, encode_pushInt, Cell.bytes_ofInt_natCast]

/-- The target of a jump is patched behind two bytes. -/
theorem toList_patch {code : Program} {before after : List UInt8} {target : Nat → Nat}
    {kind : JumpKind} {l n : Nat}
    (hcode : code.toList = before ++ ((Directive.jump kind l).bytes (fun _ => 0) ++ after))
    (hn : target l = n) :
    (overwrite code (before.length + 2) (leBytes 4 n)).toList =
      before ++ (Directive.jump kind l).bytes target ++ after := by
  have hsplit : code.toList = before ++ [Opcode.push.code, Tag.int.code] ++ leBytes 4 0 ++
      (kind.instr.encode ++ after) := by
    simp [hcode, bytes_jump]
  have hlen : (leBytes 4 n).length = (leBytes 4 0).length := by simp
  have hover := toList_overwrite_append hsplit hlen
  rw [List.length_append] at hover
  exact hover.trans (by simp [bytes_jump, hn])

theorem patch_eq_ok {labels : Array (Option Nat)} {code p : Program} {offset l : Nat}
    (h : patch labels code (offset, l) = .ok p) :
    ∃ n, labels[l]? = some (some n) ∧ n < intLimit ∧ p = overwrite code offset (leBytes 4 n) := by
  simp only [patch] at h
  split at h
  · next n hl =>
      split at h
      · next hlt => exact ⟨n, hl, hlt, (Except.ok.inj h).symm⟩
      · contradiction
  · contradiction

/-- **Patching** puts in the targets, where `target` says where the labels stand. -/
theorem code_of_patch {labels : Array (Option Nat)} {target : Nat → Nat}
    (htarget : ∀ l n, labels[l]? = some (some n) → target l = n) {ds : List Directive}
    {before : List UInt8} {code p : Program}
    (hcode : code.toList = before ++ Directive.code (fun _ => 0) ds)
    (h : (Directive.fixups before.length ds).foldlM (patch labels) code = .ok p) :
    p.toList = before ++ Directive.code target ds ∧
      ∀ kind l, .jump kind l ∈ ds → labels[l]? = some (some (target l)) ∧ target l < intLimit := by
  induction ds generalizing before code with
  | nil =>
      obtain rfl := Except.ok.inj h
      exact ⟨hcode, fun _ _ hmem => nomatch hmem⟩
  | cons d ds ih =>
      -- the rest is patched behind the bytes of `d` with their targets
      have hlen : (before ++ d.bytes target).length = before.length + d.size := by
        rw [List.length_append, Directive.length_bytes]
      by_cases hjump : ∃ kind l, d = .jump kind l
      · obtain ⟨kind, l, rfl⟩ := hjump
        rw [Directive.fixups, List.foldlM_cons] at h
        obtain ⟨code', hpatch, hrest⟩ := bind_eq_ok h
        obtain ⟨n, hl, hlt, rfl⟩ := patch_eq_ok hpatch
        have hn := htarget l n hl
        rw [code_cons] at hcode
        rw [← hlen] at hrest
        obtain ⟨hp, hjumps⟩ := ih (toList_patch hcode hn) hrest
        refine ⟨by rw [hp, code_cons, List.append_assoc], fun kind' l' hmem => ?_⟩
        rcases List.mem_cons.mp hmem with heq | hmem
        · obtain ⟨rfl, rfl⟩ := Directive.jump.inj heq
          rw [hn]
          exact ⟨hl, hlt⟩
        · exact hjumps kind' l' hmem
      · rw [code_cons, bytes, instrs_of_not_jump hjump _ target, ← bytes, ← List.append_assoc] at hcode
        rw [fixups_of_not_jump hjump, ← hlen] at h
        obtain ⟨hp, hjumps⟩ := ih hcode h
        refine ⟨by rw [hp, code_cons, List.append_assoc], fun kind l hmem => ?_⟩
        rcases List.mem_cons.mp hmem with heq | hmem
        · exact absurd ⟨kind, l, heq.symm⟩ hjump
        · exact hjumps kind l hmem

/-- **Assembly**: a program assembled from disciplined directives is the one they list. -/
theorem laid_of_assemble {ds : List Directive} {p : Program}
    (hds : ∀ d ∈ ds, d.isDisciplined = true) (h : assemble ds = .ok p) : Laid ds p := by
  obtain ⟨a, hemit, hfinish⟩ := bind_eq_ok h
  have hext := extends_of_emits hds hemit
  have hplaces : ∀ l n, a.labels[l]? = some (some n) → lastPlace l ds = some n := by
    intro l n hl
    simpa [position] using hext.labels l n hl
  have htarget : ∀ l n, a.labels[l]? = some (some n) → Directive.target ds l = n := by
    intro l n hl
    rw [Directive.target, hplaces l n hl, Option.getD_some]
  have hcode : a.code.toList = [] ++ Directive.code (fun _ => 0) ds := hext.code
  have hfixups : a.fixups.toList = Directive.fixups 0 ds := hext.fixups
  rw [finish, hfixups] at hfinish
  obtain ⟨hbytes, hjumps⟩ := code_of_patch htarget hcode hfinish
  refine ⟨hbytes, fun d hd i hi => hext.sized d hd _ i hi, fun kind l hmem => ?_⟩
  obtain ⟨hl, hlt⟩ := hjumps kind l hmem
  exact ⟨hplaces l _ hl, hlt⟩

end Assembler

end CellMachine
