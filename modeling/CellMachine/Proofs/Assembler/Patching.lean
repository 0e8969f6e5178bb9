import CellMachine.Proofs.Assembler.Listing

/-!
# CellMachine.Proofs.Assembler.Patching

How labels become targets, for directives of any kind and in any order. Nothing is
asked of the bytes between the jumps: they may be no instructions at all, and a
directive that fails leaves the program under construction as it is (`after`).

1. Directives append: the bytes emitted so far stay as they are, and each jump adds
   a literal of four bytes behind all earlier ones (`literals`).
2. A label stands where it was placed last (`LastPlaced.labels`).
3. Patching writes into these literals one by one. They lie apart, so that no patch
   touches another one or a byte outside (`getElem?_of_patches`,
   `getElem?_of_patches_literal`).

`finish_patches` puts the three together.
-/

namespace CellMachine

/-! ## overwriting -/

theorem getElem?_overwrite {buffer : Array UInt8} {i : Nat} {bytes : List UInt8}
    (h : i + bytes.length ≤ buffer.size) (j : Nat) :
    (overwrite buffer i bytes)[j]? =
      if i ≤ j ∧ j < i + bytes.length then bytes[j - i]? else buffer[j]? := by
  have hlen : (buffer.toList.take i).length = i := by
    rw [List.length_take, Array.length_toList]
    omega
  rw [← Array.getElem?_toList, toList_overwrite buffer i bytes h]
  split
  · next hin =>
    rw [List.append_assoc, List.getElem?_append_right (by omega), hlen,
      List.getElem?_append_left (by omega)]
  · next hout =>
    by_cases hj : j < i
    · rw [List.append_assoc, List.getElem?_append_left (by omega), List.getElem?_take_of_lt hj,
        Array.getElem?_toList]
    · rw [List.getElem?_append_right (by rw [List.length_append]; omega), List.getElem?_drop,
        Array.getElem?_toList, List.length_append, hlen]
      congr 1
      omega

namespace Assembler

/-! ## building -/

/-- The program under construction after a directive; one that fails changes nothing. -/
def after (a : Assembler) (d : Directive) : Assembler :=
  match a.emit d with
  | .ok b => b
  | .error _ => a

/-- The program under construction after directives. -/
def run (a : Assembler) (ds : List Directive) : Assembler := ds.foldl after a

/-- The program under construction after directives, from nothing. -/
def built (ds : List Directive) : Assembler := run {} ds

end Assembler

open Assembler

/-- The bytes that a directive appends. -/
def Directive.emission (d : Directive) : List UInt8 := (after {} d).code.toList

/-- Whether a directive does nothing but append bytes. -/
def Directive.isPlain : Directive → Bool
  | label | place _ | jump _ _ => false
  | _ => true

/-- The label that a directive uses. -/
def Directive.label? : Directive → Option Nat
  | place l | jump _ l => some l
  | _ => none

namespace Assembler

variable {a : Assembler} {d : Directive} {ds before rest : List Directive} {l n : Nat}

@[simp] theorem run_nil (a : Assembler) : a.run [] = a := rfl

@[simp] theorem run_cons (a : Assembler) (d : Directive) (ds : List Directive) :
    a.run (d :: ds) = (a.after d).run ds := rfl

@[simp] theorem built_append (ds es : List Directive) :
    built (ds ++ es) = (built ds).run es :=
  List.foldl_append

/-! ## bytes -/

theorem after_of_isPlain (a : Assembler) (hd : d.isPlain = true) :
    a.after d = a.append d.emission := by
  cases d with
  | pushSpan bytes =>
      by_cases h : bytes.length < byteRange 4 <;>
        simp [Directive.emission, after, emit, instrs, append, h]
  | pushText text scratch =>
      by_cases h : (Text.encode text).length < intLimit <;>
        simp [Directive.emission, after, emit, instrs, append, h]
  | label => contradiction
  | place l => contradiction
  | jump kind l => contradiction
  | _ => simp [Directive.emission, after, emit, instrs, append]

theorem code_after (a : Assembler) (d : Directive) :
    (a.after d).code.toList = a.code.toList ++ d.emission := by
  cases d with
  | label => simp [Directive.emission, after, emit]
  | place l => simp [Directive.emission, after, emit]
  | jump kind l => simp [Directive.emission, after, emit, instrs, append]
  | _ => rw [after_of_isPlain a rfl]; simp [append]

theorem code_run (a : Assembler) (ds : List Directive) :
    (a.run ds).code.toList = a.code.toList ++ ds.flatMap Directive.emission := by
  induction ds generalizing a with
  | nil => simp
  | cons d ds ih => rw [run_cons, ih, code_after, List.flatMap_cons, List.append_assoc]

theorem position_after (a : Assembler) (d : Directive) :
    (a.after d).position = a.position + d.emission.length := by
  rw [position, ← Array.length_toList, code_after, List.length_append]
  rfl

theorem position_le_run (a : Assembler) (ds : List Directive) :
    a.position ≤ (a.run ds).position := by
  rw [position, position, ← Array.length_toList, ← Array.length_toList, code_run,
    List.length_append]
  omega

theorem length_emission_jump (kind : JumpKind) (l : Nat) :
    (Directive.jump kind l).emission.length = 7 := by
  cases kind <;> rfl

/-! ## literals of jumps -/

/-- The literal that a directive leaves to be patched, as its offset and its label. -/
def literal? (offset : Nat) : Directive → Option (Nat × Nat)
  | .jump _ l => some (offset + 2, l)
  | _ => none

/-- The literals that directives leave to be patched, in order. -/
def literals (a : Assembler) : List Directive → List (Nat × Nat)
  | [] => []
  | d :: ds => (literal? a.position d).toList ++ literals (a.after d) ds

theorem fixups_after (a : Assembler) (d : Directive) :
    (a.after d).fixups.toList = a.fixups.toList ++ (literal? a.position d).toList := by
  cases d with
  | label => simp [literal?, after, emit]
  | place l => simp [literal?, after, emit]
  | jump kind l => simp [literal?, after, emit]
  | _ => rw [after_of_isPlain a rfl]; simp [literal?, append]

theorem fixups_run (a : Assembler) (ds : List Directive) :
    (a.run ds).fixups.toList = a.fixups.toList ++ literals a ds := by
  induction ds generalizing a with
  | nil => simp [literals]
  | cons d ds ih => rw [run_cons, ih, fixups_after, literals, List.append_assoc]

theorem literals_append (a : Assembler) (ds es : List Directive) :
    literals a (ds ++ es) = literals a ds ++ literals (a.run ds) es := by
  induction ds generalizing a with
  | nil => rfl
  | cons d ds ih => rw [List.cons_append, literals, literals, ih, run_cons, List.append_assoc]

theorem literals_jump (a : Assembler) (kind : JumpKind) (l : Nat) (ds : List Directive) :
    literals a (.jump kind l :: ds) =
      (a.position + 2, l) :: literals (a.after (.jump kind l)) ds := rfl

/-- Literals lie in the bytes that their directives append. -/
theorem literals_within {x : Nat × Nat} (h : x ∈ literals a ds) :
    a.position ≤ x.1 ∧ x.1 + 4 ≤ (a.run ds).position := by
  induction ds generalizing a with
  | nil => contradiction
  | cons d ds ih =>
      rw [literals, List.mem_append, Option.mem_toList] at h
      rw [run_cons]
      obtain h | h := h
      · cases d with
        | jump kind l =>
            obtain rfl := Option.some.inj h
            have hpos := position_after a (.jump kind l)
            have hle := position_le_run (a.after (.jump kind l)) ds
            rw [length_emission_jump] at hpos
            omega
        | _ => contradiction
      · have hpos := position_after a d
        have hbounds := ih h
        omega

/-- Literals lie apart, the earlier ones before the later ones. -/
theorem literals_apart (a : Assembler) (ds : List Directive) :
    (literals a ds).Pairwise fun x y => x.1 + 4 ≤ y.1 := by
  induction ds generalizing a with
  | nil => exact .nil
  | cons d ds ih =>
      cases d with
      | jump kind l =>
          rw [literals_jump, List.pairwise_cons]
          refine ⟨fun y hy => ?_, ih _⟩
          have hpos := position_after a (.jump kind l)
          rw [length_emission_jump] at hpos
          have hbounds := literals_within hy
          omega
      | _ => exact ih _

/-- Every literal is the one of a jump, and the literals before it are those of the directives
before the jump. -/
theorem split_of_literals {x : Nat × Nat} {pre post : List (Nat × Nat)}
    (h : literals a ds = pre ++ x :: post) :
    ∃ before kind after, ds = before ++ .jump kind x.2 :: after ∧ literals a before = pre ∧
      x.1 = (a.run before).position + 2 := by
  induction ds generalizing a pre with
  | nil => simp [literals] at h
  | cons d ds ih =>
      cases hd : literal? a.position d with
      | none =>
          rw [literals, hd, Option.toList_none, List.nil_append] at h
          obtain ⟨before, kind, after, rfl, hpre, hx⟩ := ih h
          refine ⟨d :: before, kind, after, rfl, ?_, hx⟩
          rw [literals, hd, hpre, Option.toList_none, List.nil_append]
      | some y =>
          rw [literals, hd, Option.toList_some, List.singleton_append] at h
          cases pre with
          | nil =>
              obtain ⟨rfl, -⟩ := List.cons.inj h
              cases d with
              | jump kind l =>
                  obtain rfl := Option.some.inj hd
                  exact ⟨[], kind, ds, rfl, rfl, rfl⟩
              | _ => contradiction
          | cons z pre =>
              obtain ⟨rfl, htail⟩ := List.cons.inj h
              obtain ⟨before, kind, after, rfl, hpre, hx⟩ := ih htail
              refine ⟨d :: before, kind, after, rfl, ?_, hx⟩
              rw [literals, hd, hpre, Option.toList_some, List.singleton_append]

/-! ## labels -/

theorem size_labels_after (a : Assembler) (d : Directive) :
    (a.after d).labels.size = a.labels.size + [d].count .label := by
  cases d with
  | label => simp [after, emit]
  | place l => simp [after, emit]
  | jump kind l => simp [after, emit, instrs, append]
  | _ => rw [after_of_isPlain a rfl]; simp [append]

theorem size_labels_run (a : Assembler) (ds : List Directive) :
    (a.run ds).labels.size = a.labels.size + ds.count .label := by
  induction ds generalizing a with
  | nil => rfl
  | cons d ds ih =>
      have hcount : ([d] ++ ds).count .label = [d].count .label + ds.count .label :=
        List.count_append
      rw [List.singleton_append] at hcount
      rw [run_cons, ih, size_labels_after, hcount, Nat.add_assoc]

/-- A directive places the label that it names and leaves all others where they are. -/
theorem labels_after (hl : l < a.labels.size) (d : Directive) :
    (a.after d).labels[l]? = if d = .place l then some (some a.position) else a.labels[l]? := by
  cases d with
  | label => simp [after, emit, Array.getElem?_push, Nat.ne_of_lt hl]
  | place k => by_cases hk : k = l <;> simp [after, emit, hk, hl]
  | jump kind k => simp [after, emit, instrs, append]
  | _ => rw [after_of_isPlain a rfl]; simp [append]

theorem labels_run_of_not_mem (hl : l < a.labels.size) (h : .place l ∉ ds) :
    (a.run ds).labels[l]? = a.labels[l]? := by
  induction ds generalizing a with
  | nil => rfl
  | cons d ds ih =>
      rw [List.mem_cons, not_or] at h
      have hl' : l < (a.after d).labels.size := by
        rw [size_labels_after]
        omega
      rw [run_cons, ih hl' h.2, labels_after hl, if_neg (Ne.symm h.1)]

theorem eq_place_of_labels_after (h : (a.after d).labels[l]? = some (some n)) :
    a.labels[l]? = some (some n) ∨ d = .place l := by
  cases d with
  | label =>
      simp only [after, emit, Array.getElem?_push] at h
      split at h
      · simp at h
      · exact Or.inl h
  | place k =>
      by_cases hk : k = l
      · exact Or.inr (hk ▸ rfl)
      · simp only [after, emit, Array.getElem?_setIfInBounds, hk, if_false] at h
        exact Or.inl h
  | jump kind k => exact Or.inl h
  | _ =>
      rw [after_of_isPlain a rfl] at h
      exact Or.inl h

/-- Only directives that place a label give it a place. -/
theorem mem_of_labels_run (h : (a.run ds).labels[l]? = some (some n)) :
    a.labels[l]? = some (some n) ∨ .place l ∈ ds := by
  induction ds generalizing a with
  | nil => exact Or.inl h
  | cons d ds ih =>
      obtain h | h := ih h
      · obtain h | rfl := eq_place_of_labels_after h
        · exact Or.inl h
        · exact Or.inr List.mem_cons_self
      · exact Or.inr (List.mem_cons_of_mem d h)

/-- The label `l` was placed last at offset `n`. -/
def LastPlaced (ds : List Directive) (l n : Nat) : Prop :=
  ∃ before rest, ds = before ++ .place l :: rest ∧ .place l ∉ rest ∧ (built before).position = n

/-- Every directive uses only labels that directives before it have made. -/
def UsesOwnLabels (ds : List Directive) : Prop :=
  ∀ k, (h : k < ds.length) → ds[k].label?.all (· < (ds.take k).count .label) = true

theorem UsesOwnLabels.lt_count (hown : UsesOwnLabels (before ++ d :: rest))
    (hd : d.label? = some l) : l < before.count .label := by
  have h := hown before.length (by simp)
  simpa [hd] using h

theorem exists_lastPlaced (h : .place l ∈ ds) : ∃ n, LastPlaced ds l n := by
  suffices hsplit : ∃ before rest, ds = before ++ .place l :: rest ∧ .place l ∉ rest by
    obtain ⟨before, rest, hds, hlast⟩ := hsplit
    exact ⟨_, before, rest, hds, hlast, rfl⟩
  induction ds with
  | nil => contradiction
  | cons d ds ih =>
      by_cases hmem : .place l ∈ ds
      · obtain ⟨before, rest, rfl, hlast⟩ := ih hmem
        exact ⟨d :: before, rest, rfl, hlast⟩
      · obtain rfl := (List.mem_cons.mp h).resolve_right hmem
        exact ⟨[], ds, rfl, hmem⟩

theorem LastPlaced.mem (h : LastPlaced ds l n) : .place l ∈ ds := by
  obtain ⟨before, rest, rfl, -, -⟩ := h
  simp

theorem LastPlaced.le_position (h : LastPlaced ds l n) : n ≤ (built ds).position := by
  obtain ⟨before, rest, rfl, -, rfl⟩ := h
  rw [built_append]
  exact position_le_run _ _

/-- A label stands where it was placed last. -/
theorem LastPlaced.labels (hown : UsesOwnLabels ds) (h : LastPlaced ds l n) :
    (built ds).labels[l]? = some (some n) := by
  obtain ⟨before, rest, rfl, hlast, rfl⟩ := h
  have hl : l < (built before).labels.size := by
    rw [built, size_labels_run]
    exact Nat.lt_add_left _ (hown.lt_count rfl)
  have hl' : l < ((built before).after (.place l)).labels.size := by
    rw [size_labels_after]
    omega
  rw [built_append, run_cons, labels_run_of_not_mem hl' hlast, labels_after hl, if_pos rfl]

theorem labels_built_iff (hown : UsesOwnLabels ds) :
    (built ds).labels[l]? = some (some n) ↔ LastPlaced ds l n := by
  refine ⟨fun h => ?_, fun h => h.labels hown⟩
  obtain hempty | hmem := mem_of_labels_run h
  · simp at hempty
  · obtain ⟨k, hk⟩ := exists_lastPlaced hmem
    rw [hk.labels hown] at h
    rwa [Option.some.inj (Option.some.inj h)] at hk

/-! ## patching -/

section Patching

variable {labels : Array (Option Nat)} {fixups : List (Nat × Nat)} {code p : Program}

theorem patch_of_placed {x : Nat × Nat} (h : labels[x.2]? = some (some n)) (hn : n < intLimit)
    (code : Program) : patch labels code x = .ok (overwrite code x.1 (leBytes 4 n)) := by
  simp [patch, h, hn]

theorem patch_eq_error {x : Nat × Nat} {e : AssemblyFault}
    (h : patch labels code x = .error e) :
    (∃ n, labels[x.2]? = some (some n) ∧ intLimit ≤ n) ∨
      (∀ n, labels[x.2]? ≠ some (some n)) ∧ e = .unplacedLabel x.2 := by
  unfold patch at h
  split at h
  · next n hn =>
    split at h
    · contradiction
    · next hlt => exact Or.inl ⟨n, hn, Nat.le_of_not_lt hlt⟩
  · next hnone => exact Or.inr ⟨hnone, (Except.error.inj h).symm⟩

theorem patches_of_placed
    (h : ∀ x ∈ fixups, ∃ n, labels[x.2]? = some (some n) ∧ n < intLimit) (code : Program) :
    ∃ p, fixups.foldlM (patch labels) code = .ok p := by
  induction fixups generalizing code with
  | nil => exact ⟨code, rfl⟩
  | cons x fixups ih =>
      rw [List.forall_mem_cons] at h
      obtain ⟨n, hx, hn⟩ := h.1
      rw [List.foldlM_cons, patch_of_placed hx hn]
      exact ih h.2 _

/-- Patching fails at the first literal that cannot be patched. -/
theorem exists_of_patches_error {e : AssemblyFault}
    (h : fixups.foldlM (patch labels) code = .error e) :
    ∃ pre x post code', fixups = pre ++ x :: post ∧
      (∀ y ∈ pre, ∃ n, labels[y.2]? = some (some n)) ∧ patch labels code' x = .error e := by
  induction fixups generalizing code with
  | nil => contradiction
  | cons x fixups ih =>
      rw [List.foldlM_cons] at h
      cases hx : patch labels code x with
      | error e' =>
          rw [hx] at h
          obtain rfl := Except.error.inj h
          exact ⟨[], x, fixups, code, rfl, nofun, hx⟩
      | ok code₁ =>
          rw [hx] at h
          obtain ⟨pre, y, post, code', rfl, hpre, hy⟩ := ih h
          obtain ⟨n, hn, -, -⟩ := patch_eq_ok hx
          refine ⟨x :: pre, y, post, code', rfl, ?_, hy⟩
          rw [List.forall_mem_cons]
          exact ⟨⟨n, hn⟩, hpre⟩

theorem size_of_patches (h : fixups.foldlM (patch labels) code = .ok p) : p.size = code.size := by
  induction fixups generalizing code with
  | nil => rw [Except.ok.inj h]
  | cons x fixups ih =>
      obtain ⟨code₁, hx, hrest⟩ := bind_eq_ok h
      obtain ⟨n, -, -, rfl⟩ := patch_eq_ok hx
      rw [ih hrest, size_overwrite]

/-- Bytes outside the literals are left alone. -/
theorem getElem?_of_patches (hfits : ∀ x ∈ fixups, x.1 + 4 ≤ code.size)
    (h : fixups.foldlM (patch labels) code = .ok p) {i : Nat}
    (hi : ∀ x ∈ fixups, i < x.1 ∨ x.1 + 4 ≤ i) : p[i]? = code[i]? := by
  induction fixups generalizing code with
  | nil => rw [Except.ok.inj h]
  | cons x fixups ih =>
      obtain ⟨code₁, hx, hrest⟩ := bind_eq_ok h
      obtain ⟨n, -, -, rfl⟩ := patch_eq_ok hx
      rw [List.forall_mem_cons] at hfits hi
      rw [ih (by simpa using hfits.2) hrest hi.2, getElem?_overwrite (by simpa using hfits.1),
        if_neg (by rw [length_leBytes]; omega)]

/-- A literal is the target of its label, since all later ones lie behind it. -/
theorem getElem?_of_patches_literal {x : Nat × Nat} {pre post : List (Nat × Nat)}
    (hfixups : fixups = pre ++ x :: post) (hfits : ∀ y ∈ fixups, y.1 + 4 ≤ code.size)
    (hapart : fixups.Pairwise fun y z => y.1 + 4 ≤ z.1)
    (h : fixups.foldlM (patch labels) code = .ok p) :
    ∃ n, labels[x.2]? = some (some n) ∧ ∀ i, x.1 ≤ i → i < x.1 + 4 →
      p[i]? = (leBytes 4 n)[i - x.1]? := by
  subst hfixups
  rw [List.foldlM_append] at h
  obtain ⟨code₁, hpre, h⟩ := bind_eq_ok h
  obtain ⟨code₂, hx, hpost⟩ := bind_eq_ok h
  obtain ⟨n, hn, -, rfl⟩ := patch_eq_ok hx
  have hsize := size_of_patches hpre
  rw [List.forall_mem_append, List.forall_mem_cons] at hfits
  have hbehind := (List.pairwise_cons.mp (List.pairwise_append.mp hapart).2.1).1
  refine ⟨n, hn, fun i hlo hhi => ?_⟩
  rw [getElem?_of_patches (by simpa [hsize] using hfits.2.2) hpost
      fun y hy => Or.inl (Nat.lt_of_lt_of_le hhi (hbehind y hy)),
    getElem?_overwrite (by simpa [hsize] using hfits.2.1), if_pos (by simpa using ⟨hlo, hhi⟩)]

end Patching

/-! ## finished programs -/

/-- Where the literal of a jump lies that comes after the directives `before`. -/
def literalOffset (before : List Directive) : Nat := (built before).position + 2

theorem fixups_built (ds : List Directive) : (built ds).fixups.toList = literals {} ds :=
  fixups_run {} ds

theorem literals_split (before : List Directive) (kind : JumpKind) (l : Nat)
    (rest : List Directive) :
    literals {} (before ++ .jump kind l :: rest) =
      literals {} before ++ (literalOffset before, l) ::
        literals ((built before).after (.jump kind l)) rest := by
  rw [literals_append, literals_jump]
  rfl

theorem mem_literals_iff {x : Nat × Nat} :
    x ∈ literals {} ds ↔ ∃ before kind rest, ds = before ++ .jump kind x.2 :: rest ∧
      x.1 = literalOffset before := by
  constructor
  · intro hx
    obtain ⟨pre, post, hsplit⟩ := List.append_of_mem hx
    obtain ⟨before, kind, rest, hds, -, hoffset⟩ := split_of_literals hsplit
    exact ⟨before, kind, rest, hds, hoffset⟩
  · rintro ⟨before, kind, rest, rfl, hoffset⟩
    rw [literals_split, ← hoffset]
    simp

theorem literals_fit : ∀ x ∈ literals {} ds, x.1 + 4 ≤ (built ds).code.size :=
  fun _ hx => (literals_within hx).2

theorem exists_finish (hown : UsesOwnLabels ds)
    (hsmall : ∀ kind l n, .jump kind l ∈ ds → LastPlaced ds l n → n < intLimit)
    (hplaced : ∀ kind l, .jump kind l ∈ ds → .place l ∈ ds) : ∃ p, (built ds).finish = .ok p := by
  rw [finish, fixups_built]
  refine patches_of_placed (fun x hx => ?_) _
  obtain ⟨before, kind, rest, hds, -⟩ := mem_literals_iff.mp hx
  have hjump : .jump kind x.2 ∈ ds := by simp [hds]
  obtain ⟨n, hn⟩ := exists_lastPlaced (hplaced kind x.2 hjump)
  exact ⟨n, hn.labels hown, hsmall kind x.2 n hjump hn⟩

/-- The literal of a jump is the offset where its label was placed last. -/
theorem literal_of_finish (hown : UsesOwnLabels ds) {p : Program}
    (h : (built ds).finish = .ok p) {kind : JumpKind}
    (hds : ds = before ++ .jump kind l :: rest) :
    ∃ n, LastPlaced ds l n ∧ (p.toList.drop (literalOffset before)).take 4 = leBytes 4 n := by
  rw [finish, fixups_built] at h
  have hsplit : literals {} ds = _ := hds ▸ literals_split before kind l rest
  obtain ⟨n, hn, hbytes⟩ :=
    getElem?_of_patches_literal hsplit literals_fit (literals_apart _ _) h
  refine ⟨n, (labels_built_iff hown).mp hn, List.ext_getElem? fun j => ?_⟩
  rw [List.getElem?_take]
  split
  · next hj =>
    rw [List.getElem?_drop, Array.getElem?_toList, hbytes _ (by simp) (by simp [hj])]
    simp
  · next hj => rw [List.getElem?_eq_none (by rw [length_leBytes]; omega)]

theorem bytes_of_finish {p : Program} (h : (built ds).finish = .ok p) {i : Nat}
    (hi : ∀ before kind l rest, ds = before ++ .jump kind l :: rest →
      i < literalOffset before ∨ literalOffset before + 4 ≤ i) :
    p[i]? = (ds.flatMap Directive.emission)[i]? := by
  have hcode : (built ds).code.toList = ds.flatMap Directive.emission := code_run {} ds
  rw [finish, fixups_built] at h
  rw [← hcode, Array.getElem?_toList]
  refine getElem?_of_patches literals_fit h fun x hx => ?_
  obtain ⟨before, kind, rest, hds, hoffset⟩ := mem_literals_iff.mp hx
  rw [hoffset]
  exact hi before kind x.2 rest hds

theorem fault_of_finish (hown : UsesOwnLabels ds)
    (hsmall : ∀ kind l n, .jump kind l ∈ ds → LastPlaced ds l n → n < intLimit)
    {e : AssemblyFault} (h : (built ds).finish = .error e) :
    ∃ before kind l rest, ds = before ++ .jump kind l :: rest ∧ .place l ∉ ds ∧
      (∀ kind' l', .jump kind' l' ∈ before → .place l' ∈ ds) ∧ e = .unplacedLabel l := by
  rw [finish, fixups_built] at h
  obtain ⟨pre, x, post, code, hsplit, hpre, hx⟩ := exists_of_patches_error h
  obtain ⟨before, kind, rest, hds, hbefore, -⟩ := split_of_literals hsplit
  refine ⟨before, kind, x.2, rest, hds, ?_, fun kind' l' hjump => ?_, ?_⟩
  · intro hplace
    obtain ⟨n, hn⟩ := exists_lastPlaced hplace
    have hlabel := hn.labels hown
    have hlt := hsmall kind x.2 n (by simp [hds]) hn
    rw [patch_of_placed hlabel hlt] at hx
    contradiction
  · obtain ⟨first, others, rfl⟩ := List.append_of_mem hjump
    have hmem : (literalOffset first, l') ∈ pre := by
      rw [← hbefore, literals_split]
      simp
    obtain ⟨n, hn⟩ := hpre _ hmem
    exact ((labels_built_iff hown).mp hn).mem
  · obtain ⟨n, hn, hle⟩ | ⟨-, he⟩ := patch_eq_error hx
    · have hlt := hsmall kind x.2 n (by simp [hds]) ((labels_built_iff hown).mp hn)
      omega
    · exact he

/-- **Label patching.** For directives that use their own labels, where jumps go to targets that an
int can hold, a program is finished exactly if every label that a jump uses has been placed.

The finished program is as long as the bytes emitted and equal to them outside the literals of the
jumps, and every literal is the offset where its label was placed last. Otherwise finishing fails
with the label of the first jump whose label has not been placed. -/
theorem finish_patches (hown : UsesOwnLabels ds)
    (hsmall : ∀ kind l n, .jump kind l ∈ ds → LastPlaced ds l n → n < intLimit) :
    ((∃ p, (built ds).finish = .ok p) ↔ ∀ kind l, .jump kind l ∈ ds → .place l ∈ ds) ∧
    (∀ p, (built ds).finish = .ok p →
      p.size = (built ds).position ∧
      (∀ i, (∀ before kind l rest, ds = before ++ .jump kind l :: rest →
          i < literalOffset before ∨ literalOffset before + 4 ≤ i) →
        p[i]? = (ds.flatMap Directive.emission)[i]?) ∧
      ∀ before kind l rest, ds = before ++ .jump kind l :: rest →
        ∃ n, LastPlaced ds l n ∧ n ≤ p.size ∧
          (p.toList.drop (literalOffset before)).take 4 = leBytes 4 n) ∧
    ∀ e, (built ds).finish = .error e → ∃ before kind l rest,
      ds = before ++ .jump kind l :: rest ∧ .place l ∉ ds ∧
      (∀ kind' l', .jump kind' l' ∈ before → .place l' ∈ ds) ∧ e = .unplacedLabel l := by
  refine ⟨⟨fun ⟨p, h⟩ kind l hjump => ?_, exists_finish hown hsmall⟩, fun p h => ?_,
    fun e h => fault_of_finish hown hsmall h⟩
  · obtain ⟨before, rest, hds⟩ := List.append_of_mem hjump
    obtain ⟨n, hn, -⟩ := literal_of_finish hown h hds
    exact hn.mem
  · have hsize : p.size = (built ds).position := size_of_patches h
    refine ⟨hsize, fun i hi => bytes_of_finish h hi, fun before kind l rest hds => ?_⟩
    obtain ⟨n, hn, hliteral⟩ := literal_of_finish hown h hds
    exact ⟨n, hn, hsize ▸ hn.le_position, hliteral⟩

/-- A jump to a label that is placed behind it, twice. -/
def placedTwice : List Directive := [.label, .jump .always 0, .place 0, .op .noop, .place 0]

/-- The jump goes to the end of the program, where the label was placed last. -/
theorem finish_patches_placedTwice :
    UsesOwnLabels placedTwice ∧
      ∃ p, (built placedTwice).finish = .ok p ∧ (p.toList.drop 2).take 4 = leBytes 4 8 := by
  have hown : UsesOwnLabels placedTwice := by unfold UsesOwnLabels; decide
  have hsmall : ∀ kind l n, .jump kind l ∈ placedTwice → LastPlaced placedTwice l n →
      n < intLimit := fun _ _ _ _ hn => Nat.lt_of_le_of_lt hn.le_position (by decide)
  obtain ⟨hiff, hfinished, -⟩ := finish_patches hown hsmall
  obtain ⟨p, hp⟩ := hiff.mpr fun kind l hjump => by simp [placedTwice] at hjump ⊢; exact hjump.2
  obtain ⟨-, -, hliterals⟩ := hfinished p hp
  obtain ⟨n, hn, -, hliteral⟩ := hliterals [.label] .always 0 _ rfl
  have height : (built placedTwice).labels[0]? = some (some 8) := rfl
  rw [hn.labels hown, Option.some.injEq, Option.some.injEq] at height
  exact ⟨hown, p, hp, height ▸ hliteral⟩

end Assembler

end CellMachine
