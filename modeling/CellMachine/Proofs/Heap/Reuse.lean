import CellMachine.Proofs.Heap.Peak

/-!
# CellMachine.Proofs.Heap.Reuse

Which block a request gets. The freed blocks of one length are a stack, and
requests of other lengths do not touch it. Calls that free their own blocks of that
length in reverse order, and no others, therefore leave the stack as they found it,
up to blocks at its bottom that are new.

* `Nests` — what one call does to the blocks of a length that are held;
* `Nested` — calls that free what they hold, the last made first;
* `Held.after` — the invariant: the freed blocks, with those that are held put back,
  begin with the freed blocks at the start.
-/

namespace CellMachine

namespace Heap

variable {h h' : Heap} {len : Nat}

/-! ## the freed blocks of one length -/

/-- The length of the block that a call makes. -/
def Call.made? : Call → Option Nat
  | .allocate len => some len
  | .allocateText text => some (Text.encode text).length
  | .free _ | .lengthOf _ | .read _ _ | .write _ _ | .copy _ _ _ | .readText _ => none

/-- A call that makes a block does to the blocks what the request for it does. -/
theorem sameBlocks_of_made (h : Heap) {c : Call} (hc : c.made? = some len) :
    SameBlocks (h.allocate len).2 (h.after c) := by
  cases c with
  | allocate size =>
      obtain rfl := Option.some.inj hc
      exact .refl _
  | allocateText text =>
      obtain rfl := Option.some.inj hc
      exact sameBlocks_allocateText h text
  | free | lengthOf | read | write | copy | readText => contradiction

theorem SameBlocks.freedOf (hs : SameBlocks h h') (len : Nat) : h'.freedOf len = h.freedOf len := by
  rw [Heap.freedOf, hs.freed, Heap.freedOf]

/-- A request takes a block of its own length. -/
theorem freedOf_allocate_of_ne (h : Heap) {size : Nat} (hne : size ≠ len) :
    (h.allocate size).2.freedOf len = h.freedOf len := by
  cases hf : h.freedOf size with
  | nil => rw [allocate_of_nil hf]; rfl
  | cons ptr rest =>
      rw [allocate_of_cons hf]
      simp [freedOf, Std.TreeMap.getD_insert, hne]

theorem freedOf_free {ptr size : Nat} (hl : h.live[ptr]? = some size) (hf : h.free ptr = .ok h') :
    h'.freedOf len = if size = len then ptr :: h.freedOf len else h.freedOf len := by
  obtain ⟨size', hl', rfl⟩ := free_eq_ok_iff.mp hf
  obtain rfl : size = size' := Option.some.inj (hl.symm.trans hl')
  by_cases heq : size = len
  · simp [freedOf, heq]
  · simp [freedOf, Std.TreeMap.getD_insert, heq]

theorem live_free {ptr : Nat} (hf : h.free ptr = .ok h') {q : Nat} (hne : q ≠ ptr) :
    h'.live[q]? = h.live[q]? := by
  obtain ⟨size, -, rfl⟩ := free_eq_ok_iff.mp hf
  simp [Std.TreeMap.getElem?_erase, hne.symm]

/-- A call that neither makes a block of a length nor frees one leaves them all as they are, be they
live or freed. -/
theorem after_of_others (hh : h.Partitioned) {c : Call} (hmake : c.made? ≠ some len)
    (hfree : ∀ ptr, c = .free ptr → h.live[ptr]? ≠ some len) :
    (h.after c).freedOf len = h.freedOf len ∧
      ∀ ptr : Nat, h.live[ptr]? = some len → (h.after c).live[ptr]? = some len := by
  by_cases hidle : c.idle
  · have hsame := sameBlocks_of_idle h hidle
    rw [hsame.freedOf, hsame.live]
    exact ⟨rfl, fun _ => id⟩
  cases hc : c.made? with
  | some size =>
      have hsame := sameBlocks_of_made h hc
      have hne : size ≠ len := fun heq => hmake (heq ▸ hc)
      rw [hsame.freedOf, hsame.live, freedOf_allocate_of_ne h hne]
      exact ⟨rfl, fun ptr hl => hh.live_allocate_of_live hl size⟩
  | none =>
      cases c with
      | allocate | allocateText => contradiction
      | lengthOf | read | write | copy | readText => exact absurd rfl hidle
      | free ptr =>
          cases hf : h.free ptr with
          | error e =>
              rw [after_free_of_error hf]
              exact ⟨rfl, fun _ => id⟩
          | ok h' =>
              obtain ⟨size, hl, -⟩ := free_eq_ok_iff.mp hf
              have hne : size ≠ len := fun heq => hfree ptr rfl (heq ▸ hl)
              rw [after_free_of_ok hf, freedOf_free hl hf, if_neg hne]
              refine ⟨rfl, fun q hq => ?_⟩
              have hqp : q ≠ ptr := by
                rintro rfl
                exact hne (Option.some.inj (hl.symm.trans hq))
              rw [live_free hf hqp, hq]

/-- A request always gets a block. -/
theorem call_of_made (hh : h.Partitioned) {c : Call} (hc : c.made? = some len) :
    call c h = .ok (.number (h.allocate len).1) (h.after c) := by
  cases c with
  | allocate size =>
      obtain rfl := Option.some.inj hc
      rfl
  | allocateText text =>
      obtain rfl := Option.some.inj hc
      obtain ⟨ptr, h', htext, -⟩ := hh.allocateText_eq_ok (W := fun _ => False) text
      have hcall : call (.allocateText text) h = .ok (.number ptr) h' := bind_run_of_ok htext
      rw [after, hcall, (write_of_allocateText htext).1]
      rfl
  | free | lengthOf | read | write | copy | readText => contradiction

/-! ## calls that nest -/

/-- What one call does to the blocks of a length that are held, the last made first. -/
inductive Nests (len : Nat) (h : Heap) : Call → List Nat → List Nat → Prop
  /-- It makes one, which is held from now on. -/
  | make {c : Call} {held : List Nat} (hc : c.made? = some len) :
      Nests len h c held ((h.allocate len).1 :: held)
  /-- It frees the one made last. -/
  | free {ptr : Nat} {held : List Nat} : Nests len h (.free ptr) (ptr :: held) held
  /-- It neither makes one nor frees one. -/
  | other {c : Call} {held : List Nat} (hmake : c.made? ≠ some len)
      (hfree : ∀ ptr, c = .free ptr → h.live[ptr]? ≠ some len) : Nests len h c held held

/-- Calls that free the blocks of a length that are held, and those that they make, in the reverse
order in which they were made, and no other block of this length. -/
inductive Nested (len : Nat) : Heap → List Nat → List Call → Prop
  | nil {h : Heap} : Nested len h [] []
  | cons {h : Heap} {c : Call} {cs : List Call} {held held' : List Nat}
      (hcall : Nests len h c held held') (hrest : Nested len (h.after c) held' cs) :
      Nested len h held (c :: cs)

/-- The blocks that are held are live, and with them put back the freed blocks begin with `base`. -/
structure Held (len : Nat) (base : List Nat) (h : Heap) (held : List Nat) : Prop where
  partitioned : h.Partitioned
  live : ∀ ptr ∈ held, h.live[ptr]? = some len
  nodup : held.Nodup
  freed : base <+: held.reverse ++ h.freedOf len

namespace Held

variable {base held held' : List Nat} {c : Call}

theorem make (hh : Held len base h held) (hc : c.made? = some len) :
    Held len base (h.after c) ((h.allocate len).1 :: held) := by
  have hsame := sameBlocks_of_made h hc
  refine ⟨hh.partitioned.after c, ?_, ?_, ?_⟩
  · rw [hsame.live, List.forall_mem_cons]
    exact ⟨live_allocate_self h len, fun ptr hptr =>
      hh.partitioned.live_allocate_of_live (hh.live ptr hptr) len⟩
  · refine List.nodup_cons.mpr ⟨fun hmem => ?_, hh.nodup⟩
    exact hh.partitioned.ne_allocate (hh.live _ hmem) len rfl
  · rw [hsame.freedOf, List.reverse_cons, List.append_assoc]
    have hbase := hh.freed
    cases hf : h.freedOf len with
    | nil =>
        -- a new block is put below all others
        rw [hf, List.append_nil] at hbase
        exact hbase.trans (List.prefix_append _ _)
    | cons ptr rest =>
        rw [hf] at hbase
        rw [allocate_of_cons hf]
        simpa [freedOf] using hbase

theorem free {ptr : Nat} (hh : Held len base h (ptr :: held)) :
    Held len base (h.after (.free ptr)) held := by
  have hlive := hh.live ptr List.mem_cons_self
  have hf := free_eq_ok_iff.mpr ⟨len, hlive, rfl⟩
  obtain ⟨hnew, hnodup⟩ := List.nodup_cons.mp hh.nodup
  refine ⟨hh.partitioned.after _, fun q hq => ?_, hnodup, ?_⟩
  · have hne : q ≠ ptr := fun heq => hnew (heq ▸ hq)
    rw [after_free_of_ok hf, live_free hf hne]
    exact hh.live q (List.mem_cons_of_mem _ hq)
  · rw [after_free_of_ok hf, freedOf_free hlive hf, if_pos rfl]
    simpa using hh.freed

theorem other (hh : Held len base h held) (hmake : c.made? ≠ some len)
    (hfree : ∀ ptr, c = .free ptr → h.live[ptr]? ≠ some len) : Held len base (h.after c) held := by
  obtain ⟨hfreed, hlive⟩ := after_of_others hh.partitioned hmake hfree
  refine ⟨hh.partitioned.after c, fun ptr hptr => hlive ptr (hh.live ptr hptr), hh.nodup, ?_⟩
  rw [hfreed]
  exact hh.freed

/-- **One call** keeps the invariant. -/
theorem after (hh : Held len base h held) (hcall : Nests len h c held held') :
    Held len base (h.after c) held' := by
  cases hcall with
  | make hc => exact hh.make hc
  | free => exact hh.free
  | other hmake hfree => exact hh.other hmake hfree

/-- Calls that nest keep the freed blocks that they started with. -/
theorem afterAll {cs : List Call} (hcalls : Nested len h held cs) (hh : Held len base h held) :
    Held len base (h.afterAll cs) [] := by
  induction hcalls with
  | nil => exact hh
  | cons hcall _ ih => exact ih (hh.after hcall)

end Held

/-- **A freed block is the next to be reused.** In a heap on which any calls have been made, a live
block can be freed; and after calls that nest, with calls for other lengths in between, the next
request for its length gets that block and does not move the cursor. -/
theorem nested_reuse {size : Nat} {history : List Call}
    (hreached : (Heap.new size).afterAll history = h) {ptr : Nat}
    (hl : h.live[ptr]? = some len) :
    ∃ h', h.free ptr = .ok h' ∧ ∀ cs, Nested len h' [] cs → ∀ c : Call, c.made? = some len →
      call c (h'.afterAll cs) = .ok (.number ptr) ((h'.afterAll cs).after c) ∧
        ((h'.afterAll cs).after c).cursor = (h'.afterAll cs).cursor := by
  have hh : h.Partitioned := by
    rw [← hreached]
    exact ((Filled.new size).afterAll history).partitioned
  have hf := free_eq_ok_iff.mpr ⟨len, hl, rfl⟩
  refine ⟨_, hf, fun cs hcalls c hc => ?_⟩
  have hstart : Held len (ptr :: h.freedOf len) _ [] :=
    ⟨hh.free hf, by simp, .nil, by rw [freedOf_free hl hf, if_pos rfl]; exact List.prefix_refl _⟩
  have hend := hstart.afterAll hcalls
  obtain ⟨below, hfreed⟩ := hend.freed
  have hreuse := allocate_of_cons hfreed.symm
  rw [call_of_made hend.partitioned hc, (sameBlocks_of_made _ hc).cursor, hreuse]
  exact ⟨rfl, rfl⟩

/-- A heap with a block of four bytes and one of eight. -/
def pairOfBlocks : Heap := (Heap.new 1).afterAll [.allocate 4, .allocate 8]

/-- Calls that make two blocks of four bytes, one of them for a text, and free them again; between
that they free the block of eight bytes, make an empty one and free what is not live. -/
def nestedCalls : List Call :=
  [.allocate 4, .allocateText "a", .free 4, .allocate 0, .free 12, .free 9, .free 0]

theorem nested_reuse_pair :
    ∃ h', pairOfBlocks.live[0]? = some 4 ∧ pairOfBlocks.free 0 = .ok h' ∧
      Nested 4 h' [] nestedCalls ∧
      call (.allocate 4) (h'.afterAll nestedCalls) =
        .ok (.number 0) ((h'.afterAll nestedCalls).after (.allocate 4)) := by
  have hl : pairOfBlocks.live[0]? = some 4 := by decide
  obtain ⟨h', hf, hreuse⟩ := nested_reuse (h := pairOfBlocks) rfl hl
  obtain rfl := after_free_of_ok hf
  have hcalls : Nested 4 (pairOfBlocks.after (.free 0)) [] nestedCalls := by
    refine .cons (.make rfl) (.cons (.make rfl) (.cons (.other nofun ?_) (.cons (.other nofun nofun)
      (.cons .free (.cons (.other nofun ?_) (.cons .free .nil))))))
    · rintro _ ⟨⟩
      decide
    · rintro _ ⟨⟩
      decide
  exact ⟨_, hl, hf, hcalls, (hreuse _ hcalls (.allocate 4) rfl).1⟩

end Heap

end CellMachine
