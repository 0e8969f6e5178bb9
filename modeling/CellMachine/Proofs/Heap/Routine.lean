import CellMachine.Proofs.Heap.Reuse
import Mathlib.Data.Vector.Mem
import Mathlib.Data.Vector.Basic

/-!
# CellMachine.Proofs.Heap.Routine

Work that is repeated. A `Routine` is a sequence of requests that frees the blocks it makes, and
no others. It leaves the live blocks as they were (`Routine.blocks_afterAll`), so that, when it is
repeated, it meets its own peak again (`Routine.peak_calls`) and finds the blocks for it.

The same holds where calls are repeated with the addresses that stand in them (`peak_of_known`),
as long as they free what they make each time and none of their frees fails. A free that fails in
one round may succeed in another, since the rounds get their blocks in different orders; then even
calls that free exactly what they make need more room in a later round (`cursor_moves_again`).
-/

namespace CellMachine

namespace Heap

open List (Perm)

variable {h h' : Heap}

/-! ## routines -/

/-- What is left of a routine that holds `n` blocks. Each request frees a block that the routine
holds, or makes one that it has to free; a whole routine is a `Routine 0`. Blocks are named by
position: freed blocks are reused last freed first, so that another round may get the same
addresses in another order. -/
inductive Routine : Nat → Type where
  | done : Routine 0
  | allocate {n : Nat} (len : Nat) (rest : Routine (n + 1)) : Routine n
  | allocateText {n : Nat} (text : String) (rest : Routine (n + 1)) : Routine n
  /-- Frees the `k`-th of the blocks held, the last made first. -/
  | free {n : Nat} (k : Fin (n + 1)) (rest : Routine n) : Routine (n + 1)

namespace Routine

variable {n : Nat}

/-- The calls that a routine makes on a heap, given the blocks it holds as address and length. -/
def calls : {n : Nat} → Routine n → Heap → List.Vector (Nat × Nat) n → List Call
  | _, .done, _, _ => []
  | _, .allocate len rest, h, held =>
    .allocate len :: rest.calls (h.after (.allocate len)) (((h.allocate len).1, len) ::ᵥ held)
  | _, .allocateText text rest, h, held =>
    let len := (Text.encode text).length
    .allocateText text ::
      rest.calls (h.after (.allocateText text)) (((h.allocate len).1, len) ::ᵥ held)
  | _, .free k rest, h, held =>
    .free (held.get k).1 :: rest.calls (h.after (.free (held.get k).1)) (held.eraseIdx k)

/-- The heap after a routine. -/
def round (r : Routine 0) (h : Heap) : Heap := h.afterAll (r.calls h List.Vector.nil)

/-- The most blocks of a length that a routine holds at the same time, given the lengths of those
it holds. -/
def most (len : Nat) : {n : Nat} → Routine n → List Nat → Nat
  | _, .done, held => held.count len
  | _, .allocate size rest, held => max (held.count len) (rest.most len (size :: held))
  | _, .allocateText text rest, held =>
    max (held.count len) (rest.most len ((Text.encode text).length :: held))
  | _, .free k rest, held => max (held.count len) (rest.most len (held.eraseIdx k))

/-- A routine holds some of the live blocks of a heap; `others` are the rest of them. -/
structure Holds (h : Heap) (held : List.Vector (Nat × Nat) n) (others : List (Nat × Nat)) :
    Prop where
  partitioned : h.Partitioned
  blocks : Perm h.blocks (held.toList ++ others)

namespace Holds

variable {held : List.Vector (Nat × Nat) n} {others : List (Nat × Nat)}

theorem liveCount (hheld : Holds h held others) (len : Nat) :
    h.liveCount len =
      (others.map Prod.snd).count len + (held.toList.map Prod.snd).count len := by
  rw [Heap.liveCount, (hheld.blocks.map Prod.snd).count_eq, List.map_append, List.count_append,
    Nat.add_comm]

theorem cons (hheld : Holds h held others) {b : Nat × Nat} (hh : h'.Partitioned)
    (hperm : Perm h'.blocks (b :: h.blocks)) : Holds h' (b ::ᵥ held) others := by
  refine ⟨hh, hperm.trans ?_⟩
  rw [List.Vector.toList_cons]
  exact hheld.blocks.cons b

theorem allocate (hheld : Holds h held others) (len : Nat) :
    Holds (h.after (.allocate len)) (((h.allocate len).1, len) ::ᵥ held) others :=
  hheld.cons (hheld.partitioned.after _) (blocks_allocate hheld.partitioned len)

theorem allocateText (hheld : Holds h held others) (text : String) :
    Holds (h.after (.allocateText text))
      (((h.allocate (Text.encode text).length).1, (Text.encode text).length) ::ᵥ held) others := by
  refine hheld.cons (hheld.partitioned.after _) ?_
  rw [(sameBlocks_allocateText h text).blocks]
  exact blocks_allocate hheld.partitioned _

theorem live (hheld : Holds h held others) (k : Fin n) :
    h.live[(held.get k).1]? = some (held.get k).2 := by
  have hmem : held.get k ∈ h.blocks :=
    hheld.blocks.mem_iff.mpr (List.mem_append_left _ (List.Vector.get_mem k held))
  exact Std.TreeMap.mem_toList_iff_getElem?_eq_some.mp hmem

theorem free {held : List.Vector (Nat × Nat) (n + 1)} (hheld : Holds h held others)
    (k : Fin (n + 1)) : Holds (h.after (.free (held.get k).1)) (held.eraseIdx k) others := by
  have hlen : k.val < held.toList.length := by
    rw [List.Vector.toList_length]
    exact k.isLt
  have hk : Perm held.toList (held.get k :: (held.eraseIdx k).toList) :=
    (List.getElem_cons_eraseIdx_perm hlen).symm
  have hlive := hheld.live k
  have hf := free_eq_ok_iff.mpr ⟨_, hlive, rfl⟩
  refine ⟨hheld.partitioned.after _, ?_⟩
  rw [after_free_of_ok hf]
  have hsplit := (blocks_free hlive hf).symm.trans (hheld.blocks.trans (hk.append_right others))
  exact hsplit.cons_inv

end Holds

/-- A routine frees all that it holds, and nothing else. -/
theorem blocks_afterAll (r : Routine n) {h : Heap} {held : List.Vector (Nat × Nat) n}
    {others : List (Nat × Nat)} (hheld : Holds h held others) :
    Perm (h.afterAll (r.calls h held)).blocks others := by
  induction r generalizing h with
  | done =>
      have hnone : held.toList = [] := List.eq_nil_of_length_eq_zero (by simp)
      have hperm := hheld.blocks
      rwa [hnone] at hperm
  | allocate len rest ih => exact ih (hheld.allocate len)
  | allocateText text rest ih => exact ih (hheld.allocateText text)
  | free k rest ih => exact ih (hheld.free k)

/-- Where a routine meets its peak depends on the lengths of the blocks only, not on where they
are. -/
theorem peak_calls (r : Routine n) {h : Heap} {held : List.Vector (Nat × Nat) n}
    {others : List (Nat × Nat)} (hheld : Holds h held others) (len : Nat) :
    h.peak len (r.calls h held) =
      (others.map Prod.snd).count len + r.most len (held.toList.map Prod.snd) := by
  have hnow := hheld.liveCount len
  induction r generalizing h with
  | done => rw [calls, peak_nil, most, hnow]
  | allocate size rest ih =>
      have hnext := hheld.allocate size
      rw [calls, peak_cons, ih hnext (hnext.liveCount len), most, hnow, List.Vector.toList_cons,
        List.map_cons, Nat.add_max_add_left]
  | allocateText text rest ih =>
      have hnext := hheld.allocateText text
      rw [calls, peak_cons, ih hnext (hnext.liveCount len), most, hnow, List.Vector.toList_cons,
        List.map_cons, Nat.add_max_add_left]
  | free k rest ih =>
      have hnext := hheld.free k
      rw [calls, peak_cons, ih hnext (hnext.liveCount len), most, hnow, List.eraseIdx_map,
        Nat.add_max_add_left]
      rfl

variable (r : Routine 0)

theorem holds_nothing (hh : h.Partitioned) : Holds h List.Vector.nil h.blocks := ⟨hh, .refl _⟩

theorem liveCount_round (hh : h.Partitioned) (len : Nat) :
    (r.round h).liveCount len = h.liveCount len :=
  ((r.blocks_afterAll (holds_nothing hh)).map Prod.snd).count_eq len

theorem madeCount_round (hh : h.Partitioned) (len : Nat) :
    (r.round h).madeCount len = max (h.madeCount len) (h.liveCount len + r.most len []) := by
  rw [round, madeCount_afterAll hh, r.peak_calls (holds_nothing hh)]
  rfl

theorem filled_round (hh : h.Filled) : (r.round h).Filled := hh.afterAll _

/-- Repeated, a routine finds the blocks of its first round. -/
theorem madeCount_iterate (hh : h.Filled) (n len : Nat) :
    (r.round^[n + 1] h).madeCount len = (r.round h).madeCount len := by
  induction n generalizing h with
  | zero => rfl
  | succ n ih =>
      have hround := r.filled_round hh
      rw [Function.iterate_succ_apply, ih hround, r.madeCount_round hround.partitioned,
        r.liveCount_round hh.partitioned, r.madeCount_round hh.partitioned]
      omega

theorem filled_iterate (hh : h.Filled) (n : Nat) : (r.round^[n] h).Filled := by
  induction n generalizing h with
  | zero => exact hh
  | succ n ih => exact ih (r.filled_round hh)

end Routine

/-! ## calls repeated as they are -/

/-- Every free among the calls meets a live block. -/
def FreesLive (h : Heap) : List Call → Prop
  | [] => True
  | c :: cs => (∀ ptr, c = .free ptr → ∃ len, h.live[ptr]? = some len) ∧ (h.after c).FreesLive cs

/-- The calls free exactly the blocks that they make: they are those of a routine. -/
def FreesOwn (h : Heap) (cs : List Call) : Prop := ∃ r : Routine 0, r.calls h List.Vector.nil = cs

/-- The calls free every block that they make and no other, where `held` has the addresses of those
that are made and not yet freed. A free that meets no live block fails and counts for nothing. -/
inductive FreesMade : Heap → (held : List Nat) → List Call → Prop
  | done {h : Heap} : FreesMade h [] []
  | make {h : Heap} {held : List Nat} {c : Call} {cs : List Call} {len : Nat}
      (hc : c.made? = some len)
      (hrest : FreesMade (h.after c) ((h.allocate len).1 :: held) cs) : FreesMade h held (c :: cs)
  | free {h : Heap} {held : List Nat} {ptr : Nat} {cs : List Call} (hptr : ptr ∈ held)
      (hrest : FreesMade (h.after (.free ptr)) (held.erase ptr) cs) :
      FreesMade h held (.free ptr :: cs)
  | fail {h : Heap} {held : List Nat} {ptr : Nat} {cs : List Call} (hdead : h.live[ptr]? = none)
      (hrest : FreesMade (h.after (.free ptr)) held cs) : FreesMade h held (.free ptr :: cs)

section

variable {n : Nat} {held : List.Vector (Nat × Nat) n} {others : List (Nat × Nat)} {cs : List Call}

/-- The blocks that are held have different addresses. -/
theorem Routine.Holds.nodup (hheld : Holds h held others) : (held.toList.map Prod.fst).Nodup := by
  have hapart := (List.pairwise_append.mp hheld.partitioned.apart).1
  have hblocks : (h.blocks.map Prod.fst).Nodup :=
    List.pairwise_map.mpr (hapart.imp fun hab => hab.fst_ne)
  rw [(hheld.blocks.map Prod.fst).nodup_iff, List.map_append] at hblocks
  exact (List.nodup_append.mp hblocks).1

theorem Routine.Holds.erase {held : List.Vector (Nat × Nat) (n + 1)} (hheld : Holds h held others)
    (k : Fin (n + 1)) : (held.toList.map Prod.fst).erase (held.get k).1 =
      (held.eraseIdx k).toList.map Prod.fst := by
  have hk : k.val < (held.toList.map Prod.fst).length := by
    rw [List.length_map, List.Vector.toList_length]
    exact k.isLt
  have herase := hheld.nodup.erase_getElem k.val hk
  rw [List.getElem_map, List.eraseIdx_map] at herase
  exact herase

/-- A routine frees what it makes. -/
theorem Routine.freesMade (r : Routine n) (hheld : Holds h held others) :
    FreesMade h (held.toList.map Prod.fst) (r.calls h held) := by
  induction r generalizing h with
  | done =>
      have hnone : held.toList = [] := List.eq_nil_of_length_eq_zero (by simp)
      rw [hnone]
      exact .done
  | allocate len rest ih => exact .make rfl (ih (hheld.allocate len))
  | allocateText text rest ih => exact .make rfl (ih (hheld.allocateText text))
  | free k rest ih =>
      refine .free (List.mem_map_of_mem (List.Vector.get_mem k held)) ?_
      rw [hheld.erase]
      exact ih (hheld.free k)

theorem Routine.freesLive (r : Routine n) (hheld : Holds h held others) :
    h.FreesLive (r.calls h held) := by
  induction r generalizing h with
  | done => trivial
  | allocate len rest ih => exact ⟨fun ptr hc => (by contradiction), ih (hheld.allocate len)⟩
  | allocateText text rest ih =>
      exact ⟨fun ptr hc => (by contradiction), ih (hheld.allocateText text)⟩
  | free k rest ih =>
      refine ⟨fun ptr hc => ?_, ih (hheld.free k)⟩
      rw [← Call.free.inj hc]
      exact ⟨_, hheld.live k⟩

/-- Calls that free what they make, without a failure, are those of a routine. -/
theorem exists_routine {addresses : List Nat} (hmade : FreesMade h addresses cs)
    (hlive : h.FreesLive cs) (hheld : Routine.Holds h held others)
    (haddresses : held.toList.map Prod.fst = addresses) : ∃ r : Routine n, r.calls h held = cs := by
  induction hmade generalizing n with
  | done =>
      obtain rfl : n = 0 := by simpa using congrArg List.length haddresses
      exact ⟨.done, rfl⟩
  | @make h addresses c cs len hc _ ih =>
      have hnext : (((h.allocate len).1, len) ::ᵥ held).toList.map Prod.fst =
          (h.allocate len).1 :: addresses := by
        rw [List.Vector.toList_cons, List.map_cons, haddresses]
      cases c with
      | allocate size =>
          obtain rfl := Option.some.inj hc
          obtain ⟨r, hr⟩ := ih hlive.2 (hheld.allocate size) hnext
          exact ⟨.allocate size r, congrArg _ hr⟩
      | allocateText text =>
          obtain rfl := Option.some.inj hc
          obtain ⟨r, hr⟩ := ih hlive.2 (hheld.allocateText text) hnext
          exact ⟨.allocateText text r, congrArg _ hr⟩
      | free | lengthOf | read | write | copy | readText => contradiction
  | @free h addresses ptr cs hptr _ ih =>
      obtain ⟨k, hk, hget⟩ := List.getElem_of_mem (haddresses ▸ hptr)
      rw [List.length_map, List.Vector.toList_length] at hk
      cases n with
      | zero => contradiction
      | succ n =>
          have hget' : (held.get ⟨k, hk⟩).1 = ptr := by
            rw [List.getElem_map] at hget
            exact hget
          subst hget'
          have hrest := haddresses ▸ (hheld.erase ⟨k, hk⟩).symm
          obtain ⟨r, hr⟩ := ih hlive.2 (hheld.free ⟨k, hk⟩) hrest
          exact ⟨.free ⟨k, hk⟩ r, congrArg _ hr⟩
  | @fail h addresses ptr cs hdead _ _ =>
      obtain ⟨len, hl⟩ := hlive.1 ptr rfl
      rw [hdead] at hl
      contradiction

/-- The calls of a routine are those that free exactly what they make and fail in no free. -/
theorem freesOwn_iff (hh : h.Partitioned) :
    h.FreesOwn cs ↔ FreesMade h [] cs ∧ h.FreesLive cs := by
  constructor
  · rintro ⟨r, rfl⟩
    exact ⟨r.freesMade (Routine.holds_nothing hh), r.freesLive (Routine.holds_nothing hh)⟩
  · rintro ⟨hmade, hlive⟩
    exact exists_routine hmade hlive (Routine.holds_nothing hh) rfl

end

theorem FreesOwn.liveCount {cs : List Call} (hown : h.FreesOwn cs) (hh : h.Partitioned)
    (len : Nat) : (h.afterAll cs).liveCount len = h.liveCount len := by
  obtain ⟨r, rfl⟩ := hown
  exact r.liveCount_round hh len

/-- A heap knows one length for each address. -/
theorem Partitioned.length_unique (hh : h.Partitioned) {ptr len len' : Nat}
    (hmem : (ptr, len) ∈ h.recorded) (hmem' : (ptr, len') ∈ h.recorded) : len = len' := by
  by_contra hne
  exact (hh.apart.forall hmem hmem' (by simp [hne])).fst_ne rfl

/-- A call has the same effect on the numbers of live blocks of two heaps, if what it frees has the
same length in both. -/
theorem liveCount_after_congr {g : Heap} (hg : g.Partitioned) (hh : h.Partitioned) (c : Call)
    (hfree : ∀ ptr, c = .free ptr →
      ∃ size, g.live[ptr]? = some size ∧ h.live[ptr]? = some size)
    (hlive : ∀ len, g.liveCount len = h.liveCount len) (len : Nat) :
    (g.after c).liveCount len = (h.after c).liveCount len := by
  by_cases hc : c.idle
  · rw [(sameBlocks_of_idle g hc).liveCount, (sameBlocks_of_idle h hc).liveCount, hlive]
  cases c with
  | allocate size =>
      have hg' := liveCount_allocate hg size len
      have hh' := liveCount_allocate hh size len
      rw [← hlive, ← hg'] at hh'
      exact hh'.symm
  | allocateText text =>
      rw [(sameBlocks_allocateText g text).liveCount, (sameBlocks_allocateText h text).liveCount,
        liveCount_allocate hg, liveCount_allocate hh, hlive]
  | free ptr =>
      obtain ⟨size, hgl, hhl⟩ := hfree ptr rfl
      have hgf := free_eq_ok_iff.mpr ⟨size, hgl, rfl⟩
      have hhf := free_eq_ok_iff.mpr ⟨size, hhl, rfl⟩
      have hg' := liveCount_free hgl hgf len
      have hh' := liveCount_free hhl hhf len
      rw [after_free_of_ok hgf, after_free_of_ok hhf]
      have hsame := hlive len
      omega
  | _ => exact absurd rfl hc

/-- Where the blocks are known that the calls work on in `g`, the calls meet the same peak. -/
theorem peak_of_known {g : Heap} {cs : List Call} (hg : g.Partitioned) (hh : h.Partitioned)
    (hlive : ∀ len, g.liveCount len = h.liveCount len)
    (hknown : (g.afterAll cs).recorded ⊆ h.recorded) (hgf : g.FreesLive cs) (hhf : h.FreesLive cs)
    (len : Nat) : g.peak len cs = h.peak len cs := by
  induction cs generalizing g h with
  | nil => rw [peak_nil, peak_nil, hlive]
  | cons c cs ih =>
      have hnext := liveCount_after_congr hg hh c (fun ptr hc => ?_) hlive
      · have hstep : (g.afterAll (c :: cs)).recorded ⊆ (h.after c).recorded :=
          List.Subset.trans hknown (recorded_subset_afterAll hh [c])
        rw [peak_cons, peak_cons, hlive, ih (hg.after c) (hh.after c) hnext hstep hgf.2 hhf.2]
      · -- The block freed in `g` is known in `h`, at the same address and so with the same length.
        obtain ⟨size, hgl⟩ := hgf.1 ptr hc
        obtain ⟨size', hhl⟩ := hhf.1 ptr hc
        have hmem := hknown (recorded_subset_afterAll hg (c :: cs) (mem_recorded_of_live hgl))
        rw [hh.length_unique hmem (mem_recorded_of_live hhl)] at hgl
        exact ⟨size', hgl, hhl⟩

/-- `h` is what becomes of `g` when the calls are repeated, once or more often. -/
structure Again (cs : List Call) (g h : Heap) : Prop where
  filled : h.Filled
  liveCount : ∀ len, g.liveCount len = h.liveCount len
  madeCount : ∀ len, h.madeCount len = (g.afterAll cs).madeCount len
  known : (g.afterAll cs).recorded ⊆ h.recorded

namespace Again

variable {g : Heap} {cs : List Call}

theorem first (hg : g.Filled) (hown : g.FreesOwn cs) : Again cs g (g.afterAll cs) where
  filled := hg.afterAll cs
  liveCount len := (hown.liveCount hg.partitioned len).symm
  madeCount _ := rfl
  known := List.Subset.refl _

theorem next (hagain : Again cs g h) (hg : g.Filled) (hgown : g.FreesOwn cs)
    (hown : h.FreesOwn cs) : Again cs g (h.afterAll cs) := by
  have hh := hagain.filled.partitioned
  refine ⟨hagain.filled.afterAll cs, fun len => ?_, fun len => ?_,
    List.Subset.trans hagain.known (recorded_subset_afterAll hh cs)⟩
  · rw [hown.liveCount hh, hagain.liveCount]
  · have hpeak := peak_of_known hg.partitioned hh hagain.liveCount hagain.known
      ((freesOwn_iff hg.partitioned).mp hgown).2 ((freesOwn_iff hh).mp hown).2 len
    rw [madeCount_afterAll hh, hagain.madeCount, madeCount_afterAll hg.partitioned, hpeak]
    omega

theorem iterate (hg : g.Filled) (n : Nat) (hown : ∀ j ≤ n, ((·.afterAll cs)^[j] g).FreesOwn cs) :
    Again cs g ((·.afterAll cs)^[n + 1] g) := by
  have hfirst := hown 0 (Nat.zero_le n)
  induction n with
  | zero => exact first hg hfirst
  | succ n ih =>
      have hbefore := ih fun j hj => hown j (Nat.le_succ_of_le hj)
      rw [Function.iterate_succ_apply']
      exact hbefore.next hg hfirst (hown (n + 1) (Nat.le_refl _))

end Again

/-- **No fragmentation beyond the peak**: after any calls on a new heap, the cursor is the sum,
over all lengths, of what the blocks take up that were live at the peak of that length. So a
routine that frees what it makes moves the cursor in its first round only, however often it is
repeated; and so do calls that are repeated with the same addresses, if they free what they make
each time. -/
theorem cursor_eq_sum_peaks (size : Nat) (calls : List Call) :
    (Function.support fun len => (Heap.new size).peak len calls).Finite ∧
    ((Heap.new size).afterAll calls).cursor =
      ∑ᶠ len, extent len * (Heap.new size).peak len calls ∧
    (∀ (routine : Routine 0) (n : Nat),
      (routine.round^[n + 1] ((Heap.new size).afterAll calls)).cursor =
        (routine.round ((Heap.new size).afterAll calls)).cursor) ∧
    ∀ (round : List Call) (n : Nat),
      (∀ j ≤ n, ((·.afterAll round)^[j] ((Heap.new size).afterAll calls)).FreesOwn round) →
      ((·.afterAll round)^[n + 1] ((Heap.new size).afterAll calls)).cursor =
        (((Heap.new size).afterAll calls).afterAll round).cursor := by
  have hfilled := (Filled.new size).afterAll calls
  have hpeak (len : Nat) :
      ((Heap.new size).afterAll calls).madeCount len = (Heap.new size).peak len calls := by
    have hzero : (Heap.new size).madeCount len = 0 := rfl
    rw [madeCount_afterAll (Partitioned.new size), hzero, Nat.zero_max]
  refine ⟨?_, ?_, fun routine n => ?_, fun round n hown => ?_⟩
  · simp only [← hpeak, madeCount]
    refine (List.finite_toSet (((Heap.new size).afterAll calls).recorded.map Prod.snd)).subset ?_
    intro len hlen
    exact List.count_pos_iff.mp (Nat.pos_of_ne_zero hlen)
  · rw [hfilled.cursor_eq_finsum]
    simp only [hpeak]
  · rw [(routine.filled_iterate hfilled (n + 1)).cursor_eq_finsum,
      (routine.filled_round hfilled).cursor_eq_finsum]
    simp only [routine.madeCount_iterate hfilled]
  · have hagain := Again.iterate hfilled n hown
    rw [hagain.filled.cursor_eq_finsum, (hfilled.afterAll round).cursor_eq_finsum]
    simp only [hagain.madeCount]

/-- Two blocks of one length, freed in the order of their addresses: the second round gets them the
other way round. -/
theorem cursor_eq_sum_peaks_pair :
    ((·.afterAll [.allocate 4, .allocate 4, .free 0, .free 4])^[2]
      ((Heap.new 1).afterAll [])).cursor =
    (((Heap.new 1).afterAll []).afterAll
      [.allocate 4, .allocate 4, .free 0, .free 4]).cursor := by
  apply (cursor_eq_sum_peaks 1 []).2.2.2 [.allocate 4, .allocate 4, .free 0, .free 4] 1
  intro j hj
  match j, hj with
  | 0, _ => exact ⟨.allocate 4 (.allocate 4 (.free 1 (.free 0 .done))), rfl⟩
  | 1, _ => exact ⟨.allocate 4 (.allocate 4 (.free 0 (.free 0 .done))), rfl⟩

/-- Calls that make three blocks and free three. The last free fails in the first round and the
first one in the second. -/
def unsteady : List Call :=
  [.allocate 4, .free 0, .allocate 4, .allocate 4, .free 0, .free 4, .free 8]

/-- **Frees that fail let the cursor move again.** Each of two rounds frees exactly what it makes,
and still the second one needs a block more than the first. -/
theorem cursor_moves_again :
    FreesMade (Heap.new 64) [] unsteady ∧
    FreesMade ((Heap.new 64).afterAll unsteady) [] unsteady ∧
    ((Heap.new 64).afterAll unsteady).cursor = 8 ∧
    (((Heap.new 64).afterAll unsteady).afterAll unsteady).cursor = 12 := by
  refine ⟨?_, ?_, by decide, by decide⟩
  · exact .make rfl (.free (by decide) (.make rfl (.make rfl (.free (by decide)
      (.free (by decide) (.fail (by decide) .done))))))
  · exact .make rfl (.fail (by decide) (.make rfl (.make rfl (.free (by decide)
      (.free (by decide) (.free (by decide) .done))))))

end Heap

end CellMachine
