import CellMachine.Proofs.Library.Answers

/-!
# CellMachine.Proofs.Library.Slices

The commands that cut texts, `left$`, `right$` and `mid$`. They count in different
ways: `left$` and `right$` by a number of characters, where a negative one stands
for none, and `mid$` from a position, where the first character has position 1 and
a negative length stands for all the rest. Still the parts that they cut fit
together. The laws are shown of texts first and then of calls.
-/

namespace CellMachine

/-! ## parts of texts -/

namespace Text

variable (s : String) {n start len : Int}

/-- The first characters and those from the next position on are the text. -/
theorem left_append_mid (hn : 0 ≤ n) (hlen : len < 0) : left s n ++ mid s (n + 1) len = s := by
  have hskip : (n + 1 - 1).toNat = n.toNat := by omega
  rw [left, mid, hskip, if_pos hlen, ← String.ofList_append, List.take_append_drop,
    String.ofList_toList]

/-- The last characters and all those before them are the text. -/
theorem left_append_right (hn : 0 ≤ n) (hle : n ≤ s.length) :
    left s (s.length - n) ++ right s n = s := by
  have hfirst : (s.length - n).toNat = s.toList.length - n.toNat := by
    rw [String.length_toList]
    omega
  rw [left, right, hfirst, ← String.ofList_append, List.take_append_drop, String.ofList_toList]

/-- A number of characters from a position on are the first ones of the rest. -/
theorem left_mid (hn : 0 ≤ n) (hlen : len < 0) : left (mid s start len) n = mid s start n := by
  rw [left, mid, mid, if_pos hlen, if_neg (by omega), String.toList_ofList]

theorem length_mid (hstart : 1 ≤ start) (hlen : 0 ≤ len) :
    ((mid s start len).length : Int) = min len (max 0 (s.length - (start - 1))) := by
  rw [mid, if_neg (by omega), String.length_ofList, List.length_take, List.length_drop,
    String.length_toList]
  omega

theorem left_of_neg (hn : n < 0) : left s n = left s 0 := by
  have hnone : n.toNat = 0 := by omega
  rw [left, left, hnone, Int.toNat_zero]

theorem right_of_neg (hn : n < 0) : right s n = right s 0 := by
  have hnone : n.toNat = 0 := by omega
  rw [right, right, hnone, Int.toNat_zero]

theorem mid_of_neg {len' : Int} (hlen : len < 0) (hlen' : len' < 0) :
    mid s start len = mid s start len' := by
  rw [mid, mid, if_pos hlen, if_pos hlen']

end Text

/-! ## calls -/

namespace Library

open Command

variable {σ : Type} (s : String)

theorem answersText_left (n : Int32) :
    (left : Command σ).AnswersText [.text s, .int n] (Text.left s n.toInt) :=
  answersText_of_run rfl (by simp [left, query]) rfl fun _ => rfl

theorem answersText_right (n : Int32) :
    (right : Command σ).AnswersText [.text s, .int n] (Text.right s n.toInt) :=
  answersText_of_run rfl (by simp [right, query]) rfl fun _ => rfl

/-- The host's part of `mid$` looks at the position first. -/
theorem run_mid (i k : Int32) (world : σ) :
    ((mid : Command σ).run [.text s, .int i, .int k] world).1 =
      if i.toInt < 1 then .error (.failed s!"mid$ start must be >= 1, got {i.toInt}")
      else .ok (.returning _ (.text (Text.mid s i.toInt k.toInt))) := by
  by_cases hi : i.toInt < 1
  · simp only [if_pos hi]
    simp [mid, query, text, int, expect, Value.asText?, Value.asInt?, hi, bind, Except.bind,
      Except.map, throw, throwThe, MonadExceptOf.throw]
  · simp only [if_neg hi]
    simp [mid, query, text, int, expect, Value.asText?, Value.asInt?, hi, bind, Except.bind,
      Except.map, pure, Except.pure]

variable {i k : Int32} {a : Argument}

/-- The argument gives the length, which is -1 if it is omitted. -/
def GivesLength (a : Argument) (k : Int32) : Prop := a = .int k ∨ a = .omitted ∧ k = -1

theorem values?_mid (hk : GivesLength a k) :
    values? (mid : Command σ).params [.text s, .int i, a] = some [.text s, .int i, .int k] := by
  obtain rfl | ⟨rfl, rfl⟩ := hk
  · rfl
  · rfl

theorem answersText_mid (hi : 1 ≤ i.toInt) (hk : GivesLength a k) :
    (mid : Command σ).AnswersText [.text s, .int i, a] (Text.mid s i.toInt k.toInt) := by
  refine answersText_of_run rfl (by simp [mid, query]) (values?_mid s hk) fun world => ?_
  rw [run_mid, if_neg (by omega)]
  rfl

theorem failsOn_mid (hi : i.toInt < 1) (hk : GivesLength a k) :
    (mid : Command σ).FailsOn [.text s, .int i, a]
      (.failed s!"mid$ start must be >= 1, got {i.toInt}") := by
  refine failsOn_of_run (by simp [mid, query]) (values?_mid s hk) fun world => ?_
  rw [run_mid, if_pos hi]

end Library

namespace Command

open Library (left right mid GivesLength answersText_left answersText_right answersText_mid
  failsOn_mid)

variable {σ : Type} (s : String)

/-- **The parts of a text fit together.**

The first characters of a text and those from the next position on are the text, and so are its last
characters and all those before them. A number of characters from a position on are the first ones of
the rest, which is as long as the text reaches. A negative number of characters stands for none, a
negative length for the whole rest, and there is no position below 1. -/
theorem slices_fit (hlength : s.length < intLimit) :
    (∀ n : Int32, 0 ≤ n.toInt → n.toInt + 1 < intLimit → ∃ first rest,
      (left : Command σ).AnswersText [.text s, .int n] first ∧
      (mid : Command σ).AnswersText [.text s, .int (n + 1), .omitted] rest ∧ first ++ rest = s) ∧
    (∀ n : Nat, n ≤ s.length → ∃ first last,
      (left : Command σ).AnswersText [.text s, .int (.ofNat (s.length - n))] first ∧
      (right : Command σ).AnswersText [.text s, .int (.ofNat n)] last ∧ first ++ last = s) ∧
    (∀ i k : Int32, 1 ≤ i.toInt → 0 ≤ k.toInt → ∃ rest part,
      (mid : Command σ).AnswersText [.text s, .int i, .omitted] rest ∧
      (left : Command σ).AnswersText [.text rest, .int k] part ∧
      (mid : Command σ).AnswersText [.text s, .int i, .int k] part ∧
      (part.length : Int) = min k.toInt (max 0 (s.length - (i.toInt - 1)))) ∧
    (∀ n : Int32, n.toInt < 0 → ∃ first last,
      (left : Command σ).AnswersText [.text s, .int n] first ∧
      (left : Command σ).AnswersText [.text s, .int 0] first ∧
      (right : Command σ).AnswersText [.text s, .int n] last ∧
      (right : Command σ).AnswersText [.text s, .int 0] last) ∧
    (∀ i k : Int32, 1 ≤ i.toInt → k.toInt < 0 → ∃ rest,
      (mid : Command σ).AnswersText [.text s, .int i, .int k] rest ∧
      (mid : Command σ).AnswersText [.text s, .int i, .omitted] rest) ∧
    ∀ i : Int32, i.toInt < 1 → ∀ a, (a = .omitted ∨ ∃ k, a = .int k) →
      (mid : Command σ).FailsOn [.text s, .int i, a]
        (.failed s!"mid$ start must be >= 1, got {i.toInt}") := by
  have hlimit : intLimit = 2147483648 := rfl
  have hrest : (-1 : Int32).toInt < 0 := by decide
  have homitted : GivesLength .omitted (-1) := .inr ⟨rfl, rfl⟩
  refine ⟨fun n hn hlt => ?_, fun n hle => ?_, fun i k hi hk => ?_, fun n hn => ?_,
    fun i k hi hk => ?_, fun i hi a ha => ?_⟩
  · have hnext : (n + 1).toInt = n.toInt + 1 := by
      rw [Int32.toInt_add]
      exact Int.bmod_eq_of_le (by simp; omega) (by simp; omega)
    have hmid := answersText_mid (σ := σ) s (i := n + 1) (by omega) homitted
    rw [hnext] at hmid
    exact ⟨_, _, answersText_left s n, hmid, Text.left_append_mid s hn hrest⟩
  · have hfirst := answersText_left (σ := σ) s (.ofNat (s.length - n))
    have hlast := answersText_right (σ := σ) s (.ofNat n)
    rw [Int32.toInt_ofNat_of_lt (by omega), Int.ofNat_sub hle] at hfirst
    rw [Int32.toInt_ofNat_of_lt (by omega)] at hlast
    exact ⟨_, _, hfirst, hlast, Text.left_append_right s (by omega) (by omega)⟩
  · refine ⟨_, _, answersText_mid s hi homitted, answersText_left _ k, ?_, ?_⟩
    · rw [Text.left_mid s hk hrest]
      exact answersText_mid s hi (.inl rfl)
    · rw [Text.left_mid s hk hrest]
      exact Text.length_mid s hi hk
  · have hleft := answersText_left (σ := σ) s n
    have hright := answersText_right (σ := σ) s n
    rw [Text.left_of_neg s hn] at hleft
    rw [Text.right_of_neg s hn] at hright
    exact ⟨_, _, hleft, answersText_left s 0, hright, answersText_right s 0⟩
  · have hmid := answersText_mid (σ := σ) s hi (.inl rfl : GivesLength (.int k) k)
    rw [Text.mid_of_neg s hk hrest] at hmid
    exact ⟨_, hmid, answersText_mid s hi homitted⟩
  · obtain rfl | ⟨k, rfl⟩ := ha
    · exact failsOn_mid s hi homitted
    · exact failsOn_mid s hi (.inl rfl)

/-- A text with a character of two bytes, and the number 2 on top of its address. -/
def beforeCutting : Store Unit where
  stack := ((Stack.withCapacity 16).pushCell (.ofInt .string 0)).pushCell (.ofInt .int 2)
  registers := .new
  heap := (Heap.new 1).after (.allocateText "añb")
  world := ()

/-- The text is cut behind the character of two bytes, by a call that returns. -/
theorem slices_fit_accented :
    "añb".length < intLimit ∧ (∃ first rest,
      (left : Command Unit).AnswersText [.text "añb", .int 2] first ∧
      (mid : Command Unit).AnswersText [.text "añb", .int (2 + 1), .omitted] rest ∧
      first ++ rest = "añb" ∧ Prepared beforeCutting [.text "añb", .int 2] [] ∧
      ∃ (t : Store Unit) (d : Cell) (ptr : Nat), left.invoke beforeCutting = .ok () t ∧
        d.IsText t.heap ptr first ∧ t.stack.toList = d.encode) ∧
    ∃ rest part, (mid : Command Unit).AnswersText [.text "añb", .int 2, .omitted] rest ∧
      (left : Command Unit).AnswersText [.text rest, .int 7] part ∧
      (mid : Command Unit).AnswersText [.text "añb", .int 2, .int 7] part ∧ part.length = 2 := by
  have hlength : "añb".length < intLimit := by decide
  obtain ⟨hsplit, -, hparts, -⟩ := slices_fit (σ := Unit) "añb" hlength
  refine ⟨hlength, ?_, ?_⟩
  · obtain ⟨first, rest, hfirst, hrest, hwhole⟩ := hsplit 2 (by decide) (by decide)
    have htext : (Cell.ofInt .string 0).IsText beforeCutting.heap 0 "añb" :=
      ⟨rfl, rfl, Heap.readText_of_readBlock rfl⟩
    have hprepared : Prepared beforeCutting [.text "añb", .int 2] [] :=
      ⟨(Heap.Partitioned.new 1).after (.allocateText "añb"), [.ofInt .string 0, .ofInt .int 2],
        by decide, .cons (.inl ⟨0, htext⟩) (.cons (.inl rfl) .nil), by decide⟩
    obtain ⟨t, hcall⟩ : ∃ t, left.invoke beforeCutting = .ok () t := ⟨_, rfl⟩
    have hcut := hfirst
    obtain ⟨_, _, _, hanswers⟩ := hcut
    obtain ⟨-, hreturns, -⟩ := hanswers beforeCutting [] hprepared
    obtain ⟨d, ptr, hd, hstack⟩ := hreturns t hcall
    exact ⟨first, rest, hfirst, hrest, hwhole, hprepared, t, d, ptr, hcall, hd, hstack⟩
  · obtain ⟨rest, part, hrest, hfirst, hmid, hpart⟩ := hparts 2 7 (by decide) (by decide)
    have htwo : min (7 : Int32).toInt (max 0 ("añb".length - ((2 : Int32).toInt - 1))) = 2 := by
      decide
    exact ⟨rest, part, hrest, hfirst, hmid, by omega⟩

end Command

end CellMachine
