import CellMachine.Library.Standard
import CellMachine.Proofs.Command.Marshalling
import Mathlib.Data.List.Nodup

/-!
# CellMachine.Proofs.Library.Signatures

The standard commands keep to their signatures: a command asks its arguments for
the types that its parameters declare and no other, so that it never blames an
argument that a call has let through (`Blameless`). The one exception is `str`,
which declares that it takes any value and takes numbers only.
-/

namespace CellMachine

/-- Whether a parameter's default, if there is one, is of the declared type. -/
def Param.isHonest (p : Param) : Bool := p.default.all (·.tag == p.tag)

namespace Command

/-- Values that parameters may receive, one for each. -/
def Fits (ps : List Param) (args : List Value) : Prop :=
  List.Forall₂ (fun p v => ∃ e, p.Admits e v) ps args

theorem Receives.fits {name : String} {rs : Registers} {h : Heap} {index : Nat} {ps : List Param}
    {cells : List Cell} {taken : List (Value × Option Slot)}
    (hreceives : Receives name rs h index ps cells taken) : Fits ps (taken.map Prod.fst) := by
  induction hreceives with
  | nil => exact .nil
  | cons harg _ ih =>
      obtain ⟨e, -, hmarshals⟩ := argument_eq_ok harg
      exact .cons ⟨e, hmarshals.admits⟩ ih

/-- A parameter that declares one type receives a value of this type. -/
theorem Fits.tag_eq {ps : List Param} {args : List Value} (h : Fits ps args)
    (hps : ps.all Param.isHonest = true) {i : Nat} {t : Tag}
    (hi : ps[i]?.map Param.tag = some t) (ht : t ≠ .any) :
    ∃ v, args[i]? = some v ∧ v.tag = t := by
  induction h generalizing i with
  | nil => simp at hi
  | @cons p v ps args hv _ ih =>
      simp only [List.all_cons, Bool.and_eq_true] at hps
      cases i with
      | zero =>
          simp only [List.getElem?_cons_zero, Option.map_some, Option.some.injEq] at hi
          subst hi
          refine ⟨v, rfl, ?_⟩
          obtain ⟨e, hv⟩ := hv
          unfold Param.Admits at hv
          split at hv
          · simpa [Param.isHonest, hv] using hps.1
          · exact hv.2.resolve_left ht
      | succ i => simpa using ih hps.2 (by simpa using hi)

end Command

namespace Library

open Command

variable {σ α β : Type}

/-! ## computations that blame no argument -/

/-- The computation does not fail because of the type of an argument. -/
def Blameless (x : Except CommandError α) : Prop := ∀ i t, x ≠ .error (.badArgument i t)

namespace Blameless

theorem ok (a : α) : Blameless (.ok a) := nofun

theorem pure (a : α) : Blameless (Pure.pure a) := nofun

theorem failed (reason : String) :
    Blameless (throw (.failed reason) : Except CommandError α) := nofun

theorem bind {x : Except CommandError α} {f : α → Except CommandError β} (hx : Blameless x)
    (hf : ∀ a, Blameless (f a)) : Blameless (x >>= f) := by
  cases x with
  | ok a => exact hf a
  | error e =>
      intro i t h
      exact hx i t (congrArg Except.error (Except.error.inj h))

theorem map {x : Except CommandError α} (hx : Blameless x) (f : α → β) :
    Blameless (x.map f) := by
  cases x with
  | ok a => exact ok (f a)
  | error e =>
      intro i t h
      exact hx i t (by simpa [Except.map] using h)

theorem ite {c : Prop} [Decidable c] {x y : Except CommandError α} (hx : Blameless x)
    (hy : Blameless y) : Blameless (if c then x else y) := by
  split
  · exact hx
  · exact hy

end Blameless

/-! ## arguments of declared types -/

section Accessors

variable {ps : List Param} {args : List Value}

/-- An argument is not blamed if values of the declared type can be read. -/
theorem blameless_expect {t : Tag} {get? : Value → Option α}
    (hget : ∀ v, v.tag = t → (get? v).isSome = true) (ht : t ≠ .any) (h : Fits ps args)
    (hps : ps.all Param.isHonest = true) {i : Nat} (hi : ps[i]?.map Param.tag = some t) :
    Blameless (expect t get? args i) := by
  obtain ⟨v, hv, htag⟩ := h.tag_eq hps hi ht
  obtain ⟨a, ha⟩ := Option.isSome_iff_exists.mp (hget v htag)
  have hread : expect t get? args i = .ok a := by simp [expect, hv, ha]
  rw [hread]
  exact .ok a

theorem blameless_int (h : Fits ps args) (hps : ps.all Param.isHonest = true) {i : Nat}
    (hi : ps[i]?.map Param.tag = some .int) : Blameless (int args i) := by
  refine blameless_expect (fun v hv => ?_) (by decide) h hps hi
  cases v <;> simp_all [Value.tag, Value.asInt?]

theorem blameless_dfloat (h : Fits ps args) (hps : ps.all Param.isHonest = true) {i : Nat}
    (hi : ps[i]?.map Param.tag = some .dfloat) : Blameless (dfloat args i) := by
  refine blameless_expect (fun v hv => ?_) (by decide) h hps hi
  cases v <;> simp_all [Value.tag, Value.asDfloat?]

theorem blameless_text (h : Fits ps args) (hps : ps.all Param.isHonest = true) {i : Nat}
    (hi : ps[i]?.map Param.tag = some .string) : Blameless (text args i) := by
  refine blameless_expect (fun v hv => ?_) (by decide) h hps hi
  cases v <;> simp_all [Value.tag, Value.asText?]

end Accessors

/-! ## the standard commands -/

theorem isHonest_standard (emit : String → σ → σ) :
    (standard emit).all (fun c => c.params.all Param.isHonest) = true := rfl

theorem blameless_query {name : String} {params : List Param} {returns : Tag}
    {f : List Value → Except CommandError Value} {args : List Value} (hf : Blameless (f args))
    (world : σ) : Blameless ((query name params returns f).run args world).1 :=
  hf.map _

theorem blameless_strings {c : Command σ} (hc : c ∈ strings) (hname : c.name ≠ "str$")
    (hps : c.params.all Param.isHonest = true) {args : List Value} (h : Fits c.params args)
    (world : σ) : Blameless (c.run args world).1 := by
  simp only [strings, List.mem_cons, List.not_mem_nil, or_false] at hc
  obtain rfl | rfl | rfl | rfl | rfl | rfl | rfl | rfl | rfl := hc
  -- len
  · exact blameless_query
      (.bind (blameless_text h hps rfl) fun _ => .ite (.pure _) (.failed _)) world
  -- str$
  · contradiction
  -- val, upper$ and lower$
  · exact blameless_query (.bind (blameless_text h hps rfl) fun _ => .pure _) world
  · exact blameless_query (.bind (blameless_text h hps rfl) fun _ => .pure _) world
  · exact blameless_query (.bind (blameless_text h hps rfl) fun _ => .pure _) world
  -- left$, which reads the length first
  · refine blameless_query (.bind (blameless_int h hps rfl) fun n => ?_) world
    exact .bind (blameless_text h hps rfl) fun _ => .pure _
  -- right$
  · refine blameless_query (.bind (blameless_text h hps rfl) fun s => ?_) world
    exact .bind (blameless_int h hps rfl) fun _ => .pure _
  -- mid$, whose length has a default
  · refine blameless_query (.bind (blameless_text h hps rfl) fun s => ?_) world
    refine .bind (blameless_int h hps rfl) fun start => ?_
    have hrest : Blameless (do
        return Value.text (Text.mid s start.toInt (← int args 2).toInt)) :=
      .bind (blameless_int h hps rfl) fun _ => .pure _
    exact .ite (.bind (.failed _) fun _ => hrest) hrest
  -- append$
  · refine .bind (blameless_text h hps rfl) fun tail => ?_
    exact .bind (blameless_text h hps rfl) fun _ => .pure _

theorem blameless_numbers {c : Command σ} (hc : c ∈ numbers)
    (hps : c.params.all Param.isHonest = true) {args : List Value} (h : Fits c.params args)
    (world : σ) : Blameless (c.run args world).1 := by
  simp only [numbers, List.mem_cons, List.not_mem_nil, or_false] at hc
  obtain rfl | rfl | rfl | rfl | rfl := hc
  -- abs
  · exact blameless_query (.bind (blameless_dfloat h hps rfl) fun _ => .pure _) world
  -- sqrt
  · refine blameless_query (.bind (blameless_dfloat h hps rfl) fun x => ?_) world
    exact .ite (.bind (.failed _) fun _ => .pure _) (.pure _)
  -- max and min
  · refine blameless_query (.bind (blameless_dfloat h hps rfl) fun x => ?_) world
    exact .bind (blameless_dfloat h hps rfl) fun _ => .pure _
  · refine blameless_query (.bind (blameless_dfloat h hps rfl) fun x => ?_) world
    exact .bind (blameless_dfloat h hps rfl) fun _ => .pure _
  -- inc, whose step has a default
  · refine .bind (blameless_int h hps rfl) fun n => ?_
    exact .bind (blameless_int h hps rfl) fun _ => .pure _

/-- **Standard commands blame no argument that a call lets through**, apart from `str`. -/
theorem blameless_standard {emit : String → σ → σ} {c : Command σ} (hc : c ∈ standard emit)
    (hname : c.name ≠ "str$") {args : List Value} (h : Fits c.params args) (world : σ) :
    Blameless (c.run args world).1 := by
  have hps := List.all_eq_true.mp (isHonest_standard emit) c hc
  rw [standard, List.mem_append, List.mem_cons] at hc
  obtain (rfl | hc) | hc := hc
  · exact .ok _
  · exact blameless_strings hc hname hps h world
  · exact blameless_numbers hc hps h world

theorem nodup_names (emit : String → σ → σ) : ((standard emit).map Command.name).Nodup := by
  have hnames : (standard emit).map Command.name = ["print", "len", "str$", "val", "upper$",
    "lower$", "left$", "right$", "mid$", "append$", "abs", "sqrt", "max", "min", "inc"] := rfl
  rw [hnames]
  decide

theorem eq_str_of_name {emit : String → σ → σ} {c : Command σ} (hc : c ∈ standard emit)
    (hname : c.name = "str$") : c = str :=
  List.inj_on_of_nodup_map (nodup_names emit) hc (by simp [standard, strings]) hname

/-- The one value that `str` receives is refused unless it is a number. -/
theorem run_str_eq_error_iff (v : Value) (world : σ) (index : Nat) (tag : Tag) :
    ((str : Command σ).run [v] world).1 = .error (.badArgument index tag) ↔
      index = 0 ∧ tag = .dfloat ∧ v.tag.isNumeric = false := by
  by_cases hv : v.tag.isNumeric = true
  · have hrun : ((str : Command σ).run [v] world).1 = .ok (.returning [v] (.text v.display)) := by
      simp [str, query, value, expect, hv, Except.map, bind, Except.bind, pure, Except.pure]
    simp [hrun, hv]
  · have hrun : ((str : Command σ).run [v] world).1 = .error (.badArgument 0 .dfloat) := by
      simp [str, query, value, expect, hv, Except.map, bind, Except.bind, throw, throwThe,
        MonadExceptOf.throw]
    rw [hrun]
    grind

end Library

namespace Command

open Library

variable {σ : Type}

/-- **Marshalling is type-sound.**

Whatever the host's part of a command is run with was received for cells on the stack, one for each
parameter: for an omitted argument it is the default, and otherwise a value of the declared type.
Therefore no standard command fails because of the type of an argument except `str`, which does so
exactly if it receives no number; and a call whose host's part fails, fails. -/
theorem marshalling_sound (c : Command σ) (st : Store σ) :
    (∀ args ∈ c.hostRuns st, ∃ rest cells, (∀ d ∈ cells, d.WellFormed) ∧
      st.stack.toList = rest ++ Cell.encodeAll cells ∧
      cells.length = c.params.length ∧ args.length = c.params.length ∧
      ∀ i p d v, c.params[i]? = some p → cells[i]? = some d → args[i]? = some v →
        ∃ e slot, resolve c.name i p d st.registers st.heap = .ok (e, slot) ∧ p.Admits e v) ∧
    (∀ emit, c ∈ standard emit → ∀ index tag,
      c.FailsWith st (.badArgument index tag) ↔
        c.name = "str$" ∧ index = 0 ∧ tag = .dfloat ∧
          ∃ v, c.hostRuns st = [[v]] ∧ v.tag.isNumeric = false) ∧
    ∀ e, c.FailsWith st e → ∃ t, c.invoke st = .error (.commandFailed c.name e.message) t := by
  refine ⟨fun args hargs => ?_, fun emit hc index tag => ⟨fun hfails => ?_, ?_⟩, fun e he => ?_⟩
  · obtain ⟨rest, cells, taken, hcells, hstack, hreceives, rfl, -⟩ := receives_of_mem_hostRuns hargs
    refine ⟨rest, cells, hcells, hstack, hreceives.length_cells, ?_, fun i p d v hp hd hv => ?_⟩
    · rw [List.length_map, hreceives.length_eq, hreceives.length_cells]
    · rw [List.getElem?_map, Option.map_eq_some_iff] at hv
      obtain ⟨⟨u, slot⟩, htaken, rfl⟩ := hv
      obtain ⟨p', d', hp', hd', harg⟩ := hreceives.argument_eq htaken
      obtain rfl : p = p' := Option.some.inj (hp.symm.trans hp')
      obtain rfl : d = d' := Option.some.inj (hd.symm.trans hd')
      rw [Nat.zero_add] at harg
      obtain ⟨e, hresolve, hmarshals⟩ := argument_eq_ok harg
      exact ⟨e, slot, hresolve, hmarshals.admits⟩
  · obtain ⟨args, hargs, hrun⟩ := hfails
    obtain ⟨rest, cells, taken, -, -, hreceives, hargs', hruns⟩ := receives_of_mem_hostRuns hargs
    have hfits : Fits c.params args := hargs' ▸ hreceives.fits
    by_cases hname : c.name = "str$"
    · obtain rfl := eq_str_of_name hc hname
      cases hfits with
      | cons hv hnil =>
      cases hnil
      obtain ⟨rfl, rfl, hnumeric⟩ := (run_str_eq_error_iff _ _ index tag).mp hrun
      exact ⟨hname, rfl, rfl, _, hruns, hnumeric⟩
    · exact absurd hrun (blameless_standard hc hname hfits st.world index tag)
  · rintro ⟨hname, rfl, rfl, v, hruns, hnumeric⟩
    obtain rfl := eq_str_of_name hc hname
    refine ⟨[v], by rw [hruns, List.mem_singleton], ?_⟩
    exact (run_str_eq_error_iff v st.world 0 .dfloat).mpr ⟨rfl, rfl, hnumeric⟩
  · exact invoke_of_failsWith he

/-- A structure, passed through register 2, is received as declared and then blamed. -/
theorem marshalling_sound_str :
    ∃ st : Store Unit, (str : Command Unit).hostRuns st = [[.struct 5]] ∧
      str.FailsWith st (.badArgument 0 .dfloat) ∧
      ∃ t, str.invoke st = .error (.commandFailed "str$" "argument 0: expected dfloat") t := by
  obtain ⟨st, hruns⟩ : ∃ st : Store Unit, (str : Command Unit).hostRuns st = [[.struct 5]] :=
    ⟨⟨(Stack.withCapacity 8).pushCell (.registerRef 2),
      Registers.new.store 2 (.ofInt .struct 5), .new 1, ()⟩, by decide⟩
  obtain ⟨-, hblames, hends⟩ := marshalling_sound (str : Command Unit) st
  have hmem : (str : Command Unit) ∈ standard fun _ world => world := by simp [standard, strings]
  have hfails := (hblames _ hmem 0 .dfloat).mpr ⟨rfl, rfl, rfl, _, hruns, rfl⟩
  exact ⟨st, hruns, hfails, hends _ hfails⟩

end Command

end CellMachine
