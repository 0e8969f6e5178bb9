import CellMachine.Command.Call

/-!
# CellMachine.Proofs.Action

What actions keep. `Keeps I F x Q` says that `x`, started where `I` holds, ends
where `I` holds: either with a result in `Q` or stopped by a fault in `F`. There
is a rule for each way of building actions on a store; an invariant of a long
action is then an invariant of its parts. `Commits I F x Q R` asks for `I` only
where `x` fails, and for `R` where it succeeds. `Lockstep R F x y` compares two
actions: they come to the same, in states that `R` relates.

`Tame` is the same for computations that have no state: they fail, if at all,
by a fault of the values they work on (`Fault.isPlain`).
-/

namespace CellMachine

/-- Whether a fault says that control has gone astray: to bytes that are no instruction, past the
end of one, or by a jump out of the program. -/
def Fault.isStray : Fault → Bool
  | unknownOpcode _ _ | truncated _ | invalidJump _ => true
  | _ => false

/-- Whether a fault comes from the values an operation works on, and not from where control or the
stack stands. -/
def Fault.isPlain : Fault → Bool
  | unknownOpcode _ _ | truncated _ | invalidJump _ | invalidTag _ | stackUnderflow _ _ => false
  | _ => true

/-- Whether a fault says that the stack has too few bytes. -/
def Fault.isUnderflow : Fault → Bool
  | stackUnderflow _ _ => true
  | _ => false

theorem Fault.isStray_of_isPlain {e : Fault} (h : e.isPlain = true) : e.isStray = false := by
  cases e <;> first | rfl | contradiction

/-! ## computations without a state -/

/-- A chain of two computations succeeds if both do. -/
theorem bind_eq_ok {ε α β : Type} {f : α → Except ε β} {x : Except ε α} {b : β}
    (h : x >>= f = .ok b) : ∃ a, x = .ok a ∧ f a = .ok b := by
  cases x with
  | error e => contradiction
  | ok a => exact ⟨a, rfl, h⟩

/-- The computation fails by a fault of the values it works on only. -/
def Tame {α : Type} (x : Except Fault α) : Prop := ∀ e, x = .error e → e.isPlain = true

namespace Tame

variable {α β : Type}

theorem ok (a : α) : Tame (.ok a : Except Fault α) := fun _ h => nomatch h

theorem error {e : Fault} (he : e.isPlain = true) : Tame (.error e : Except Fault α) :=
  fun _ h => Except.error.inj h ▸ he

theorem bind {x : Except Fault α} {f : α → Except Fault β} (hx : Tame x) (hf : ∀ a, Tame (f a)) :
    Tame (x >>= f) := by
  cases x with
  | error e => exact error (hx e rfl)
  | ok a => exact hf a

theorem not_stray {x : Except Fault α} (hx : Tame x) : ∀ e, x = .error e → e.isStray = false :=
  fun e he => Fault.isStray_of_isPlain (hx e he)

theorem map {x : Except Fault α} (hx : Tame x) (f : α → β) : Tame (x.map f) := by
  cases x with
  | error e => exact error (hx e rfl)
  | ok a => exact ok (f a)

theorem ite {c : Prop} [Decidable c] {x y : Except Fault α} (hx : Tame x) (hy : Tame y) :
    Tame (if c then x else y) := by
  split
  · exact hx
  · exact hy

end Tame

/-! ## actions -/

section Keeps

variable {ε σ α β : Type}

/-- The state that is left, by a success or a failure. -/
def finalState : EStateM.Result ε σ α → σ
  | .ok _ s => s
  | .error _ s => s

@[simp] theorem finalState_ok (a : α) (s : σ) :
    finalState (.ok a s : EStateM.Result ε σ α) = s := rfl

@[simp] theorem finalState_error (e : ε) (s : σ) :
    finalState (.error e s : EStateM.Result ε σ α) = s := rfl

/-- A chain of two actions succeeds if both do, one where the other left off. -/
theorem bind_run_eq_ok {x : EStateM ε σ α} {f : α → EStateM ε σ β} {s t : σ} {b : β}
    (h : (x >>= f) s = .ok b t) : ∃ a s', x s = .ok a s' ∧ f a s' = .ok b t := by
  change EStateM.bind x f s = .ok b t at h
  unfold EStateM.bind at h
  cases hx : x s with
  | ok a s' => exact ⟨a, s', rfl, by simpa only [hx] using h⟩
  | error e s' => simp only [hx] at h; contradiction

/-- A chain of two actions fails if one of them does. -/
theorem bind_run_eq_error {x : EStateM ε σ α} {f : α → EStateM ε σ β} {s t : σ} {e : ε}
    (h : (x >>= f) s = .error e t) :
    x s = .error e t ∨ ∃ a s', x s = .ok a s' ∧ f a s' = .error e t := by
  change EStateM.bind x f s = .error e t at h
  unfold EStateM.bind at h
  cases hx : x s with
  | ok a s' => exact Or.inr ⟨a, s', rfl, by simpa only [hx] using h⟩
  | error e' s' =>
      simp only [hx] at h
      obtain ⟨rfl, rfl⟩ := EStateM.Result.error.inj h
      exact Or.inl rfl

/-- A chain goes on where its first part left off. -/
theorem bind_run_of_ok {x : EStateM ε σ α} {f : α → EStateM ε σ β} {s s' : σ} {a : α}
    (h : x s = .ok a s') : (x >>= f) s = f a s' := by
  change EStateM.bind x f s = _
  simp only [EStateM.bind, h]

theorem bind_run_of_error {x : EStateM ε σ α} {f : α → EStateM ε σ β} {s s' : σ} {e : ε}
    (h : x s = .error e s') : (x >>= f) s = .error e s' := by
  change EStateM.bind x f s = _
  simp only [EStateM.bind, h]

/-- Started where `I` holds, `x` ends where `I` holds, with a result in `Q` or a fault in `F`. -/
def Keeps (I : σ → Prop) (F : ε → Prop) (x : EStateM ε σ α) (Q : α → Prop) : Prop :=
  ∀ s, I s →
    match x s with
    | .ok a t => Q a ∧ I t
    | .error e t => F e ∧ I t

namespace Keeps

variable {I : σ → Prop} {F : ε → Prop} {Q : α → Prop} {R : β → Prop}

theorem ok {x : EStateM ε σ α} (hx : Keeps I F x Q) {s t : σ} {a : α} (hs : I s)
    (h : x s = .ok a t) : Q a ∧ I t := by
  have hk := hx s hs
  rw [h] at hk
  exact hk

theorem error {x : EStateM ε σ α} (hx : Keeps I F x Q) {s t : σ} {e : ε} (hs : I s)
    (h : x s = .error e t) : F e ∧ I t := by
  have hk := hx s hs
  rw [h] at hk
  exact hk

/-- Whatever the action comes to, `I` holds in the end. -/
theorem final {x : EStateM ε σ α} (hx : Keeps I F x Q) {s : σ} (hs : I s) : I (finalState (x s)) := by
  cases h : x s with
  | ok a t => exact (hx.ok hs h).2
  | error e t => exact (hx.error hs h).2

theorem pure {a : α} (ha : Q a) : Keeps I F (Pure.pure a : EStateM ε σ α) Q :=
  fun _ hs => ⟨ha, hs⟩

theorem throw {e : ε} (he : F e) : Keeps I F (MonadExcept.throw e : EStateM ε σ α) Q :=
  fun _ hs => ⟨he, hs⟩

theorem bind {x : EStateM ε σ α} {f : α → EStateM ε σ β} (hx : Keeps I F x Q)
    (hf : ∀ a, Q a → Keeps I F (f a) R) : Keeps I F (x >>= f) R := by
  intro s hs
  change match EStateM.bind x f s with | .ok a t => R a ∧ I t | .error e t => F e ∧ I t
  unfold EStateM.bind
  cases h : x s with
  | ok a t =>
      obtain ⟨ha, ht⟩ := hx.ok hs h
      exact hf a ha t ht
  | error e t => exact hx.error hs h

theorem mono {x : EStateM ε σ α} {Q' : α → Prop} {F' : ε → Prop} (hx : Keeps I F x Q)
    (hQ : ∀ a, Q a → Q' a) (hF : ∀ e, F e → F' e) : Keeps I F' x Q' := by
  intro s hs
  have hk := hx s hs
  revert hk
  cases x s with
  | ok a t => exact fun hk => ⟨hQ a hk.1, hk.2⟩
  | error e t => exact fun hk => ⟨hF e hk.1, hk.2⟩

theorem ite {c : Prop} [Decidable c] {x y : EStateM ε σ α} (hx : c → Keeps I F x Q)
    (hy : ¬ c → Keeps I F y Q) : Keeps I F (if c then x else y) Q := by
  split
  · next h => exact hx h
  · next h => exact hy h

end Keeps

/-- Started where `I` holds, `x` ends with a result in `Q` where `R` holds, or it is stopped by a
fault in `F` where `I` still holds. -/
def Commits (I : σ → Prop) (F : ε → Prop) (x : EStateM ε σ α) (Q : α → Prop) (R : σ → Prop) :
    Prop :=
  ∀ s, I s →
    match x s with
    | .ok a t => Q a ∧ R t
    | .error e t => F e ∧ I t

theorem Keeps.commits {I : σ → Prop} {F : ε → Prop} {Q : α → Prop} {R : σ → Prop}
    {x : EStateM ε σ α} (hx : Keeps I F x Q) (hR : ∀ s, I s → R s) : Commits I F x Q R := by
  intro s hs
  have hk := hx s hs
  revert hk
  cases x s with
  | ok a t => exact fun hk => ⟨hk.1, hR t hk.2⟩
  | error e t => exact id

namespace Commits

variable {I R R' : σ → Prop} {F : ε → Prop} {Q : α → Prop} {Q' : β → Prop}

theorem ok {x : EStateM ε σ α} (hx : Commits I F x Q R) {s t : σ} {a : α} (hs : I s)
    (h : x s = .ok a t) : Q a ∧ R t := by
  have hk := hx s hs
  rw [h] at hk
  exact hk

theorem error {x : EStateM ε σ α} (hx : Commits I F x Q R) {s t : σ} {e : ε} (hs : I s)
    (h : x s = .error e t) : F e ∧ I t := by
  have hk := hx s hs
  rw [h] at hk
  exact hk

theorem pure {a : α} (ha : Q a) (hR : ∀ s, I s → R s) :
    Commits I F (Pure.pure a : EStateM ε σ α) Q R :=
  fun s hs => ⟨ha, hR s hs⟩

theorem throw {e : ε} (he : F e) : Commits I F (MonadExcept.throw e : EStateM ε σ α) Q R :=
  fun _ hs => ⟨he, hs⟩

theorem ite {c : Prop} [Decidable c] {x y : EStateM ε σ α} (hx : c → Commits I F x Q R)
    (hy : ¬ c → Commits I F y Q R) : Commits I F (if c then x else y) Q R := by
  split
  · next h => exact hx h
  · next h => exact hy h

/-- What keeps `I` may come before. -/
theorem bind {x : EStateM ε σ α} {f : α → EStateM ε σ β} (hx : Keeps I F x Q)
    (hf : ∀ a, Q a → Commits I F (f a) Q' R) : Commits I F (x >>= f) Q' R := by
  intro s hs
  cases h : x s with
  | ok a t =>
      obtain ⟨ha, ht⟩ := hx.ok hs h
      rw [bind_run_of_ok h]
      exact hf a ha t ht
  | error e t =>
      rw [bind_run_of_error h]
      exact hx.error hs h

/-- What cannot fail may come after. -/
theorem andThen {x : EStateM ε σ α} {f : α → EStateM ε σ β} (hx : Commits I F x Q R)
    (hf : ∀ a, Q a → ∀ s, R s → ∃ b t, f a s = .ok b t ∧ Q' b ∧ R' t) :
    Commits I F (x >>= f) Q' R' := by
  intro s hs
  cases h : x s with
  | ok a t =>
      obtain ⟨ha, ht⟩ := hx.ok hs h
      obtain ⟨b, u, hb, hQ, hR⟩ := hf a ha t ht
      rw [bind_run_of_ok h, hb]
      exact ⟨hQ, hR⟩
  | error e t =>
      rw [bind_run_of_error h]
      exact hx.error hs h

end Commits

/-- Started in states that `R` relates, `x` and `y` come to the same result or the same fault, in
states that `R` relates again; nothing is said where `x` is stopped by a fault in `F`. -/
def Lockstep (R : σ → σ → Prop) (F : ε → Prop) (x y : EStateM ε σ α) : Prop :=
  ∀ s s', R s s' →
    match x s with
    | .ok a t => ∃ t', y s' = .ok a t' ∧ R t t'
    | .error e t => F e ∨ ∃ t', y s' = .error e t' ∧ R t t'

namespace Lockstep

variable {R : σ → σ → Prop} {F : ε → Prop} {s s' t : σ}

theorem ok {x y : EStateM ε σ α} (h : Lockstep R F x y) {a : α} (hs : R s s')
    (hx : x s = .ok a t) : ∃ t', y s' = .ok a t' ∧ R t t' := by
  have hk := h s s' hs
  rw [hx] at hk
  exact hk

theorem error {x y : EStateM ε σ α} (h : Lockstep R F x y) {e : ε} (hs : R s s')
    (hx : x s = .error e t) : F e ∨ ∃ t', y s' = .error e t' ∧ R t t' := by
  have hk := h s s' hs
  rw [hx] at hk
  exact hk

/-- From one and the same state an action does what it does. -/
theorem refl (x : EStateM ε σ α) : Lockstep (· = ·) F x x := by
  rintro s _ rfl
  cases x s with
  | ok a t => exact ⟨t, rfl, rfl⟩
  | error e t => exact Or.inr ⟨t, rfl, rfl⟩

theorem pure (a : α) : Lockstep R F (Pure.pure a : EStateM ε σ α) (Pure.pure a) :=
  fun _ s' hs => ⟨s', rfl, hs⟩

theorem throw (e : ε) :
    Lockstep R F (MonadExcept.throw e : EStateM ε σ α) (MonadExcept.throw e) :=
  fun _ s' hs => Or.inr ⟨s', rfl, hs⟩

theorem bind {x y : EStateM ε σ α} {f g : α → EStateM ε σ β} (hx : Lockstep R F x y)
    (hf : ∀ a, Lockstep R F (f a) (g a)) : Lockstep R F (x >>= f) (y >>= g) := by
  intro s s' hs
  cases h : x s with
  | ok a t =>
      obtain ⟨t', hy, ht⟩ := hx.ok hs h
      rw [bind_run_of_ok h, bind_run_of_ok hy]
      exact hf a t t' ht
  | error e t =>
      rw [bind_run_of_error h]
      rcases hx.error hs h with he | ⟨t', hy, ht⟩
      · exact Or.inl he
      · exact Or.inr ⟨t', bind_run_of_error hy, ht⟩

theorem ite {c : Prop} [Decidable c] {x x' y y' : EStateM ε σ α} (hx : Lockstep R F x x')
    (hy : Lockstep R F y y') : Lockstep R F (if c then x else y) (if c then x' else y') := by
  split
  · exact hx
  · exact hy

end Lockstep

end Keeps

/-! ## actions on a heap -/

namespace Keeps

variable {α : Type} {I : Heap → Prop} {F : Fault → Prop} {Q : α → Prop}

theorem liftHeap {x : Except Fault α} (hok : ∀ a, x = .ok a → Q a)
    (herror : ∀ e, x = .error e → F e) : Keeps I F (HeapM.lift x) Q := by
  intro h hh
  unfold HeapM.lift
  cases x with
  | ok a => exact ⟨hok a rfl, hh⟩
  | error e => exact ⟨herror e rfl, hh⟩

theorem askHeap {f : Heap → Except Fault α} (hok : ∀ h a, I h → f h = .ok a → Q a)
    (herror : ∀ h e, I h → f h = .error e → F e) : Keeps I F (HeapM.ask f) Q := by
  intro h hh
  unfold HeapM.ask HeapM.lift
  cases hf : f h with
  | ok a => exact ⟨hok h a hh hf, hh⟩
  | error e => exact ⟨herror h e hh hf, hh⟩

theorem update {f : Heap → Except Fault Heap} (hok : ∀ h h', I h → f h = .ok h' → I h')
    (herror : ∀ h e, I h → f h = .error e → F e) : Keeps I F (HeapM.update f) fun _ => True := by
  intro h hh
  unfold HeapM.update
  cases hf : f h with
  | ok h' => exact ⟨trivial, hok h h' hh hf⟩
  | error e => exact ⟨herror h e hh hf, hh⟩

theorem allocate {len : Nat} (h : ∀ h, I h → I (h.allocate len).2) :
    Keeps I F (HeapM.allocate len) fun _ => True :=
  fun heap hh => ⟨trivial, h heap hh⟩

theorem allocateText {text : String}
    (hallocate : ∀ h, I h → I (h.allocate (Text.encode text).length).2)
    (hwrite : ∀ h ptr h', I h → h.write ptr (Text.encode text) = .ok h' → I h')
    (herror : ∀ h ptr e, I h → h.write ptr (Text.encode text) = .error e → F e) :
    Keeps I F (HeapM.allocateText text) fun _ => True := by
  refine .bind (.allocate hallocate) fun ptr _ => ?_
  exact .bind (.update (hwrite · ptr) (herror · ptr)) fun _ _ => .pure trivial

end Keeps

/-! ## actions on a store -/

namespace StoreM

variable {σ α : Type} {st : Store σ}

theorem onStack_of_ok {act : EStateM Fault Stack α} {a : α} {stack : Stack}
    (h : act st.stack = .ok a stack) : onStack act st = .ok a { st with stack := stack } := by
  obtain ⟨stack₀, registers, heap, world⟩ := st
  simp only at h
  simp only [onStack, h]

theorem onStack_of_error {act : EStateM Fault Stack α} {e : Fault} {stack : Stack}
    (h : act st.stack = .error e stack) :
    onStack act st = .error e { st with stack := stack } := by
  obtain ⟨stack₀, registers, heap, world⟩ := st
  simp only at h
  simp only [onStack, h]

theorem onHeap_of_ok {act : HeapM α} {a : α} {heap : Heap} (h : act st.heap = .ok a heap) :
    onHeap act st = .ok a { st with heap := heap } := by
  obtain ⟨stack, registers, heap₀, world⟩ := st
  simp only at h
  simp only [onHeap, h]

theorem onHeap_of_error {act : HeapM α} {e : Fault} {heap : Heap}
    (h : act st.heap = .error e heap) : onHeap act st = .error e { st with heap := heap } := by
  obtain ⟨stack, registers, heap₀, world⟩ := st
  simp only at h
  simp only [onHeap, h]

end StoreM

namespace Keeps

open StoreM

variable {σ α : Type} {I : Store σ → Prop} {F : Fault → Prop} {Q : α → Prop}

theorem onStack {act : EStateM Fault Stack α}
    (h : ∀ st, I st →
      match act st.stack with
      | .ok a stack => Q a ∧ I { st with stack := stack }
      | .error e stack => F e ∧ I { st with stack := stack }) :
    Keeps I F (StoreM.onStack act) Q := by
  intro st hst
  have hk := h st hst
  cases hr : act st.stack with
  | ok a stack =>
      rw [hr] at hk
      rw [onStack_of_ok hr]
      exact hk
  | error e stack =>
      rw [hr] at hk
      rw [onStack_of_error hr]
      exact hk

/-- What an action keeps of the stack it keeps of a store, if the invariant leaves the stack free
otherwise. -/
theorem ofStack {J : Stack → Prop} {act : EStateM Fault Stack α} (hact : Keeps J F act Q)
    (hstack : ∀ st, I st → J st.stack)
    (hset : ∀ st stack, I st → J stack → I { st with stack := stack }) :
    Keeps I F (StoreM.onStack act) Q := by
  refine .onStack fun st hst => ?_
  cases hr : act st.stack with
  | ok a stack =>
      obtain ⟨ha, hJ⟩ := hact.ok (hstack st hst) hr
      exact ⟨ha, hset st stack hst hJ⟩
  | error e stack =>
      obtain ⟨he, hJ⟩ := hact.error (hstack st hst) hr
      exact ⟨he, hset st stack hst hJ⟩

theorem onHeap {act : HeapM α}
    (h : ∀ st, I st →
      match act st.heap with
      | .ok a heap => Q a ∧ I { st with heap := heap }
      | .error e heap => F e ∧ I { st with heap := heap }) :
    Keeps I F (StoreM.onHeap act) Q := by
  intro st hst
  have hk := h st hst
  cases hr : act st.heap with
  | ok a heap =>
      rw [hr] at hk
      rw [onHeap_of_ok hr]
      exact hk
  | error e heap =>
      rw [hr] at hk
      rw [onHeap_of_error hr]
      exact hk

theorem updateHeap {f : Heap → Except Fault Heap}
    (hok : ∀ st heap, I st → f st.heap = .ok heap → I { st with heap := heap })
    (herror : ∀ st e, I st → f st.heap = .error e → F e) :
    Keeps I F (StoreM.updateHeap f) fun _ => True := by
  refine onHeap fun st hst => ?_
  unfold HeapM.update
  cases hf : f st.heap with
  | ok heap => exact ⟨trivial, hok st heap hst hf⟩
  | error e => exact ⟨herror st e hst hf, hst⟩

theorem ask {f : Registers → Heap → Except Fault α}
    (hok : ∀ st a, I st → f st.registers st.heap = .ok a → Q a)
    (herror : ∀ st e, I st → f st.registers st.heap = .error e → F e) :
    Keeps I F (StoreM.ask f) Q := by
  intro st hst
  unfold StoreM.ask
  cases hf : f st.registers st.heap with
  | ok a => exact ⟨hok st a hst hf, hst⟩
  | error e => exact ⟨herror st e hst hf, hst⟩

theorem lift {x : Except Fault α} (hok : ∀ a, x = .ok a → Q a) (herror : ∀ e, x = .error e → F e) :
    Keeps I F (StoreM.lift x) Q := by
  intro st hst
  unfold StoreM.lift
  cases x with
  | ok a => exact ⟨hok a rfl, hst⟩
  | error e => exact ⟨herror e rfl, hst⟩

theorem setRegister {r : UInt8} {c : Cell}
    (h : ∀ st, I st → I { st with registers := st.registers.store r c }) :
    Keeps I F (StoreM.setRegister r c) fun _ => True :=
  fun st hst => ⟨trivial, h st hst⟩

end Keeps

end CellMachine
