import CellMachine.Proofs.Action
import Mathlib.Data.List.Forall2

/-!
# CellMachine.Proofs.Trace

Calls made one after another. `trace` is what they come to, call by call: every
answer or fault with the state that it leaves, from which the next call goes on.

Two traces are compared call by call. `Alike R` asks for the same answer or the
same fault, in states that `R` relates; these may be states of different kinds,
so that an implementation can be compared with its specification.
`forall₂_trace` is the one induction over traces.
-/

namespace CellMachine

variable {ε σ τ α β κ : Type}

/-- The same answer or the same fault, in states that `R` relates. -/
inductive Alike (R : σ → τ → Prop) : EStateM.Result ε σ α → EStateM.Result ε τ α → Prop
  | ok (a : α) {s : σ} {t : τ} (h : R s t) : Alike R (.ok a s) (.ok a t)
  | error (e : ε) {s : σ} {t : τ} (h : R s t) : Alike R (.error e s) (.error e t)

/-- What calls come to that are made one after another, also past faults. -/
def trace (act : κ → EStateM ε σ α) : List κ → σ → List (EStateM.Result ε σ α)
  | [], _ => []
  | c :: cs, s => act c s :: trace act cs (finalState (act c s))

namespace Alike

variable {R : σ → τ → Prop}

theorem final {r : EStateM.Result ε σ α} {r' : EStateM.Result ε τ α} (h : Alike R r r') :
    R (finalState r) (finalState r') := by
  cases h with
  | ok a h => exact h
  | error e h => exact h

theorem imp {R' : σ → τ → Prop} (himp : ∀ s t, R s t → R' s t) {r : EStateM.Result ε σ α}
    {r' : EStateM.Result ε τ α} (h : Alike R r r') : Alike R' r r' := by
  cases h with
  | ok a h => exact .ok a (himp _ _ h)
  | error e h => exact .error e (himp _ _ h)

/-- Chains of actions are alike if their parts are. -/
theorem bind {x : EStateM ε σ α} {y : EStateM ε τ α} {f : α → EStateM ε σ β}
    {g : α → EStateM ε τ β} {s : σ} {t : τ} (hx : Alike R (x s) (y t))
    (hf : ∀ a s' t', R s' t' → Alike R (f a s') (g a t')) :
    Alike R ((x >>= f) s) ((y >>= g) t) := by
  generalize hr : x s = r at hx
  generalize hr' : y t = r' at hx
  cases hx with
  | ok a h =>
      rw [bind_run_of_ok hr, bind_run_of_ok hr']
      exact hf a _ _ h
  | error e h =>
      rw [bind_run_of_error hr, bind_run_of_error hr']
      exact .error e h

/-- Answers stay alike when something is done to them. -/
theorem map {x : EStateM ε σ α} {y : EStateM ε τ α} {s : σ} {t : τ} (f : α → β)
    (hx : Alike R (x s) (y t)) : Alike R ((do return f (← x)) s) ((do return f (← y)) t) :=
  .bind hx fun a _ _ h => .ok (f a) h

end Alike

/-- **Traces are alike** if the single calls are, where each call need only be allowed in the
state in which it is made. -/
theorem forall₂_trace {R : σ → τ → Prop} {P : σ → κ → Prop} {act : κ → EStateM ε σ α}
    {act' : κ → EStateM ε τ α}
    (hstep : ∀ c s t, R s t → P s c → Alike R (act c s) (act' c t))
    (cs : List κ) {s : σ} {t : τ} (hs : R s t)
    (hP : ∀ (i : Nat) (hi : i < cs.length),
      P ((cs.take i).foldl (fun s c => finalState (act c s)) s) cs[i]) :
    List.Forall₂ (Alike R) (trace act cs s) (trace act' cs t) := by
  induction cs generalizing s t with
  | nil => exact .nil
  | cons c cs ih =>
      have hc := hstep c s t hs (hP 0 (Nat.zero_lt_succ _))
      exact .cons hc (ih hc.final fun i hi => hP (i + 1) (Nat.succ_lt_succ hi))

end CellMachine
