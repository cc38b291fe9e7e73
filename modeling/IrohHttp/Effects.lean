/-
Sequential programs that wait on an environment.

An `async` body of the source is a straight-line program between its `await`s:
it hands the environment an effect, gets an answer, and goes on. `Prog` is such
a program as a tree, with one cell of local state that a caller can still read
when the program is abandoned; `exec` runs it against an oracle for the answers,
and may abandon it at any of its waits, which is what a timeout around the
program does. `Runs` is the same as a relation, and `runs_bind` is the rule
that takes a sequence apart.

The file names no particular system.
-/
import Mathlib.Data.List.Basic

set_option autoImplicit false

namespace Effects

universe u v w x

/-- A program over the effects `E`, answered in `A`, with a cell of type `σ`. -/
inductive Prog (σ : Type u) (E : Type v) (A : E → Type w) (ρ : Type x) : Type (max u v w x)
  | ret (r : ρ)
  | read (k : σ → Prog σ E A ρ)
  | write (s : σ) (k : Prog σ E A ρ)
  | await (e : E) (k : A e → Prog σ E A ρ)

/-- An effect and its answer, or no answer if the program was abandoned there. -/
abbrev Event {E : Type v} (A : E → Type w) := (e : E) × Option (A e)

namespace Prog

variable {σ : Type u} {E : Type v} {A : E → Type w} {ρ τ : Type x}

/-- One program after the other. -/
def bind : Prog σ E A ρ → (ρ → Prog σ E A τ) → Prog σ E A τ
  | ret r, f => f r
  | read k, f => read fun s => (k s).bind f
  | write s k, f => write s (k.bind f)
  | await e k, f => await e fun a => (k a).bind f

instance : Monad (Prog σ E A) where
  pure := ret
  bind := bind

/-- Wait for the environment's answer. -/
def wait (e : E) : Prog σ E A (A e) := await e ret

/-- Read the cell. -/
def load : Prog σ E A σ := read ret

/-- Write the cell. -/
def store (s : σ) : Prog σ E A PUnit := write s (ret ⟨⟩)

/-! ## Execution -/

/-- Run a program from a cell's value and a history. The oracle answers from
what happened so far. With `waits := some n` the program is abandoned at its
wait number `n`, which it has begun; it then has no result. -/
def exec (oracle : List (Event A) → (e : E) → A e) :
    Prog σ E A ρ → Option ℕ → σ → List (Event A) → List (Event A) × σ × Option ρ
  | ret r, _, s, h => (h, s, some r)
  | read k, waits, s, h => exec oracle (k s) waits s h
  | write s k, waits, _, h => exec oracle k waits s h
  | await e _, some 0, s, h => (h ++ [⟨e, none⟩], s, none)
  | await e k, some (n + 1), s, h =>
    exec oracle (k (oracle h e)) (some n) s (h ++ [⟨e, some (oracle h e)⟩])
  | await e k, none, s, h =>
    exec oracle (k (oracle h e)) none s (h ++ [⟨e, some (oracle h e)⟩])

/-- A program that is never abandoned has a result. -/
theorem exec_none_isSome (oracle : List (Event A) → (e : E) → A e) (p : Prog σ E A ρ) (s : σ)
    (h : List (Event A)) : (exec oracle p none s h).2.2.isSome := by
  induction p generalizing s h with
  | ret r => rfl
  | read k ih => exact ih s s h
  | write s' k ih => exact ih s' h
  | await e k ih => exact ih (oracle h e) s _

/-- The runs of a program: the cell before, the events, the cell after, and the
result unless it was abandoned. -/
inductive Runs : Prog σ E A ρ → σ → List (Event A) → σ → Option ρ → Prop
  | ret (r : ρ) (s : σ) : Runs (ret r) s [] s (some r)
  | read {k : σ → Prog σ E A ρ} {s s' : σ} {tr : List (Event A)} {r : Option ρ}
    (h : Runs (k s) s tr s' r) : Runs (read k) s tr s' r
  | write {k : Prog σ E A ρ} {s s' t : σ} {tr : List (Event A)} {r : Option ρ}
    (h : Runs k t tr s' r) : Runs (write t k) s tr s' r
  | await {e : E} {k : A e → Prog σ E A ρ} {s s' : σ} {tr : List (Event A)} {r : Option ρ}
    (a : A e) (h : Runs (k a) s tr s' r) : Runs (await e k) s (⟨e, some a⟩ :: tr) s' r
  | abandon (e : E) (k : A e → Prog σ E A ρ) (s : σ) : Runs (await e k) s [⟨e, none⟩] s none

/-- What `exec` does is a run. -/
theorem runs_exec (oracle : List (Event A) → (e : E) → A e) (p : Prog σ E A ρ) (waits : Option ℕ)
    (s : σ) (h : List (Event A)) :
    ∃ tr, (exec oracle p waits s h).1 = h ++ tr ∧
      Runs p s tr (exec oracle p waits s h).2.1 (exec oracle p waits s h).2.2 := by
  induction p generalizing waits s h with
  | ret r => exact ⟨[], (List.append_nil h).symm, .ret r s⟩
  | read k ih =>
      obtain ⟨tr, htr, hrun⟩ := ih s waits s h
      exact ⟨tr, htr, .read hrun⟩
  | write t k ih =>
      obtain ⟨tr, htr, hrun⟩ := ih waits t h
      exact ⟨tr, htr, .write hrun⟩
  | await e k ih =>
      -- no timer, the timer fires here, or it fires later
      rcases waits with _ | (_ | n)
      · obtain ⟨tr, htr, hrun⟩ := ih (oracle h e) none s (h ++ [⟨e, some (oracle h e)⟩])
        refine ⟨⟨e, some (oracle h e)⟩ :: tr, ?_, .await (oracle h e) hrun⟩
        rw [exec, htr, List.append_assoc, List.singleton_append]
      · exact ⟨[⟨e, none⟩], rfl, .abandon e k s⟩
      · obtain ⟨tr, htr, hrun⟩ := ih (oracle h e) (some n) s (h ++ [⟨e, some (oracle h e)⟩])
        refine ⟨⟨e, some (oracle h e)⟩ :: tr, ?_, .await (oracle h e) hrun⟩
        rw [exec, htr, List.append_assoc, List.singleton_append]

/-! ## Taking a run apart -/

variable {s s' : σ} {tr : List (Event A)}

theorem runs_pure {r : ρ} {o : Option ρ} (h : Runs (Pure.pure r : Prog σ E A ρ) s tr s' o) :
    tr = [] ∧ s' = s ∧ o = some r := by
  cases h
  exact ⟨rfl, rfl, rfl⟩

theorem runs_load_bind {τ : Type u} {f : σ → Prog σ E A τ} {o : Option τ}
    (h : Runs ((load : Prog σ E A σ).bind f) s tr s' o) : Runs (f s) s tr s' o := by
  cases h with
  | read h => exact h

theorem runs_store_bind {t : σ} {f : PUnit → Prog σ E A τ} {o : Option τ}
    (h : Runs ((store t : Prog σ E A PUnit).bind f) s tr s' o) : Runs (f ⟨⟩) t tr s' o := by
  cases h with
  | write h => exact h

/-- A wait is answered, or the program is abandoned there. -/
theorem runs_wait_bind {τ : Type w} {e : E} {f : A e → Prog σ E A τ} {o : Option τ}
    (h : Runs ((wait e : Prog σ E A (A e)).bind f) s tr s' o) :
    (tr = [⟨e, none⟩] ∧ o = none) ∨
      ∃ a rest, tr = ⟨e, some a⟩ :: rest ∧ Runs (f a) s rest s' o := by
  cases h with
  | await a h => exact .inr ⟨a, _, rfl, h⟩
  | abandon => exact .inl ⟨rfl, rfl⟩

/-- **The sequence rule.** A run of `p` and then `f` is a run of `p` that was
abandoned, or one with a result followed by a run of `f` on it. -/
theorem runs_bind {p : Prog σ E A ρ} {f : ρ → Prog σ E A τ} {o : Option τ}
    (h : Runs (p >>= f) s tr s' o) :
    (o = none ∧ Runs p s tr s' none) ∨
      ∃ tr₁ tr₂ t r, tr = tr₁ ++ tr₂ ∧ Runs p s tr₁ t (some r) ∧ Runs (f r) t tr₂ s' o := by
  induction p generalizing s tr with
  | ret r => exact .inr ⟨[], tr, s, r, rfl, .ret r s, h⟩
  | read k ih =>
      cases h with
      | read h =>
          rcases ih s h with ⟨ho, hp⟩ | ⟨tr₁, tr₂, t, r, htr, hp, hf⟩
          · exact .inl ⟨ho, .read hp⟩
          · exact .inr ⟨tr₁, tr₂, t, r, htr, .read hp, hf⟩
  | write t k ih =>
      cases h with
      | write h =>
          rcases ih h with ⟨ho, hp⟩ | ⟨tr₁, tr₂, t', r, htr, hp, hf⟩
          · exact .inl ⟨ho, .write hp⟩
          · exact .inr ⟨tr₁, tr₂, t', r, htr, .write hp, hf⟩
  | await e k ih =>
      cases h with
      | await a h =>
          rcases ih a h with ⟨ho, hp⟩ | ⟨tr₁, tr₂, t, r, htr, hp, hf⟩
          · exact .inl ⟨ho, .await a hp⟩
          · refine .inr ⟨⟨e, some a⟩ :: tr₁, tr₂, t, r, ?_, .await a hp, hf⟩
            rw [htr, List.cons_append]
      | abandon => exact .inl ⟨rfl, .abandon e k _⟩

end Prog

end Effects
