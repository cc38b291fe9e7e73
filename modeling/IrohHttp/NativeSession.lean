/-
What the two kinds of session of `IrohHttpPlugin.kt` share: their states, a command's `InvokeOnce`,
the calls of `stop` that wait for the platform, and the delay between two attempts to stop.
-/
import IrohHttp.NativeActors
import Mathlib.Data.List.Range

set_option autoImplicit false

namespace IrohHttp.NativeSession

open IrohHttp.NativeActors

/-- The states of a session of the plugin. -/
inductive NativeSessionState
  | STARTING
  | ACTIVE
  | CLOSED
  | FAILED
  deriving DecidableEq, Repr

/-- `pollValue`, as `MobileSessionStatus` reads it. -/
def NativeSessionState.poll_value : NativeSessionState → MobileSessionStatus
  | .STARTING => .Active
  | .ACTIVE => .Active
  | .CLOSED => .Closed
  | .FAILED => .Failed

/-- `InvokeOnce`: how the command has been completed, if it has. -/
structure InvokeOnce where
  completed : Option (Except String Unit) := none

namespace InvokeOnce

/-- `InvokeOnce.resolve`: the first answer counts. -/
def resolve (invoke : InvokeOnce) : InvokeOnce := ⟨invoke.completed.or (some (.ok ()))⟩

/-- `InvokeOnce.reject`: the first answer counts. -/
def reject (invoke : InvokeOnce) (message : String) : InvokeOnce :=
  ⟨invoke.completed.or (some (.error message))⟩

@[simp] theorem resolve_of_none {invoke : InvokeOnce} (h : invoke.completed = none) :
    invoke.resolve = ⟨some (.ok ())⟩ := by
  rw [resolve, h, Option.none_or]

@[simp] theorem reject_completed (invoke : InvokeOnce) (message : String) :
    (invoke.reject message).completed ≠ none := by
  rcases invoke with ⟨_ | result⟩
  · exact Option.some_ne_none _
  · exact Option.some_ne_none _

end InvokeOnce

/-! ## Calls that wait -/

/-- Calls of a command that wait for the platform, as those in `pendingStops`. They are numbered, and
`answered` has those that were completed, each with its error. -/
structure PendingCalls where
  pending : List ℕ := []
  answered : List (ℕ × Option String) := []
  calls : ℕ := 0

namespace PendingCalls

/-- The next call waits. -/
def add (p : PendingCalls) : PendingCalls :=
  { p with pending := p.pending ++ [p.calls], calls := p.calls + 1 }

/-- The next call is completed at once. -/
def answer_now (p : PendingCalls) (error : Option String) : PendingCalls :=
  { p with answered := p.answered ++ [(p.calls, error)], calls := p.calls + 1 }

/-- Every call that waits is completed. -/
def finish (p : PendingCalls) (error : Option String) : PendingCalls :=
  { p with pending := [], answered := p.answered ++ p.pending.map fun call => (call, error) }

/-- Each call is where it was made to wait or completed, once. -/
def Accounted (p : PendingCalls) : Prop :=
  (p.pending ++ p.answered.map Prod.fst).Perm (List.range p.calls)

@[simp] theorem finish_pending (p : PendingCalls) (error : Option String) :
    (p.finish error).pending = [] := rfl

@[simp] theorem answer_now_pending (p : PendingCalls) (error : Option String) :
    (p.answer_now error).pending = p.pending := rfl

/-- Without calls that wait there is nothing to answer. -/
theorem finish_nil {p : PendingCalls} (h : p.pending = []) (error : Option String) :
    p.finish error = p := by
  rcases p with ⟨pending, answered, calls⟩
  obtain rfl : pending = [] := h
  rw [finish, List.map_nil, List.append_nil]

/-- A new call waits. -/
theorem Accounted.add {p : PendingCalls} (h : p.Accounted) : p.add.Accounted := by
  have hrange : List.range p.add.calls = List.range p.calls ++ [p.calls] := List.range_succ
  rw [Accounted, hrange]
  have hlast : (p.pending ++ [p.calls] ++ p.answered.map Prod.fst).Perm
      (p.pending ++ p.answered.map Prod.fst ++ [p.calls]) := by
    rw [List.append_assoc, List.append_assoc]
    exact List.Perm.append_left _ List.perm_append_comm
  exact hlast.trans (List.Perm.append_right _ h)

/-- A call that is answered at once does not wait. -/
theorem Accounted.answer_now {p : PendingCalls} (h : p.Accounted) (error : Option String) :
    (p.answer_now error).Accounted := by
  have hrange : List.range (p.answer_now error).calls = List.range p.calls ++ [p.calls] :=
    List.range_succ
  have hanswered : (p.answer_now error).answered.map Prod.fst
      = p.answered.map Prod.fst ++ [p.calls] := by
    rw [PendingCalls.answer_now, List.map_append]
    rfl
  rw [Accounted, hrange, hanswered, ← List.append_assoc]
  exact List.Perm.append_right _ h

/-- **All that wait are answered**, each once. -/
theorem Accounted.finish {p : PendingCalls} (h : p.Accounted) (error : Option String) :
    (p.finish error).Accounted := by
  have hmap : (p.pending.map fun call => (call, error)).map Prod.fst = p.pending := by
    rw [List.map_map]
    exact List.map_id _
  have hanswered : (p.finish error).answered.map Prod.fst
      = p.answered.map Prod.fst ++ p.pending := by
    rw [PendingCalls.finish, List.map_append, hmap]
  rw [Accounted, hanswered, finish_pending, List.nil_append]
  exact List.perm_append_comm.trans h

end PendingCalls

/-! ## Retries -/

/-- The first delay before a stop is tried again. -/
def INITIAL_STOP_RETRY_DELAY_MILLIS : ℕ := 25

/-- The longest one. -/
def MAX_STOP_RETRY_DELAY_MILLIS : ℕ := 1000

/-- The delay doubles, up to its limit. -/
def next_delay (delay_millis : ℕ) : ℕ := min (delay_millis * 2) MAX_STOP_RETRY_DELAY_MILLIS

/-- Delays grow up to the longest one. -/
theorem next_delay_in_range {delay_millis : ℕ} (h : INITIAL_STOP_RETRY_DELAY_MILLIS ≤ delay_millis) :
    INITIAL_STOP_RETRY_DELAY_MILLIS ≤ next_delay delay_millis ∧
      next_delay delay_millis ≤ MAX_STOP_RETRY_DELAY_MILLIS := by
  unfold next_delay INITIAL_STOP_RETRY_DELAY_MILLIS MAX_STOP_RETRY_DELAY_MILLIS at *
  omega

/-- `repeat`: what one attempt after another throws, until one is accepted. `thrown n` is for the
attempt with `n` still behind it. -/
def attempts (thrown : ℕ → Option String) : ℕ → Option String → Option String
  | 0, last_error => last_error
  | n + 1, _ =>
    match thrown n with
    | none => none
    | some error => attempts thrown n (some error)

end IrohHttp.NativeSession
