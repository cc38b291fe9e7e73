/-
`withLifecycle` of `guest-js/lifecycle.ts`: a task that is started, stopped, restarted and
restored from several places.

Operations are queued and run one after the other. Cancellation does not wait: `stop`,
`restart` and `close` advance the generation and abort the current controller when they
are called, also from inside a callback. One step is one call of the handle, or what an
operation does up to its next callback or suspension; the outcome of a callback is a step
of its own, so that calls can come in between.

A resource with a cleanup is numbered by its run. Between the end of a run and its
cleanup the number is in `cleanup`, and nothing else may happen to it: a callback or a
storage write that throws at that point leaves it there.
-/
import IrohHttp.Machine
import IrohHttp.Parties

set_option autoImplicit false

open Machine

namespace IrohHttp.WithLifecycle

open Parties

/-! ## The task -/

/-- `LifecycleState`. -/
inductive LifecycleState
  | stopped
  | starting
  | running
  | recovering
  | stopping
  | error
  deriving DecidableEq

/-- `LifecycleStartReason`. -/
inductive LifecycleStartReason
  | start
  | restore
  | restart
  | visible
  deriving DecidableEq

/-- The operations that run the cleanup. -/
inductive Control
  | restart (generation : ℕ)
  | stop
  | close
  deriving DecidableEq

/-- What the operation queue holds. -/
inductive Operation
  | start (reason : LifecycleStartReason) (generation : ℕ)
  | restore (generation : ℕ)
  | control (control : Control)
  deriving DecidableEq

/-- Where the current operation is: in `getItem`, in the callback for `starting` or
`recovering` (and whether that has called `close`), in `run`, in the cleanup of an aborted
run, in `setItem`, in the callback for `running`, in those for an error, in `removeItem`,
in the callback for `stopping`, in the cleanup, after it, in the callback for `stopped`. -/
inductive Point
  | restoring (generation : ℕ)
  | starting (closed : Bool)
  | running (run : ℕ)
  | discarding (run : ℕ)
  | persisting (run : ℕ)
  | announcing (run : ℕ)
  | failing
  | clearing (control : Control)
  | stopping (control : Control)
  | cleaning (control : Control)
  | cleaned (control : Control)
  | stopped (control : Control)
  deriving DecidableEq

/-- What a run of the callback came to: it still runs, it returned, with a cleanup or without, or it
threw. -/
inductive RunResult
  | active
  | returned (cleanup : Bool)
  | threw
  deriving DecidableEq

/-- A call of `run` with its controller, and how often the cleanup of what it returned has
been called. -/
structure Run where
  aborted : Bool := false
  result : RunResult := .active
  cleanups : ℕ := 0
  deriving DecidableEq

/-- `controller` and `cleanup` are numbers of runs. The last three fields are records: the
calls of `close`, the runs begun after one, and the runs there were when a `stop` or a
`close` last settled. -/
structure Lifecycle where
  state : LifecycleState := .stopped
  controller : Option ℕ := none
  cleanup : Option ℕ := none
  disposed : Bool := false
  cancellation_generation : ℕ := 0
  operations : List Operation := []
  point : Option Point := none
  runs : List Run := []
  close_called : Bool := false
  late_runs : ℕ := 0
  stopped_at : ℕ := 0

/-- A call of the object, an event of the page, or the next step of the operation that runs. -/
inductive Label
  | start
  | restore
  | restart
  | stop
  | close
  | visible
  | begin_operation
  | get_item (running : Bool)
  | run_returned (cleanup : Bool)
  | run_threw
  | resume
  | returned
  | threw

namespace Lifecycle

/-- An operation joins the queue. -/
def enqueue (s : Lifecycle) (operation : Operation) : Lifecycle :=
  { s with operations := s.operations ++ [operation] }

/-- The controller of a run is aborted. -/
def abort (s : Lifecycle) : Option ℕ → Lifecycle
  | some run => { s with runs := s.runs.modify run fun r => { r with aborted := true } }
  | none => s

/-- A control call: the cancellation generation rises, and the run it can reach is aborted. -/
def abort_current (s : Lifecycle) : Lifecycle :=
  { s with cancellation_generation := s.cancellation_generation + 1 }.abort s.controller

/-- The operation is over, with or without an error. -/
def settle (s : Lifecycle) : Lifecycle := { s with point := none }

/-- What a control operation leaves behind when it is done. -/
def settle_control (s : Lifecycle) : Control → Lifecycle
  | .restart _ => s.settle
  | .stop => { s with point := none, stopped_at := s.runs.length }
  | .close => { s with point := none, stopped_at := s.runs.length }

/-- `startInternal`, up to the callback for the new state. -/
def start_internal (s : Lifecycle) (reason : LifecycleStartReason) (expected_generation : ℕ) :
    Lifecycle :=
  if s.disposed then s.settle
  -- cancelled between the call and its turn in the queue
  else if expected_generation ≠ s.cancellation_generation then s.settle
  else if s.state = .running ∨ s.state = .starting ∨ s.state = .recovering then s.settle
  else { s with
    state := if reason = .start then .starting else .recovering
    point := some (.starting false) }

/-- The new controller, and the call of `run`. -/
def begin_run (s : Lifecycle) : Lifecycle :=
  { s with
    controller := some s.runs.length
    point := some (.running s.runs.length)
    runs := s.runs ++ [{}]
    late_runs := if s.close_called then s.late_runs + 1 else s.late_runs }

/-- The `catch` block of `startInternal`. -/
def fail (s : Lifecycle) (run : ℕ) : Lifecycle :=
  { s.abort (some run) with
    controller := if s.controller = some run then none else s.controller
    state := .error
    point := some .failing }

/-- `run` has returned: the aborted resource goes at once, any other is kept. -/
def keep (s : Lifecycle) (run : ℕ) (r : Run) (cleanup : Bool) : Lifecycle :=
  if r.aborted then
    { s with
      runs := if cleanup then s.runs.set run { r with cleanups := r.cleanups + 1 } else s.runs
      point := some (.discarding run) }
  else { s with cleanup := if cleanup then some run else none, point := some (.persisting run) }

/-- `runCleanup`, up to its end or its cleanup. -/
def run_cleanup (s : Lifecycle) (control : Control) : Lifecycle :=
  let aborted := s.abort s.controller
  match s.cleanup with
  | some run =>
    { aborted with
      runs := aborted.runs.modify run fun r => { r with cleanups := r.cleanups + 1 }
      cleanup := none
      controller := none
      point := some (.cleaning control) }
  | none => { aborted with controller := none, point := some (.cleaned control) }

/-- After `clearPersisted`. -/
def cleared (s : Lifecycle) (control : Control) : Lifecycle :=
  if s.state = .stopped then
    if control = .close then { s with state := .stopped, point := some (.stopped control) }
    else s.settle_control control
  else { s with state := .stopping, point := some (.stopping control) }

/-- The end of `runCleanup`. -/
def resume_control (s : Lifecycle) : Control → Lifecycle
  | .restart generation => s.start_internal .restart generation
  | control => { s with state := .stopped, point := some (.stopped control) }

/-- The head of the queue begins. -/
def begin_operation (s : Lifecycle) : Operation → Lifecycle
  | .start reason generation => s.start_internal reason generation
  | .restore generation => { s with point := some (.restoring generation) }
  | .control (.restart generation) =>
    { s with state := .stopping, point := some (.stopping (.restart generation)) }
  | .control .stop => { s with point := some (.clearing .stop) }
  | .control .close => { s with disposed := true, point := some (.clearing .close) }

/-- A callback, a storage write or a cleanup has returned. -/
def returned (s : Lifecycle) : Point → Option Lifecycle
  -- the generation is not looked at a second time
  | .starting _ => some s.begin_run
  | .discarding _ => some s.settle
  | .persisting run => some { s with state := .running, point := some (.announcing run) }
  | .announcing _ => some s.settle
  | .failing => some s.settle
  | .clearing control => some (s.cleared control)
  | .stopping control => some (s.run_cleanup control)
  | .cleaning control => some { s with point := some (.cleaned control) }
  | .stopped control => some (s.settle_control control)
  | _ => none

/-- It has thrown. -/
def threw (s : Lifecycle) : Point → Option Lifecycle
  | .restoring _ => some s.settle
  | .starting _ => some s.settle
  | .discarding run => some (s.fail run)
  | .persisting run => some (s.fail run)
  | .announcing run => some (s.fail run)
  | .failing => some s.settle
  -- the controls reject from here on, with controller and cleanup as they are
  | .clearing control => some (s.settle_control control)
  | .stopping control => some (s.settle_control control)
  | .cleaning control => some (s.settle_control control)
  | .stopped control => some (s.settle_control control)
  | _ => none

/-- What follows an `await` that is over. -/
def resume (s : Lifecycle) : Point → Option Lifecycle
  | .running run =>
    (s.runs[run]?).bind fun r =>
      match r.result with
      | .active => none
      | .returned cleanup => some (s.keep run r cleanup)
      | .threw => some (s.fail run)
  | .cleaned control => some (s.resume_control control)
  | _ => none

/-- The promise of `run` settles. -/
def run_settled (s : Lifecycle) (result : RunResult) : Point → Option Lifecycle
  | .running run =>
    (s.runs[run]?).bind fun r =>
      if r.result = .active then some { s with runs := s.runs.set run { r with result } } else none
  | _ => none

/-- `close` inside the callback for `starting`. -/
def mark_closed : Option Point → Option Point
  | some (.starting _) => some (.starting true)
  | point => point

/-- One step. What the page or the callback decides is in the label. -/
def step (s : Lifecycle) : Label → Option Lifecycle
  | .start => some (s.enqueue (.start .start s.cancellation_generation))
  | .restore => some (s.enqueue (.restore s.cancellation_generation))
  | .restart =>
    let s := s.abort_current
    some (s.enqueue (.control (.restart s.cancellation_generation)))
  | .stop => some (s.abort_current.enqueue (.control .stop))
  | .close =>
    some { s.abort_current.enqueue (.control .close) with
      close_called := true
      point := mark_closed s.point }
  -- an event that the handler lets through
  | .visible =>
    if s.disposed then none else some (s.enqueue (.start .visible s.cancellation_generation))
  | .begin_operation =>
    match s.point, s.operations with
    | none, operation :: operations => some ({ s with operations }.begin_operation operation)
    | _, _ => none
  | .get_item running =>
    match s.point with
    | some (.restoring generation) =>
      some (if running then s.start_internal .restore generation else s.settle)
    | _ => none
  | .run_returned cleanup => s.point.bind (s.run_settled (.returned cleanup))
  | .run_threw => s.point.bind (s.run_settled .threw)
  | .resume => s.point.bind s.resume
  | .returned => s.point.bind s.returned
  | .threw => s.point.bind s.threw

end Lifecycle

/-! ## Runs neither overlap nor leak -/

/-- The callback still runs. -/
def Run.active (r : Run) : Bool := r.result = .active

/-- The run returned a cleanup. -/
def Run.has_cleanup (r : Run) : Bool := r.result = .returned true

/-- No overlap and no leak, in a state of a run. -/
structure Clean (s : Lifecycle) : Prop where
  one_run : s.runs.countP Run.active ≤ 1
  at_most_once : ∀ r ∈ s.runs, r.cleanups ≤ 1
  before_next : ∀ (i : ℕ) (r : Run), s.runs[i]? = some r → r.has_cleanup = true →
    i + 1 < s.runs.length → r.cleanups = 1
  before_stop : ∀ (i : ℕ) (r : Run), s.runs[i]? = some r → r.has_cleanup = true →
    i < s.stopped_at → r.cleanups = 1
  no_late_run : s.late_runs = 0

/-- The points where a throw would leave the cleanup behind. -/
def Point.keeps_cleanup : Point → Bool
  | .persisting _ => true
  | .announcing _ => true
  | .clearing _ => true
  | .stopping _ => true
  | _ => false

/-- While a cleanup is stored, no storage write and no state callback throws; and no callback
for `starting` or `recovering` calls `close` and returns. -/
def Meets (s : Lifecycle) : Label → Prop
  | .threw => s.point.any Point.keeps_cleanup = true → s.cleanup = none
  | .returned => s.point ≠ some (.starting true)
  | _ => True

instance (s : Lifecycle) (a : Label) : Decidable (Meets s a) :=
  match a with
  | .threw => inferInstanceAs (Decidable (_ → _))
  | .returned => inferInstanceAs (Decidable (¬ _))
  | .start => .isTrue trivial
  | .restore => .isTrue trivial
  | .restart => .isTrue trivial
  | .stop => .isTrue trivial
  | .close => .isTrue trivial
  | .visible => .isTrue trivial
  | .begin_operation => .isTrue trivial
  | .get_item _ => .isTrue trivial
  | .run_returned _ => .isTrue trivial
  | .run_threw => .isTrue trivial
  | .resume => .isTrue trivial

/-! ## Runs and their cleanups -/

/-- A resource whose cleanup is still to come: stored, or just returned. -/
def holds (point : Option Point) (cleanup : Option ℕ) (run : ℕ) : Prop :=
  cleanup = some run ∨ point = some (.running run)

instance (point : Option Point) (cleanup : Option ℕ) (run : ℕ) :
    Decidable (holds point cleanup run) := inferInstanceAs (Decidable (_ ∨ _))

/-- The invariant of the runs: at most one is active, and a cleanup is called exactly once unless it
is still held. -/
structure Runs (point : Option Point) (cleanup : Option ℕ) (runs : List Run) (stopped_at : ℕ) :
    Prop where
  active : ∀ (i : ℕ) (r : Run), runs[i]? = some r → r.result = .active → point = some (.running i)
  cleanups : ∀ (i : ℕ) (r : Run), runs[i]? = some r →
    r.cleanups = if r.result = .returned true ∧ ¬ holds point cleanup i then 1 else 0
  last : ∀ i, holds point cleanup i → i + 1 = runs.length ∧ stopped_at ≤ i
  stored : ∀ i, cleanup = some i → ∃ r, runs[i]? = some r ∧ r.result = .returned true
  stopped : stopped_at ≤ runs.length

section Runs

variable {point : Option Point} {cleanup : Option ℕ} {runs : List Run} {stopped_at : ℕ}

/-- Outside of `run`, with nothing stored, there is nothing to clean up. -/
theorem not_holds_none (hpoint : ∀ i, point ≠ some (.running i)) (run : ℕ) :
    ¬ holds point none run := by
  rintro (hno | hno)
  · cases hno
  · exact hpoint run hno

/-- One of the points outside of `run`. -/
theorem Runs.move (h : Runs point cleanup runs stopped_at) (hpoint : ∀ i, point ≠ some (.running i))
    {point' : Option Point} (hpoint' : ∀ i, point' ≠ some (.running i)) :
    Runs point' cleanup runs stopped_at := by
  have hholds : ∀ i, holds point' cleanup i ↔ holds point cleanup i := by
    intro i
    simp only [holds, hpoint i, hpoint' i]
  refine ⟨?_, ?_, ?_, h.stored, h.stopped⟩
  · intro i r hr hactive
    exact absurd (h.active i r hr hactive) (hpoint i)
  · intro i r hr
    simp only [hholds]
    exact h.cleanups i r hr
  · intro i hi
    exact h.last i ((hholds i).mp hi)

/-- A change of one run that leaves its result and its cleanups. -/
theorem Runs.abort (h : Runs point cleanup runs stopped_at) (run : ℕ) :
    Runs point cleanup (runs.modify run fun r => { r with aborted := true }) stopped_at := by
  have hback : ∀ (i : ℕ) (r : Run),
      (runs.modify run fun r => { r with aborted := true })[i]? = some r →
        ∃ r', runs[i]? = some r' ∧ r'.result = r.result ∧ r'.cleanups = r.cleanups := by
    intro i r hr
    rcases getElem?_modify_cases hr with ⟨-, r', hr', rfl⟩ | ⟨-, hr⟩
    · exact ⟨r', hr', rfl, rfl⟩
    · exact ⟨r, hr, rfl, rfl⟩
  refine ⟨?_, ?_, ?_, ?_, ?_⟩
  · intro i r hr hactive
    obtain ⟨r', hr', hresult, -⟩ := hback i r hr
    exact h.active i r' hr' (hresult.trans hactive)
  · intro i r hr
    obtain ⟨r', hr', hresult, hcleanups⟩ := hback i r hr
    rw [← hcleanups, ← hresult]
    exact h.cleanups i r' hr'
  · intro i hi
    rw [List.length_modify]
    exact h.last i hi
  · intro i hi
    obtain ⟨r, hr, hresult⟩ := h.stored i hi
    refine ⟨if run = i then { r with aborted := true } else r, ?_, ?_⟩
    · rw [List.getElem?_modify, hr]
      split
      · rfl
      · rfl
    · split
      · exact hresult
      · exact hresult
  · rw [List.length_modify]
    exact h.stopped

/-- A run begins. -/
theorem Runs.begin_run (h : Runs point none runs stopped_at)
    (hpoint : ∀ i, point ≠ some (.running i)) :
    Runs (some (.running runs.length)) none (runs ++ [({} : Run)]) stopped_at := by
  refine ⟨?_, ?_, ?_, ?_, ?_⟩
  · intro i r hr hactive
    rcases getElem?_concat_cases hr with ⟨rfl, -⟩ | hr
    · rfl
    · exact absurd (h.active i r hr hactive) (hpoint i)
  · intro i r hr
    rcases getElem?_concat_cases hr with ⟨rfl, rfl⟩ | hr
    · rfl
    · have hlt := lt_of_getElem? hr
      have hne : runs.length ≠ i := by omega
      rw [h.cleanups i r hr]
      simp only [holds, hpoint i, Option.some.injEq, Point.running.injEq, hne, reduceCtorEq]
  · intro i hi
    rcases hi with hno | hi
    · cases hno
    · rw [Option.some.injEq, Point.running.injEq] at hi
      rw [List.length_append, List.length_singleton, ← hi]
      exact ⟨rfl, h.stopped⟩
  · intro i hno
    cases hno
  · rw [List.length_append]
    exact Nat.le_add_right_of_le h.stopped

/-- A run settles. -/
theorem Runs.run_settled {run : ℕ} (h : Runs (some (.running run)) none runs stopped_at) {r : Run}
    (hr : runs[run]? = some r) (hactive : r.result = .active) (result : RunResult) :
    Runs (some (.running run)) none (runs.set run { r with result }) stopped_at := by
  have hzero : r.cleanups = 0 := by
    rw [h.cleanups run r hr, hactive]
    rfl
  refine ⟨?_, ?_, ?_, ?_, ?_⟩
  · intro i r' hr' hactive'
    rcases getElem?_set_cases hr' with ⟨rfl, -⟩ | ⟨-, hr'⟩
    · rfl
    · exact h.active i r' hr' hactive'
  · intro i r' hr'
    rcases getElem?_set_cases hr' with ⟨rfl, rfl⟩ | ⟨-, hr'⟩
    · rw [if_neg (fun hno => hno.2 (Or.inr rfl))]
      exact hzero
    · exact h.cleanups i r' hr'
  · intro i hi
    rw [List.length_set]
    exact h.last i hi
  · intro i hno
    cases hno
  · rw [List.length_set]
    exact h.stopped

/-- The resource is stored. -/
theorem Runs.store {run : ℕ} (h : Runs (some (.running run)) none runs stopped_at) {r : Run}
    (hr : runs[run]? = some r) (hresult : r.result = .returned true) :
    Runs (some (.persisting run)) (some run) runs stopped_at := by
  have hholds : ∀ i, holds (some (.persisting run)) (some run) i ↔
      holds (some (.running run)) none i := by
    intro i
    simp only [holds, Option.some.injEq, Point.running.injEq, reduceCtorEq, or_false, false_or]
  refine ⟨?_, ?_, ?_, ?_, h.stopped⟩
  · intro i r' hr' hactive
    have hpoint := h.active i r' hr' hactive
    rw [Option.some.injEq, Point.running.injEq] at hpoint
    rw [← hpoint, hr, Option.some.injEq] at hr'
    rw [← hr', hresult] at hactive
    cases hactive
  · intro i r' hr'
    simp only [hholds]
    exact h.cleanups i r' hr'
  · intro i hi
    exact h.last i ((hholds i).mp hi)
  · intro i hi
    rw [Option.some.injEq] at hi
    rw [← hi]
    exact ⟨r, hr, hresult⟩

/-- The run leaves nothing behind, or its cleanup is called at once. -/
theorem Runs.release {run : ℕ} (h : Runs (some (.running run)) none runs stopped_at) {r : Run}
    (r' : Run) (hresult : r'.result = r.result)
    (hdone : r.result ≠ .active)
    (hcleanups : r'.cleanups = if r.result = .returned true then 1 else 0) {point' : Option Point}
    (hpoint' : ∀ i, point' ≠ some (.running i)) :
    Runs point' none (runs.set run r') stopped_at := by
  have hholds := not_holds_none hpoint'
  refine ⟨?_, ?_, fun i hi => absurd hi (hholds i), ?_, ?_⟩
  · intro i r'' hr'' hactive
    rcases getElem?_set_cases hr'' with ⟨-, rfl⟩ | ⟨hne, hr''⟩
    · rw [hresult] at hactive
      exact absurd hactive hdone
    · have hpoint := h.active i r'' hr'' hactive
      rw [Option.some.injEq, Point.running.injEq] at hpoint
      exact absurd hpoint.symm hne
  · intro i r'' hr''
    rcases getElem?_set_cases hr'' with ⟨-, rfl⟩ | ⟨hne, hr''⟩
    · simp only [hholds, not_false_eq_true, and_true, hresult]
      exact hcleanups
    · have hne' : run ≠ i := fun hno => hne hno.symm
      rw [h.cleanups i r'' hr'']
      simp only [holds, hpoint' i, Option.some.injEq, Point.running.injEq, hne', reduceCtorEq,
        or_false]
  · intro i hno
    cases hno
  · rw [List.length_set]
    exact h.stopped

/-- The run has returned without a cleanup, or has thrown. -/
theorem Runs.leave {run : ℕ} (h : Runs (some (.running run)) none runs stopped_at) {r : Run}
    (hr : runs[run]? = some r) (hdone : r.result ≠ .active) (hnone : r.result ≠ .returned true)
    {point' : Option Point} (hpoint' : ∀ i, point' ≠ some (.running i)) :
    Runs point' none runs stopped_at := by
  have hzero : r.cleanups = if r.result = .returned true then 1 else 0 := by
    rw [if_neg hnone, h.cleanups run r hr, if_neg (fun hno => hnone hno.1)]
  have hnew := h.release r rfl hdone hzero hpoint'
  obtain ⟨hlt, hget⟩ := List.getElem?_eq_some_iff.mp hr
  rw [← hget, List.set_getElem_self hlt] at hnew
  exact hnew

/-- `runCleanup` calls what is stored. -/
theorem Runs.run_cleanup {run : ℕ} (h : Runs point (some run) runs stopped_at)
    (hpoint : ∀ i, point ≠ some (.running i)) {point' : Option Point}
    (hpoint' : ∀ i, point' ≠ some (.running i)) :
    Runs point' none (runs.modify run fun r => { r with cleanups := r.cleanups + 1 }) stopped_at := by
  have hholds := not_holds_none hpoint'
  have hback : ∀ (i : ℕ) (r : Run),
      (runs.modify run fun r => { r with cleanups := r.cleanups + 1 })[i]? = some r →
        ∃ r', runs[i]? = some r' ∧ r'.result = r.result ∧
          r.cleanups = if run = i then r'.cleanups + 1 else r'.cleanups := by
    intro i r hr
    rcases getElem?_modify_cases hr with ⟨heq, r', hr', rfl⟩ | ⟨hne, hr⟩
    · refine ⟨r', hr', rfl, ?_⟩
      rw [if_pos heq.symm]
    · refine ⟨r, hr, rfl, ?_⟩
      rw [if_neg fun heq => hne heq.symm]
  refine ⟨?_, ?_, fun i hi => absurd hi (hholds i), ?_, ?_⟩
  · intro i r hr hactive
    obtain ⟨r', hr', hresult, -⟩ := hback i r hr
    exact absurd (h.active i r' hr' (hresult.trans hactive)) (hpoint i)
  · intro i r hr
    obtain ⟨r', hr', hresult, hcount⟩ := hback i r hr
    have hbefore := h.cleanups i r' hr'
    rw [hcount, ← hresult]
    by_cases heq : run = i
    · subst heq
      obtain ⟨r'', hr'', hreturned⟩ := h.stored run rfl
      rw [hr', Option.some.injEq] at hr''
      rw [← hr''] at hreturned
      rw [if_neg (fun hno => hno.2 (Or.inl rfl))] at hbefore
      rw [if_pos rfl, hbefore, if_pos ⟨hreturned, hholds run⟩]
    · rw [if_neg heq, hbefore]
      simp only [holds, hpoint i, hpoint' i, Option.some.injEq, heq, reduceCtorEq, or_false]
  · intro i hno
    cases hno
  · rw [List.length_modify]
    exact h.stopped

/-- A `stop` or a `close` settles with nothing stored. -/
theorem Runs.settle_control (h : Runs point none runs stopped_at)
    (hpoint : ∀ i, point ≠ some (.running i)) : Runs none none runs runs.length := by
  have hmoved : Runs none none runs stopped_at := h.move hpoint fun i hno => (by cases hno)
  refine ⟨hmoved.active, hmoved.cleanups, ?_, hmoved.stored, Nat.le_refl _⟩
  intro i hi
  exact absurd hi (not_holds_none (fun i hno => (by cases hno)) i)

end Runs

/-! ## When something is stored -/

/-- Where a cleanup is held, by the point the operation has reached. -/
def Placed (state : LifecycleState) (cleanup : Option ℕ) : Option Point → Prop
  | none => cleanup = none ∨ state = .running
  | some (.restoring _) => cleanup = none ∨ state = .running
  | some (.clearing _) => cleanup = none ∨ state = .running
  | some (.announcing _) => state = .running
  | some (.persisting _) => True
  | some (.stopping _) => True
  | some _ => cleanup = none

/-! ## Generations -/

/-- The generation an operation was queued with. -/
def Operation.generation : Operation → Option ℕ
  | .start _ generation => some generation
  | .restore generation => some generation
  | .control (.restart generation) => some generation
  | .control _ => none

/-- The generation that `startInternal` is still to be called with. -/
def generation_at : Option Point → Option ℕ
  | some (.restoring generation) => some generation
  | some (.clearing (.restart generation)) => some generation
  | some (.stopping (.restart generation)) => some generation
  | some (.cleaning (.restart generation)) => some generation
  | some (.cleaned (.restart generation)) => some generation
  | _ => none

/-- Nothing starts any more: disposed, or a `close` is queued behind stale starts. -/
def Shut (disposed : Bool) (generation : ℕ) (operations : List Operation) (at_point : Option ℕ) :
    Prop :=
  disposed = true ∨ (∀ g, at_point = some g → g < generation) ∧
    ∃ before after, operations = before ++ .control .close :: after ∧
      ∀ operation ∈ before, ∀ g, operation.generation = some g → g < generation

/-- Behind a `close`, no operation that is queued or under way can start a run. -/
structure Closes (close_called disposed : Bool) (generation : ℕ) (operations : List Operation)
    (point : Option Point) : Prop where
  queued : ∀ operation ∈ operations, ∀ g, operation.generation = some g → g ≤ generation
  current : ∀ g, generation_at point = some g → g ≤ generation
  fresh : close_called = true → point ≠ some (.starting false)
  shut : close_called = true → Shut disposed generation operations (generation_at point)

section Closes

variable {close_called disposed : Bool} {generation : ℕ} {operations : List Operation}
  {point : Option Point}

/-- The operation goes on to a point with nothing more to start, or with the same. -/
theorem Closes.move (h : Closes close_called disposed generation operations point)
    {point' : Option Point}
    (hgeneration : generation_at point' = none ∨ generation_at point' = generation_at point)
    (hpoint' : point' ≠ some (.starting false)) :
    Closes close_called disposed generation operations point' := by
  refine ⟨h.queued, ?_, fun _ => hpoint', ?_⟩
  · intro g hg
    rcases hgeneration with hno | hsame
    · rw [hno] at hg
      cases hg
    · rw [hsame] at hg
      exact h.current g hg
  · intro hcalled
    rcases h.shut hcalled with hdisposed | ⟨hpoint, hqueue⟩
    · exact Or.inl hdisposed
    · refine Or.inr ⟨?_, hqueue⟩
      intro g hg
      rcases hgeneration with hno | hsame
      · rw [hno] at hg
        cases hg
      · rw [hsame] at hg
        exact hpoint g hg

/-- An operation of the present generation is queued. -/
theorem Closes.enqueue (h : Closes close_called disposed generation operations point)
    {operation : Operation} (hle : ∀ g, operation.generation = some g → g ≤ generation) :
    Closes close_called disposed generation (operations ++ [operation]) point := by
  refine ⟨?_, h.current, h.fresh, ?_⟩
  · intro op hop
    rcases List.mem_append.mp hop with hop | hop
    · exact h.queued op hop
    · rw [List.mem_singleton.mp hop]
      exact hle
  · intro hcalled
    rcases h.shut hcalled with hdisposed | ⟨hpoint, before, after, heq, hbefore⟩
    · exact Or.inl hdisposed
    · refine Or.inr ⟨hpoint, before, after ++ [operation], ?_, hbefore⟩
      rw [heq, List.append_assoc, List.cons_append]

/-- `abortCurrent` makes every start before it stale. -/
theorem Closes.cancel (h : Closes close_called disposed generation operations point) :
    Closes close_called disposed (generation + 1) operations point := by
  refine ⟨?_, ?_, h.fresh, ?_⟩
  · intro op hop g hg
    exact Nat.le_succ_of_le (h.queued op hop g hg)
  · intro g hg
    exact Nat.le_succ_of_le (h.current g hg)
  · intro hcalled
    rcases h.shut hcalled with hdisposed | ⟨hpoint, before, after, heq, hbefore⟩
    · exact Or.inl hdisposed
    · refine Or.inr ⟨fun g hg => Nat.lt_succ_of_lt (hpoint g hg), before, after, heq, ?_⟩
      intro op hop g hg
      exact Nat.lt_succ_of_lt (hbefore op hop g hg)

theorem mark_closed_generation (point : Option Point) :
    generation_at (Lifecycle.mark_closed point) = generation_at point := by
  cases point with
  | none => rfl
  | some point =>
      cases point with
      | starting closed => rfl
      | _ => rfl

/-- A `close` raises the generation. -/
theorem Closes.close (h : Closes close_called disposed generation operations point) :
    Closes true disposed (generation + 1) (operations ++ [.control .close])
      (Lifecycle.mark_closed point) := by
  have hcancel : Closes close_called disposed (generation + 1)
      (operations ++ [.control .close]) point := by
    apply h.cancel.enqueue
    intro g hno
    cases hno
  refine ⟨hcancel.queued, ?_, ?_, ?_⟩
  · rw [mark_closed_generation]
    exact hcancel.current
  · intro _ hno
    cases point with
    | none => cases hno
    | some point =>
        cases point with
        | starting closed => cases hno
        | _ => cases hno
  · intro _
    refine Or.inr ⟨?_, operations, [], rfl, ?_⟩
    · intro g hg
      rw [mark_closed_generation] at hg
      exact Nat.lt_succ_of_le (h.current g hg)
    · intro op hop g hg
      exact Nat.lt_succ_of_le (h.queued op hop g hg)

/-- The next operation leaves the queue: it is stale, or `close` itself, or still allowed. -/
theorem Closes.pop {operation : Operation}
    (h : Closes close_called disposed generation (operation :: operations) none) :
    (close_called = true → disposed = true ∨ operation = .control .close ∨
      (∀ g, operation.generation = some g → g < generation) ∧
        Shut disposed generation operations none) ∧
      ∀ op ∈ operations, ∀ g, op.generation = some g → g ≤ generation := by
  constructor
  · intro hcalled
    rcases h.shut hcalled with hdisposed | ⟨-, before, after, heq, hbefore⟩
    · exact Or.inl hdisposed
    · cases before with
      | nil =>
          rw [List.nil_append, List.cons.injEq] at heq
          exact Or.inr (Or.inl heq.1)
      | cons op before =>
          rw [List.cons_append, List.cons.injEq] at heq
          obtain ⟨rfl, heq⟩ := heq
          refine Or.inr (Or.inr ⟨hbefore operation List.mem_cons_self, Or.inr ⟨?_, before, after, heq, ?_⟩⟩)
          · intro g hno
            cases hno
          · intro op hop
            exact hbefore op (List.mem_cons_of_mem operation hop)
  · intro op hop
    exact h.queued op (List.mem_cons_of_mem operation hop)

end Closes

/-! ## Every run -/

namespace Lifecycle

/-- The invariant of a run. -/
structure Inv (s : Lifecycle) : Prop where
  runs : Runs s.point s.cleanup s.runs s.stopped_at
  placed : Placed s.state s.cleanup s.point
  closes : Closes s.close_called s.disposed s.cancellation_generation s.operations s.point
  no_late_run : s.late_runs = 0

theorem inv_start : Inv {} where
  runs := by
    refine ⟨?_, ?_, ?_, ?_, Nat.le_refl 0⟩
    · intro i r hno
      cases hno
    · intro i r hno
      cases hno
    · rintro i (hno | hno)
      · cases hno
      · cases hno
    · intro i hno
      cases hno
  placed := Or.inl rfl
  closes := by
    refine ⟨?_, ?_, ?_, ?_⟩
    · intro op hno
      cases hno
    · intro g hno
      cases hno
    · intro hno
      cases hno
    · intro hno
      cases hno
  no_late_run := rfl

/-- Not in `run`. -/
def Outside (point : Option Point) : Prop := ∀ i, point ≠ some (.running i)

theorem outside_none : Outside none := by
  intro i hno
  cases hno

theorem outside_at {s : Lifecycle} {point : Point} (hpoint : s.point = some point)
    (hne : ∀ i, point ≠ .running i) : Outside s.point := by
  intro i hno
  rw [hpoint, Option.some.injEq] at hno
  exact hne i hno

/-- An operation ends. -/
theorem Inv.settle {s : Lifecycle} (h : Inv s) (hpoint : Outside s.point)
    (hplaced : s.cleanup = none ∨ s.state = .running) : Inv s.settle where
  runs := h.runs.move hpoint fun i hno => (by cases hno)
  placed := hplaced
  closes := h.closes.move (Or.inl rfl) fun hno => (by cases hno)
  no_late_run := h.no_late_run

theorem Inv.settle_control {s : Lifecycle} (h : Inv s) (hpoint : Outside s.point)
    (hcleanup : s.cleanup = none) (control : Control) : Inv (s.settle_control control) := by
  have hsettle := h.settle hpoint (Or.inl hcleanup)
  have hruns := h.runs
  rw [hcleanup] at hruns
  -- with nothing stored, every run there is has had its cleanup
  have hstop : Inv { s with point := none, stopped_at := s.runs.length } := by
    refine ⟨?_, hsettle.placed, hsettle.closes, h.no_late_run⟩
    have hnew := hruns.settle_control hpoint
    rw [← hcleanup] at hnew
    exact hnew
  cases control with
  | restart generation => exact hsettle
  | stop => exact hstop
  | close => exact hstop

/-- Between two operations, or where one has nothing left to start. -/
theorem Inv.start_internal {s : Lifecycle} (h : Inv s) (hpoint : s.point = none)
    (reason : LifecycleStartReason) {generation : ℕ}
    (hgeneration : s.close_called = true → s.disposed = true ∨ generation < s.cancellation_generation) :
    Inv (s.start_internal reason generation) := by
  have houtside : Outside s.point := by
    rw [hpoint]
    exact outside_none
  have hplaced := h.placed
  rw [hpoint] at hplaced
  have hsettle := h.settle houtside hplaced
  rw [Lifecycle.start_internal]
  split
  · exact hsettle
  · next hdisposed =>
    split
    · exact hsettle
    · next hsame =>
      split
      · exact hsettle
      · next hstate =>
        have hcleanup : s.cleanup = none := by
          rcases hplaced with hnone | hrunning
          · exact hnone
          · exact absurd (Or.inl hrunning) hstate
        -- a start that gets here has the current generation, so no `close` came after its call
        have hopen : s.close_called ≠ true := by
          intro hcalled
          rcases hgeneration hcalled with hyes | hlt
          · exact hdisposed hyes
          · exact hsame (Nat.ne_of_lt hlt)
        refine ⟨h.runs.move houtside fun i hno => (by cases hno), hcleanup, ?_, h.no_late_run⟩
        refine ⟨h.closes.queued, fun g hno => (by cases hno), ?_, ?_⟩
        · intro hcalled
          exact absurd hcalled hopen
        · intro hcalled
          exact absurd hcalled hopen

/-- The generation of a start that is still to come, once `close` has been called. -/
theorem Inv.stale {s : Lifecycle} (h : Inv s) {generation : ℕ}
    (hgeneration : generation_at s.point = some generation) (hcalled : s.close_called = true) :
    s.disposed = true ∨ generation < s.cancellation_generation := by
  rcases h.closes.shut hcalled with hdisposed | ⟨hpoint, -⟩
  · exact Or.inl hdisposed
  · exact Or.inr (hpoint generation hgeneration)

theorem Inv.abort {s : Lifecycle} (h : Inv s) (run : Option ℕ) : Inv (s.abort run) := by
  cases run with
  | none => exact h
  | some run => exact ⟨h.runs.abort run, h.placed, h.closes, h.no_late_run⟩

theorem abort_frame (s : Lifecycle) (run : Option ℕ) :
    ∃ runs, s.abort run = { s with runs := runs } := by
  cases run with
  | none => exact ⟨s.runs, rfl⟩
  | some run => exact ⟨_, rfl⟩

/-- A control call aborts what it can reach. -/
theorem Inv.abort_current {s : Lifecycle} (h : Inv s) : Inv s.abort_current := by
  have hcancel : Inv { s with cancellation_generation := s.cancellation_generation + 1 } :=
    ⟨h.runs, h.placed, h.closes.cancel, h.no_late_run⟩
  exact hcancel.abort s.controller

theorem Inv.enqueue {s : Lifecycle} (h : Inv s) {operation : Operation}
    (hle : ∀ g, operation.generation = some g → g ≤ s.cancellation_generation) :
    Inv (s.enqueue operation) :=
  ⟨h.runs, h.placed, h.closes.enqueue hle, h.no_late_run⟩

theorem Inv.fail {s : Lifecycle} (h : Inv s) (hpoint : Outside s.point)
    (hcleanup : s.cleanup = none) (run : ℕ) : Inv (s.fail run) := by
  have habort := h.abort (some run)
  refine ⟨habort.runs.move hpoint fun i hno => (by cases hno), hcleanup, ?_, h.no_late_run⟩
  exact h.closes.move (Or.inl rfl) fun hno => (by cases hno)

/-- A start begins its run. -/
theorem Inv.begin_run {s : Lifecycle} (h : Inv s) (hpoint : s.point = some (.starting false)) :
    Inv s.begin_run := by
  have hcleanup := h.placed
  have hruns := h.runs
  have hopen : s.close_called = false := by
    rw [← Bool.not_eq_true]
    exact fun hcalled => h.closes.fresh hcalled hpoint
  rw [hpoint] at hcleanup hruns
  have hnone : s.cleanup = none := hcleanup
  rw [hnone] at hruns
  refine ⟨?_, hnone, ?_, ?_⟩
  · have hnew := hruns.begin_run fun i hno => (by cases hno)
    rw [← hnone] at hnew
    exact hnew
  · exact h.closes.move (Or.inl rfl) fun hno => (by cases hno)
  · simp only [Lifecycle.begin_run, hopen]
    exact h.no_late_run

/-- The `await` of `run` is over. -/
theorem Inv.resume_run {s s' : Lifecycle} (h : Inv s) {run : ℕ}
    (hpoint : s.point = some (.running run)) (hstep : s.resume (.running run) = some s') :
    Inv s' := by
  have hcleanup := h.placed
  have hruns := h.runs
  rw [hpoint] at hcleanup hruns
  have hnone : s.cleanup = none := hcleanup
  rw [hnone] at hruns
  -- wherever the operation goes from here, it does not start another run
  have hcloses : ∀ point, generation_at point = none → point ≠ some (.starting false) →
      Closes s.close_called s.disposed s.cancellation_generation s.operations point :=
    fun point hgeneration hne => h.closes.move (Or.inl hgeneration) hne
  simp only [Lifecycle.resume, Option.bind_eq_some_iff] at hstep
  obtain ⟨r, hr, hstep⟩ := hstep
  have hcount := hruns.cleanups run r hr
  rw [if_neg (fun hno => hno.2 (Or.inr rfl))] at hcount
  split at hstep
  · cases hstep
  · next cleanup hresult =>
    cases hstep
    have hdone : r.result ≠ .active := by
      rw [hresult]
      exact fun hno => (by cases hno)
    have hleave : cleanup = false → ∀ point, Outside point →
        Runs point none s.runs s.stopped_at := by
      rintro rfl point hp
      apply hruns.leave hr hdone _ hp
      rw [hresult]
      exact fun hno => (by cases hno)
    rw [keep]
    split
    · -- aborted while it ran: what it returned is cleaned up at once
      cases cleanup with
      | true =>
          refine ⟨?_, hnone, hcloses _ rfl fun hno => (by cases hno), h.no_late_run⟩
          have hone : r.cleanups + 1 = if r.result = .returned true then 1 else 0 := by
            rw [hcount, hresult]
            rfl
          have hnew : Runs (some (.discarding run)) none
              (s.runs.set run { r with cleanups := r.cleanups + 1 }) s.stopped_at :=
            hruns.release { r with cleanups := r.cleanups + 1 } rfl hdone hone
              fun i hno => (by cases hno)
          rw [← hnone] at hnew
          exact hnew
      | false =>
          refine ⟨?_, hnone, hcloses _ rfl fun hno => (by cases hno), h.no_late_run⟩
          have hnew := hleave rfl (some (.discarding run)) fun i hno => (by cases hno)
          rw [← hnone] at hnew
          exact hnew
    · cases cleanup with
      | true =>
          refine ⟨hruns.store hr hresult, trivial, ?_, h.no_late_run⟩
          exact hcloses _ rfl fun hno => (by cases hno)
      | false =>
          refine ⟨?_, trivial, hcloses _ rfl fun hno => (by cases hno), h.no_late_run⟩
          exact hleave rfl _ fun i hno => (by cases hno)
  -- the callback threw: its controller is aborted, and there is nothing to clean up
  · next hresult =>
    cases hstep
    have hnew : Runs (some .failing) none s.runs s.stopped_at := by
      refine hruns.leave hr ?_ ?_ fun i hno => (by cases hno)
      · rw [hresult]
        exact fun hno => (by cases hno)
      · rw [hresult]
        exact fun hno => (by cases hno)
    refine ⟨?_, hnone, hcloses _ rfl fun hno => (by cases hno), h.no_late_run⟩
    have habort := hnew.abort run
    rw [← hnone] at habort
    exact habort

theorem Inv.run_settled {s s' : Lifecycle} (h : Inv s) {point : Point} {result : RunResult}
    (hpoint : s.point = some point) (hstep : s.run_settled result point = some s') : Inv s' := by
  cases point with
  | running run =>
      have hcleanup := h.placed
      have hruns := h.runs
      rw [hpoint] at hcleanup hruns
      have hnone : s.cleanup = none := hcleanup
      rw [hnone] at hruns
      simp only [Lifecycle.run_settled, Option.bind_eq_some_iff] at hstep
      obtain ⟨r, hr, hstep⟩ := hstep
      split at hstep
      · next hactive =>
        cases hstep
        refine ⟨?_, h.placed, h.closes, h.no_late_run⟩
        have hnew := hruns.run_settled hr hactive result
        rw [← hnone, ← hpoint] at hnew
        exact hnew
      · cases hstep
  | _ => cases hstep

/-- A stop calls the cleanup it holds. -/
theorem Inv.run_cleanup {s : Lifecycle} (h : Inv s) {control : Control}
    (hpoint : s.point = some (.stopping control)) : Inv (s.run_cleanup control) := by
  have houtside := outside_at hpoint fun i hno => (by cases hno)
  have habort := h.abort s.controller
  have hsame : (s.abort s.controller).point = s.point ∧ (s.abort s.controller).cleanup = s.cleanup ∧
      (s.abort s.controller).stopped_at = s.stopped_at := by
    obtain ⟨runs, hruns⟩ := abort_frame s s.controller
    rw [hruns]
    exact ⟨rfl, rfl, rfl⟩
  have hcloses : ∀ point, generation_at point = generation_at s.point →
      point ≠ some (.starting false) →
      Closes (s.abort s.controller).close_called (s.abort s.controller).disposed
        (s.abort s.controller).cancellation_generation (s.abort s.controller).operations point := by
    intro point hgeneration hne
    apply habort.closes.move _ hne
    rw [hsame.1]
    exact Or.inr hgeneration
  -- only a `restart` has a start still to come, and it keeps its generation
  have hgeneration : ∀ point, (point = .cleaning control ∨ point = .cleaned control) →
      generation_at (some point) = generation_at s.point := by
    intro point hp
    rw [hpoint]
    rcases hp with rfl | rfl
    · cases control with
      | restart generation => rfl
      | stop => rfl
      | close => rfl
    · cases control with
      | restart generation => rfl
      | stop => rfl
      | close => rfl
  have hruns := habort.runs
  rw [hsame.1, hsame.2.1, hsame.2.2] at hruns
  simp only [Lifecycle.run_cleanup]
  split
  · next run hcleanup =>
    rw [hcleanup] at hruns
    refine ⟨?_, rfl, hcloses _ (hgeneration _ (Or.inl rfl)) fun hno => (by cases hno),
      habort.no_late_run⟩
    dsimp only
    rw [hsame.2.2]
    exact hruns.run_cleanup houtside fun i hno => (by cases hno)
  · next hcleanup =>
    refine ⟨?_, ?_, hcloses _ (hgeneration _ (Or.inr rfl)) fun hno => (by cases hno),
      habort.no_late_run⟩
    · dsimp only
      rw [hsame.2.1, hsame.2.2]
      exact hruns.move houtside fun i hno => (by cases hno)
    · exact hsame.2.1.trans hcleanup

theorem Inv.cleared {s : Lifecycle} (h : Inv s) {control : Control}
    (hpoint : s.point = some (.clearing control)) : Inv (s.cleared control) := by
  have houtside := outside_at hpoint fun i hno => (by cases hno)
  have hplaced := h.placed
  rw [hpoint] at hplaced
  rw [Lifecycle.cleared]
  split
  · next hstopped =>
    have hcleanup : s.cleanup = none := by
      rcases hplaced with hnone | hrunning
      · exact hnone
      · rw [hstopped] at hrunning
        cases hrunning
    split
    · refine ⟨h.runs.move houtside fun i hno => (by cases hno), hcleanup, ?_, h.no_late_run⟩
      exact h.closes.move (Or.inl rfl) fun hno => (by cases hno)
    · exact h.settle_control houtside hcleanup control
  · refine ⟨h.runs.move houtside fun i hno => (by cases hno), trivial, ?_, h.no_late_run⟩
    refine h.closes.move (Or.inr ?_) fun hno => (by cases hno)
    rw [hpoint]
    cases control with
    | restart generation => rfl
    | stop => rfl
    | close => rfl

/-- The queue gives its first operation. -/
theorem Inv.begin_operation {s : Lifecycle} (h : Inv s) (hpoint : s.point = none)
    {operation : Operation} {operations : List Operation}
    (hoperations : s.operations = operation :: operations) :
    Inv ({ s with operations := operations }.begin_operation operation) := by
  have houtside : Outside s.point := by
    rw [hpoint]
    exact outside_none
  have hplaced := h.placed
  have hcloses := h.closes
  rw [hpoint] at hplaced hcloses
  rw [hoperations] at hcloses
  obtain ⟨hshut, hqueued⟩ := hcloses.pop
  -- a point that the operation moves to, with what it has still to start
  have hnew : ∀ point, (∀ g, generation_at point = some g → operation.generation = some g) →
      point ≠ some (.starting false) → operation ≠ .control .close →
      Closes s.close_called s.disposed s.cancellation_generation operations point := by
    intro point hgeneration hne hclose
    refine ⟨hqueued, ?_, fun _ => hne, ?_⟩
    · intro g hg
      exact hcloses.queued operation List.mem_cons_self g (hgeneration g hg)
    · intro hcalled
      rcases hshut hcalled with hdisposed | hno | ⟨hstale, hrest⟩
      · exact Or.inl hdisposed
      · exact absurd hno hclose
      · rcases hrest with hdisposed | ⟨-, hrest⟩
        · exact Or.inl hdisposed
        · exact Or.inr ⟨fun g hg => hstale g (hgeneration g hg), hrest⟩
  have hruns : ∀ point, Outside point → Runs point s.cleanup s.runs s.stopped_at :=
    fun point hp => h.runs.move houtside hp
  cases operation with
  | start reason generation =>
      have hpopped : Inv { s with operations := operations } := by
        refine ⟨h.runs, h.placed, ?_, h.no_late_run⟩
        have hclosed := hnew none (fun g hno => by cases hno) (fun hno => by cases hno)
          fun hno => by cases hno
        rw [← hpoint] at hclosed
        exact hclosed
      -- a `close` that was called before is ahead in the queue, or has made this start stale
      apply hpopped.start_internal hpoint
      intro hcalled
      rcases hshut hcalled with hdisposed | hno | ⟨hstale, -⟩
      · exact Or.inl hdisposed
      · cases hno
      · exact Or.inr (hstale generation rfl)
  | restore generation =>
      refine ⟨hruns _ fun i hno => (by cases hno), hplaced, ?_, h.no_late_run⟩
      exact hnew _ (fun g hg => hg) (fun hno => by cases hno) fun hno => by cases hno
  | control control =>
      cases control with
      | restart generation =>
          refine ⟨hruns _ fun i hno => (by cases hno), trivial, ?_, h.no_late_run⟩
          exact hnew _ (fun g hg => hg) (fun hno => by cases hno) fun hno => by cases hno
      | stop =>
          refine ⟨hruns _ fun i hno => (by cases hno), hplaced, ?_, h.no_late_run⟩
          exact hnew _ (fun g hno => by cases hno) (fun hno => by cases hno) fun hno => by cases hno
      | close =>
          refine ⟨hruns _ fun i hno => (by cases hno), hplaced, ?_, h.no_late_run⟩
          refine ⟨hqueued, fun g hno => (by cases hno), fun _ hno => (by cases hno), ?_⟩
          intro _
          exact Or.inl rfl

/-- A callback returned. -/
theorem Inv.returned {s s' : Lifecycle} (h : Inv s) {point : Point} (hpoint : s.point = some point)
    (hmeets : s.point ≠ some (.starting true)) (hstep : s.returned point = some s') : Inv s' := by
  have hplaced := h.placed
  rw [hpoint] at hplaced
  have houtside := outside_at hpoint
  cases point with
  | starting closed =>
      cases hstep
      cases closed with
      | true => exact absurd hpoint hmeets
      | false => exact h.begin_run hpoint
  | discarding run =>
      cases hstep
      exact h.settle (houtside fun i hno => (by cases hno)) (Or.inl hplaced)
  | persisting run =>
      cases hstep
      refine ⟨?_, rfl, ?_, h.no_late_run⟩
      · exact h.runs.move (houtside fun i hno => (by cases hno)) fun i hno => (by cases hno)
      · exact h.closes.move (Or.inl rfl) fun hno => (by cases hno)
  | announcing run =>
      cases hstep
      exact h.settle (houtside fun i hno => (by cases hno)) (Or.inr hplaced)
  | failing =>
      cases hstep
      exact h.settle (houtside fun i hno => (by cases hno)) (Or.inl hplaced)
  | clearing control =>
      cases hstep
      exact h.cleared hpoint
  | stopping control =>
      cases hstep
      exact h.run_cleanup hpoint
  | cleaning control =>
      cases hstep
      refine ⟨?_, hplaced, ?_, h.no_late_run⟩
      · exact h.runs.move (houtside fun i hno => (by cases hno)) fun i hno => (by cases hno)
      · refine h.closes.move (Or.inr ?_) fun hno => (by cases hno)
        rw [hpoint]
        cases control with
        | restart generation => rfl
        | stop => rfl
        | close => rfl
  | stopped control =>
      cases hstep
      exact h.settle_control (houtside fun i hno => (by cases hno)) hplaced control
  | restoring generation => cases hstep
  | running run => cases hstep
  | cleaned control => cases hstep

/-- A callback threw. -/
theorem Inv.threw {s s' : Lifecycle} (h : Inv s) {point : Point} (hpoint : s.point = some point)
    (hmeets : point.keeps_cleanup = true → s.cleanup = none) (hstep : s.threw point = some s') :
    Inv s' := by
  have hplaced := h.placed
  rw [hpoint] at hplaced
  have houtside := outside_at hpoint
  cases point with
  | restoring generation =>
      cases hstep
      exact h.settle (houtside fun i hno => (by cases hno)) hplaced
  | starting closed =>
      cases hstep
      exact h.settle (houtside fun i hno => (by cases hno)) (Or.inl hplaced)
  | discarding run =>
      cases hstep
      exact h.fail (houtside fun i hno => (by cases hno)) hplaced run
  | persisting run =>
      cases hstep
      -- `fail` would leave a stored cleanup behind, so nothing may be stored
      exact h.fail (houtside fun i hno => (by cases hno)) (hmeets rfl) run
  | announcing run =>
      cases hstep
      exact h.fail (houtside fun i hno => (by cases hno)) (hmeets rfl) run
  | failing =>
      cases hstep
      exact h.settle (houtside fun i hno => (by cases hno)) (Or.inl hplaced)
  | clearing control =>
      cases hstep
      exact h.settle_control (houtside fun i hno => (by cases hno)) (hmeets rfl) control
  | stopping control =>
      cases hstep
      -- the control settles before its cleanup, so there must be none
      exact h.settle_control (houtside fun i hno => (by cases hno)) (hmeets rfl) control
  | cleaning control =>
      cases hstep
      exact h.settle_control (houtside fun i hno => (by cases hno)) hplaced control
  | stopped control =>
      cases hstep
      exact h.settle_control (houtside fun i hno => (by cases hno)) hplaced control
  | running run => cases hstep
  | cleaned control => cases hstep

/-- `startInternal` from inside an operation. -/
theorem Inv.continue_start {s : Lifecycle} (h : Inv s) (hpoint : Outside s.point)
    (hplaced : s.cleanup = none ∨ s.state = .running) (reason : LifecycleStartReason)
    {generation : ℕ} (hgeneration : generation_at s.point = some generation) :
    Inv (s.start_internal reason generation) :=
  (h.settle hpoint hplaced).start_internal rfl reason fun hcalled => h.stale hgeneration hcalled

/-- An operation goes on. -/
theorem Inv.resume {s s' : Lifecycle} (h : Inv s) {point : Point} (hpoint : s.point = some point)
    (hstep : s.resume point = some s') : Inv s' := by
  cases point with
  | running run => exact h.resume_run hpoint hstep
  | cleaned control =>
      cases hstep
      have hplaced := h.placed
      rw [hpoint] at hplaced
      have houtside := outside_at hpoint fun i hno => (by cases hno)
      have hstopped : Inv { s with state := .stopped, point := some (.stopped control) } := by
        refine ⟨h.runs.move houtside fun i hno => (by cases hno), hplaced, ?_, h.no_late_run⟩
        exact h.closes.move (Or.inl rfl) fun hno => (by cases hno)
      cases control with
      | restart generation =>
          apply h.continue_start houtside (Or.inl hplaced)
          rw [hpoint]
          rfl
      | stop => exact hstopped
      | close => exact hstopped
  | _ => cases hstep

/-- `close` is called, perhaps inside the callback for `starting`. -/
theorem Inv.close {s : Lifecycle} (h : Inv s) :
    Inv { s.abort_current.enqueue (.control .close) with
      close_called := true
      point := mark_closed s.point } := by
  obtain ⟨runs, hruns⟩ := abort_frame
    { s with cancellation_generation := s.cancellation_generation + 1 } s.controller
  have habort := h.abort_current
  rw [Lifecycle.abort_current, hruns] at habort
  rw [Lifecycle.abort_current, hruns]
  -- only inside the callback for `starting` does the point change too
  have hpoint : (∃ closed, s.point = some (.starting closed)) ∨ mark_closed s.point = s.point := by
    cases hp : s.point with
    | none => exact Or.inr rfl
    | some point =>
        cases point with
        | starting closed => exact Or.inl ⟨closed, rfl⟩
        | _ => exact Or.inr rfl
  refine ⟨?_, ?_, h.closes.close, h.no_late_run⟩
  · rcases hpoint with ⟨closed, hstarting⟩ | hsame
    · refine habort.runs.move ?_ ?_
      · intro i hno
        exact absurd (hstarting.symm.trans hno) fun hno => (by cases hno)
      · intro i hno
        rw [hstarting] at hno
        cases hno
    · dsimp only
      rw [hsame]
      exact habort.runs
  · rcases hpoint with ⟨closed, hstarting⟩ | hsame
    · have hplaced := h.placed
      rw [hstarting] at hplaced
      dsimp only
      rw [hstarting]
      exact hplaced
    · dsimp only
      rw [hsame]
      exact h.placed

/-- What one step keeps. -/
theorem inv_step {s : Lifecycle} {a : Label} {s' : Lifecycle} (h : Inv s) (hmeets : Meets s a)
    (hstep : s.step a = some s') : Inv s' := by
  cases a with
  | start =>
      cases hstep
      apply h.enqueue
      intro g hg
      cases hg
      exact Nat.le_refl _
  | restore =>
      cases hstep
      apply h.enqueue
      intro g hg
      cases hg
      exact Nat.le_refl _
  | restart =>
      cases hstep
      apply h.abort_current.enqueue
      intro g hg
      cases hg
      exact Nat.le_refl _
  | stop =>
      cases hstep
      apply h.abort_current.enqueue
      intro g hno
      cases hno
  | close =>
      cases hstep
      exact h.close
  | visible =>
      simp only [step] at hstep
      split at hstep
      · cases hstep
      · cases hstep
        apply h.enqueue
        intro g hg
        cases hg
        exact Nat.le_refl _
  | begin_operation =>
      simp only [step] at hstep
      split at hstep
      · next operation operations hpoint hoperations =>
        cases hstep
        exact h.begin_operation hpoint hoperations
      · cases hstep
  | get_item running =>
      simp only [step] at hstep
      split at hstep
      · next generation hpoint =>
        cases hstep
        have houtside := outside_at hpoint fun i hno => (by cases hno)
        have hplaced := h.placed
        rw [hpoint] at hplaced
        split
        · apply h.continue_start houtside hplaced
          rw [hpoint]
          rfl
        · exact h.settle houtside hplaced
      · cases hstep
  | run_returned cleanup =>
      simp only [step, Option.bind_eq_some_iff] at hstep
      obtain ⟨point, hpoint, hstep⟩ := hstep
      exact h.run_settled hpoint hstep
  | run_threw =>
      simp only [step, Option.bind_eq_some_iff] at hstep
      obtain ⟨point, hpoint, hstep⟩ := hstep
      exact h.run_settled hpoint hstep
  | resume =>
      simp only [step, Option.bind_eq_some_iff] at hstep
      obtain ⟨point, hpoint, hstep⟩ := hstep
      exact h.resume hpoint hstep
  | returned =>
      simp only [step, Option.bind_eq_some_iff] at hstep
      obtain ⟨point, hpoint, hstep⟩ := hstep
      exact h.returned hpoint hmeets hstep
  | threw =>
      simp only [step, Option.bind_eq_some_iff] at hstep
      obtain ⟨point, hpoint, hstep⟩ := hstep
      refine h.threw hpoint (fun hkeeps => hmeets ?_) hstep
      rw [hpoint]
      exact hkeeps

/-- The invariant makes the lifecycle clean. -/
theorem Inv.clean {s : Lifecycle} (h : Inv s) : Clean s where
  one_run := by
    apply countP_le_one
    intro i j r q hi hr hj hq
    have hip := h.runs.active i r hi (of_decide_eq_true hr)
    have hjp := h.runs.active j q hj (of_decide_eq_true hq)
    rw [hip, Option.some.injEq, Point.running.injEq] at hjp
    exact hjp
  at_most_once r hr := by
    obtain ⟨i, hi⟩ := List.mem_iff_getElem?.mp hr
    rw [h.runs.cleanups i r hi]
    split
    · exact Nat.le_refl 1
    · exact Nat.zero_le 1
  before_next i r hi hr hnext := by
    have hfree : ¬ holds s.point s.cleanup i := by
      intro hholds
      have hlast := (h.runs.last i hholds).1
      omega
    rw [h.runs.cleanups i r hi, if_pos ⟨of_decide_eq_true hr, hfree⟩]
  before_stop i r hi hr hstop := by
    have hfree : ¬ holds s.point s.cleanup i := by
      intro hholds
      have hlast := (h.runs.last i hholds).2
      omega
    rw [h.runs.cleanups i r hi, if_pos ⟨of_decide_eq_true hr, hfree⟩]
  no_late_run := h.no_late_run

/-- **When `withLifecycle` neither overlaps nor leaks a run.** In every run whose steps all
meet `Meets`, every state is `Clean`. -/
theorem lifecycle_clean (l : List Label) (s : Lifecycle) (hmeets : Along step Meets {} l)
    (hrun : run step {} l = some s) : Clean s :=
  (along_invariant (fun _ _ _ h hm hs => inv_step h hm hs) inv_start hmeets hrun).clean

/-- A start, a restart while the task runs, and a `close` while the second run is pending. -/
theorem lifecycle_clean_restarted : ∃ l s, run step {} l = some s ∧
    s.runs = [⟨true, .returned true, 1⟩, ⟨true, .returned true, 1⟩] ∧ s.stopped_at = 2 ∧ Clean s := by
  obtain ⟨l, s, hrun, hmeets, hruns, hstopped⟩ : ∃ l s, run step {} l = some s ∧
      Along step Meets {} l ∧
      s.runs = [⟨true, .returned true, 1⟩, ⟨true, .returned true, 1⟩] ∧ s.stopped_at = 2 := by
    refine ⟨[.start, .begin_operation, .returned, .run_returned true, .resume, .returned, .returned,
        .restart, .begin_operation, .returned, .returned, .resume, .returned,
        .close, .run_returned true, .resume, .returned, .begin_operation, .returned, .returned,
        .resume, .returned], _, rfl, along_of_guarded rfl, rfl, rfl⟩
  exact ⟨l, s, hrun, hruns, hstopped, lifecycle_clean l s hmeets hrun⟩

/-- `setItem` throws after the first run, and the next start forgets its cleanup; `removeItem`
throws in a `stop`, which settles without the cleanup; the callback for `starting` calls
`close`, and the run begins all the same. -/
theorem cleanup_forgotten :
    (∃ s, run step {} [.start, .begin_operation, .returned, .run_returned true, .resume, .threw,
        .returned, .start, .begin_operation, .returned, .run_returned true, .resume, .returned,
        .returned] = some s ∧
      s.runs.map Run.has_cleanup = [true, true] ∧ s.runs.map Run.cleanups = [0, 0] ∧
      s.cleanup = some 1 ∧ ¬ Clean s) ∧
    (∃ s, run step {} [.start, .begin_operation, .returned, .run_returned true, .resume, .returned,
        .returned, .stop, .begin_operation, .threw] = some s ∧
      s.runs.map Run.has_cleanup = [true] ∧ s.runs.map Run.cleanups = [0] ∧ s.stopped_at = 1 ∧
      ¬ Clean s) ∧
    ∃ s, run step {} [.start, .begin_operation, .close, .returned] = some s ∧ s.late_runs = 1 ∧
      ¬ Clean s := by
  refine ⟨⟨_, rfl, rfl, rfl, rfl, ?_⟩, ⟨_, rfl, rfl, rfl, rfl, ?_⟩, ⟨_, rfl, rfl, ?_⟩⟩
  · intro h
    have hone := h.before_next 0 _ rfl rfl (by decide)
    cases hone
  · intro h
    have hone := h.before_stop 0 _ rfl rfl (by decide)
    cases hone
  · intro h
    cases h.no_late_run

end Lifecycle

end IrohHttp.WithLifecycle
