/-
`withLifecycle` of `guest-js/lifecycle.ts` with its storage: what the queue leads to.

The task of `WithLifecycle.lean` runs here where nothing throws, next to the persisted
flag. `persistRunning` sets the flag, `clearPersisted` clears it, `restore` reads it in
its turn and the visibility handler when the event arrives. With `storage: null` there is
no flag to read.

What is queued decides the state in which the queue ends, so the state is forecast: the
outcome of the operation under way, and every later operation run on it as a whole. The
steps of an operation leave the forecast alone, and a call adds one operation to it.
-/
import IrohHttp.WithLifecycle

set_option autoImplicit false

open Machine

namespace IrohHttp.WithLifecycle

/-! ## The task and its storage -/

/-- `LifecycleOptions`, as far as they decide the flag. -/
structure LifecycleOptions where
  storage : Bool
  restore_on_visible : Bool

/-- The calls that say what the task should do. -/
inductive ControlCall
  | start
  | restart
  | stop
  | close
  deriving DecidableEq

/-- A call, an event, or a step of the operation under way. None of these throws. -/
inductive Event
  | start
  | restore
  | restart
  | stop
  | close
  | visible (document_visible : Bool)
  | begin_operation
  | get_item
  | run_returned (cleanup : Bool)
  | resume
  | returned

/-- `last` is the last accepted call of a control, and `settled` whether a `close` has
settled. Both are records. -/
structure Task where
  lifecycle : Lifecycle := {}
  persisted : Bool := false
  last : Option ControlCall := none
  settled : Bool := false

namespace Task

/-- `start` and `restart` are not accepted on a closed handle. -/
def call (t : Task) (control_call : ControlCall) (s : Lifecycle) : Task :=
  { t with
    lifecycle := s
    last :=
      if (control_call = .start ∨ control_call = .restart) ∧ t.lifecycle.close_called = true then
        t.last
      else some control_call }

/-- The flag, once the storage write has returned. -/
def written (storage persisted : Bool) : Option Point → Bool
  | some (.persisting _) => storage
  | some (.clearing _) => false
  | _ => persisted

/-- A callback, a storage write or a cleanup has returned. -/
def returned (t : Task) (options : LifecycleOptions) (s : Lifecycle) : Task :=
  { t with
    lifecycle := s
    persisted := written options.storage t.persisted t.lifecycle.point
    settled := t.settled || t.lifecycle.point = some (.stopped .close) }

/-- One step of the task, with the last call and the stored flag written down. -/
def step (options : LifecycleOptions) (t : Task) : Event → Option Task
  | .start => (t.lifecycle.step .start).map (t.call .start)
  | .restore => (t.lifecycle.step .restore).map fun s => { t with lifecycle := s }
  | .restart => (t.lifecycle.step .restart).map (t.call .restart)
  | .stop => (t.lifecycle.step .stop).map (t.call .stop)
  | .close => (t.lifecycle.step .close).map (t.call .close)
  -- `visibilityHandler`: most events come to nothing
  | .visible document_visible =>
    if options.restore_on_visible = false ∨ t.lifecycle.disposed = true then some t
    else if document_visible = false then some t
    else if t.persisted = false then some t
    else (t.lifecycle.step .visible).map fun s => { t with lifecycle := s }
  | .begin_operation =>
    (t.lifecycle.step .begin_operation).map fun s => { t with lifecycle := s }
  | .get_item => (t.lifecycle.step (.get_item t.persisted)).map fun s => { t with lifecycle := s }
  | .run_returned cleanup =>
    (t.lifecycle.step (.run_returned cleanup)).map fun s => { t with lifecycle := s }
  | .resume => (t.lifecycle.step .resume).map fun s => { t with lifecycle := s }
  | .returned => (t.lifecycle.step .returned).map (t.returned options)

/-- A new handle, over a flag that an earlier page may have left. -/
def opened (options : LifecycleOptions) (persisted : Bool) : Task :=
  { persisted := options.storage && persisted }

/-- No operation is queued or under way. -/
def idle (t : Task) : Prop := t.lifecycle.operations = [] ∧ t.lifecycle.point = none

end Task

/-! ## The task settles in the state that was asked for -/

/-- The requested state, in a state of a run. -/
structure Settles (t : Task) : Prop where
  running : t.idle → t.last = some .start ∨ t.last = some .restart → t.lifecycle.state = .running
  stopped : t.idle → t.last = some .stop ∨ t.last = some .close →
    t.lifecycle.state = .stopped ∧ t.persisted = false
  stays_stopped : t.settled = true → t.lifecycle.state = .stopped

/-- The operations that bring the task back: a start for a visibility event that came
between `stop` and its turn in the queue, and a restart of a closed handle. -/
def Task.brings_back (t : Task) : Operation → Bool
  | .start .visible generation =>
    t.last = some .stop ∧ t.lifecycle.disposed = false ∧
      generation = t.lifecycle.cancellation_generation
  | .control (.restart _) => t.lifecycle.disposed
  | _ => false

/-- No such operation begins. -/
def Undisturbed (t : Task) (a : Event) : Prop :=
  a = .begin_operation → ∀ operation, t.lifecycle.operations.head? = some operation →
    t.brings_back operation = false

instance (t : Task) (a : Event) : Decidable (Undisturbed t a) :=
  match a with
  | .begin_operation =>
    decidable_of_iff (t.lifecycle.operations.head?.all fun operation => !t.brings_back operation)
      (by simp only [Undisturbed, Option.all_eq_true, Bool.not_eq_true', forall_const])
  | .start => .isTrue (fun hno => by cases hno)
  | .restore => .isTrue (fun hno => by cases hno)
  | .restart => .isTrue (fun hno => by cases hno)
  | .stop => .isTrue (fun hno => by cases hno)
  | .close => .isTrue (fun hno => by cases hno)
  | .visible _ => .isTrue (fun hno => by cases hno)
  | .get_item => .isTrue (fun hno => by cases hno)
  | .run_returned _ => .isTrue (fun hno => by cases hno)
  | .resume => .isTrue (fun hno => by cases hno)
  | .returned => .isTrue (fun hno => by cases hno)

/-! ## The forecast -/

/-- What the lifecycle comes to: its state, the flag in the storage, and whether it is disposed. -/
structure Outcome where
  state : LifecycleState
  persisted : Bool
  disposed : Bool

namespace Outcome

/-- `startInternal` as a whole. -/
def start (x : Outcome) (storage current : Bool) : Outcome :=
  if x.disposed = true ∨ current = false then x
  else if x.state = .running ∨ x.state = .starting ∨ x.state = .recovering then x
  else { x with state := .running, persisted := storage }

/-- The operation of `restart`, on a handle that is still open. -/
def restart (x : Outcome) (storage current : Bool) : Outcome :=
  if x.disposed = true then x
  else if current = true then { x with state := .running, persisted := storage }
  else { x with state := .stopping }

/-- An operation as a whole. With `stopped`, starts for visibility events are left out. -/
def run_operation (stopped storage : Bool) (generation : ℕ) (x : Outcome) : Operation → Outcome
  | .start reason expected =>
    if stopped = true ∧ reason = .visible then x else x.start storage (expected = generation)
  | .restore expected => if x.persisted then x.start storage (expected = generation) else x
  | .control (.restart expected) => x.restart storage (expected = generation)
  | .control .stop => { x with state := .stopped, persisted := false }
  | .control .close => { state := .stopped, persisted := false, disposed := true }

end Outcome

namespace Lifecycle

/-- If nothing more happened. -/
def now (s : Lifecycle) (persisted : Bool) : Outcome :=
  { state := s.state, persisted, disposed := s.disposed }

/-- Whether the current call of `run` was aborted. -/
def run_aborted (s : Lifecycle) (run : ℕ) : Bool := s.runs[run]?.any Run.aborted

/-- How a control ends. -/
def ends (s : Lifecycle) (storage persisted : Bool) : Control → Outcome
  | .restart expected =>
    (s.now persisted).restart storage (expected = s.cancellation_generation)
  | _ => { s.now persisted with state := .stopped }

/-- The outcome of the operation under way. -/
def outcome (s : Lifecycle) (storage persisted : Bool) : Option Point → Outcome
  | some (.restoring expected) =>
    if persisted then (s.now persisted).start storage (expected = s.cancellation_generation)
    else s.now persisted
  -- an abort that came before the controller is not seen
  | some (.starting _) => { s.now storage with state := .running }
  | some (.running run) =>
    if s.run_aborted run then s.now persisted else { s.now storage with state := .running }
  | some (.persisting _) => { s.now storage with state := .running }
  | some (.clearing control) => s.ends storage false control
  | some (.stopping control) => s.ends storage persisted control
  | some (.cleaning control) => s.ends storage persisted control
  | some (.cleaned control) => s.ends storage persisted control
  | _ => s.now persisted

/-- The outcome of all that is queued. -/
def forecast (s : Lifecycle) (stopped storage persisted : Bool) : Outcome :=
  s.operations.foldl (Outcome.run_operation stopped storage s.cancellation_generation)
    (s.outcome storage persisted s.point)

end Lifecycle

/-! ## Points -/

/-- The controls that a disposed lifecycle can be in. -/
def Control.Fits (disposed : Bool) : Control → Prop
  | .restart _ => disposed = false
  | .stop => True
  | .close => disposed = true

/-- The states and the points that go together where nothing throws. -/
def Fits (state : LifecycleState) (disposed : Bool) : Option Point → Prop
  | none => True
  | some (.restoring _) => True
  | some (.clearing control) => (∀ generation, control ≠ .restart generation) ∧ control.Fits disposed
  | some (.stopping control) => state = .stopping ∧ control.Fits disposed
  | some (.cleaning control) => state = .stopping ∧ control.Fits disposed
  | some (.cleaned control) => state = .stopping ∧ control.Fits disposed
  | some (.stopped control) => state = .stopped ∧ control.Fits disposed
  | some _ => disposed = false

theorem Fits.mark_closed {state : LifecycleState} {disposed : Bool} {point : Option Point}
    (h : Fits state disposed point) : Fits state disposed (Lifecycle.mark_closed point) := by
  cases point with
  | none => exact h
  | some point =>
      cases point with
      | starting closed => exact h
      | _ => exact h

/-! ## Outcomes -/

namespace Outcome

variable {x : Outcome} {stopped storage : Bool} {generation : ℕ}

/-- A start of a disposed lifecycle does nothing. -/
theorem start_disposed (hdisposed : x.disposed = true) (current : Bool) :
    x.start storage current = x := if_pos (Or.inl hdisposed)

/-- A start that was overtaken does nothing. -/
theorem start_stale : x.start storage false = x := if_pos (Or.inr rfl)

/-- A start of a running lifecycle does nothing. -/
theorem start_started (hstate : x.state = .running ∨ x.state = .starting ∨ x.state = .recovering)
    (current : Bool) : x.start storage current = x := by
  rw [start, if_pos hstate, ite_self]

/-- A start of a stopped lifecycle runs it. -/
theorem start_fresh (hopen : x.disposed = false)
    (hstate : ¬ (x.state = .running ∨ x.state = .starting ∨ x.state = .recovering)) :
    x.start storage true = { x with state := .running, persisted := storage } := by
  rw [start, if_neg hstate, if_neg]
  rw [hopen]
  rintro (hno | hno)
  · cases hno
  · cases hno

theorem start_steady {current : Bool} (hstate : x.state = .stopped ∨ x.state = .running) :
    (x.start storage current).state = .stopped ∨ (x.start storage current).state = .running := by
  unfold start
  split
  · exact hstate
  · split
    · exact hstate
    · exact Or.inr rfl

theorem start_disposed_eq (x : Outcome) (storage current : Bool) :
    (x.start storage current).disposed = x.disposed := by
  unfold start
  split
  · rfl
  · split
    · rfl
    · rfl

theorem restart_disposed_eq (x : Outcome) (storage current : Bool) :
    (x.restart storage current).disposed = x.disposed := by
  unfold restart
  split
  · rfl
  · split
    · rfl
    · rfl

/-- Only a close disposes. -/
theorem run_operation_disposed (x : Outcome) (operation : Operation) :
    (x.run_operation stopped storage generation operation).disposed
      = (x.disposed || operation = .control .close) := by
  rcases operation with ⟨reason, expected⟩ | expected | expected | - | -
  · have hno : (decide (Operation.start reason expected = .control .close)) = false := rfl
    rw [hno, Bool.or_false, run_operation]
    split
    · rfl
    · exact start_disposed_eq x storage _
  · have hno : (decide (Operation.restore expected = .control .close)) = false := rfl
    rw [hno, Bool.or_false, run_operation]
    split
    · exact start_disposed_eq x storage _
    · rfl
  · have hno : (decide (Operation.control (.restart expected) = .control .close)) = false := by
      simp only [Operation.control.injEq, reduceCtorEq, decide_false]
    rw [hno, Bool.or_false, run_operation]
    exact restart_disposed_eq x storage _
  · exact (Bool.or_false x.disposed).symm
  · exact (Bool.or_true x.disposed).symm

/-- Only a close among the operations disposes. -/
theorem foldl_disposed (operations : List Operation) (x : Outcome) :
    (operations.foldl (run_operation stopped storage generation) x).disposed
      = (x.disposed || operations.any fun operation => operation = .control .close) := by
  induction operations generalizing x with
  | nil => exact (Bool.or_false x.disposed).symm
  | cons operation operations ih =>
      rw [List.foldl_cons, ih, run_operation_disposed, List.any_cons, Bool.or_assoc]

/-- A closed handle does not look at the generation. -/
theorem run_operation_of_disposed (hdisposed : x.disposed = true) (operation : Operation)
    (generation' : ℕ) :
    x.run_operation stopped storage generation operation
      = x.run_operation stopped storage generation' operation := by
  rcases operation with ⟨reason, expected⟩ | expected | expected | - | -
  · simp only [run_operation, start_disposed hdisposed]
  · simp only [run_operation, start_disposed hdisposed]
  · simp only [run_operation, restart, hdisposed, if_true]
  · rfl
  · rfl

/-- What ends closed ends the same at every generation, and for every task that the `close`
finds open. -/
theorem foldl_of_disposed (operations : List Operation) (generation' : ℕ) {x x' : Outcome}
    (hsame : x.disposed = x'.disposed) (heq : x.disposed = true → x = x')
    (hdisposed :
      (operations.foldl (run_operation stopped storage generation) x).disposed = true) :
    operations.foldl (run_operation stopped storage generation) x
      = operations.foldl (run_operation stopped storage generation') x' := by
  induction operations generalizing x x' with
  | nil => exact heq hdisposed
  | cons operation operations ih =>
      apply ih _ _ hdisposed
      · rw [run_operation_disposed, run_operation_disposed, hsame]
      · intro hnew
        rw [run_operation_disposed, Bool.or_eq_true, decide_eq_true_eq] at hnew
        rcases hnew with hx | rfl
        · rw [← heq hx]
          exact run_operation_of_disposed hx operation generation'
        · rfl

end Outcome

/-! ## One operation -/

namespace Lifecycle

/-- A step of the operation under way: the calls and the queue are as they were, and the
outcome is `x`. -/
structure Leads (storage persisted' : Bool) (x : Outcome) (s s' : Lifecycle) : Prop where
  operations : s'.operations = s.operations
  generation : s'.cancellation_generation = s.cancellation_generation
  close_called : s'.close_called = s.close_called
  disposed : s'.disposed = s.disposed
  results : (∀ r ∈ s.runs, r.result ≠ .threw) → ∀ r ∈ s'.runs, r.result ≠ .threw
  fits : Fits s'.state s'.disposed s'.point
  stays : s.disposed = true → s.state = .stopped → s'.state = .stopped
  outcome : s'.outcome storage persisted' s'.point = x

section Leads

variable {storage persisted : Bool} {s : Lifecycle}

/-- A step that only goes on to the next point. -/
theorem leads_move {persisted' : Bool} {x : Outcome} {state' : LifecycleState}
    {point' : Option Point} (hfits : Fits state' s.disposed point')
    (hstays : s.disposed = true → s.state = .stopped → state' = .stopped)
    (houtcome : { s with state := state', point := point' }.outcome storage persisted' point' = x) :
    Leads storage persisted' x s { s with state := state', point := point' } where
  operations := rfl
  generation := rfl
  close_called := rfl
  disposed := rfl
  results := id
  fits := hfits
  stays := hstays
  outcome := houtcome

theorem leads_settle : Leads storage persisted (s.now persisted) s s.settle :=
  leads_move trivial (fun _ hstate => hstate) rfl

theorem leads_settle_control (control : Control) :
    Leads storage persisted (s.now persisted) s (s.settle_control control) := by
  have hsettle : Leads storage persisted (s.now persisted) s s.settle := leads_settle
  cases control with
  | restart generation => exact hsettle
  | stop => exact { hsettle with }
  | close => exact { hsettle with }

/-- `startInternal` leads to what a start comes to. -/
theorem leads_start_internal (reason : LifecycleStartReason) (expected : ℕ) :
    Leads storage persisted
      ((s.now persisted).start storage (expected = s.cancellation_generation)) s
      (s.start_internal reason expected) := by
  unfold start_internal
  by_cases hdisposed : s.disposed = true
  · rw [if_pos hdisposed, Outcome.start_disposed hdisposed]
    exact leads_settle
  rw [if_neg hdisposed]
  rw [Bool.not_eq_true] at hdisposed
  by_cases hcurrent : expected = s.cancellation_generation
  case neg =>
    rw [if_pos hcurrent, decide_eq_false hcurrent, Outcome.start_stale]
    exact leads_settle
  rw [if_neg (not_not.mpr hcurrent)]
  by_cases hstate : s.state = .running ∨ s.state = .starting ∨ s.state = .recovering
  · rw [if_pos hstate, Outcome.start_started hstate]
    exact leads_settle
  rw [if_neg hstate, decide_eq_true hcurrent, Outcome.start_fresh hdisposed hstate]
  refine leads_move hdisposed ?_ rfl
  intro hno
  exact absurd (hdisposed.symm.trans hno) Bool.false_ne_true

theorem modify_results {runs : List Run} (h : ∀ r ∈ runs, r.result ≠ .threw) (run : ℕ)
    {f : Run → Run} (hf : ∀ r, (f r).result = r.result) :
    ∀ r ∈ runs.modify run f, r.result ≠ .threw := by
  intro r hr
  obtain ⟨i, hi⟩ := List.mem_iff_getElem?.mp hr
  rcases Parties.getElem?_modify_cases hi with ⟨-, r', hr', rfl⟩ | ⟨-, hr'⟩
  · rw [hf]
    exact h r' (List.mem_of_getElem? hr')
  · exact h r (List.mem_of_getElem? hr')

theorem abort_results (h : ∀ r ∈ s.runs, r.result ≠ .threw) (run : Option ℕ) :
    ∀ r ∈ (s.abort run).runs, r.result ≠ .threw := by
  cases run with
  | none => exact h
  | some run => exact modify_results h run fun r => rfl

/-- A new run leads to the running state. -/
theorem leads_begin_run (hopen : s.disposed = false) :
    Leads storage persisted { s.now storage with state := .running } s s.begin_run where
  operations := rfl
  generation := rfl
  close_called := rfl
  disposed := rfl
  results := by
    intro h r hr
    rcases List.mem_append.mp hr with hr | hr
    · exact h r hr
    · rw [List.mem_singleton.mp hr]
      exact RunResult.noConfusion
  fits := hopen
  stays := fun hno => absurd (hopen.symm.trans hno) Bool.false_ne_true
  outcome := by
    have hnew : s.begin_run.run_aborted s.runs.length = false := by
      rw [run_aborted, begin_run, List.getElem?_concat_length]
      rfl
    show (if s.begin_run.run_aborted s.runs.length = true then _ else _) = _
    rw [hnew]
    rfl

/-- A run that is kept leads there too. -/
theorem leads_keep {run : ℕ} {r : Run} {cleanup : Bool} (hr : s.runs[run]? = some r)
    (hopen : s.disposed = false) :
    Leads storage persisted (s.outcome storage persisted (some (.running run))) s
      (s.keep run r cleanup) := by
  have haborted : s.run_aborted run = r.aborted := by
    rw [run_aborted, hr]
    rfl
  have hstays : s.disposed = true → s.state = .stopped → s.state = .stopped := fun _ hstate => hstate
  rw [outcome, haborted, keep]
  by_cases h : r.aborted = true
  · rw [if_pos h, if_pos h]
    have hmove : Leads storage persisted (s.now persisted) s
        { s with point := some (.discarding run) } := leads_move hopen hstays rfl
    refine { hmove with results := ?_ }
    intro hresults r' hr'
    dsimp only at hr'
    split at hr'
    · rcases List.mem_or_eq_of_mem_set hr' with hr' | rfl
      · exact hresults r' hr'
      · exact hresults r (List.mem_of_getElem? hr)
    · exact hresults r' hr'
  · rw [if_neg h, if_neg h]
    have hmove : Leads storage persisted { s.now storage with state := .running } s
        { s with point := some (.persisting run) } := leads_move hopen hstays rfl
    exact { hmove with }

theorem ends_congr {s' : Lifecycle} (hstate : s'.state = s.state) (hdisposed : s'.disposed = s.disposed)
    (hgeneration : s'.cancellation_generation = s.cancellation_generation) (control : Control) :
    s'.ends storage persisted control = s.ends storage persisted control := by
  cases control with
  | restart generation => simp only [ends, now, hstate, hdisposed, hgeneration]
  | stop => simp only [ends, now, hdisposed]
  | close => simp only [ends, now, hdisposed]

/-- The cleanup of a run leads to the end of its control. -/
theorem leads_run_cleanup {control : Control} (hstate : s.state = .stopping)
    (hfits : control.Fits s.disposed) :
    Leads storage persisted (s.ends storage persisted control) s (s.run_cleanup control) := by
  obtain ⟨runs, habort⟩ := abort_frame s s.controller
  have hruns : (∀ r ∈ s.runs, r.result ≠ .threw) → ∀ r ∈ runs, r.result ≠ .threw := by
    intro h
    have hnew := abort_results h s.controller
    rw [habort] at hnew
    exact hnew
  unfold run_cleanup
  rw [habort]
  cases hcleanup : s.cleanup with
  | none =>
      exact {
        operations := rfl
        generation := rfl
        close_called := rfl
        disposed := rfl
        results := hruns
        fits := ⟨hstate, hfits⟩
        stays := fun _ hstate => hstate
        outcome := ends_congr rfl rfl rfl control }
  | some run =>
      exact {
        operations := rfl
        generation := rfl
        close_called := rfl
        disposed := rfl
        results := fun h => modify_results (hruns h) run fun r => rfl
        fits := ⟨hstate, hfits⟩
        stays := fun _ hstate => hstate
        outcome := ends_congr rfl rfl rfl control }

/-- So does the storage that is cleared. -/
theorem leads_cleared {control : Control} (hcontrol : ∀ generation, control ≠ .restart generation)
    (hfits : control.Fits s.disposed) :
    Leads storage false (s.ends storage false control) s (s.cleared control) := by
  have hends (s' : Lifecycle) :
      s'.ends storage false control = { s'.now false with state := .stopped } := by
    cases control with
    | restart generation => exact absurd rfl (hcontrol generation)
    | stop => rfl
    | close => rfl
  unfold cleared
  by_cases hstopped : s.state = .stopped
  case neg =>
    rw [if_neg hstopped]
    refine leads_move ⟨rfl, hfits⟩ (fun _ hno => absurd hno hstopped) ?_
    rw [hends]
    exact hends _
  rw [if_pos hstopped, hends]
  by_cases hclose : control = .close
  · rw [if_pos hclose]
    exact leads_move ⟨rfl, hfits⟩ (fun _ _ => rfl) rfl
  · rw [if_neg hclose]
    have hnow : { s.now false with state := .stopped } = s.now false := by
      rw [now, hstopped]
    rw [hnow]
    exact leads_settle_control control

/-- And a control that goes on. -/
theorem leads_resume_control {control : Control} (hstate : s.state = .stopping)
    (hfits : control.Fits s.disposed) :
    Leads storage persisted (s.ends storage persisted control) s (s.resume_control control) := by
  cases control with
  | restart expected =>
      have hnow : s.now persisted = { state := .stopping, persisted, disposed := false } := by
        rw [now, hstate, show s.disposed = false from hfits]
      have hrestart : s.ends storage persisted (.restart expected)
          = (s.now persisted).start storage (expected = s.cancellation_generation) := by
        rw [ends, hnow]
        by_cases hcurrent : expected = s.cancellation_generation
        · rw [decide_eq_true hcurrent, Outcome.start_fresh rfl
            (by simp only [reduceCtorEq, or_self, not_false_eq_true])]
          rfl
        · rw [decide_eq_false hcurrent, Outcome.start_stale]
          rfl
      rw [hrestart]
      exact leads_start_internal .restart expected
  | stop => exact leads_move ⟨rfl, hfits⟩ (fun _ _ => rfl) rfl
  | close => exact leads_move ⟨rfl, hfits⟩ (fun _ _ => rfl) rfl

/-- And a wait that is over. -/
theorem leads_returned {s' : Lifecycle} {point : Point}
    (hfits : Fits s.state s.disposed (some point)) (hstep : s.returned point = some s') :
    Leads storage (Task.written storage persisted (some point))
      (s.outcome storage persisted (some point)) s s' := by
  cases point with
  | starting closed =>
      rw [Lifecycle.returned, Option.some.injEq] at hstep
      rw [← hstep]
      exact leads_begin_run hfits
  | persisting run =>
      rw [Lifecycle.returned, Option.some.injEq] at hstep
      rw [← hstep]
      refine leads_move hfits ?_ rfl
      intro hno
      exact absurd ((show s.disposed = false from hfits).symm.trans hno) Bool.false_ne_true
  | clearing control =>
      rw [Lifecycle.returned, Option.some.injEq] at hstep
      rw [← hstep]
      exact leads_cleared hfits.1 hfits.2
  | stopping control =>
      rw [Lifecycle.returned, Option.some.injEq] at hstep
      rw [← hstep]
      exact leads_run_cleanup hfits.1 hfits.2
  | cleaning control =>
      rw [Lifecycle.returned, Option.some.injEq] at hstep
      rw [← hstep]
      exact leads_move hfits (fun _ hstate => hstate) (ends_congr rfl rfl rfl control)
  | stopped control =>
      rw [Lifecycle.returned, Option.some.injEq] at hstep
      rw [← hstep]
      exact leads_settle_control control
  | restoring generation => cases hstep
  | running run => cases hstep
  | cleaned control => cases hstep
  -- the callbacks at the end of a start
  | discarding run =>
      rw [Lifecycle.returned, Option.some.injEq] at hstep
      rw [← hstep]
      exact leads_settle
  | announcing run =>
      rw [Lifecycle.returned, Option.some.injEq] at hstep
      rw [← hstep]
      exact leads_settle
  | failing =>
      rw [Lifecycle.returned, Option.some.injEq] at hstep
      rw [← hstep]
      exact leads_settle

/-- And the code behind it. -/
theorem leads_resume {s' : Lifecycle} {point : Point}
    (hfits : Fits s.state s.disposed (some point)) (hresults : ∀ r ∈ s.runs, r.result ≠ .threw)
    (hstep : s.resume point = some s') :
    Leads storage persisted (s.outcome storage persisted (some point)) s s' := by
  cases point with
  | running run =>
      rw [Lifecycle.resume, Option.bind_eq_some_iff] at hstep
      obtain ⟨r, hr, hstep⟩ := hstep
      have hnothrow := hresults r (List.mem_of_getElem? hr)
      cases hresult : r.result with
      | active =>
          rw [hresult] at hstep
          cases hstep
      | returned cleanup =>
          rw [hresult, Option.some.injEq] at hstep
          rw [← hstep]
          exact leads_keep hr hfits
      | threw => exact absurd hresult hnothrow
  | cleaned control =>
      rw [Lifecycle.resume, Option.some.injEq] at hstep
      rw [← hstep]
      exact leads_resume_control hfits.1 hfits.2
  | _ => cases hstep

/-- And a run that returns. -/
theorem leads_run_returned {s' : Lifecycle} {point : Point} {cleanup : Bool}
    (hfits : Fits s.state s.disposed (some point)) (hpoint : s.point = some point)
    (hstep : s.run_settled (.returned cleanup) point = some s') :
    Leads storage persisted (s.outcome storage persisted (some point)) s s' := by
  cases point with
  | running run =>
      rw [Lifecycle.run_settled, Option.bind_eq_some_iff] at hstep
      obtain ⟨r, hr, hstep⟩ := hstep
      split at hstep
      case isFalse => cases hstep
      rw [Option.some.injEq] at hstep
      have haborted : ((s.runs.set run { r with result := .returned cleanup })[run]?).any Run.aborted
          = s.run_aborted run := by
        rw [run_aborted, List.getElem?_set_self (Parties.lt_of_getElem? hr), hr]
        rfl
      rw [← hstep]
      exact {
        operations := rfl
        generation := rfl
        close_called := rfl
        disposed := rfl
        results := by
          intro hresults r' hr'
          rcases List.mem_or_eq_of_mem_set hr' with hr' | rfl
          · exact hresults r' hr'
          · exact RunResult.noConfusion
        fits := by rw [hpoint]; exact hfits
        stays := fun _ hstate => hstate
        outcome := by
          rw [hpoint, Lifecycle.outcome, Lifecycle.outcome, ← haborted]
          rfl }
  | _ => cases hstep

/-- A flag that is read is the one stored. -/
theorem leads_get_item {s' : Lifecycle} (hstep : s.step (.get_item persisted) = some s') :
    Leads storage persisted (s.outcome storage persisted s.point) s s' := by
  rw [Lifecycle.step] at hstep
  split at hstep
  case h_2 => cases hstep
  next expected hpoint =>
  rw [Option.some.injEq] at hstep
  rw [← hstep, hpoint]
  cases persisted with
  | false => exact leads_settle
  | true => exact leads_start_internal .restore expected

/-- `close` disposes of the handle as it begins. -/
def entering (s : Lifecycle) (operation : Operation) : Lifecycle :=
  { s with disposed := s.disposed || operation = .control .close }

theorem entering_open {operation : Operation} (hoperation : operation ≠ .control .close) :
    s.entering operation = s := by
  rw [entering, decide_eq_false hoperation, Bool.or_false]

/-- **The next operation** leads to what it is forecast to. -/
theorem leads_begin_operation (operation : Operation)
    (hrestart : ∀ generation, operation = .control (.restart generation) → s.disposed = false) :
    Leads storage persisted
      ((s.now persisted).run_operation false storage s.cancellation_generation operation)
      (s.entering operation) (s.begin_operation operation) := by
  rcases operation with ⟨reason, expected⟩ | expected | expected | - | -
  · rw [entering_open (fun hno => by cases hno)]
    exact leads_start_internal reason expected
  · rw [entering_open (fun hno => by cases hno)]
    exact leads_move trivial (fun _ hstate => hstate) rfl
  · have hopen := hrestart expected rfl
    rw [entering_open (fun hno => by cases hno)]
    refine leads_move ⟨rfl, hopen⟩ ?_ ?_
    · intro hno
      exact absurd (hopen.symm.trans hno) Bool.false_ne_true
    · show Outcome.restart _ _ _ = Outcome.restart _ _ _
      simp only [Outcome.restart, now, hopen, if_neg Bool.false_ne_true]
  · rw [entering_open (fun hno => by cases hno)]
    exact leads_move ⟨fun generation hno => (by cases hno), trivial⟩ (fun _ hstate => hstate) rfl
  · have hentering : s.entering (.control .close) = { s with disposed := true } := by
      rw [entering, decide_eq_true rfl, Bool.or_true]
    rw [hentering]
    exact leads_move ⟨fun generation hno => (by cases hno), rfl⟩ (fun _ hstate => hstate) rfl

end Leads

/-! ## The whole queue -/

section Forecast

variable {stopped storage persisted : Bool} {s : Lifecycle}

theorem outcome_disposed (s : Lifecycle) (storage persisted : Bool) (point : Option Point) :
    (s.outcome storage persisted point).disposed = s.disposed := by
  have hends (persisted : Bool) (control : Control) :
      (s.ends storage persisted control).disposed = s.disposed := by
    cases control with
    | restart generation => exact Outcome.restart_disposed_eq _ _ _
    | stop => rfl
    | close => rfl
  cases point with
  | none => rfl
  | some point =>
      cases point with
      | restoring expected =>
          rw [outcome]
          split
          · exact Outcome.start_disposed_eq _ _ _
          · rfl
      | running run =>
          rw [outcome]
          split
          · rfl
          · rfl
      | clearing control => exact hends false control
      | stopping control => exact hends persisted control
      | cleaning control => exact hends persisted control
      | cleaned control => exact hends persisted control
      | _ => rfl

theorem forecast_disposed (s : Lifecycle) (stopped storage persisted : Bool) :
    (s.forecast stopped storage persisted).disposed
      = (s.disposed || s.operations.any fun operation => operation = .control .close) := by
  rw [forecast, Outcome.foldl_disposed, outcome_disposed]

/-- An operation more is the last one of the forecast. -/
theorem forecast_enqueue (operation : Operation) :
    (s.enqueue operation).forecast stopped storage persisted
      = (s.forecast stopped storage persisted).run_operation stopped storage
          s.cancellation_generation operation := by
  rw [forecast, enqueue, List.foldl_append]
  rfl

/-- What leads to the outcome leaves the forecast. -/
theorem Leads.forecast {persisted' : Bool} {s' : Lifecycle}
    (h : Leads storage persisted' (s.outcome storage persisted s.point) s s') :
    s'.forecast stopped storage persisted' = s.forecast stopped storage persisted := by
  rw [Lifecycle.forecast, Lifecycle.forecast, h.operations, h.generation, h.outcome]

/-- A disposed handle has nothing that an abort could change. -/
theorem outcome_abort_current (hfits : Fits s.state s.disposed s.point) (hdisposed : s.disposed = true) :
    s.abort_current.outcome storage persisted s.point = s.outcome storage persisted s.point := by
  obtain ⟨runs, habort⟩ :=
    abort_frame { s with cancellation_generation := s.cancellation_generation + 1 } s.controller
  have hnow (persisted : Bool) : s.abort_current.now persisted = s.now persisted := by
    rw [abort_current, habort]
    rfl
  have hends (persisted : Bool) (control : Control) (hcontrol : control.Fits s.disposed) :
      s.abort_current.ends storage persisted control = s.ends storage persisted control := by
    cases control with
    | restart generation => exact absurd (hdisposed.symm.trans hcontrol) Bool.noConfusion
    | stop => simp only [ends, hnow]
    | close => simp only [ends, hnow]
  have hopen (h : s.disposed = false) :
      s.abort_current.outcome storage persisted s.point = s.outcome storage persisted s.point :=
    absurd (hdisposed.symm.trans h) Bool.noConfusion
  cases hpoint : s.point with
  | none => exact hnow persisted
  | some point =>
      rw [hpoint] at hfits hopen
      cases point with
      | restoring expected =>
          have hx : (s.now persisted).disposed = true := hdisposed
          simp only [outcome, hnow, Outcome.start_disposed hx]
      | clearing control => exact hends false control hfits.2
      | stopping control => exact hends persisted control hfits.2
      | cleaning control => exact hends persisted control hfits.2
      | cleaned control => exact hends persisted control hfits.2
      | stopped control => exact hnow persisted
      | _ => exact hopen hfits

theorem abort_current_eq (s : Lifecycle) :
    ∃ runs, s.abort_current
        = { s with cancellation_generation := s.cancellation_generation + 1, runs := runs } ∧
      ((∀ r ∈ s.runs, r.result ≠ .threw) → ∀ r ∈ runs, r.result ≠ .threw) := by
  obtain ⟨runs, habort⟩ :=
    abort_frame { s with cancellation_generation := s.cancellation_generation + 1 } s.controller
  refine ⟨runs, habort, fun h => ?_⟩
  have hbefore : ∀ r ∈ { s with cancellation_generation := s.cancellation_generation + 1 }.runs,
      r.result ≠ .threw := h
  have hafter := abort_results hbefore s.controller
  rw [habort] at hafter
  exact hafter

/-- The calls before it do not matter to a queue that ends closed. -/
theorem forecast_abort_current (hfits : Fits s.state s.disposed s.point)
    (hdisposed : (s.forecast stopped storage persisted).disposed = true) :
    s.abort_current.forecast stopped storage persisted = s.forecast stopped storage persisted := by
  obtain ⟨runs, habort, -⟩ := abort_current_eq s
  have hpoint : s.abort_current.point = s.point := by rw [habort]
  have hoperations : s.abort_current.operations = s.operations := by rw [habort]
  have hsame : s.abort_current.disposed = s.disposed := by rw [habort]
  rw [forecast, forecast, hpoint, hoperations]
  symm
  apply Outcome.foldl_of_disposed s.operations _ _ _ hdisposed
  · rw [outcome_disposed, outcome_disposed, hsame]
  · intro hnow
    rw [outcome_disposed] at hnow
    exact (outcome_abort_current hfits hnow).symm

end Forecast
end Lifecycle

/-! ## Every run -/

namespace Task

/-- What the task comes to when all its operations are done. -/
def forecast (t : Task) (options : LifecycleOptions) (stopped : Bool) : Outcome :=
  t.lifecycle.forecast stopped options.storage t.persisted

/-- What the last call asks for is what the queue leads to. After a `stop` this leaves out the
starts for visibility events, which are not to begin. -/
structure Inv (options : LifecycleOptions) (t : Task) : Prop where
  results : ∀ r ∈ t.lifecycle.runs, r.result ≠ .threw
  fits : Fits t.lifecycle.state t.lifecycle.disposed t.lifecycle.point
  close_called : t.lifecycle.close_called
    = (t.lifecycle.disposed || t.lifecycle.operations.any fun operation => operation = .control .close)
  settled : t.settled = true → t.lifecycle.disposed = true ∧ t.lifecycle.state = .stopped
  steady : (t.forecast options false).state = .stopped ∨ (t.forecast options false).state = .running
  requested : t.last = some .start ∨ t.last = some .restart →
    (t.forecast options false).state = .running
  revoked : t.last = some .stop →
    (t.forecast options true).state = .stopped ∧ (t.forecast options true).persisted = false
  closed : t.last = some .close → t.lifecycle.close_called = true ∧
    (t.forecast options false).state = .stopped ∧ (t.forecast options false).persisted = false

section Inv

variable {options : LifecycleOptions} {t : Task}

theorem inv_opened (options : LifecycleOptions) (persisted : Bool) :
    Inv options (opened options persisted) where
  results := fun r hno => (by cases hno)
  fits := trivial
  close_called := rfl
  settled := fun hno => (by cases hno)
  steady := Or.inl rfl
  requested := by
    rintro (hno | hno)
    · cases hno
    · cases hno
  revoked := fun hno => (by cases hno)
  closed := fun hno => (by cases hno)

theorem forecast_disposed (h : Inv options t) (stopped : Bool) :
    (t.forecast options stopped).disposed = t.lifecycle.close_called := by
  rw [forecast, Lifecycle.forecast_disposed, h.close_called]

/-- The operation under way goes on. -/
theorem Inv.leads (h : Inv options t) {s' : Lifecycle} {persisted' settled' : Bool}
    (hleads : Lifecycle.Leads options.storage persisted'
      (t.lifecycle.outcome options.storage t.persisted t.lifecycle.point) t.lifecycle s')
    (hsettled : settled' = true → t.lifecycle.disposed = true ∧ t.lifecycle.state = .stopped) :
    Inv options { t with lifecycle := s', persisted := persisted', settled := settled' } := by
  have hforecast (stopped : Bool) :
      s'.forecast stopped options.storage persisted' = t.forecast options stopped := hleads.forecast
  refine ⟨hleads.results h.results, hleads.fits, ?_, ?_, ?_, ?_, ?_, ?_⟩
  · show s'.close_called = _
    rw [hleads.close_called, hleads.disposed, hleads.operations]
    exact h.close_called
  · intro hyes
    obtain ⟨hdisposed, hstate⟩ := hsettled hyes
    exact ⟨hleads.disposed.trans hdisposed, hleads.stays hdisposed hstate⟩
  · rw [forecast, hforecast]
    exact h.steady
  · rw [forecast, hforecast]
    exact h.requested
  · rw [forecast, hforecast]
    exact h.revoked
  · rw [forecast, hforecast]
    show t.last = some .close → s'.close_called = true ∧ _
    rw [hleads.close_called]
    exact h.closed

theorem Inv.close_called_enqueue (h : Inv options t) {operation : Operation}
    (hclose : operation ≠ .control .close) :
    t.lifecycle.close_called = (t.lifecycle.disposed ||
      (t.lifecycle.operations ++ [operation]).any fun operation => operation = .control .close) := by
  rw [List.any_append, List.any_cons, List.any_nil, decide_eq_false hclose, Bool.or_false,
    Bool.or_false]
  exact h.close_called

/-- Something is queued that what was asked for does not notice. -/
theorem Inv.enqueue (h : Inv options t) {operation : Operation}
    (hclose : operation ≠ .control .close)
    (hsteady : ∀ y, y = (t.forecast options false).run_operation false options.storage
        t.lifecycle.cancellation_generation operation → y.state = .stopped ∨ y.state = .running)
    (hkeep : ∀ stopped, t.last ≠ none → (t.last = some .stop ↔ stopped = true) →
      (t.forecast options stopped).run_operation stopped options.storage
        t.lifecycle.cancellation_generation operation = t.forecast options stopped) :
    Inv options { t with lifecycle := t.lifecycle.enqueue operation } := by
  have hforecast (stopped : Bool) :
      (t.lifecycle.enqueue operation).forecast stopped options.storage t.persisted
        = (t.forecast options stopped).run_operation stopped options.storage
          t.lifecycle.cancellation_generation operation := Lifecycle.forecast_enqueue operation
  have hother {control_call : ControlCall} (hlast : t.last = some control_call)
      (hne : control_call ≠ .stop) :
      (t.forecast options false).run_operation false options.storage
        t.lifecycle.cancellation_generation operation = t.forecast options false := by
    apply hkeep false (hlast ▸ Option.some_ne_none _)
    rw [hlast, Option.some.injEq]
    exact iff_of_false hne Bool.false_ne_true
  refine ⟨h.results, h.fits, h.close_called_enqueue hclose, h.settled, ?_, ?_, ?_, ?_⟩
  · rw [forecast, hforecast]
    exact hsteady _ rfl
  · intro hlast
    rw [forecast, hforecast]
    rcases hlast with hlast | hlast
    · rw [hother hlast ControlCall.noConfusion]
      exact h.requested (Or.inl hlast)
    · rw [hother hlast ControlCall.noConfusion]
      exact h.requested (Or.inr hlast)
  · intro hlast
    have hnone : t.last ≠ none := hlast ▸ Option.some_ne_none _
    rw [forecast, hforecast, hkeep true hnone (iff_of_true hlast rfl)]
    exact h.revoked hlast
  · intro hlast
    rw [forecast, hforecast, hother hlast ControlCall.noConfusion]
    exact h.closed hlast

/-- What was asked for, as one of three cases. -/
theorem Inv.agrees (h : Inv options t) {stopped : Bool} (hlast : t.last ≠ none)
    (hstopped : t.last = some .stop ↔ stopped = true) :
    (t.forecast options stopped).state = .running ∨
      stopped = true ∧ (t.forecast options stopped).persisted = false ∨
      (t.forecast options stopped).persisted = false ∧
        (t.forecast options stopped).disposed = true := by
  obtain ⟨control_call, hcall⟩ := Option.ne_none_iff_exists'.mp hlast
  by_cases hstop : control_call = .stop
  · rw [hcall, hstop] at hstopped
    rw [hstop] at hcall
    rw [hstopped.mp rfl]
    exact Or.inr (Or.inl ⟨rfl, (h.revoked hcall).2⟩)
  · rw [hcall, Option.some.injEq] at hstopped
    rw [Bool.eq_false_iff.mpr fun hno => hstop (hstopped.mpr hno)]
    cases control_call with
    | start => exact Or.inl (h.requested (Or.inl hcall))
    | restart => exact Or.inl (h.requested (Or.inr hcall))
    | stop => exact absurd rfl hstop
    | close =>
        obtain ⟨hcalled, -, hpersisted⟩ := h.closed hcall
        exact Or.inr (Or.inr ⟨hpersisted, (forecast_disposed h false).trans hcalled⟩)

/-- The call of `restore`. -/
theorem Inv.restore (h : Inv options t) :
    Inv options { t with
      lifecycle := t.lifecycle.enqueue (.restore t.lifecycle.cancellation_generation) } := by
  apply h.enqueue (fun hno => by cases hno)
  · rintro y rfl
    rw [Outcome.run_operation]
    split
    · exact Outcome.start_steady h.steady
    · exact h.steady
  · intro stopped hlast hstopped
    rw [Outcome.run_operation]
    split
    case isFalse => rfl
    next hpersisted =>
    rcases h.agrees hlast hstopped with hstate | ⟨-, hno⟩ | ⟨hno, -⟩
    · exact Outcome.start_started (Or.inl hstate) _
    · exact absurd (hno.symm.trans hpersisted) Bool.false_ne_true
    · exact absurd (hno.symm.trans hpersisted) Bool.false_ne_true

theorem Inv.visible (h : Inv options t) :
    Inv options { t with
      lifecycle := t.lifecycle.enqueue (.start .visible t.lifecycle.cancellation_generation) } := by
  apply h.enqueue (fun hno => by cases hno)
  · rintro y rfl
    rw [Outcome.run_operation, if_neg (fun hno => Bool.false_ne_true hno.1)]
    exact Outcome.start_steady h.steady
  · intro stopped hlast hstopped
    rw [Outcome.run_operation]
    split
    case isTrue => rfl
    next hskip =>
    rcases h.agrees hlast hstopped with hstate | ⟨hyes, -⟩ | ⟨-, hdisposed⟩
    · exact Outcome.start_started (Or.inl hstate) _
    · exact absurd ⟨hyes, rfl⟩ hskip
    · exact Outcome.start_disposed hdisposed _

theorem call_eq (t : Task) {control_call : ControlCall} (s : Lifecycle)
    (hcall : ¬ ((control_call = .start ∨ control_call = .restart) ∧
      t.lifecycle.close_called = true)) :
    t.call control_call s = { t with lifecycle := s, last := some control_call } := by
  rw [call, if_neg hcall]

/-- A start of a closed task is refused. -/
theorem call_closed (t : Task) {control_call : ControlCall} (s : Lifecycle)
    (hcall : control_call = .start ∨ control_call = .restart)
    (hclosed : t.lifecycle.close_called = true) :
    t.call control_call s = { t with lifecycle := s } := by
  rw [call, if_pos ⟨hcall, hclosed⟩]

/-- The call of `start`. -/
theorem Inv.start (h : Inv options t) :
    Inv options (t.call .start
      (t.lifecycle.enqueue (.start .start t.lifecycle.cancellation_generation))) := by
  have hforecast (stopped : Bool) :
      (t.forecast options stopped).run_operation stopped options.storage
          t.lifecycle.cancellation_generation (.start .start t.lifecycle.cancellation_generation)
        = (t.forecast options stopped).start options.storage true := by
    rw [Outcome.run_operation, if_neg (fun hno => by cases hno.2), decide_eq_true rfl]
  by_cases hclosed : t.lifecycle.close_called = true
  · rw [call_closed t _ (Or.inl rfl) hclosed]
    have hkeep (stopped : Bool) : (t.forecast options stopped).start options.storage true
        = t.forecast options stopped :=
      Outcome.start_disposed ((forecast_disposed h stopped).trans hclosed) true
    apply h.enqueue (fun hno => by cases hno)
    · rintro y rfl
      rw [hforecast, hkeep]
      exact h.steady
    · intro stopped _ _
      rw [hforecast, hkeep]
  · rw [call_eq t _ (fun hno => hclosed hno.2)]
    have hopen : (t.forecast options false).disposed = false := by
      rw [forecast_disposed h false, Bool.eq_false_iff]
      exact hclosed
    have hrunning : ((t.lifecycle.enqueue (.start .start
        t.lifecycle.cancellation_generation)).forecast false options.storage t.persisted).state
          = .running := by
      rw [Lifecycle.forecast_enqueue]
      show ((t.forecast options false).run_operation _ _ _ _).state = _
      rw [hforecast]
      rcases h.steady with hstate | hstate
      · rw [Outcome.start_fresh hopen (by rw [hstate]; decide)]
      · rw [Outcome.start_started (Or.inl hstate)]
        exact hstate
    refine ⟨h.results, h.fits, h.close_called_enqueue (fun hno => by cases hno), h.settled,
      Or.inr hrunning, fun _ => hrunning, ?_, ?_⟩
    · intro hno
      cases hno
    · intro hno
      cases hno

/-- `abortCurrent` with the operation that it makes room for. -/
theorem Inv.cancel (h : Inv options t) {operation : Operation}
    (hclose : operation ≠ .control .close) {last : Option ControlCall}
    (hsteady : ((t.lifecycle.abort_current.enqueue operation).forecast false options.storage
        t.persisted).state = .stopped ∨
      ((t.lifecycle.abort_current.enqueue operation).forecast false options.storage
        t.persisted).state = .running)
    (hrequested : last = some .start ∨ last = some .restart →
      ((t.lifecycle.abort_current.enqueue operation).forecast false options.storage
        t.persisted).state = .running)
    (hrevoked : last = some .stop →
      ((t.lifecycle.abort_current.enqueue operation).forecast true options.storage
        t.persisted).state = .stopped ∧
      ((t.lifecycle.abort_current.enqueue operation).forecast true options.storage
        t.persisted).persisted = false)
    (hclosed : last = some .close → t.lifecycle.close_called = true ∧
      ((t.lifecycle.abort_current.enqueue operation).forecast false options.storage
        t.persisted).state = .stopped ∧
      ((t.lifecycle.abort_current.enqueue operation).forecast false options.storage
        t.persisted).persisted = false) :
    Inv options { t with lifecycle := t.lifecycle.abort_current.enqueue operation, last } := by
  have hcalled := h.close_called_enqueue hclose
  obtain ⟨runs, habort, hresults⟩ := Lifecycle.abort_current_eq t.lifecycle
  refine ⟨?_, ?_, ?_, ?_, hsteady, hrequested, hrevoked, ?_⟩
  · rw [habort]
    exact hresults h.results
  · rw [habort]
    exact h.fits
  · rw [habort]
    exact hcalled
  · rw [habort]
    exact h.settled
  · rw [habort] at hclosed ⊢
    exact hclosed

/-- The call of `stop`. -/
theorem Inv.stop (h : Inv options t) :
    Inv options (t.call .stop (t.lifecycle.abort_current.enqueue (.control .stop))) := by
  have hforecast (stopped : Bool) :
      (t.lifecycle.abort_current.enqueue (.control .stop)).forecast stopped options.storage t.persisted
        = { t.lifecycle.abort_current.forecast stopped options.storage t.persisted with
            state := .stopped, persisted := false } := Lifecycle.forecast_enqueue _
  rw [call_eq t _ (by rintro ⟨hno | hno, -⟩ <;> cases hno)]
  apply h.cancel (fun hno => by cases hno)
  · rw [hforecast]
    exact Or.inl rfl
  · rintro (hno | hno)
    · cases hno
    · cases hno
  · intro _
    rw [hforecast]
    exact ⟨rfl, rfl⟩
  · intro hno
    cases hno

/-- The call of `restart`. -/
theorem Inv.restart (h : Inv options t) :
    Inv options (t.call .restart (t.lifecycle.abort_current.enqueue
      (.control (.restart t.lifecycle.abort_current.cancellation_generation)))) := by
  have hforecast (stopped : Bool) :
      (t.lifecycle.abort_current.enqueue
          (.control (.restart t.lifecycle.abort_current.cancellation_generation))).forecast
          stopped options.storage t.persisted
        = (t.lifecycle.abort_current.forecast stopped options.storage t.persisted).restart
            options.storage true := by
    rw [Lifecycle.forecast_enqueue, Outcome.run_operation, decide_eq_true rfl]
  have hdisposed (stopped : Bool) :
      (t.lifecycle.abort_current.forecast stopped options.storage t.persisted).disposed
        = t.lifecycle.close_called := by
    obtain ⟨runs, habort, -⟩ := Lifecycle.abort_current_eq t.lifecycle
    rw [Lifecycle.forecast_disposed, habort, h.close_called]
  by_cases hcalled : t.lifecycle.close_called = true
  · -- the restart is queued behind the `close`
    have hkeep (stopped : Bool) :
        (t.lifecycle.abort_current.enqueue
          (.control (.restart t.lifecycle.abort_current.cancellation_generation))).forecast
          stopped options.storage t.persisted = t.forecast options stopped := by
      rw [hforecast, Outcome.restart, if_pos ((hdisposed stopped).trans hcalled)]
      exact Lifecycle.forecast_abort_current h.fits ((forecast_disposed h stopped).trans hcalled)
    rw [call_closed t _ (Or.inr rfl) hcalled]
    apply h.cancel (fun hno => by cases hno)
    · rw [hkeep]
      exact h.steady
    · rw [hkeep]
      exact h.requested
    · rw [hkeep]
      exact h.revoked
    · rw [hkeep]
      exact h.closed
  · have hopen : (t.lifecycle.abort_current.forecast false options.storage t.persisted).disposed
        = false := by
      rw [hdisposed, Bool.eq_false_iff]
      exact hcalled
    have hrunning : ((t.lifecycle.abort_current.enqueue
        (.control (.restart t.lifecycle.abort_current.cancellation_generation))).forecast
        false options.storage t.persisted).state = .running := by
      rw [hforecast, Outcome.restart, hopen]
      rfl
    rw [call_eq t _ (fun hno => hcalled hno.2)]
    apply h.cancel (fun hno => by cases hno)
    · exact Or.inr hrunning
    · exact fun _ => hrunning
    · intro hno
      cases hno
    · intro hno
      cases hno

/-- The call of `close`. -/
theorem Inv.close (h : Inv options t) :
    Inv options (t.call .close { t.lifecycle.abort_current.enqueue (.control .close) with
      close_called := true
      point := Lifecycle.mark_closed t.lifecycle.point }) := by
  obtain ⟨runs, habort, hresults⟩ := Lifecycle.abort_current_eq t.lifecycle
  rw [call_eq t _ (by rintro ⟨hno | hno, -⟩ <;> cases hno), habort]
  have hforecast (stopped : Bool) : Lifecycle.forecast
      { { t.lifecycle with
          cancellation_generation := t.lifecycle.cancellation_generation + 1
          runs := runs }.enqueue (.control .close) with
        close_called := true
        point := Lifecycle.mark_closed t.lifecycle.point } stopped options.storage t.persisted
      = { state := .stopped, persisted := false, disposed := true } := by
    rw [Lifecycle.forecast, Lifecycle.enqueue, List.foldl_append]
    rfl
  refine ⟨hresults h.results, h.fits.mark_closed, ?_, h.settled, ?_, ?_, ?_, ?_⟩
  · show true = (_ || (t.lifecycle.operations ++ [_]).any _)
    rw [List.any_append, List.any_cons, decide_eq_true rfl, Bool.true_or, Bool.or_true, Bool.or_true]
  · rw [forecast, hforecast]
    exact Or.inl rfl
  · rintro (hno | hno)
    · cases hno
    · cases hno
  · intro hno
    cases hno
  · intro _
    rw [forecast, hforecast]
    exact ⟨rfl, rfl, rfl⟩

/-- Behind a stop no operation but those of the condition brings the task back. -/
theorem run_operation_stopped (options : LifecycleOptions) {operation : Operation} (hlast : t.last = some .stop)
    (hback : t.brings_back operation = false) :
    (t.lifecycle.now t.persisted).run_operation true options.storage
        t.lifecycle.cancellation_generation operation
      = (t.lifecycle.now t.persisted).run_operation false options.storage
        t.lifecycle.cancellation_generation operation := by
  rcases operation with ⟨reason, expected⟩ | expected | control
  case start =>
    by_cases hvisible : reason = .visible
    · subst hvisible
      rw [Outcome.run_operation, if_pos ⟨rfl, rfl⟩, Outcome.run_operation,
        if_neg (fun hno => Bool.false_ne_true hno.1)]
      by_cases hdisposed : t.lifecycle.disposed = true
      · exact (Outcome.start_disposed hdisposed _).symm
      · have hstale : ¬ expected = t.lifecycle.cancellation_generation := by
          intro hcurrent
          rw [Bool.not_eq_true] at hdisposed
          exact of_decide_eq_false hback ⟨hlast, hdisposed, hcurrent⟩
        rw [decide_eq_false hstale]
        exact Outcome.start_stale.symm
    · rw [Outcome.run_operation, if_neg (fun hno => hvisible hno.2), Outcome.run_operation,
        if_neg (fun hno => hvisible hno.2)]
  case restore => rfl
  case control =>
    cases control with
    | restart generation => rfl
    | stop => rfl
    | close => rfl

/-- The next operation of the queue. -/
theorem Inv.begin_operation (h : Inv options t) (hpoint : t.lifecycle.point = none)
    {operation : Operation} {operations : List Operation}
    (hoperations : t.lifecycle.operations = operation :: operations)
    (hback : t.brings_back operation = false) :
    Inv options { t with
      lifecycle := { t.lifecycle with operations := operations }.begin_operation operation } := by
  have hrestart : ∀ generation, operation = .control (.restart generation) →
      t.lifecycle.disposed = false := by
    rintro generation rfl
    exact hback
  obtain ⟨hqueue, hgeneration, hcalled, hdisposed, hresults, hfits, hstays, houtcome⟩ :
      Lifecycle.Leads options.storage t.persisted _
        ({ t.lifecycle with operations := operations }.entering operation) _ :=
    Lifecycle.leads_begin_operation (s := { t.lifecycle with operations := operations }) operation
      hrestart
  have hforecast (stopped : Bool) (hstopped : stopped = true → t.last = some .stop) :
      ({ t.lifecycle with operations := operations }.begin_operation operation).forecast stopped
          options.storage t.persisted = t.forecast options stopped := by
    rw [forecast, Lifecycle.forecast, Lifecycle.forecast, hqueue, hgeneration, houtcome, hoperations,
      hpoint, List.foldl_cons]
    cases stopped with
    | false => rfl
    | true =>
        have hx := run_operation_stopped options (hstopped rfl) hback
        exact congrArg (fun x => operations.foldl _ x) hx.symm
  have hno {p : Prop} (hno : false = true) : p := absurd hno Bool.false_ne_true
  refine ⟨hresults h.results, hfits, ?_, ?_, ?_, ?_, ?_, ?_⟩
  · rw [hcalled, hdisposed, hqueue]
    show t.lifecycle.close_called = ((_ || _) || operations.any _)
    rw [h.close_called, hoperations, List.any_cons, Bool.or_assoc]
  · intro hsettled
    obtain ⟨hclosed, hstate⟩ := h.settled hsettled
    refine ⟨?_, hstays ?_ hstate⟩
    · rw [hdisposed]
      show (_ || _) = true
      rw [hclosed, Bool.true_or]
    · show (_ || _) = true
      rw [hclosed, Bool.true_or]
  · rw [forecast, hforecast false hno]
    exact h.steady
  · rw [forecast, hforecast false hno]
    exact h.requested
  · intro hlast
    rw [forecast, hforecast true fun _ => hlast]
    exact h.revoked hlast
  · rw [forecast, hforecast false hno, hcalled]
    exact h.closed

end Inv

/-- **One step** keeps the invariant where it meets the condition. -/
theorem inv_step {options : LifecycleOptions} {t t' : Task} {a : Event} (h : Inv options t)
    (hmeets : Undisturbed t a) (hstep : step options t a = some t') : Inv options t' := by
  cases a with
  | start =>
      rw [step, Lifecycle.step, Option.map_some, Option.some.injEq] at hstep
      exact hstep ▸ h.start
  | restore =>
      rw [step, Lifecycle.step, Option.map_some, Option.some.injEq] at hstep
      exact hstep ▸ h.restore
  | restart =>
      rw [step, Lifecycle.step, Option.map_some, Option.some.injEq] at hstep
      exact hstep ▸ h.restart
  | stop =>
      rw [step, Lifecycle.step, Option.map_some, Option.some.injEq] at hstep
      exact hstep ▸ h.stop
  | close =>
      rw [step, Lifecycle.step, Option.map_some, Option.some.injEq] at hstep
      exact hstep ▸ h.close
  | visible document_visible =>
      rw [step] at hstep
      -- the handler returns early three times, and each time nothing is queued
      by_cases hskip : options.restore_on_visible = false ∨ t.lifecycle.disposed = true
      · rw [if_pos hskip, Option.some.injEq] at hstep
        exact hstep ▸ h
      rw [if_neg hskip] at hstep
      by_cases hhidden : document_visible = false
      · rw [if_pos hhidden, Option.some.injEq] at hstep
        exact hstep ▸ h
      rw [if_neg hhidden] at hstep
      by_cases hflag : t.persisted = false
      · rw [if_pos hflag, Option.some.injEq] at hstep
        exact hstep ▸ h
      rw [if_neg hflag, Lifecycle.step, if_neg fun hno => hskip (Or.inr hno), Option.map_some,
        Option.some.injEq] at hstep
      exact hstep ▸ h.visible
  | begin_operation =>
      rw [step, Option.map_eq_some_iff] at hstep
      obtain ⟨s', hs', rfl⟩ := hstep
      rw [Lifecycle.step] at hs'
      split at hs'
      case h_2 => cases hs'
      next operation operations hpoint hoperations =>
      rw [Option.some.injEq] at hs'
      rw [← hs']
      apply h.begin_operation hpoint hoperations
      apply hmeets rfl
      rw [hoperations, List.head?_cons]
  | get_item =>
      rw [step, Option.map_eq_some_iff] at hstep
      obtain ⟨s', hs', rfl⟩ := hstep
      exact h.leads (Lifecycle.leads_get_item hs') h.settled
  | run_returned cleanup =>
      rw [step, Option.map_eq_some_iff] at hstep
      obtain ⟨s', hs', rfl⟩ := hstep
      rw [Lifecycle.step, Option.bind_eq_some_iff] at hs'
      obtain ⟨point, hpoint, hs'⟩ := hs'
      apply h.leads _ h.settled
      have hfits := h.fits
      rw [hpoint] at hfits ⊢
      exact Lifecycle.leads_run_returned hfits hpoint hs'
  | resume =>
      rw [step, Option.map_eq_some_iff] at hstep
      obtain ⟨s', hs', rfl⟩ := hstep
      rw [Lifecycle.step, Option.bind_eq_some_iff] at hs'
      obtain ⟨point, hpoint, hs'⟩ := hs'
      apply h.leads _ h.settled
      have hfits := h.fits
      rw [hpoint] at hfits ⊢
      exact Lifecycle.leads_resume hfits h.results hs'
  | returned =>
      rw [step, Option.map_eq_some_iff] at hstep
      obtain ⟨s', hs', rfl⟩ := hstep
      rw [Lifecycle.step, Option.bind_eq_some_iff] at hs'
      obtain ⟨point, hpoint, hs'⟩ := hs'
      have hfits := h.fits
      apply h.leads
      · rw [hpoint] at hfits ⊢
        exact Lifecycle.leads_returned hfits hs'
      · intro hsettled
        rw [Bool.or_eq_true, decide_eq_true_eq] at hsettled
        rcases hsettled with hsettled | hclose
        · exact h.settled hsettled
        · rw [hclose] at hfits
          exact ⟨hfits.2, hfits.1⟩

/-- **The forecast comes true**: a task that is idle is in the state that was asked for. -/
theorem Inv.settles {options : LifecycleOptions} {t : Task} (h : Inv options t) : Settles t := by
  have hidle (stopped : Bool) (hempty : t.idle) :
      t.forecast options stopped = t.lifecycle.now t.persisted := by
    rw [forecast, Lifecycle.forecast, hempty.1, hempty.2]
    rfl
  refine ⟨?_, ?_, fun hsettled => (h.settled hsettled).2⟩
  · intro hempty hlast
    have hstate := h.requested hlast
    rw [hidle false hempty] at hstate
    exact hstate
  · rintro hempty (hlast | hlast)
    · have hstopped := h.revoked hlast
      rw [hidle true hempty] at hstopped
      exact hstopped
    · have hstopped := (h.closed hlast).2
      rw [hidle false hempty] at hstopped
      exact hstopped

end Task

/-- In every run in which no operation brings the task back, it settles in the requested state. -/
theorem lifecycle_settles (options : LifecycleOptions) (persisted : Bool) (l : List Event) (t : Task)
    (hmeets : Along (Task.step options) Undisturbed (Task.opened options persisted) l)
    (hrun : run (Task.step options) (Task.opened options persisted) l = some t) : Settles t :=
  (along_invariant (fun _ _ _ h hm hs => Task.inv_step h hm hs) (Task.inv_opened options persisted)
    hmeets hrun).settles

/-- A start, a `stop` while the run is pending, a visibility event that finds no flag, a restart
while the second run is pending, and a `close`. -/
theorem lifecycle_settles_closed : ∃ l t,
    run (Task.step ⟨true, true⟩) (Task.opened ⟨true, true⟩ false) l = some t ∧ t.idle ∧
      t.last = some .close ∧ t.settled = true ∧ t.lifecycle.runs.length = 3 ∧ Settles t := by
  obtain ⟨l, t, hrun, hmeets, hidle, hlast, hsettled, hruns⟩ : ∃ l t,
      run (Task.step ⟨true, true⟩) (Task.opened ⟨true, true⟩ false) l = some t ∧
        Along (Task.step ⟨true, true⟩) Undisturbed (Task.opened ⟨true, true⟩ false) l ∧
        t.idle ∧ t.last = some .close ∧ t.settled = true ∧ t.lifecycle.runs.length = 3 := by
    refine ⟨[.start, .begin_operation, .returned, .stop, .visible true, .run_returned true, .resume,
        .returned, .begin_operation, .returned, .returned, .resume, .returned,
        .start, .begin_operation, .returned, .restart, .run_returned false, .resume, .returned,
        .begin_operation, .returned, .resume, .returned, .run_returned true, .resume, .returned,
        .returned, .close, .begin_operation, .returned, .returned, .returned, .resume, .returned],
      _, rfl, along_of_guarded rfl, ⟨rfl, rfl⟩, rfl, rfl, rfl⟩
  exact ⟨l, t, hrun, hidle, hlast, hsettled, hruns,
    lifecycle_settles ⟨true, true⟩ false l t hmeets hrun⟩

/-- The cleanup of a restart is pending when `stop` is called, the flag is still set when the page
becomes visible, and the task runs again after the `stop`. And a restart of a closed handle
leaves it `stopping`. -/
theorem lifecycle_brought_back :
    (∃ t, run (Task.step ⟨true, true⟩) (Task.opened ⟨true, true⟩ false)
        [.start, .begin_operation, .returned, .run_returned true, .resume, .returned, .returned,
          .restart, .begin_operation, .returned, .stop, .visible true, .returned, .resume,
          .begin_operation, .returned, .returned, .resume, .returned, .begin_operation, .returned,
          .run_returned true, .resume, .returned, .returned] = some t ∧
      t.idle ∧ t.last = some .stop ∧ t.lifecycle.state = .running ∧ ¬ Settles t) ∧
    ∃ t, run (Task.step ⟨true, true⟩) (Task.opened ⟨true, true⟩ false)
        [.start, .begin_operation, .returned, .run_returned true, .resume, .returned, .returned,
          .close, .begin_operation, .returned, .returned, .returned, .resume, .returned,
          .restart, .begin_operation, .returned, .resume] = some t ∧
      t.idle ∧ t.last = some .close ∧ t.lifecycle.state = .stopping ∧ ¬ Settles t := by
  refine ⟨⟨_, rfl, ⟨rfl, rfl⟩, rfl, rfl, ?_⟩, ⟨_, rfl, ⟨rfl, rfl⟩, rfl, rfl, ?_⟩⟩
  · intro h
    have hstopped := (h.stopped ⟨rfl, rfl⟩ (Or.inl rfl)).1
    cases hstopped
  · intro h
    have hstopped := h.stays_stopped rfl
    cases hstopped

end IrohHttp.WithLifecycle
