/-
A browse session of `IrohHttpPlugin.kt`, from `browse_start` to the terminal callback of the
platform.

Whatever touches a session does so in a block synchronized on it: the callbacks of
`NsdManager.DiscoveryListener`, the listener of a resolve, `browse_poll`, `browse_stop`, the retry
that `lifecycleHandler` runs, and `failResolverSessions`. One block is one step here, so a run is any
order in which the threads get the lock. What the platform throws at a call of
`stopServiceDiscovery` is part of the step.

A session may be looked up in `dnsSdBrowseMap` and leave it before the lock is taken. Each block
looks again, except that of `browse_poll`, which reads such a session once more.

`browse_start` calls `discoverServices` under the lock of the resolve queue and handles what it throws
in a block of its own, so that other blocks come in between. One of them spoils the handler:
`onDiscoveryStarted`, after which the handler still waits for the readiness that has been and gone.
-/
import IrohHttp.FiniteMap
import IrohHttp.Machine
import IrohHttp.MobileRecords
import IrohHttp.NativeSession

set_option autoImplicit false

namespace IrohHttp.BrowseSession

open IrohHttp.Mobile IrohHttp.NativeActors IrohHttp.NativeSession Machine

/-- How often a stop that throws is tried at once. -/
def MAX_BROWSE_STOP_DISPATCH_ATTEMPTS : ℕ := 2

/-- `mapped` says that `dnsSdBrowseMap` has the session, `lease_released` that its multicast lease,
where it took one, is given back. `start_error` is what `discoverServices` has thrown, and whether that
is an `IllegalArgumentException`, until it is handled. What follows `stop_retry_delay_millis` is a record: whether
the platform took the listener, how many calls of `stopServiceDiscovery` it accepted, what polls were
given, the instances that it has found and not lost since, and all that it has lost. -/
structure DnsSdBrowseSession where
  service_type : String
  manager : ℕ
  mapped : Bool := true
  start_error : Option (Bool × String) := none
  start_invoke : InvokeOnce := {}
  lease_released : Bool := false
  state : NativeSessionState := .STARTING
  terminal_error : Option String := none
  pending_start_failure : Option String := none
  pending_records : List MobileServiceRecord := []
  known_instances : List String := []
  presence_generations : FiniteMap String ℕ := ∅
  next_presence_generation : ℕ := 1
  stops : PendingCalls := {}
  readiness_pending : Bool := true
  stop_dispatch_accepted : Bool := false
  stop_deferred_until_ready : Bool := false
  native_terminal : Bool := false
  stop_retry_scheduled : Bool := false
  stop_retry_delay_millis : ℕ := INITIAL_STOP_RETRY_DELAY_MILLIS
  installed : Bool := true
  accepted_stops : ℕ := 0
  polled : List MobileServiceRecord := []
  found : List String := []
  lost : List String := []

/-- A block synchronized on the session. `thrown` is what the attempts of the block at
`stopServiceDiscovery` throw. -/
inductive Event
  | start_thrown (thrown : ℕ → Option String)
  | start_discovery_failed (error_code : ℤ)
  | stop_discovery_failed (error_code : ℤ)
  | discovery_started (thrown : ℕ → Option String)
  | discovery_stopped
  | service_found (name : String)
  | service_lost (name : String)
  | service_resolved (name : String) (generation : ℕ) (resolved : NsdServiceInfo)
  | browse_poll
  | browse_stop (thrown : ℕ → Option String)
  | stop_retry (thrown : ℕ → Option String)
  | resolver_failed (message : String) (thrown : ℕ → Option String)

/-- The events that find, lose or resolve an instance. -/
def Event.about_instance : Event → Bool
  | .service_found _ | .service_lost _ | .service_resolved _ _ _ => true
  | _ => false

/-- The calls of `browse_stop`. -/
def Event.is_stop : Event → Bool
  | .browse_stop _ => true
  | _ => false

/-- `knownInstances.add`. -/
def add_known (known : List String) (name : String) : List String :=
  if name ∈ known then known else known ++ [name]

namespace DnsSdBrowseSession

/-! ## Stopping -/

/-- `removeBrowseSession`. -/
def remove (x : DnsSdBrowseSession) : DnsSdBrowseSession :=
  { x with mapped := false, lease_released := true }

/-- `finishBrowseStop`: the session leaves the map, and then the stops are answered. -/
def finish_browse_stop (x : DnsSdBrowseSession) (error : Option String) : DnsSdBrowseSession :=
  { x.remove with stops := x.stops.finish error }

/-- `scheduleBrowseStopRetry`, for a closed session whose browse the platform has not ended. -/
def schedule_browse_stop_retry (x : DnsSdBrowseSession) : DnsSdBrowseSession :=
  if x.stop_retry_scheduled || !x.mapped || x.native_terminal || x.state != .CLOSED then x
  else
    { x with
      stop_retry_scheduled := true
      stop_retry_delay_millis := next_delay x.stop_retry_delay_millis }

/-- `rejectPendingBrowseStart`: the start whose failure waited for the cleanup has its answer. -/
def reject_pending_browse_start (x : DnsSdBrowseSession) (cleanup_error : Option String) :
    DnsSdBrowseSession :=
  match x.pending_start_failure with
  | none => x
  | some start_error =>
    { x with
      pending_start_failure := none
      start_invoke := x.start_invoke.reject
        (match cleanup_error with
        | some error => s!"{start_error}; native cleanup failed: {error}"
        | none => start_error) }

/-- The platform has taken the stop. -/
def accept_stop (x : DnsSdBrowseSession) : DnsSdBrowseSession :=
  { x with stop_dispatch_accepted := true, accepted_stops := x.accepted_stops + 1 }

/-- `dispatchBrowseStopWithRetry`: nothing to do once a stop was taken or the browse is over. -/
def dispatch_browse_stop_with_retry (x : DnsSdBrowseSession) (thrown : ℕ → Option String) :
    Option String × DnsSdBrowseSession :=
  if x.stop_dispatch_accepted || x.native_terminal then (none, x)
  else
    match attempts thrown MAX_BROWSE_STOP_DISPATCH_ATTEMPTS none with
    | none => (none, x.accept_stop)
    | some error => (some error, x)

/-- A stop that is not accepted is tried again later. -/
def dispatch_or_schedule (x : DnsSdBrowseSession) (thrown : ℕ → Option String) :
    Option String × DnsSdBrowseSession :=
  let r := x.dispatch_browse_stop_with_retry thrown
  match r.1 with
  | none => r
  | some error => (some error, r.2.schedule_browse_stop_retry)

/-- A session whose start cannot be answered before the platform has cleaned up. -/
def fence (x : DnsSdBrowseSession) (message : String) : DnsSdBrowseSession :=
  { x with
    state := .CLOSED, terminal_error := some message, pending_start_failure := some message }

/-- It is stopped, and a stop that is not accepted waits for the readiness callback. -/
def fence_start (x : DnsSdBrowseSession) (message : String) (thrown : ℕ → Option String) :
    DnsSdBrowseSession :=
  let r := (x.fence message).dispatch_browse_stop_with_retry thrown
  match r.1 with
  | none => r.2
  | some error =>
    { r.2 with
      stop_deferred_until_ready := true
      terminal_error := some s!"{message}; cleanup: {error}" }

/-! ## Starting -/

/-- The session that `browse_start` puts in the map, with what `discoverServices` throws. -/
def start (service_type : String) (manager : ℕ) (refused : Option (Bool × String)) :
    DnsSdBrowseSession :=
  { service_type := service_type, manager := manager, start_error := refused }

/-- The handler of the throw. An `IllegalArgumentException` says that the platform has not taken the
listener; after anything else it may have. -/
def on_start_thrown (x : DnsSdBrowseSession) (illegal : Bool) (error : String)
    (thrown : ℕ → Option String) : DnsSdBrowseSession :=
  let y := { x with start_error := none }
  let message := s!"Discovery failed: {error}"
  if illegal then
    { y.remove with
      state := .FAILED, terminal_error := some message, installed := false
      start_invoke := y.start_invoke.reject message }
  else y.fence_start message thrown

/-! ## Callbacks -/

/-- The fields that every terminal callback sets. -/
def terminal (x : DnsSdBrowseSession) (state : NativeSessionState) (terminal_error : Option String) :
    DnsSdBrowseSession :=
  { x with
    readiness_pending := false, native_terminal := true, lease_released := true
    stop_dispatch_accepted := false, state := state, terminal_error := terminal_error }

/-- What `onStartDiscoveryFailed`, `onStopDiscoveryFailed` and `onDiscoveryStopped` share: a start
that has no answer gets one, the stops get theirs, and the session leaves the map where nobody is
left to ask for it. -/
def on_terminal (x : DnsSdBrowseSession) (state : NativeSessionState) (terminal_error : Option String)
    (not_ready : String) (cleanup_error stop_error : Option String) : DnsSdBrowseSession :=
  if x.mapped then
    let y := (x.terminal state terminal_error).reject_pending_browse_start cleanup_error
    let z :=
      if x.state = .STARTING then { y.remove with start_invoke := y.start_invoke.reject not_ready }
      else y
    if x.stops.pending ≠ [] then z.finish_browse_stop stop_error
    else if x.pending_start_failure.isSome then z.remove
    else z
  else x

/-- `onStartDiscoveryFailed`: the browse is over; one that was stopped meanwhile has not failed. -/
def on_start_discovery_failed (x : DnsSdBrowseSession) (error_code : ℤ) : DnsSdBrowseSession :=
  let message := s!"Failed to start DNS-SD browse: error {error_code}"
  x.on_terminal (if x.stops.pending ≠ [] then .CLOSED else .FAILED) (some message) message none none

/-- `onStopDiscoveryFailed`: the browse is over, and its stops are told of the error. -/
def on_stop_discovery_failed (x : DnsSdBrowseSession) (error_code : ℤ) : DnsSdBrowseSession :=
  let message := s!"DNS-SD browse stop failed: error {error_code}"
  x.on_terminal .FAILED (some message) message (some message) (some message)

/-- A session that has failed stays so. -/
def on_discovery_stopped (x : DnsSdBrowseSession) : DnsSdBrowseSession :=
  x.on_terminal (if x.state = .FAILED then .FAILED else .CLOSED) x.terminal_error
    "DNS-SD browse stopped before becoming ready" none none

/-- `onDiscoveryStarted`: the start has its answer, or the stop that waited for readiness goes out.
-/
def on_discovery_started (x : DnsSdBrowseSession) (thrown : ℕ → Option String) :
    DnsSdBrowseSession :=
  if x.mapped then
    match x.state with
    | .CLOSED =>
      ({ x with readiness_pending := false, stop_deferred_until_ready := false
        }.dispatch_or_schedule thrown).2
    | .STARTING =>
      { x with
        readiness_pending := false, state := .ACTIVE, start_invoke := x.start_invoke.resolve }
    | _ => { x with readiness_pending := false }
  else x

/-! ## Presence -/

/-- Whether the session takes what the platform says of services. -/
def open_ (x : DnsSdBrowseSession) : Bool := x.mapped && x.state == .ACTIVE

/-- The session's part of `isCurrentResolveOwner`. -/
def is_current (x : DnsSdBrowseSession) (name : String) (generation : ℕ) : Bool :=
  x.open_ && x.presence_generations.lookup name == some generation

/-- The synchronized part of `onServiceFound`: one generation for one continuous presence. -/
def on_service_found (x : DnsSdBrowseSession) (name : String) : Option ℕ × DnsSdBrowseSession :=
  if x.open_ then
    match x.presence_generations.lookup name with
    | some current => (some current, { x with found := add_known x.found name })
    | none =>
      (some x.next_presence_generation,
        { x with
          presence_generations := x.presence_generations.insert name x.next_presence_generation
          next_presence_generation := x.next_presence_generation + 1
          found := add_known x.found name })
  else (none, x)

/-- The synchronized part of `onServiceLost`, with the generation that it retires. -/
def on_service_lost (x : DnsSdBrowseSession) (name : String) : Option ℕ × DnsSdBrowseSession :=
  if x.open_ then
    (x.presence_generations.lookup name,
      { x with
        presence_generations := x.presence_generations.erase name
        pending_records := x.pending_records ++
          if name ∈ x.known_instances then [lost_record x.service_type name] else []
        known_instances := x.known_instances.erase name
        found := x.found.erase name
        lost := x.lost ++ [name] })
  else (none, x)

/-- The synchronized part of the listener's `onServiceResolved`. -/
def on_service_resolved (x : DnsSdBrowseSession) (name : String) (generation : ℕ)
    (resolved : NsdServiceInfo) : DnsSdBrowseSession :=
  if x.is_current name generation then
    { x with
      known_instances := add_known x.known_instances name
      pending_records := x.pending_records ++ [resolved_record x.service_type name resolved] }
  else x

/-! ## Commands -/

/-- `browse_poll`: the records that wait, and the end of a session that is over. -/
def browse_poll (x : DnsSdBrowseSession) :
    DnsSdBrowsePollResponse MobileServiceRecord × DnsSdBrowseSession :=
  let response := ⟨x.state.poll_value, x.pending_records, x.terminal_error⟩
  let y := { x with pending_records := [], polled := x.polled ++ x.pending_records }
  (response,
    if x.native_terminal && (x.state == .CLOSED || x.state == .FAILED) then y.remove else y)

/-- `browse_stop` up to the dispatch: the state is closed, and a start that has no answer gets one. -/
def close (x : DnsSdBrowseSession) : DnsSdBrowseSession :=
  if x.state = .CLOSED then x
  else
    { x with
      state := .CLOSED
      presence_generations := ∅
      start_invoke := if x.state = .STARTING then
          x.start_invoke.reject "DNS-SD browse stopped before becoming ready"
        else x.start_invoke }

/-- `browse_stop` from the dispatch on. -/
def dispatch_stop (x : DnsSdBrowseSession) (thrown : ℕ → Option String) : DnsSdBrowseSession :=
  if x.stop_dispatch_accepted || x.stop_deferred_until_ready || x.stop_retry_scheduled then x
  else if x.readiness_pending then
    match thrown 0 with
    | none => x.accept_stop
    | some _ => { x with stop_deferred_until_ready := true }
  else (x.dispatch_or_schedule thrown).2

/-- `browse_stop`: the session closes, and the stop waits for the platform's last word. -/
def browse_stop (x : DnsSdBrowseSession) (thrown : ℕ → Option String) : DnsSdBrowseSession :=
  if x.mapped then
    let y := { x with stops := x.stops.add }
    if x.native_terminal then y.finish_browse_stop none else y.close.dispatch_stop thrown
  else { x with stops := x.stops.answer_now none }

/-- The task that `scheduleBrowseStopRetry` posts. -/
def stop_retry (x : DnsSdBrowseSession) (thrown : ℕ → Option String) : DnsSdBrowseSession :=
  let y := { x with stop_retry_scheduled := false }
  if !x.mapped || x.native_terminal || x.state != .CLOSED || x.stop_dispatch_accepted then y
  else if x.readiness_pending then { y with stop_deferred_until_ready := true }
  else
    let r := y.dispatch_or_schedule thrown
    match r.1 with
    | none => { r.2 with stop_retry_delay_millis := INITIAL_STOP_RETRY_DELAY_MILLIS }
    | some _ => r.2

/-- The block of `failResolverSessions`. -/
def resolver_failed (x : DnsSdBrowseSession) (message : String) (thrown : ℕ → Option String) :
    DnsSdBrowseSession :=
  if x.mapped then
    match x.state with
    | .STARTING => x.fence_start message thrown
    | .ACTIVE => { x with state := .FAILED, terminal_error := some message }
    | _ => x
  else x

/-- One event, `none` where it cannot come. -/
def step (x : DnsSdBrowseSession) : Event → Option DnsSdBrowseSession
  | .start_thrown thrown => x.start_error.map fun e => x.on_start_thrown e.1 e.2 thrown
  | .start_discovery_failed error_code => some (x.on_start_discovery_failed error_code)
  | .stop_discovery_failed error_code => some (x.on_stop_discovery_failed error_code)
  | .discovery_started thrown => some (x.on_discovery_started thrown)
  | .discovery_stopped => some x.on_discovery_stopped
  | .service_found name => some (x.on_service_found name).2
  | .service_lost name => some (x.on_service_lost name).2
  | .service_resolved name generation resolved => some (x.on_service_resolved name generation resolved)
  | .browse_poll => some x.browse_poll.2
  | .browse_stop thrown => some (x.browse_stop thrown)
  | .stop_retry thrown => if x.stop_retry_scheduled then some (x.stop_retry thrown) else none
  | .resolver_failed message thrown => some (x.resolver_failed message thrown)

/-! ## The lifecycle -/

/-- A start has its answer from the moment it is active, has failed or is closed, unless it waits
for the platform behind a fence. A stop waits for the platform, too: the session leaves the map with
every call answered, and a stop is accepted once. -/
structure Safe (x : DnsSdBrowseSession) : Prop where
  thrown : x.start_error ≠ none → x.stops.pending = [] ∧
    (x.mapped = true → x.start_invoke.completed = none ∧ x.native_terminal = false ∧
      x.readiness_pending = true) ∧
    (x.mapped = false → x.native_terminal = true)
  starting : x.state = .STARTING → x.start_invoke.completed = none ∧ x.mapped = true ∧
    x.native_terminal = false ∧ x.readiness_pending = true
  active : x.state = .ACTIVE → x.start_invoke.completed = some (.ok ()) ∧ x.mapped = true ∧
    x.native_terminal = false
  failure : x.pending_start_failure ≠ none → x.mapped = true → x.state = .CLOSED ∧
    x.start_invoke.completed = none ∧ x.native_terminal = false
  started : x.start_invoke.completed = none → x.mapped = true ∧
    (x.state = .STARTING ∨ x.pending_start_failure ≠ none)
  lease : x.lease_released = (x.native_terminal || !x.mapped)
  waiting : x.stops.pending ≠ [] → x.state = .CLOSED ∧ x.mapped = true ∧ x.native_terminal = false
  answered : x.stops.answered ≠ [] → x.mapped = false
  idle : x.state ≠ .CLOSED → x.mapped = true → x.native_terminal = false →
    x.stop_dispatch_accepted = false ∧ x.stop_deferred_until_ready = false ∧
      x.stop_retry_scheduled = false
  deferred : x.stop_deferred_until_ready = true → x.readiness_pending = true ∨ x.native_terminal = true
  accepted : x.native_terminal = false → x.accepted_stops = x.stop_dispatch_accepted.toNat
  once : x.accepted_stops ≤ 1
  removed : x.mapped = false → x.native_terminal = true ∨ x.installed = false
  accounted : x.stops.Accounted
  delay : INITIAL_STOP_RETRY_DELAY_MILLIS ≤ x.stop_retry_delay_millis ∧
    x.stop_retry_delay_millis ≤ MAX_STOP_RETRY_DELAY_MILLIS

/-- A closed session that the platform has not ended has something to come: the end itself, a retry,
or the readiness callback that it was put off to. -/
def NextMove (x : DnsSdBrowseSession) : Prop :=
  x.state = .CLOSED → x.mapped = true → x.native_terminal = false →
    x.stop_dispatch_accepted = true ∨ x.stop_retry_scheduled = true ∨
      x.readiness_pending = true ∧ x.stop_deferred_until_ready = true

/-- How the start of a session stands, and what follows of its state. -/
inductive Phase (x : DnsSdBrowseSession) : Prop
  | unanswered (state : x.state = .STARTING) (failure : x.pending_start_failure = none)
      (pending : x.stops.pending = []) (start : x.start_invoke.completed = none)
  | fenced (state : x.state = .CLOSED) (message : String)
      (failure : x.pending_start_failure = some message) (start : x.start_invoke.completed = none)
  | answered (state : x.state ≠ .STARTING) (failure : x.pending_start_failure = none)
      (start : x.start_invoke.completed ≠ none)

/-- A session of the map is in one of the phases. -/
theorem Safe.phase {x : DnsSdBrowseSession} (h : Safe x) (hmapped : x.mapped = true) : Phase x := by
  by_cases hs : x.state = .STARTING
  · have hstart := (h.starting hs).1
    have hpending : x.stops.pending = [] := by
      by_contra hne
      have hclosed := (h.waiting hne).1
      rw [hs] at hclosed
      cases hclosed
    have hfailure : x.pending_start_failure = none := by
      by_contra hne
      have hclosed := (h.failure hne hmapped).1
      rw [hs] at hclosed
      cases hclosed
    exact .unanswered hs hfailure hpending hstart
  · rcases hf : x.pending_start_failure with _ | message
    · apply Phase.answered hs hf
      intro hnone
      rcases (h.started hnone).2 with hstarting | hfailure
      · exact hs hstarting
      · exact hfailure hf
    · have hfailure : x.pending_start_failure ≠ none := by
        rw [hf]
        exact Option.some_ne_none message
      have hfence := h.failure hfailure hmapped
      exact .fenced hfence.1 message hf hfence.2.1

/-! ### The terminal callbacks -/

/-- What a terminal callback makes of a session. -/
def terminated (x : DnsSdBrowseSession) (state : NativeSessionState) (error : Option String)
    (start : InvokeOnce) (stop_error : Option String) : DnsSdBrowseSession :=
  { x.terminal state error with
    mapped := x.start_invoke.completed.isSome && x.stops.pending.isEmpty
    pending_start_failure := none, start_invoke := start, stops := x.stops.finish stop_error }

/-- It ends a session: the start has an answer, and no stop waits. -/
def Terminates (x y : DnsSdBrowseSession) : Prop :=
  ∃ state error start stop_error, (state = .CLOSED ∨ state = .FAILED) ∧
    start.completed ≠ none ∧ y = x.terminated state error start stop_error

/-- The end of the browse answers the start and every stop. -/
theorem Safe.terminated {x : DnsSdBrowseSession} (h : Safe x) (hmapped : x.mapped = true)
    {state : NativeSessionState} {error stop_error : Option String} {start : InvokeOnce}
    (hstate : state = .CLOSED ∨ state = .FAILED) (hstart : start.completed ≠ none) :
    Safe (x.terminated state error start stop_error) where
  thrown hthrown := by
    -- a start whose throw is not handled has no answer before the end of the session
    have hnone := ((h.thrown hthrown).2.1 hmapped).1
    refine ⟨rfl, fun hstay => ?_, fun _ => rfl⟩
    rw [DnsSdBrowseSession.terminated, hnone] at hstay
    cases hstay
  starting hs := by
    rcases hstate with rfl | rfl
    · cases hs
    · cases hs
  active hs := by
    rcases hstate with rfl | rfl
    · cases hs
    · cases hs
  failure hf _ := absurd rfl hf
  started hnone := absurd hnone hstart
  lease := by
    rw [DnsSdBrowseSession.terminated, terminal, Bool.true_or]
  waiting hp := absurd rfl hp
  answered hne := by
    have hnone : x.stops.answered = [] := by
      by_contra hsome
      have hgone := h.answered hsome
      rw [hmapped] at hgone
      cases hgone
    have hpending : x.stops.pending ≠ [] := by
      intro hp
      apply hne
      rw [DnsSdBrowseSession.terminated, PendingCalls.finish_nil hp]
      exact hnone
    have hempty : x.stops.pending.isEmpty = false := List.isEmpty_eq_false_iff.mpr hpending
    rw [DnsSdBrowseSession.terminated, hempty, Bool.and_false]
  idle _ _ hterminal := by cases hterminal
  deferred _ := .inr rfl
  accepted hterminal := by cases hterminal
  once := h.once
  removed _ := .inl rfl
  accounted := h.accounted.finish stop_error
  delay := h.delay

theorem Terminates.safe {x y : DnsSdBrowseSession} (h : Safe x) (hmapped : x.mapped = true)
    (hend : Terminates x y) : Safe y := by
  obtain ⟨state, error, start, stop_error, hstate, hstart, rfl⟩ := hend
  exact h.terminated hmapped hstate hstart

/-- Nothing has to come after the end. -/
theorem Terminates.next_move {x y : DnsSdBrowseSession} (hend : Terminates x y) : NextMove y := by
  obtain ⟨state, error, start, stop_error, _, _, rfl⟩ := hend
  intro _ _ hterminal
  cases hterminal

/-- A terminal callback ends the session, however it comes. -/
theorem on_terminal_terminates {x : DnsSdBrowseSession} (h : Safe x) (hmapped : x.mapped = true)
    {state : NativeSessionState} (hstate : state = .CLOSED ∨ state = .FAILED)
    (error : Option String) (not_ready : String) (cleanup_error stop_error : Option String) :
    Terminates x (x.on_terminal state error not_ready cleanup_error stop_error) := by
  unfold on_terminal reject_pending_browse_start finish_browse_stop remove terminal
  rw [if_pos hmapped]
  cases h.phase hmapped with
  | unanswered hs hf hp hc =>
      refine ⟨state, error, x.start_invoke.reject not_ready, stop_error, hstate,
        InvokeOnce.reject_completed _ _, ?_⟩
      simp [hs, hf, hp, hc, DnsSdBrowseSession.terminated, terminal, PendingCalls.finish_nil hp]
  | fenced hs message hf hc =>
      refine ⟨state, error, x.start_invoke.reject (match cleanup_error with
        | some error => s!"{message}; native cleanup failed: {error}"
        | none => message), stop_error, hstate, InvokeOnce.reject_completed _ _, ?_⟩
      by_cases hp : x.stops.pending = []
      · simp [hs, hf, hp, hc, DnsSdBrowseSession.terminated, terminal, PendingCalls.finish_nil hp]
      · simp [hs, hf, hp, hc, DnsSdBrowseSession.terminated, terminal]
  | answered hs hf hc =>
      have hsome : x.start_invoke.completed.isSome = true := Option.isSome_iff_ne_none.mpr hc
      refine ⟨state, error, x.start_invoke, stop_error, hstate, hc, ?_⟩
      by_cases hp : x.stops.pending = []
      · simp [hs, hf, hp, hsome, hmapped, DnsSdBrowseSession.terminated, terminal,
          PendingCalls.finish_nil hp]
      · simp [hs, hf, hp, DnsSdBrowseSession.terminated, terminal]

/-! ### Dispatching a stop -/

/-- The platform takes one stop of a closed session. -/
theorem Safe.accept_stop {x : DnsSdBrowseSession} (h : Safe x) (hclosed : x.state = .CLOSED)
    (hterminal : x.native_terminal = false) (haccepted : x.stop_dispatch_accepted = false) :
    Safe x.accept_stop := by
  have hzero : x.accepted_stops = 0 := by
    rw [h.accepted hterminal, haccepted]
    rfl
  exact { h with
    idle := fun hs _ _ => absurd hclosed hs
    accepted := fun _ => by rw [DnsSdBrowseSession.accept_stop, hzero]; rfl
    once := by rw [DnsSdBrowseSession.accept_stop, hzero] }

/-- A stop that was taken has the platform's last word to come. -/
theorem next_move_accept_stop (x : DnsSdBrowseSession) : NextMove x.accept_stop :=
  fun _ _ _ => .inl rfl

theorem Safe.schedule {x : DnsSdBrowseSession} (h : Safe x) :
    Safe x.schedule_browse_stop_retry := by
  unfold schedule_browse_stop_retry
  split
  · exact h
  · next hgo =>
      have hclosed : x.state = .CLOSED := by
        by_contra hs
        apply hgo
        rw [Bool.or_eq_true]
        exact .inr (bne_iff_ne.mpr hs)
      exact { h with
        idle := fun hs _ _ => absurd hclosed hs
        delay := next_delay_in_range h.delay.1 }

/-- A session that has been closed is tried again, as long as the platform has not ended it. -/
theorem next_move_schedule (x : DnsSdBrowseSession) : NextMove x.schedule_browse_stop_retry := by
  unfold schedule_browse_stop_retry
  split
  · next hstay =>
      intro hclosed hmapped hterminal
      rw [hclosed, hmapped, hterminal, Bool.not_true, Bool.or_false, Bool.or_false, bne_self_eq_false,
        Bool.or_false] at hstay
      exact .inr (.inl hstay)
  · intro _ _ _
    exact .inr (.inl rfl)

/-- A dispatch is accepted, or has nothing to do, or is thrown at. -/
theorem dispatch_cases (x : DnsSdBrowseSession) (thrown : ℕ → Option String) :
    (x.dispatch_browse_stop_with_retry thrown = (none, x) ∧
      (x.stop_dispatch_accepted = true ∨ x.native_terminal = true)) ∨
    (x.stop_dispatch_accepted = false ∧ x.native_terminal = false ∧
      (x.dispatch_browse_stop_with_retry thrown = (none, x.accept_stop) ∨
        ∃ error, x.dispatch_browse_stop_with_retry thrown = (some error, x))) := by
  unfold dispatch_browse_stop_with_retry
  split
  · next hdone => exact .inl ⟨rfl, Bool.or_eq_true_iff.mp hdone⟩
  · next hgo =>
      rw [Bool.not_eq_true, Bool.or_eq_false_iff] at hgo
      refine .inr ⟨hgo.1, hgo.2, ?_⟩
      split
      · exact .inl rfl
      · next error _ => exact .inr ⟨error, rfl⟩

/-- **A stop that goes out or is put off** leaves something to come: the last word or a retry. -/
theorem Safe.dispatch_or_schedule {x : DnsSdBrowseSession} (h : Safe x) (hclosed : x.state = .CLOSED)
    (thrown : ℕ → Option String) :
    Safe (x.dispatch_or_schedule thrown).2 ∧ NextMove (x.dispatch_or_schedule thrown).2 := by
  unfold DnsSdBrowseSession.dispatch_or_schedule
  rcases dispatch_cases x thrown with ⟨hd, hdone⟩ | ⟨haccepted, hterminal, hd | ⟨error, hd⟩⟩
  · rw [hd]
    refine ⟨h, ?_⟩
    intro _ _ hterminal
    rcases hdone with haccepted | hended
    · exact .inl haccepted
    · rw [hended] at hterminal
      cases hterminal
  · rw [hd]
    exact ⟨h.accept_stop hclosed hterminal haccepted, next_move_accept_stop x⟩
  · rw [hd]
    exact ⟨h.schedule, next_move_schedule x⟩

/-- A stop in front of the readiness callback is accepted or put off to it. -/
theorem Safe.fence_start {x : DnsSdBrowseSession} (h : Safe x)
    (hready : x.mapped = true → x.start_invoke.completed = none ∧ x.native_terminal = false ∧
      x.readiness_pending = true)
    (hgone : x.mapped = false → x.native_terminal = true) (message : String)
    (thrown : ℕ → Option String) :
    Safe (x.fence_start message thrown) ∧ NextMove (x.fence_start message thrown) := by
  have hfence : Safe (x.fence message) := { h with
    starting := fun hno => by cases hno
    active := fun hno => by cases hno
    failure := fun _ hmapped => ⟨rfl, (hready hmapped).1, (hready hmapped).2.1⟩
    started := fun hnone => ⟨(h.started hnone).1, .inr (Option.some_ne_none message)⟩
    waiting := fun hp => ⟨rfl, (h.waiting hp).2⟩
    idle := fun hno => absurd rfl hno }
  unfold DnsSdBrowseSession.fence_start
  -- the stop is accepted, or the platform has ended by itself, or every attempt threw
  rcases dispatch_cases (x.fence message) thrown with
    ⟨hd, hdone⟩ | ⟨haccepted, hended, hd | ⟨error, hd⟩⟩
  · rw [hd]
    refine ⟨hfence, ?_⟩
    intro _ _ hterminal
    rcases hdone with haccepted | hended
    · exact .inl haccepted
    · rw [hended] at hterminal
      cases hterminal
  · rw [hd]
    exact ⟨hfence.accept_stop rfl hended haccepted, next_move_accept_stop _⟩
  · have hpending : x.readiness_pending = true := by
      by_cases hmapped : x.mapped = true
      · exact (hready hmapped).2.2
      · have hterminal : (x.fence message).native_terminal = true :=
          hgone (Bool.eq_false_of_not_eq_true hmapped)
        rw [hended] at hterminal
        cases hterminal
    rw [hd]
    refine ⟨{ hfence with
      idle := fun hno => absurd rfl hno
      deferred := fun _ => .inl hpending }, ?_⟩
    intro _ _ _
    exact .inr (.inr ⟨hpending, rfl⟩)

/-- The throw is handled. -/
theorem Safe.start_thrown {x : DnsSdBrowseSession} (h : Safe x) (hthrown : x.start_error ≠ none)
    (illegal : Bool) (error : String) (thrown : ℕ → Option String) :
    Safe (x.on_start_thrown illegal error thrown) ∧
      NextMove (x.on_start_thrown illegal error thrown) := by
  obtain ⟨hpending, hready, hgone⟩ := h.thrown hthrown
  have hy : Safe { x with start_error := none } := { h with thrown := fun hno => absurd rfl hno }
  unfold on_start_thrown
  dsimp only
  split
  · refine ⟨{ hy with
      thrown := fun hno => absurd rfl hno
      starting := fun hno => by cases hno
      active := fun hno => by cases hno
      failure := fun _ hno => by cases hno
      started := fun hnone => absurd hnone (InvokeOnce.reject_completed _ _)
      lease := (Bool.or_true _).symm
      waiting := fun hno => absurd hpending hno
      answered := fun _ => rfl
      idle := fun _ hno => by cases hno
      removed := fun _ => .inr rfl }, fun hno => by cases hno⟩
  · exact hy.fence_start hready hgone _ thrown

/-! ### Every step -/

/-- What the presence of the instances and the records does not touch. -/
theorem Safe.with_presence {x : DnsSdBrowseSession} (h : Safe x)
    (pending polled : List MobileServiceRecord) (known found lost : List String)
    (generations : FiniteMap String ℕ) (next : ℕ) :
    Safe { x with
      pending_records := pending, polled := polled, known_instances := known, found := found
      lost := lost, presence_generations := generations, next_presence_generation := next } :=
  { h with }

theorem Safe.remove {x : DnsSdBrowseSession} (h : Safe x) (hterminal : x.native_terminal = true) :
    Safe x.remove where
  thrown hthrown := ⟨(h.thrown hthrown).1, fun hno => (by cases hno), fun _ => hterminal⟩
  starting hs := by
    rw [(h.starting hs).2.2.1] at hterminal
    cases hterminal
  active hs := by
    rw [(h.active hs).2.2] at hterminal
    cases hterminal
  failure _ hno := by cases hno
  started hnone := by
    obtain ⟨hmapped, hs | hf⟩ := h.started hnone
    · rw [(h.starting hs).2.2.1] at hterminal
      cases hterminal
    · rw [(h.failure hf hmapped).2.2] at hterminal
      cases hterminal
  lease := (Bool.or_true _).symm
  waiting hp := by
    rw [(h.waiting hp).2.2] at hterminal
    cases hterminal
  answered _ := rfl
  idle _ hno := by cases hno
  deferred := h.deferred
  accepted := h.accepted
  once := h.once
  removed _ := .inl hterminal
  accounted := h.accounted
  delay := h.delay

theorem next_move_of_terminal {x : DnsSdBrowseSession} (hterminal : x.native_terminal = true) :
    NextMove x := by
  intro _ _ hno
  rw [hterminal] at hno
  cases hno

/-- The call of a stop on a session that the platform has not ended. -/
theorem Safe.close {x : DnsSdBrowseSession} (h : Safe x) (hhandled : x.start_error = none)
    (hmapped : x.mapped = true) (hterminal : x.native_terminal = false) :
    Safe { x with stops := x.stops.add }.close ∧ { x with stops := x.stops.add }.close.state = .CLOSED ∧
      { x with stops := x.stops.add }.close.mapped = true ∧
      { x with stops := x.stops.add }.close.native_terminal = false := by
  unfold DnsSdBrowseSession.close
  split
  · next hclosed =>
      refine ⟨?_, hclosed, hmapped, hterminal⟩
      exact { h with
        thrown := fun hthrown => absurd hhandled hthrown
        waiting := fun _ => ⟨hclosed, hmapped, hterminal⟩
        answered := h.answered
        accounted := h.accounted.add }
  · next hopen =>
      refine ⟨?_, rfl, hmapped, hterminal⟩
      -- a failure that is put off has closed the session already
      have hfailure : x.pending_start_failure = none := by
        by_contra hf
        exact hopen (h.failure hf hmapped).1
      refine { h with
        thrown := fun hthrown => absurd hhandled hthrown
        starting := fun hno => by cases hno
        active := fun hno => by cases hno
        failure := fun hf => absurd hfailure hf
        started := fun hnone => ?_
        waiting := fun _ => ⟨rfl, hmapped, hterminal⟩
        answered := h.answered
        idle := fun hno => absurd rfl hno
        accounted := h.accounted.add }
      split at hnone
      · exact absurd hnone (InvokeOnce.reject_completed _ _)
      · next hs =>
          rcases (h.started hnone).2 with hstarting | hf
          · exact absurd hstarting hs
          · exact absurd hfailure hf

/-- A stop waits for readiness, goes out or is put off. -/
theorem Safe.dispatch_stop {x : DnsSdBrowseSession} (h : Safe x) (hclosed : x.state = .CLOSED)
    (hterminal : x.native_terminal = false) (thrown : ℕ → Option String) :
    Safe (x.dispatch_stop thrown) ∧ NextMove (x.dispatch_stop thrown) := by
  unfold DnsSdBrowseSession.dispatch_stop
  split
  · next hdone =>
      refine ⟨h, ?_⟩
      intro _ _ _
      rw [Bool.or_eq_true_iff, Bool.or_eq_true_iff] at hdone
      rcases hdone with (haccepted | hdeferred) | hscheduled
      · exact .inl haccepted
      · rcases h.deferred hdeferred with hready | hended
        · exact .inr (.inr ⟨hready, hdeferred⟩)
        · rw [hterminal] at hended
          cases hended
      · exact .inr (.inl hscheduled)
  · next hgo =>
      rw [Bool.not_eq_true, Bool.or_eq_false_iff, Bool.or_eq_false_iff] at hgo
      split
      · next hready =>
          split
          · exact ⟨h.accept_stop hclosed hterminal hgo.1.1, next_move_accept_stop x⟩
          · refine ⟨{ h with
              idle := fun hno => absurd hclosed hno
              deferred := fun _ => .inl hready }, ?_⟩
            intro _ _ _
            exact .inr (.inr ⟨hready, rfl⟩)
      · exact h.dispatch_or_schedule hclosed thrown

/-- A stop is answered at once or has its answer to come. -/
theorem Safe.browse_stop {x : DnsSdBrowseSession} (h : Safe x) (hhandled : x.start_error = none)
    (thrown : ℕ → Option String) :
    Safe (x.browse_stop thrown) ∧ NextMove (x.browse_stop thrown) := by
  unfold DnsSdBrowseSession.browse_stop
  by_cases hmapped : x.mapped = true
  · rw [if_pos hmapped]
    by_cases hterminal : x.native_terminal = true
    · rw [if_pos hterminal]
      refine ⟨{ h.remove hterminal with
        thrown := fun hthrown => absurd hhandled hthrown
        waiting := fun hno => absurd rfl hno
        answered := fun _ => rfl
        accounted := h.accounted.add.finish none }, next_move_of_terminal hterminal⟩
    · rw [if_neg hterminal]
      rw [Bool.not_eq_true] at hterminal
      obtain ⟨hsafe, hclosed, _, hended⟩ := h.close hhandled hmapped hterminal
      exact hsafe.dispatch_stop hclosed hended thrown
  · rw [if_neg hmapped]
    rw [Bool.not_eq_true] at hmapped
    refine ⟨{ h with
      thrown := fun hthrown => absurd hhandled hthrown
      waiting := h.waiting
      answered := fun _ => hmapped
      accounted := h.accounted.answer_now none }, ?_⟩
    intro _ hno _
    rw [hmapped] at hno
    cases hno

theorem Safe.stop_retry {x : DnsSdBrowseSession} (h : Safe x) (thrown : ℕ → Option String) :
    Safe (x.stop_retry thrown) ∧ NextMove (x.stop_retry thrown) := by
  have hy : Safe { x with stop_retry_scheduled := false } := { h with
    idle := fun hs hmapped hterminal =>
      ⟨(h.idle hs hmapped hterminal).1, (h.idle hs hmapped hterminal).2.1, rfl⟩ }
  unfold DnsSdBrowseSession.stop_retry
  split
  · next hdone =>
      refine ⟨hy, ?_⟩
      -- the task gave up because a stop was accepted meanwhile
      intro hclosed hmapped hterminal
      change x.state = .CLOSED at hclosed
      change x.mapped = true at hmapped
      change x.native_terminal = false at hterminal
      rw [hclosed, hmapped, hterminal, bne_self_eq_false] at hdone
      exact .inl hdone
  · next hgo =>
      rw [Bool.not_eq_true, Bool.or_eq_false_iff, Bool.or_eq_false_iff] at hgo
      have hclosed : x.state = .CLOSED := by
        have hno := hgo.1.2
        rwa [bne_eq_false_iff_eq] at hno
      split
      · next hready =>
          refine ⟨{ hy with
            idle := fun hno => absurd hclosed hno
            deferred := fun _ => .inl hready }, ?_⟩
          intro _ _ _
          exact .inr (.inr ⟨hready, rfl⟩)
      · obtain ⟨hsafe, hnext⟩ := hy.dispatch_or_schedule hclosed thrown
        dsimp only
        split
        · refine ⟨{ hsafe with delay := ?_ }, hnext⟩
          change 25 ≤ 25 ∧ 25 ≤ 1000
          omega
        · exact ⟨hsafe, hnext⟩

/-- Readiness lets the stop out that waited for it. -/
theorem Safe.discovery_started {x : DnsSdBrowseSession} (h : Safe x) (hnext : NextMove x)
    (hhandled : x.start_error = none) (thrown : ℕ → Option String) :
    Safe (x.on_discovery_started thrown) ∧ NextMove (x.on_discovery_started thrown) := by
  unfold on_discovery_started
  split
  · next hmapped =>
      -- closed meanwhile: the stop that was put off is dispatched; starting: the start is answered
      split
      · next hclosed =>
          have hy : Safe { x with readiness_pending := false, stop_deferred_until_ready := false } :=
            { h with
              thrown := fun hthrown => absurd hhandled hthrown
              starting := fun hno => by rw [hclosed] at hno; cases hno
              idle := fun hno => absurd hclosed hno
              deferred := fun hno => by cases hno }
          exact hy.dispatch_or_schedule hclosed thrown
      · next hs =>
          obtain ⟨hstart, _, hterminal, _⟩ := h.starting hs
          have hidle := h.idle (by rw [hs]; decide) hmapped hterminal
          have hresolved : x.start_invoke.resolve.completed = some (.ok ()) := by
            rw [InvokeOnce.resolve_of_none hstart]
          refine ⟨{ h with
            thrown := fun hthrown => absurd hhandled hthrown
            starting := fun hno => by cases hno
            active := fun _ => ⟨hresolved, hmapped, hterminal⟩
            failure := fun hf _ => ?_
            started := fun hnone => ?_
            waiting := fun hp => ?_
            idle := fun _ _ _ => hidle
            deferred := fun hno => ?_ }, fun hno => by cases hno⟩
          · have hclosed := (h.failure hf hmapped).1
            rw [hs] at hclosed
            cases hclosed
          · change x.start_invoke.resolve.completed = none at hnone
            rw [hresolved] at hnone
            cases hnone
          · have hclosed := (h.waiting hp).1
            rw [hs] at hclosed
            cases hclosed
          · change x.stop_deferred_until_ready = true at hno
            rw [hidle.2.1] at hno
            cases hno
      · next hclosed hs =>
          refine ⟨{ h with
            thrown := fun hthrown => absurd hhandled hthrown
            starting := fun hno => absurd hno hs
            deferred := fun hdeferred => ?_ }, fun hno => absurd hno hclosed⟩
          by_cases hterminal : x.native_terminal = true
          · exact .inr hterminal
          · change x.stop_deferred_until_ready = true at hdeferred
            rw [(h.idle hclosed hmapped (Bool.eq_false_of_not_eq_true hterminal)).2.1] at hdeferred
            cases hdeferred
  · exact ⟨h, hnext⟩

/-- The platform's last word ends the session. -/
theorem Safe.on_terminal {x : DnsSdBrowseSession} (h : Safe x) (hnext : NextMove x)
    {state : NativeSessionState} (hstate : state = .CLOSED ∨ state = .FAILED)
    (error : Option String) (not_ready : String) (cleanup_error stop_error : Option String) :
    Safe (x.on_terminal state error not_ready cleanup_error stop_error) ∧
      NextMove (x.on_terminal state error not_ready cleanup_error stop_error) := by
  by_cases hmapped : x.mapped = true
  · have hend := on_terminal_terminates h hmapped hstate error not_ready cleanup_error stop_error
    exact ⟨hend.safe h hmapped, hend.next_move⟩
  · have hsame : x.on_terminal state error not_ready cleanup_error stop_error = x := if_neg hmapped
    rw [hsame]
    exact ⟨h, hnext⟩

/-- A resolver that fails closes the session as a stop does. -/
theorem Safe.resolver_failed {x : DnsSdBrowseSession} (h : Safe x) (hnext : NextMove x)
    (message : String) (thrown : ℕ → Option String) :
    Safe (x.resolver_failed message thrown) ∧ NextMove (x.resolver_failed message thrown) := by
  unfold DnsSdBrowseSession.resolver_failed
  split
  · split
    · next hs =>
        obtain ⟨hnone, hmapped, hterminal, hready⟩ := h.starting hs
        refine h.fence_start (fun _ => ⟨hnone, hterminal, hready⟩) (fun hno => ?_) message thrown
        rw [hmapped] at hno
        cases hno
    · next hs =>
        have hactive := h.active hs
        refine ⟨{ h with
          starting := fun hno => by cases hno
          active := fun hno => by cases hno
          failure := fun hf _ => ?_
          started := fun hnone => ?_
          waiting := fun hp => ?_
          idle := fun _ => h.idle (by rw [hs]; decide) }, fun hno => by cases hno⟩
        · have hclosed := (h.failure hf hactive.2.1).1
          rw [hs] at hclosed
          cases hclosed
        · change x.start_invoke.completed = none at hnone
          rw [hactive.1] at hnone
          cases hnone
        · have hclosed := (h.waiting hp).1
          rw [hs] at hclosed
          cases hclosed
    · exact ⟨h, hnext⟩
  · exact ⟨h, hnext⟩

theorem Safe.service_found {x : DnsSdBrowseSession} (h : Safe x) (hnext : NextMove x)
    (name : String) : Safe (x.on_service_found name).2 ∧ NextMove (x.on_service_found name).2 := by
  unfold on_service_found
  split
  · split
    · exact ⟨h.with_presence _ _ _ _ _ _ _, hnext⟩
    · exact ⟨h.with_presence _ _ _ _ _ _ _, hnext⟩
  · exact ⟨h, hnext⟩

theorem Safe.service_lost {x : DnsSdBrowseSession} (h : Safe x) (hnext : NextMove x)
    (name : String) : Safe (x.on_service_lost name).2 ∧ NextMove (x.on_service_lost name).2 := by
  unfold on_service_lost
  split
  · exact ⟨h.with_presence _ _ _ _ _ _ _, hnext⟩
  · exact ⟨h, hnext⟩

theorem Safe.service_resolved {x : DnsSdBrowseSession} (h : Safe x) (hnext : NextMove x)
    (name : String) (generation : ℕ) (resolved : NsdServiceInfo) :
    Safe (x.on_service_resolved name generation resolved) ∧
      NextMove (x.on_service_resolved name generation resolved) := by
  unfold on_service_resolved
  split
  · exact ⟨h.with_presence _ _ _ _ _ _ _, hnext⟩
  · exact ⟨h, hnext⟩

theorem Safe.browse_poll {x : DnsSdBrowseSession} (h : Safe x) (hnext : NextMove x) :
    Safe x.browse_poll.2 ∧ NextMove x.browse_poll.2 := by
  have hy : Safe { x with pending_records := [], polled := x.polled ++ x.pending_records } :=
    h.with_presence _ _ _ _ _ _ _
  unfold DnsSdBrowseSession.browse_poll
  dsimp only
  split
  · next hgone =>
      rw [Bool.and_eq_true] at hgone
      exact ⟨hy.remove hgone.1, next_move_of_terminal hgone.1⟩
  · exact ⟨hy, hnext⟩

/-- Until a throw of `discoverServices` is handled the platform does not say that it has started, and
nobody stops a session whose number no answer has told. -/
def Orderly (x : DnsSdBrowseSession) : Event → Prop
  | .discovery_started _ => x.start_error = none
  | .browse_stop _ => x.start_error = none
  | _ => True

/-- **One step** keeps the invariant and what is to come. -/
theorem safe_step {x y : DnsSdBrowseSession} {e : Event} (h : Safe x ∧ NextMove x)
    (horderly : Orderly x e) (hstep : x.step e = some y) : Safe y ∧ NextMove y := by
  cases e with
  | start_thrown thrown =>
      obtain ⟨e, herror, rfl⟩ := Option.map_eq_some_iff.mp hstep
      apply h.1.start_thrown
      rw [herror]
      exact Option.some_ne_none e
  | start_discovery_failed error_code =>
      rw [← Option.some.inj hstep]
      apply h.1.on_terminal h.2
      split
      · exact .inl rfl
      · exact .inr rfl
  | stop_discovery_failed error_code =>
      rw [← Option.some.inj hstep]
      exact h.1.on_terminal h.2 (.inr rfl) _ _ _ _
  | discovery_started thrown =>
      rw [← Option.some.inj hstep]
      exact h.1.discovery_started h.2 horderly thrown
  | discovery_stopped =>
      rw [← Option.some.inj hstep]
      apply h.1.on_terminal h.2
      split
      · exact .inr rfl
      · exact .inl rfl
  | service_found name =>
      rw [← Option.some.inj hstep]
      exact h.1.service_found h.2 name
  | service_lost name =>
      rw [← Option.some.inj hstep]
      exact h.1.service_lost h.2 name
  | service_resolved name generation resolved =>
      rw [← Option.some.inj hstep]
      exact h.1.service_resolved h.2 name generation resolved
  | browse_poll =>
      rw [← Option.some.inj hstep]
      exact h.1.browse_poll h.2
  | browse_stop thrown =>
      rw [← Option.some.inj hstep]
      exact h.1.browse_stop horderly thrown
  | stop_retry thrown =>
      rw [step, Option.ite_none_right_eq_some, Option.some.injEq] at hstep
      rw [← hstep.2]
      exact h.1.stop_retry thrown
  | resolver_failed message thrown =>
      rw [← Option.some.inj hstep]
      exact h.1.resolver_failed h.2 message thrown

theorem safe_start (service_type : String) (manager : ℕ) (refused : Option (Bool × String)) :
    Safe (start service_type manager refused) ∧ NextMove (start service_type manager refused) := by
  refine ⟨?_, fun hno => by cases hno⟩
  exact {
    thrown := fun _ => ⟨rfl, fun _ => ⟨rfl, rfl, rfl⟩, fun hno => by cases hno⟩
    starting := fun _ => ⟨rfl, rfl, rfl, rfl⟩
    active := fun hno => by cases hno
    failure := fun hno => absurd rfl hno
    started := fun _ => ⟨rfl, .inl rfl⟩
    lease := rfl
    waiting := fun hno => absurd rfl hno
    answered := fun hno => absurd rfl hno
    idle := fun _ _ _ => ⟨rfl, rfl, rfl⟩
    deferred := fun hno => by cases hno
    accepted := fun _ => rfl
    once := Nat.zero_le 1
    removed := fun hno => by cases hno
    accounted := List.Perm.refl _
    delay := by
      change 25 ≤ 25 ∧ 25 ≤ 1000
      omega }

/-! ### Calls -/

/-- A stop that goes out is no new call. -/
theorem calls_dispatch_or_schedule (x : DnsSdBrowseSession) (thrown : ℕ → Option String) :
    (x.dispatch_or_schedule thrown).2.stops.calls = x.stops.calls := by
  unfold DnsSdBrowseSession.dispatch_or_schedule
  rcases dispatch_cases x thrown with ⟨hd, _⟩ | ⟨_, _, hd | ⟨error, hd⟩⟩
  · rw [hd]
  · rw [hd]
    rfl
  · rw [hd]
    dsimp only
    unfold schedule_browse_stop_retry
    split <;> rfl

theorem calls_fence_start (x : DnsSdBrowseSession) (message : String) (thrown : ℕ → Option String) :
    (x.fence_start message thrown).stops.calls = x.stops.calls := by
  unfold DnsSdBrowseSession.fence_start
  rcases dispatch_cases (x.fence message) thrown with ⟨hd, _⟩ | ⟨_, _, hd | ⟨error, hd⟩⟩
  all_goals
    rw [hd]
    rfl

theorem calls_on_terminal (x : DnsSdBrowseSession) (state : NativeSessionState)
    (terminal_error : Option String) (not_ready : String)
    (cleanup_error stop_error : Option String) :
    (x.on_terminal state terminal_error not_ready cleanup_error stop_error).stops.calls =
      x.stops.calls := by
  have hreject : ∀ y : DnsSdBrowseSession,
      (y.reject_pending_browse_start cleanup_error).stops = y.stops := by
    intro y
    unfold reject_pending_browse_start
    split <;> rfl
  have hfirst := hreject (x.terminal state terminal_error)
  unfold DnsSdBrowseSession.on_terminal
  split
  · dsimp only
    have hz : ∀ z : DnsSdBrowseSession, z.stops.calls = x.stops.calls →
        (if x.stops.pending ≠ [] then z.finish_browse_stop stop_error
          else if x.pending_start_failure.isSome then z.remove else z).stops.calls = x.stops.calls := by
      intro z hz
      split
      · exact hz
      · split
        · exact hz
        · exact hz
    apply hz
    split
    · exact congrArg PendingCalls.calls hfirst
    · exact congrArg PendingCalls.calls hfirst
  · rfl

/-- `browse_stop` is one call. -/
theorem calls_browse_stop (x : DnsSdBrowseSession) (thrown : ℕ → Option String) :
    (x.browse_stop thrown).stops.calls = x.stops.calls + 1 := by
  have hclose : ∀ y : DnsSdBrowseSession, y.close.stops = y.stops := by
    intro y
    unfold DnsSdBrowseSession.close
    split <;> rfl
  unfold DnsSdBrowseSession.browse_stop
  split
  · dsimp only
    split
    · rfl
    · unfold DnsSdBrowseSession.dispatch_stop
      split
      · rw [hclose]
        rfl
      · split
        · split
          · exact congrArg PendingCalls.calls (hclose _)
          · exact congrArg PendingCalls.calls (hclose _)
        · rw [calls_dispatch_or_schedule, hclose]
          rfl
  · rfl

/-- Only a call of `browse_stop` adds one. -/
theorem calls_step {x y : DnsSdBrowseSession} {e : Event} (hstep : x.step e = some y) :
    y.stops.calls = x.stops.calls + e.is_stop.toNat := by
  -- no handler but `browse_stop` takes a stop call in; the others answer the ones that wait
  cases e with
  | start_thrown thrown =>
      obtain ⟨e, -, rfl⟩ := Option.map_eq_some_iff.mp hstep
      unfold on_start_thrown
      dsimp only
      split
      · rfl
      · exact calls_fence_start _ _ thrown
  | start_discovery_failed error_code =>
      rw [← Option.some.inj hstep]
      exact calls_on_terminal x _ _ _ _ _
  | stop_discovery_failed error_code =>
      rw [← Option.some.inj hstep]
      exact calls_on_terminal x _ _ _ _ _
  | discovery_stopped =>
      rw [← Option.some.inj hstep]
      exact calls_on_terminal x _ _ _ _ _
  | discovery_started thrown =>
      rw [← Option.some.inj hstep]
      unfold on_discovery_started
      split
      · split
        · exact calls_dispatch_or_schedule _ thrown
        · rfl
        · rfl
      · rfl
  | service_found name =>
      rw [← Option.some.inj hstep]
      unfold on_service_found
      split
      · split <;> rfl
      · rfl
  | service_lost name =>
      rw [← Option.some.inj hstep]
      unfold on_service_lost
      split <;> rfl
  | service_resolved name generation resolved =>
      rw [← Option.some.inj hstep]
      unfold on_service_resolved
      split <;> rfl
  | browse_poll =>
      rw [← Option.some.inj hstep]
      unfold DnsSdBrowseSession.browse_poll
      dsimp only
      split <;> rfl
  | browse_stop thrown =>
      rw [← Option.some.inj hstep]
      exact calls_browse_stop x thrown
  | stop_retry thrown =>
      rw [step, Option.ite_none_right_eq_some, Option.some.injEq] at hstep
      rw [← hstep.2]
      unfold DnsSdBrowseSession.stop_retry
      split
      · rfl
      · split
        · rfl
        · dsimp only
          split
          · exact calls_dispatch_or_schedule _ thrown
          · exact calls_dispatch_or_schedule _ thrown
  | resolver_failed message thrown =>
      rw [← Option.some.inj hstep]
      unfold DnsSdBrowseSession.resolver_failed
      split
      · split
        · exact calls_fence_start x message thrown
        · rfl
        · rfl
      · rfl

/-- **Every call is answered, and a stop only when the platform is done.** In any order of callbacks,
commands and retries in which neither readiness nor a stop overtakes the handler of a throw, and
whatever the platform throws: of the stops that were called none is lost or answered twice, and none is
answered before the session leaves the map. When the session leaves, or the platform ends it, the start and every stop
have their answers; the multicast lease is held exactly until then, and the platform has accepted one
stop at most. A closed session that still waits has something to come. -/
theorem browse_session_answers_every_call (service_type : String) (manager : ℕ)
    (refused : Option (Bool × String)) {history : List Event} {x : DnsSdBrowseSession}
    (horderly : Along step Orderly (start service_type manager refused) history)
    (hrun : run step (start service_type manager refused) history = some x) :
    (x.stops.Accounted ∧ x.stops.calls = history.countP Event.is_stop) ∧
      (x.stops.answered ≠ [] → x.mapped = false) ∧
      (x.native_terminal = true ∨ x.mapped = false →
        x.stops.pending = [] ∧ x.start_invoke.completed ≠ none) ∧
      (x.lease_released = true ↔ x.native_terminal = true ∨ x.mapped = false) ∧
      (x.mapped = false → x.native_terminal = true ∨ x.installed = false) ∧
      x.accepted_stops ≤ 1 ∧ x.NextMove := by
  have hinv : Safe x ∧ NextMove x :=
    along_invariant (fun _ _ _ h horderly hstep => safe_step h horderly hstep)
      (safe_start service_type manager refused) horderly hrun
  obtain ⟨hsafe, hnext⟩ := hinv
  have hcalls := run_countP_eq (m := fun x => x.stops.calls) (fun _ _ _ hstep => calls_step hstep) hrun
  refine ⟨⟨hsafe.accounted, hcalls.trans (Nat.zero_add _)⟩, hsafe.answered, ?_, ?_, hsafe.removed, hsafe.once, hnext⟩
  · intro hended
    -- who waits, waits for a session that is in the map and has not ended
    have hgone : ¬(x.mapped = true ∧ x.native_terminal = false) := by
      rintro ⟨hmapped, hterminal⟩
      rcases hended with hended | hended
      · rw [hended] at hterminal
        cases hterminal
      · rw [hended] at hmapped
        cases hmapped
    constructor
    · by_contra hpending
      exact hgone (hsafe.waiting hpending).2
    · intro hnone
      obtain ⟨hmapped, hs | hf⟩ := hsafe.started hnone
      · exact hgone ⟨hmapped, (hsafe.starting hs).2.2.1⟩
      · exact hgone ⟨hmapped, (hsafe.failure hf hmapped).2.2⟩
  · rw [hsafe.lease, Bool.or_eq_true, Bool.not_eq_true']

/-- `discoverServices` throws; the resolver fails, and its stop is not taken, before the throw is
handled. The handler's stops are put off to the readiness callback. Then comes a call of
`browse_stop`, and the platform ends the session. -/
def thrown_start : List Event :=
  [.resolver_failed "recovery exhausted" fun _ => some "busy", .start_thrown fun _ => some "busy",
    .discovery_started fun _ => none, .browse_stop fun _ => none, .discovery_stopped]

/-- `discoverServices` throws behind a session that is ready: its start is told so, the stop goes
out at the second attempt and is answered at the end. -/
theorem browse_session_answers_every_call_thrown : ∃ x : DnsSdBrowseSession,
    run step (start "_iroh._udp" 0 (some (false, "dead object"))) thrown_start = some x ∧
      x.start_invoke.completed = some (.error "Discovery failed: dead object") ∧
      x.stops.answered = [(0, none)] ∧ x.accepted_stops = 1 ∧ x.stops.Accounted ∧
      x.lease_released = true := by
  have hrun : run step (start "_iroh._udp" 0 (some (false, "dead object"))) thrown_start = some _ := rfl
  have horderly : Along step Orderly (start "_iroh._udp" 0 (some (false, "dead object"))) thrown_start :=
    along_cons rfl trivial (along_cons rfl trivial (along_cons rfl rfl (along_cons rfl rfl
      (along_cons rfl trivial trivial))))
  have hall := browse_session_answers_every_call "_iroh._udp" 0 (some (false, "dead object")) horderly hrun
  exact ⟨_, hrun, rfl, rfl, rfl, hall.1.1, hall.2.2.2.1.mpr (.inl rfl)⟩

/-- Readiness that overtakes the handler leaves a closed session with nothing to come: both stops of
the handler are thrown at, and they are put off to a callback that has been. -/
theorem readiness_before_its_throw : ∃ x : DnsSdBrowseSession,
    run step (start "_iroh._udp" 0 (some (false, "dead object")))
      [.discovery_started fun _ => none, .start_thrown fun _ => some "busy"] = some x ∧
      ¬ x.NextMove := by
  refine ⟨_, rfl, fun hnext => ?_⟩
  rcases hnext rfl rfl rfl with hno | hno | ⟨hno, -⟩ <;> cases hno

/-! ## The presence of the instances -/

/-- The instances that are there for someone who has read some records. A record that takes
away what is not there is refused. -/
def replay : List String → List MobileServiceRecord → Option (List String)
  | known, [] => some known
  | known, record :: records =>
    if record.is_active then replay (add_known known record.instance_name) records
    else if record.instance_name ∈ known then replay (known.erase record.instance_name) records
    else none

/-- One record more at the front. -/
theorem replay_cons (known : List String) (record : MobileServiceRecord)
    (records : List MobileServiceRecord) : replay known (record :: records) =
      if record.is_active then replay (add_known known record.instance_name) records
      else if record.instance_name ∈ known then replay (known.erase record.instance_name) records
      else none := rfl

/-- Records are read one after the other. -/
theorem replay_append (known : List String) (l₁ l₂ : List MobileServiceRecord) :
    replay known (l₁ ++ l₂) = (replay known l₁).bind fun known => replay known l₂ := by
  induction l₁ generalizing known with
  | nil => rfl
  | cons record records ih =>
      rw [List.cons_append, replay_cons, replay_cons]
      split
      · exact ih _
      · split
        · exact ih _
        · rfl

/-- The states in which instances are found. -/
def Live (x : DnsSdBrowseSession) : Prop := x.state = .STARTING ∨ x.state = .ACTIVE

/-- What takes services is live. -/
theorem live_of_open {x : DnsSdBrowseSession} (h : x.open_ = true) : x.Live := by
  rw [open_, Bool.and_eq_true, beq_iff_eq] at h
  exact .inr h.2

/-- What a step that is not about an instance keeps. -/
structure Frame (x y : DnsSdBrowseSession) : Prop where
  manager : y.manager = x.manager
  records : y.polled ++ y.pending_records = x.polled ++ x.pending_records
  known : y.known_instances = x.known_instances
  found : y.found = x.found
  lost : y.lost = x.lost
  next : y.next_presence_generation = x.next_presence_generation
  generations : y.presence_generations = x.presence_generations ∨
    y.presence_generations = ∅ ∧ ¬y.Live
  live : y.Live → x.Live

theorem Frame.refl (x : DnsSdBrowseSession) : Frame x x :=
  ⟨rfl, rfl, rfl, rfl, rfl, rfl, .inl rfl, id⟩

/-- Frames follow one another. -/
theorem Frame.trans {x y z : DnsSdBrowseSession} (h : Frame x y) (h' : Frame y z) : Frame x z where
  manager := h'.manager.trans h.manager
  records := h'.records.trans h.records
  known := h'.known.trans h.known
  found := h'.found.trans h.found
  lost := h'.lost.trans h.lost
  next := h'.next.trans h.next
  generations := by
    rcases h'.generations with heq | hempty
    · rcases h.generations with heq' | ⟨hempty, hdead⟩
      · exact .inl (heq.trans heq')
      · exact .inr ⟨heq.trans hempty, fun hlive => hdead (h'.live hlive)⟩
    · exact .inr hempty
  live hlive := h.live (h'.live hlive)

/-- A closed or failed session shows no services. -/
theorem not_live_of_closed {x : DnsSdBrowseSession} (h : x.state = .CLOSED ∨ x.state = .FAILED) :
    ¬x.Live := by
  intro hlive
  rcases h with h | h <;> rcases hlive with hlive | hlive <;> rw [h] at hlive <;> cases hlive

theorem frame_schedule (x : DnsSdBrowseSession) : Frame x x.schedule_browse_stop_retry := by
  unfold schedule_browse_stop_retry
  split
  · exact .refl x
  · exact ⟨rfl, rfl, rfl, rfl, rfl, rfl, .inl rfl, id⟩

theorem frame_dispatch (x : DnsSdBrowseSession) (thrown : ℕ → Option String) :
    Frame x (x.dispatch_browse_stop_with_retry thrown).2 := by
  rcases dispatch_cases x thrown with ⟨hd, _⟩ | ⟨_, _, hd | ⟨error, hd⟩⟩
  · rw [hd]
    exact .refl x
  · rw [hd]
    exact ⟨rfl, rfl, rfl, rfl, rfl, rfl, .inl rfl, id⟩
  · rw [hd]
    exact .refl x

theorem frame_dispatch_or_schedule (x : DnsSdBrowseSession) (thrown : ℕ → Option String) :
    Frame x (x.dispatch_or_schedule thrown).2 := by
  have hframe := frame_dispatch x thrown
  unfold DnsSdBrowseSession.dispatch_or_schedule
  dsimp only
  split
  · exact hframe
  · exact hframe.trans (frame_schedule _)

theorem frame_fence_start (x : DnsSdBrowseSession) (message : String)
    (thrown : ℕ → Option String) : Frame x (x.fence_start message thrown) := by
  have hfence : Frame x (x.fence message) :=
    ⟨rfl, rfl, rfl, rfl, rfl, rfl, .inl rfl, fun hlive => absurd hlive (not_live_of_closed (.inl rfl))⟩
  have hframe := hfence.trans (frame_dispatch (x.fence message) thrown)
  unfold DnsSdBrowseSession.fence_start
  dsimp only
  split
  · exact hframe
  · exact hframe.trans ⟨rfl, rfl, rfl, rfl, rfl, rfl, .inl rfl, id⟩

theorem frame_start_thrown (x : DnsSdBrowseSession) (illegal : Bool) (error : String)
    (thrown : ℕ → Option String) : Frame x (x.on_start_thrown illegal error thrown) := by
  have hhandled : Frame x { x with start_error := none } :=
    ⟨rfl, rfl, rfl, rfl, rfl, rfl, .inl rfl, id⟩
  unfold on_start_thrown
  dsimp only
  split
  · exact ⟨rfl, rfl, rfl, rfl, rfl, rfl, .inl rfl,
      fun hlive => absurd hlive (not_live_of_closed (.inr rfl))⟩
  · exact hhandled.trans (frame_fence_start _ _ thrown)

theorem frame_on_terminal (x : DnsSdBrowseSession) {state : NativeSessionState}
    (hstate : state = .CLOSED ∨ state = .FAILED) (error : Option String) (not_ready : String)
    (cleanup_error stop_error : Option String) :
    Frame x (x.on_terminal state error not_ready cleanup_error stop_error) := by
  have hterminal : Frame x (x.terminal state error) :=
    ⟨rfl, rfl, rfl, rfl, rfl, rfl, .inl rfl, fun hlive => absurd hlive (not_live_of_closed hstate)⟩
  have hreject : Frame (x.terminal state error)
      ((x.terminal state error).reject_pending_browse_start cleanup_error) := by
    unfold reject_pending_browse_start
    split
    · exact .refl _
    · exact ⟨rfl, rfl, rfl, rfl, rfl, rfl, .inl rfl, id⟩
  have hframe := hterminal.trans hreject
  unfold DnsSdBrowseSession.on_terminal
  dsimp only
  split
  · -- the rest sets fields that the frame does not name
    have hlast : ∀ y, Frame x y → Frame x (if x.stops.pending ≠ [] then y.finish_browse_stop stop_error
        else if x.pending_start_failure.isSome then y.remove else y) := by
      intro y hy
      split
      · exact hy.trans ⟨rfl, rfl, rfl, rfl, rfl, rfl, .inl rfl, id⟩
      · split
        · exact hy.trans ⟨rfl, rfl, rfl, rfl, rfl, rfl, .inl rfl, id⟩
        · exact hy
    apply hlast
    split
    · exact hframe.trans ⟨rfl, rfl, rfl, rfl, rfl, rfl, .inl rfl, id⟩
    · exact hframe
  · exact .refl x

theorem frame_discovery_started (x : DnsSdBrowseSession) (thrown : ℕ → Option String) :
    Frame x (x.on_discovery_started thrown) := by
  unfold on_discovery_started
  split
  · split
    · next hclosed =>
        have hfirst : Frame x
            { x with readiness_pending := false, stop_deferred_until_ready := false } :=
          ⟨rfl, rfl, rfl, rfl, rfl, rfl, .inl rfl, id⟩
        exact hfirst.trans (frame_dispatch_or_schedule _ thrown)
    · next hs => exact ⟨rfl, rfl, rfl, rfl, rfl, rfl, .inl rfl, fun _ => .inl hs⟩
    · exact ⟨rfl, rfl, rfl, rfl, rfl, rfl, .inl rfl, id⟩
  · exact .refl x

theorem frame_close (x : DnsSdBrowseSession) : Frame x x.close := by
  unfold DnsSdBrowseSession.close
  split
  · exact .refl x
  · exact ⟨rfl, rfl, rfl, rfl, rfl, rfl, .inr ⟨rfl, not_live_of_closed (.inl rfl)⟩,
      fun hlive => absurd hlive (not_live_of_closed (.inl rfl))⟩

theorem frame_browse_stop (x : DnsSdBrowseSession) (thrown : ℕ → Option String) :
    Frame x (x.browse_stop thrown) := by
  have hadd : Frame x { x with stops := x.stops.add } :=
    ⟨rfl, rfl, rfl, rfl, rfl, rfl, .inl rfl, id⟩
  have hclose := hadd.trans (frame_close { x with stops := x.stops.add })
  unfold DnsSdBrowseSession.browse_stop
  split
  · dsimp only
    split
    · exact hadd.trans ⟨rfl, rfl, rfl, rfl, rfl, rfl, .inl rfl, id⟩
    · unfold dispatch_stop
      split
      · exact hclose
      · split
        · split
          · exact hclose.trans ⟨rfl, rfl, rfl, rfl, rfl, rfl, .inl rfl, id⟩
          · exact hclose.trans ⟨rfl, rfl, rfl, rfl, rfl, rfl, .inl rfl, id⟩
        · exact hclose.trans (frame_dispatch_or_schedule _ thrown)
  · exact ⟨rfl, rfl, rfl, rfl, rfl, rfl, .inl rfl, id⟩

theorem frame_stop_retry (x : DnsSdBrowseSession) (thrown : ℕ → Option String) :
    Frame x (x.stop_retry thrown) := by
  have hfirst : Frame x { x with stop_retry_scheduled := false } :=
    ⟨rfl, rfl, rfl, rfl, rfl, rfl, .inl rfl, id⟩
  have hdispatch := hfirst.trans (frame_dispatch_or_schedule _ thrown)
  unfold DnsSdBrowseSession.stop_retry
  split
  · exact hfirst
  · split
    · exact hfirst.trans ⟨rfl, rfl, rfl, rfl, rfl, rfl, .inl rfl, id⟩
    · dsimp only
      split
      · exact hdispatch.trans ⟨rfl, rfl, rfl, rfl, rfl, rfl, .inl rfl, id⟩
      · exact hdispatch

theorem frame_resolver_failed (x : DnsSdBrowseSession) (message : String)
    (thrown : ℕ → Option String) : Frame x (x.resolver_failed message thrown) := by
  unfold DnsSdBrowseSession.resolver_failed
  split
  · split
    · exact frame_fence_start x message thrown
    · exact ⟨rfl, rfl, rfl, rfl, rfl, rfl, .inl rfl,
        fun hlive => absurd hlive (not_live_of_closed (.inr rfl))⟩
    · exact .refl x
  · exact .refl x

theorem frame_browse_poll (x : DnsSdBrowseSession) : Frame x x.browse_poll.2 := by
  have hpolled : Frame x { x with pending_records := [], polled := x.polled ++ x.pending_records } :=
    ⟨rfl, List.append_nil _, rfl, rfl, rfl, rfl, .inl rfl, id⟩
  unfold DnsSdBrowseSession.browse_poll
  dsimp only
  split
  · exact hpolled.trans ⟨rfl, rfl, rfl, rfl, rfl, rfl, .inl rfl, id⟩
  · exact hpolled

/-- While the session may find instances, those found are those with a generation, and what the
records say is there is among them. -/
structure Presence (x : DnsSdBrowseSession) : Prop where
  replayed : replay [] (x.polled ++ x.pending_records) = some x.known_instances
  nodup : x.known_instances.Nodup
  found_nodup : x.found.Nodup
  known_found : x.Live → ∀ name ∈ x.known_instances, name ∈ x.found
  generation : x.Live → ∀ name, name ∈ x.found ↔ (x.presence_generations.lookup name).isSome = true
  generations : ∀ name g, x.presence_generations.lookup name = some g → g < x.next_presence_generation

/-- What leaves the services alone keeps the view. -/
theorem Presence.frame {x y : DnsSdBrowseSession} (h : Presence x) (hframe : Frame x y) :
    Presence y where
  replayed := by
    rw [hframe.records, hframe.known]
    exact h.replayed
  nodup := by
    rw [hframe.known]
    exact h.nodup
  found_nodup := by
    rw [hframe.found]
    exact h.found_nodup
  known_found hlive := by
    rw [hframe.known, hframe.found]
    exact h.known_found (hframe.live hlive)
  generation hlive := by
    rcases hframe.generations with heq | ⟨_, hdead⟩
    · rw [hframe.found, heq]
      exact h.generation (hframe.live hlive)
    · exact absurd hlive hdead
  generations name g hg := by
    rw [hframe.next]
    rcases hframe.generations with heq | ⟨hempty, _⟩
    · rw [heq] at hg
      exact h.generations name g hg
    · rw [hempty] at hg
      cases hg

/-- A name is known once it is added. -/
theorem mem_add_known {known : List String} {name name' : String} :
    name' ∈ add_known known name ↔ name' ∈ known ∨ name' = name := by
  unfold add_known
  split
  · next hmem =>
      constructor
      · exact .inl
      · rintro (h | rfl)
        · exact h
        · exact hmem
  · rw [List.mem_append, List.mem_singleton]

theorem nodup_add_known {known : List String} (h : known.Nodup) (name : String) :
    (add_known known name).Nodup := by
  unfold add_known
  split
  · exact h
  · next hmem =>
      rw [List.nodup_append]
      refine ⟨h, List.nodup_singleton name, ?_⟩
      rintro a ha b hb rfl
      rw [List.mem_singleton.mp hb] at ha
      exact hmem ha

/-- A service that is found gets a generation of its own. -/
theorem Presence.service_found {x : DnsSdBrowseSession} (h : Presence x) (name : String) :
    Presence (x.on_service_found name).2 := by
  unfold on_service_found
  split
  · next hopen =>
      have hlive := live_of_open hopen
      split
      · next current hg =>
          have hthere : name ∈ x.found := by
            rw [h.generation hlive, hg, Option.isSome_some]
          -- known already: its generation stays, and it is in the list
          have hsame : add_known x.found name = x.found := if_pos hthere
          refine { h with found_nodup := ?_, known_found := ?_, generation := ?_ }
          · rw [hsame]
            exact h.found_nodup
          · rw [hsame]
            exact h.known_found
          · rw [hsame]
            exact h.generation
      · refine { h with
          found_nodup := nodup_add_known h.found_nodup name
          known_found := fun _ name' hmem => mem_add_known.mpr (.inl (h.known_found hlive name' hmem))
          generation := fun _ name' => ?_
          generations := fun name' g hg => ?_ }
        · rw [mem_add_known, AList.lookup_insert_eq_ite, h.generation hlive]
          split
          · next heq => simp [heq]
          · next hne => simp [hne]
        · rw [AList.lookup_insert_eq_ite] at hg
          split at hg
          · rw [← Option.some.inj hg]
            exact Nat.lt_succ_self _
          · exact Nat.lt_succ_of_lt (h.generations name' g hg)
  · exact h

/-- A service that is lost is forgotten with its generation. -/
theorem Presence.service_lost {x : DnsSdBrowseSession} (h : Presence x) (name : String) :
    Presence (x.on_service_lost name).2 := by
  unfold on_service_lost
  split
  · next hopen =>
      have hlive := live_of_open hopen
      refine {
        replayed := ?_
        nodup := h.nodup.erase name
        found_nodup := h.found_nodup.erase name
        known_found := fun _ name' hmem => ?_
        generation := fun _ name' => ?_
        generations := fun name' g hg => ?_ }
      · rw [← List.append_assoc, replay_append, h.replayed]
        by_cases hmem : name ∈ x.known_instances
        · rw [if_pos hmem, Option.bind_some, replay_cons]
          exact if_pos hmem
        · rw [if_neg hmem, List.erase_of_not_mem hmem]
          rfl
      · rw [h.nodup.mem_erase_iff] at hmem
        rw [h.found_nodup.mem_erase_iff]
        exact ⟨hmem.1, h.known_found hlive name' hmem.2⟩
      · rw [h.found_nodup.mem_erase_iff, AList.lookup_erase_eq_ite, h.generation hlive]
        split
        · next heq => simp [heq]
        · next hne => simp [hne]
      · rw [AList.lookup_erase_eq_ite] at hg
        split at hg
        · cases hg
        · exact h.generations name' g hg
  · exact h

/-- A record of an instance is only made while the instance is found. -/
theorem Presence.service_resolved {x : DnsSdBrowseSession} (h : Presence x) (name : String)
    (generation : ℕ) (resolved : NsdServiceInfo) :
    Presence (x.on_service_resolved name generation resolved) := by
  unfold on_service_resolved
  split
  · next hcurrent =>
      rw [is_current, Bool.and_eq_true, beq_iff_eq] at hcurrent
      have hlive := live_of_open hcurrent.1
      refine { h with
        replayed := ?_
        nodup := nodup_add_known h.nodup name
        known_found := fun _ name' hmem => ?_ }
      · rw [← List.append_assoc, replay_append, h.replayed]
        rfl
      · rcases mem_add_known.mp hmem with hmem | rfl
        · exact h.known_found hlive name' hmem
        · change name' ∈ x.found
          rw [h.generation hlive, hcurrent.2, Option.isSome_some]
  · exact h

/-- **An event about no instance** leaves the services alone. -/
theorem frame_step {x y : DnsSdBrowseSession} {e : Event} (he : e.about_instance = false)
    (hstep : x.step e = some y) : Frame x y := by
  cases e with
  | start_thrown thrown =>
      obtain ⟨e, -, rfl⟩ := Option.map_eq_some_iff.mp hstep
      exact frame_start_thrown x e.1 e.2 thrown
  | start_discovery_failed error_code =>
      rw [← Option.some.inj hstep]
      apply frame_on_terminal
      split
      · exact .inl rfl
      · exact .inr rfl
  | stop_discovery_failed error_code =>
      rw [← Option.some.inj hstep]
      exact frame_on_terminal x (.inr rfl) _ _ _ _
  | discovery_started thrown =>
      rw [← Option.some.inj hstep]
      exact frame_discovery_started x thrown
  | discovery_stopped =>
      rw [← Option.some.inj hstep]
      apply frame_on_terminal
      split
      · exact .inr rfl
      · exact .inl rfl
  | browse_poll =>
      rw [← Option.some.inj hstep]
      exact frame_browse_poll x
  | browse_stop thrown =>
      rw [← Option.some.inj hstep]
      exact frame_browse_stop x thrown
  | stop_retry thrown =>
      rw [step, Option.ite_none_right_eq_some, Option.some.injEq] at hstep
      rw [← hstep.2]
      exact frame_stop_retry x thrown
  | resolver_failed message thrown =>
      rw [← Option.some.inj hstep]
      exact frame_resolver_failed x message thrown
  | _ => cases he

theorem manager_step {x y : DnsSdBrowseSession} {e : Event} (hstep : x.step e = some y) :
    y.manager = x.manager := by
  by_cases he : e.about_instance = false
  · exact (frame_step he hstep).manager
  cases e with
  | service_found name =>
      rw [← Option.some.inj hstep]
      unfold on_service_found
      split
      · split <;> rfl
      · rfl
  | service_lost name =>
      rw [← Option.some.inj hstep]
      unfold on_service_lost
      split <;> rfl
  | service_resolved name generation resolved =>
      rw [← Option.some.inj hstep]
      unfold on_service_resolved
      split <;> rfl
  | _ => exact absurd rfl he

/-- A step may make records, and only the answer to a resolve of a current presence makes an active
one. -/
theorem records_step {x y : DnsSdBrowseSession} {e : Event} (hstep : x.step e = some y) :
    ∃ new, y.polled ++ y.pending_records = x.polled ++ x.pending_records ++ new ∧
      ∀ record ∈ new, record.is_active = true → ∃ name generation resolved,
        e = .service_resolved name generation resolved ∧ record.instance_name = name ∧
          x.is_current name generation = true := by
  have hnone : ∃ new, x.polled ++ x.pending_records = x.polled ++ x.pending_records ++ new ∧
      ∀ record ∈ new, record.is_active = true → ∃ name generation resolved,
        e = .service_resolved name generation resolved ∧ record.instance_name = name ∧
          x.is_current name generation = true :=
    ⟨[], (List.append_nil _).symm, fun record hno => absurd hno List.not_mem_nil⟩
  -- only an answer to a resolve makes an active record, and only behind the guard
  by_cases he : e.about_instance = false
  · rw [(frame_step he hstep).records]
    exact hnone
  cases e with
  | service_found name =>
      rw [← Option.some.inj hstep]
      unfold on_service_found
      split
      · split <;> exact hnone
      · exact hnone
  | service_lost name =>
      rw [← Option.some.inj hstep]
      unfold on_service_lost
      split
      · refine ⟨_, (List.append_assoc _ _ _).symm, fun record hmem hactive => ?_⟩
        split at hmem
        · rw [List.mem_singleton.mp hmem] at hactive
          cases hactive
        · exact absurd hmem List.not_mem_nil
      · exact hnone
  | service_resolved name generation resolved =>
      rw [← Option.some.inj hstep]
      unfold on_service_resolved
      split
      · next hcurrent =>
          refine ⟨_, (List.append_assoc _ _ _).symm, fun record hmem _ => ?_⟩
          rw [List.mem_singleton.mp hmem]
          exact ⟨name, generation, resolved, rfl, rfl, hcurrent⟩
      · exact hnone
  | _ => exact absurd rfl he

/-- **One step** keeps the view of the records in step with the services. -/
theorem presence_step {x y : DnsSdBrowseSession} {e : Event} (h : Presence x)
    (hstep : x.step e = some y) : Presence y := by
  by_cases he : e.about_instance = false
  · exact h.frame (frame_step he hstep)
  cases e with
  | service_found name =>
      rw [← Option.some.inj hstep]
      exact h.service_found name
  | service_lost name =>
      rw [← Option.some.inj hstep]
      exact h.service_lost name
  | service_resolved name generation resolved =>
      rw [← Option.some.inj hstep]
      exact h.service_resolved name generation resolved
  | _ => exact absurd rfl he

theorem presence_start (service_type : String) (manager : ℕ) (refused : Option (Bool × String)) :
    Presence (start service_type manager refused) where
  replayed := rfl
  nodup := List.nodup_nil
  found_nodup := List.nodup_nil
  known_found _ _ hno := absurd hno List.not_mem_nil
  generation _ _ := ⟨fun hno => absurd hno List.not_mem_nil, fun hno => by cases hno⟩
  generations _ _ hno := by cases hno

/-- `x` is a session that some history of events leads to. -/
def Reached (x : DnsSdBrowseSession) : Prop :=
  ∃ service_type manager refused history,
    run step (start service_type manager refused) history = some x

theorem Reached.presence {x : DnsSdBrowseSession} (h : Reached x) : Presence x := by
  obtain ⟨service_type, manager, refused, history, hrun⟩ := h
  exact run_invariant (fun _ _ _ h hstep => presence_step h hstep)
    (presence_start service_type manager refused) hrun

theorem Reached.step {x y : DnsSdBrowseSession} {e : Event} (h : Reached x)
    (hstep : x.step e = some y) : Reached y := by
  obtain ⟨service_type, manager, refused, history, hrun⟩ := h
  exact ⟨service_type, manager, refused, history ++ [e], run_append_singleton hrun hstep⟩

/-- A generation that has been given out is not given out again, and names a presence between two
losses of its instance. -/
def Ages (x y : DnsSdBrowseSession) : Prop :=
  ∀ name g, g < x.next_presence_generation → g < y.next_presence_generation ∧
    (y.presence_generations.lookup name = some g →
      x.presence_generations.lookup name = some g ∧ y.lost.count name = x.lost.count name)

/-- Generations only grow. -/
theorem ages_step {x y : DnsSdBrowseSession} {e : Event} (hstep : x.step e = some y) :
    Ages x y := by
  intro name g hlt
  -- the other events leave the presences alone, or clear them all
  by_cases he : e.about_instance = false
  · have hframe := frame_step he hstep
    rw [hframe.next, hframe.lost]
    refine ⟨hlt, fun hg => ?_⟩
    rcases hframe.generations with heq | ⟨hempty, _⟩
    · rw [heq] at hg
      exact ⟨hg, rfl⟩
    · rw [hempty] at hg
      cases hg
  cases e with
  | service_found name' =>
      rw [← Option.some.inj hstep]
      unfold on_service_found
      split
      · split
        · exact ⟨hlt, fun hg => ⟨hg, rfl⟩⟩
        · refine ⟨Nat.lt_succ_of_lt hlt, fun hg => ?_⟩
          rw [AList.lookup_insert_eq_ite] at hg
          split at hg
          · rw [← Option.some.inj hg] at hlt
            exact absurd hlt (Nat.lt_irrefl _)
          · exact ⟨hg, rfl⟩
      · exact ⟨hlt, fun hg => ⟨hg, rfl⟩⟩
  | service_lost name' =>
      rw [← Option.some.inj hstep]
      unfold on_service_lost
      split
      · refine ⟨hlt, fun hg => ?_⟩
        rw [AList.lookup_erase_eq_ite] at hg
        split at hg
        · cases hg
        · next hne =>
            refine ⟨hg, ?_⟩
            have hzero : [name'].count name = 0 := by
              rw [List.count_singleton, if_neg]
              rw [beq_iff_eq]
              exact fun heq => hne heq.symm
            rw [List.count_append, hzero, Nat.add_zero]
      · exact ⟨hlt, fun hg => ⟨hg, rfl⟩⟩
  | service_resolved name' generation resolved =>
      rw [← Option.some.inj hstep]
      unfold on_service_resolved
      split
      · exact ⟨hlt, fun hg => ⟨hg, rfl⟩⟩
      · exact ⟨hlt, fun hg => ⟨hg, rfl⟩⟩
  | _ => exact absurd rfl he

/-- The generation that an announcement is given is that of its instance. -/
theorem found_generation {x y : DnsSdBrowseSession} (h : Presence x) {name : String} {g : ℕ}
    (hfound : x.on_service_found name = (some g, y)) :
    g < y.next_presence_generation ∧ y.lost = x.lost := by
  unfold on_service_found at hfound
  split at hfound
  · split at hfound
    · next current hcurrent =>
        obtain ⟨hg, rfl⟩ := Prod.mk.inj hfound
        rw [← Option.some.inj hg]
        exact ⟨h.generations name current hcurrent, rfl⟩
    · obtain ⟨hg, rfl⟩ := Prod.mk.inj hfound
      rw [← Option.some.inj hg]
      exact ⟨Nat.lt_succ_self _, rfl⟩
  · cases (Prod.mk.inj hfound).1

end DnsSdBrowseSession

end IrohHttp.BrowseSession
