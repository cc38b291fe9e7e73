/-
An advertisement session of `IrohHttpPlugin.kt`, from `advertise_start` to the terminal callback of
the platform.

Android cannot change the TXT record of a registered service before API 34, so an update
unregisters the service and registers it again with a new listener. Each listener has the number of its
generation, and the platform ends a listener once: by a failed registration, or by the end of the
unregistration that was asked for or came by itself. A listener that has been ended, or whose
unregistration the platform has accepted, is not used again.

A block synchronized on the session is one step, so a run is any order in which callbacks, commands
and retries get the lock. What the platform throws at a call is part of the step.
-/
import IrohHttp.Machine
import IrohHttp.MobileRecords
import IrohHttp.NativeSession
import Mathlib.Data.Finset.Insert

set_option autoImplicit false

namespace IrohHttp.AndroidAdvertise

open IrohHttp.Mobile IrohHttp.NativeSession Machine

/-- How often an unregistration that throws is tried at once. -/
def MAX_UNREGISTER_DISPATCH_ATTEMPTS : ℕ := 2

/-! ## Records -/

/-- What the plugin sets of an `NsdServiceInfo` that it registers. -/
structure ServiceInfo where
  service_name : String
  service_type : String
  port : ℤ
  attributes : List (String × String)
  deriving DecidableEq

/-- The arguments of `advertise_start`. -/
structure DnsSdAdvertiseStartArgs where
  service_name : String
  instance_name : String
  port : ℤ
  addrs : List String
  txt : List (String × String)
  protocol : String

/-- The arguments of `advertise_update`, without the id of the session. -/
structure DnsSdAdvertiseUpdateArgs where
  port : ℤ
  addrs : List String
  txt : List (String × String)

/-- What `advertise_start` and `advertise_update` both ask of a record. -/
def check_record (port : ℤ) (addrs : List String) : Except String Unit :=
  if addrs ≠ [] then .error "Android generic DNS-SD advertising does not support explicit addrs"
  else if 1 ≤ port ∧ port ≤ 65535 then .ok ()
  else .error "DNS-SD port must be between 1 and 65535"

/-- What the platform says of the attributes: `setAttribute` throws at one it cannot encode. -/
def encode (info : ServiceInfo) (refused : Option String) : Except String ServiceInfo :=
  match refused with
  | none => .ok info
  | some error => .error s!"Failed to encode DNS-SD record: {error}"

/-- The record that the arguments of `advertise_start` describe. -/
def DnsSdAdvertiseStartArgs.info (args : DnsSdAdvertiseStartArgs) : ServiceInfo :=
  { service_name := args.instance_name
    service_type := session_service_type args.service_name args.protocol
    port := args.port, attributes := args.txt }

/-- The record of `advertise_update`, under the name and the type of the session's. -/
def update_info (args : DnsSdAdvertiseUpdateArgs) (info : ServiceInfo) (refused : Option String) :
    Except String ServiceInfo :=
  (check_record args.port args.addrs).bind fun _ =>
    encode { info with port := args.port, attributes := args.txt } refused

/-! ## The session -/

/-- An update takes the old registration down first and then registers the new one. -/
inductive AdvertisementUpdatePhase
  | UNREGISTERING
  | REGISTERING
  deriving DecidableEq

/-- The update under way, with the record that it brings. -/
structure AdvertisementUpdate where
  info : ServiceInfo
  phase : AdvertisementUpdatePhase := .UNREGISTERING

/-- `mapped` says that `advertiseMap` has the session, `lease_released` that its multicast lease, where
it took one, is given back. `updates` has the calls of `advertise_update`; the one that waits is that of
`pending_update`. What follows `info` is a record: whether the platform owes the current listener the
end of a registration, which listeners it has been given and has not ended, the generations whose
unregistration it accepted, and the record of the last call that was told of success. -/
structure AdvertiseSession where
  mapped : Bool := true
  start_invoke : InvokeOnce := {}
  lease_released : Bool := false
  state : NativeSessionState := .STARTING
  terminal_error : Option String := none
  pending_start_failure : Option String := none
  generation : ℕ := 1
  pending_update : Option AdvertisementUpdate := none
  stops : PendingCalls := {}
  updates : PendingCalls := {}
  retired_registration_generations : Finset ℕ := ∅
  unregistering_generations : Finset ℕ := ∅
  stop_retry_scheduled : Bool := false
  stop_retry_delay_millis : ℕ := INITIAL_STOP_RETRY_DELAY_MILLIS
  info : ServiceInfo
  owed : Bool := true
  alive : Finset ℕ := {1}
  unregisters : List ℕ := []
  acknowledged : ServiceInfo

/-- What can get the lock of a session: a callback for one generation, a command or a retry.
`refused` and `thrown` are what the platform throws at a registration and at an unregistration. -/
inductive Event
  | service_registered (generation : ℕ) (thrown : ℕ → Option String)
  | registration_failed (generation : ℕ) (error_code : ℤ)
  | service_unregistered (generation : ℕ) (refused thrown : Option String)
  | unregistration_failed (generation : ℕ) (error_code : ℤ)
  | advertise_update (args : DnsSdAdvertiseUpdateArgs) (refused thrown : Option String)
  | advertise_stop (thrown : ℕ → Option String)
  | stop_retry (thrown : ℕ → Option String)

/-- Whether it is a call of `advertise_stop`. -/
def Event.is_stop : Event → Bool
  | .advertise_stop _ => true
  | _ => false

/-- The record that an update of a session with the record `info` asks for. -/
def Event.asks (info : ServiceInfo) : Event → Option (Except String ServiceInfo)
  | .advertise_update args refused _ => some (update_info args info refused)
  | _ => none

namespace AdvertiseSession

/-- The phase of the update that waits. -/
def phase (x : AdvertiseSession) : Option AdvertisementUpdatePhase :=
  x.pending_update.map AdvertisementUpdate.phase

/-! ## Unregistering -/

/-- The platform accepts an unregistration. -/
def accept_unregister (x : AdvertiseSession) (generation : ℕ) : AdvertiseSession :=
  { x with
    retired_registration_generations := insert generation x.retired_registration_generations
    unregistering_generations := insert generation x.unregistering_generations
    unregisters := x.unregisters ++ [generation] }

/-- `unregisterRegistrationOnce`: a listener that has been used up is left alone. -/
def unregister_registration_once (x : AdvertiseSession) (generation : ℕ) (thrown : Option String) :
    Except String Bool × AdvertiseSession :=
  if generation ∈ x.retired_registration_generations then (.ok false, x)
  else
    match thrown with
    | some error => (.error error, x)
    | none => (.ok true, x.accept_unregister generation)

/-- A listener that is retired needs no unregistration, so an attempt at it succeeds. -/
def unregister_registration_with_retry (x : AdvertiseSession) (generation : ℕ)
    (thrown : ℕ → Option String) : Option String × AdvertiseSession :=
  if generation ∈ x.retired_registration_generations then (none, x)
  else
    match attempts thrown MAX_UNREGISTER_DISPATCH_ATTEMPTS none with
    | none => (none, x.accept_unregister generation)
    | some error => (some error, x)

/-! ## Stopping -/

/-- `removeAdvertisementSession`. -/
def remove (x : AdvertiseSession) : AdvertiseSession :=
  { x with mapped := false, lease_released := true }

/-- `finishAdvertisementStop`: the session leaves the map, and then the stops are answered. -/
def finish_advertisement_stop (x : AdvertiseSession) (error : Option String) : AdvertiseSession :=
  { x.remove with stops := x.stops.finish error }

/-- `scheduleAdvertisementStopRetry`, for a closed session that is still in the map. -/
def schedule_advertisement_stop_retry (x : AdvertiseSession) : AdvertiseSession :=
  if x.stop_retry_scheduled || !x.mapped || x.state != .CLOSED then x
  else
    { x with
      stop_retry_scheduled := true
      stop_retry_delay_millis := next_delay x.stop_retry_delay_millis }

/-- `rejectPendingAdvertisementStart`: the start whose failure waited for the cleanup has its
answer. -/
def reject_pending_advertisement_start (x : AdvertiseSession) (cleanup_error : Option String) :
    AdvertiseSession :=
  match x.pending_start_failure with
  | none => x
  | some start_error =>
    { x with
      pending_start_failure := none
      start_invoke := x.start_invoke.reject
        (match cleanup_error with
        | some error => s!"{start_error}; native cleanup failed: {error}"
        | none => start_error) }

/-- An unregistration that is not accepted is tried again later. -/
def unregister_or_schedule (x : AdvertiseSession) (generation : ℕ) (thrown : ℕ → Option String) :
    Option String × AdvertiseSession :=
  let r := x.unregister_registration_with_retry generation thrown
  match r.1 with
  | none => r
  | some error => (some error, r.2.schedule_advertisement_stop_retry)

/-- The update that waits is told of its end. -/
def end_update (x : AdvertiseSession) (error : Option String) : AdvertiseSession :=
  { x with pending_update := none, updates := x.updates.finish error }

/-! ## Starting -/

/-- The session of `startAdvertisement`, with what `registerService` throws and whether that is an
`IllegalArgumentException`: then the platform has not taken the listener. -/
def start (info : ServiceInfo) (refused : Option (Bool × String)) (thrown : ℕ → Option String) :
    AdvertiseSession :=
  let x : AdvertiseSession := { info := info, acknowledged := info }
  match refused with
  | none => x
  | some (illegal, error) =>
    let message := s!"Registration failed: {error}"
    if illegal then
      { x.remove with
        state := .FAILED, terminal_error := some message, owed := false, alive := ∅
        start_invoke := x.start_invoke.reject message }
    else
      let r := { x with
        state := .CLOSED, terminal_error := some message
        pending_start_failure := some message }.unregister_registration_with_retry x.generation thrown
      match r.1 with
      | none => r.2
      | some error => { r.2 with terminal_error := some s!"{message}; cleanup: {error}" }

/-- `onServiceRegistered` of the listener with this generation. -/
def on_service_registered (x : AdvertiseSession) (generation : ℕ) (thrown : ℕ → Option String) :
    AdvertiseSession :=
  if x.mapped then
    let x := if x.generation = generation then { x with owed := false } else x
    -- a registration that comes after the stop has nobody to own it, so it is taken back
    if x.state = .CLOSED then (x.unregister_or_schedule generation thrown).2
    else if x.generation ≠ generation then x
    else
      match x.pending_update with
      | some ⟨info, .REGISTERING⟩ =>
        { x.end_update none with state := .ACTIVE, acknowledged := info }
      | _ =>
        if x.state = .STARTING then
          { x with state := .ACTIVE, start_invoke := x.start_invoke.resolve }
        else x
  else x

/-- A terminal callback retires its listener. -/
def retire (x : AdvertiseSession) (generation : ℕ) : AdvertiseSession :=
  { x with
    retired_registration_generations := insert generation x.retired_registration_generations
    unregistering_generations := x.unregistering_generations.erase generation
    owed := x.owed && x.generation != generation
    alive := x.alive.erase generation }

/-- The session is not for a listener of the past, and neither is one that has left the map. -/
def current (x : AdvertiseSession) (generation : ℕ) : Bool :=
  x.mapped && x.generation == generation

/-- `onRegistrationFailed`: the listener is over. -/
def on_registration_failed (x : AdvertiseSession) (generation : ℕ) (error_code : ℤ) :
    AdvertiseSession :=
  let y := x.retire generation
  if x.current generation then
    if x.state = .CLOSED then
      ((y.end_update (some "DNS-SD advertisement is closed")).reject_pending_advertisement_start
        none).finish_advertisement_stop none
    else
      let message := s!"DNS-SD registration failed: error {error_code}"
      let y := { y with terminal_error := some message, lease_released := true }
      if x.phase = some .REGISTERING then
        { y.end_update (some s!"DNS-SD advertisement update failed: error {error_code}") with
          state := .FAILED }
      else if x.state = .STARTING then
        { y.remove with state := .FAILED, start_invoke := y.start_invoke.reject message }
      else { y with state := .FAILED }
  else y

/-- The listener of the next generation is registered with the record of the update that waits. -/
def register_update (x : AdvertiseSession) (update : AdvertisementUpdate) (refused thrown : Option String) :
    AdvertiseSession :=
  let y := { x with
    pending_update := some { update with phase := .REGISTERING }
    generation := x.generation + 1, info := update.info
    owed := true, alive := insert (x.generation + 1) x.alive }
  match refused with
  | none => y
  | some error =>
    -- the platform may have taken the listener before it threw
    ({ y with state := .FAILED, terminal_error := some s!"Registration failed: {error}"
      }.unregister_registration_once y.generation thrown).2.end_update
        (some s!"DNS-SD advertisement update failed: {error}")

/-- `onServiceUnregistered`: the end that a stop or an update waits for, or one that nobody asked
for. -/
def on_service_unregistered (x : AdvertiseSession) (generation : ℕ) (refused thrown : Option String) :
    AdvertiseSession :=
  let y := x.retire generation
  if x.current generation then
    if x.state = .CLOSED then
      (y.reject_pending_advertisement_start none).finish_advertisement_stop none
    else
      match x.pending_update with
      | some ⟨info, .UNREGISTERING⟩ => y.register_update ⟨info, .UNREGISTERING⟩ refused thrown
      | _ =>
        let message := "DNS-SD registration stopped unexpectedly"
        let y := { y with terminal_error := some message }
        match x.state with
        | .STARTING => { y.remove with state := .FAILED, start_invoke := y.start_invoke.reject message }
        | .ACTIVE => { y with state := .FAILED, lease_released := true }
        | _ => y
  else y

/-- `onUnregistrationFailed`: the platform keeps the registration, so the session has failed. -/
def on_unregistration_failed (x : AdvertiseSession) (generation : ℕ) (error_code : ℤ) :
    AdvertiseSession :=
  let y := x.retire generation
  if x.current generation then
    if x.state = .CLOSED then
      let message := s!"DNS-SD advertisement stop failed: error {error_code}"
      ({ y with terminal_error := some message }.reject_pending_advertisement_start
        (some message)).finish_advertisement_stop (some message)
    else
      let y := { y with
        state := .FAILED
        terminal_error := some s!"DNS-SD unregistration failed: error {error_code}" }
      if x.phase = some .UNREGISTERING then
        y.end_update (some
          s!"DNS-SD advertisement update could not unregister old record: error {error_code}")
      else { y with lease_released := true }
  else y

/-! ## Commands -/

/-- `updateAdvertisement`. -/
def update_advertisement (x : AdvertiseSession) (info : ServiceInfo) (thrown : Option String) :
    AdvertiseSession :=
  if x.state ≠ .ACTIVE then
    { x with updates := x.updates.answer_now (some
      ("DNS-SD advertisement update failed: " ++
        x.terminal_error.getD "advertisement is not active")) }
  else if x.pending_update.isSome then
    { x with updates :=
      x.updates.answer_now (some "DNS-SD advertisement update already in progress") }
  else
    let y := { x with pending_update := some { info := info }, updates := x.updates.add }
    let failed := fun (error : String) =>
      { y.end_update (some s!"DNS-SD advertisement update failed: {error}") with
        state := .FAILED, terminal_error := some s!"DNS-SD unregistration failed: {error}" }
    match y.unregister_registration_once y.generation thrown with
    | (.ok true, z) => z
    | (.ok false, _) => failed "registration listener was already invalidated"
    | (.error error, _) => failed error

/-- The record is made of the session's name and type, which no update changes. -/
def advertise_update (x : AdvertiseSession) (args : DnsSdAdvertiseUpdateArgs)
    (refused thrown : Option String) : AdvertiseSession :=
  match check_record args.port args.addrs with
  | .error error => { x with updates := x.updates.answer_now (some error) }
  | .ok () =>
    if x.mapped then
      match update_info args x.info refused with
      | .error error => { x with updates := x.updates.answer_now (some error) }
      | .ok info => x.update_advertisement info thrown
    else { x with updates := x.updates.answer_now (some "DNS-SD advertisement is closed") }

/-- `stopAdvertisement` up to the dispatch: the state is closed, and a start or an update that waits
is told. -/
def close (x : AdvertiseSession) : AdvertiseSession :=
  if x.state = .CLOSED then x
  else
    { x.end_update (some "DNS-SD advertisement is closed") with
      state := .CLOSED
      start_invoke := if x.state = .STARTING then
          x.start_invoke.reject "DNS-SD advertisement stopped before becoming ready"
        else x.start_invoke }

/-- A session that waits for a registration is left to the callback if the platform throws. -/
def advertise_stop (x : AdvertiseSession) (thrown : ℕ → Option String) : AdvertiseSession :=
  if x.mapped then
    let y := { x with stops := x.stops.add }.close
    -- an update that is unregistering has dispatched what the stop needs
    if x.state ≠ .CLOSED ∧ x.phase = some .UNREGISTERING then y
    else if y.generation ∈ y.unregistering_generations then y
    else if y.stop_retry_scheduled then y
    else if y.generation ∈ y.retired_registration_generations then y.finish_advertisement_stop none
    else if x.state = .STARTING ∨ x.state ≠ .CLOSED ∧ x.phase = some .REGISTERING then
      (y.unregister_registration_once y.generation (thrown 0)).2
    else (y.unregister_or_schedule y.generation thrown).2
  else { x with stops := x.stops.answer_now none }

/-- The task that `scheduleAdvertisementStopRetry` posts. -/
def stop_retry (x : AdvertiseSession) (thrown : ℕ → Option String) : AdvertiseSession :=
  let y := { x with stop_retry_scheduled := false }
  if !x.mapped || x.state != .CLOSED || x.generation ∈ x.unregistering_generations ||
      x.generation ∈ x.retired_registration_generations then y
  else
    let r := y.unregister_or_schedule y.generation thrown
    match r.1 with
    | none => { r.2 with stop_retry_delay_millis := INITIAL_STOP_RETRY_DELAY_MILLIS }
    | some _ => r.2

/-- The platform calls the listeners that it was given. It reports a registration as failed only where
it owes its end, and an unregistration as failed only where it has accepted it. -/
def step (x : AdvertiseSession) : Event → Option AdvertiseSession
  | .service_registered generation thrown =>
    if generation ≤ x.generation then some (x.on_service_registered generation thrown) else none
  | .registration_failed generation error_code =>
    if generation < x.generation ∨ generation = x.generation ∧ x.owed = true then
      some (x.on_registration_failed generation error_code)
    else none
  | .service_unregistered generation refused thrown =>
    if generation ≤ x.generation then some (x.on_service_unregistered generation refused thrown)
    else none
  | .unregistration_failed generation error_code =>
    if generation ∈ x.unregistering_generations then
      some (x.on_unregistration_failed generation error_code)
    else none
  | .advertise_update args refused thrown => some (x.advertise_update args refused thrown)
  | .advertise_stop thrown => some (x.advertise_stop thrown)
  | .stop_retry thrown => if x.stop_retry_scheduled then some (x.stop_retry thrown) else none

/-! ## The lifecycle -/

/-- A start and an update have their answer once the session is closed or has failed, unless the start
waits for the platform to clean up. A listener is unregistered once, and only the current one is alive.
An active session advertises the last record that a call was told of, or has an update on its way. -/
structure Safe (x : AdvertiseSession) : Prop where
  starting : x.state = .STARTING → x.start_invoke.completed = none ∧ x.mapped = true ∧
    x.pending_update = none
  fresh : x.state = .STARTING → x.unregistering_generations = ∅
  active : x.state = .ACTIVE → x.start_invoke.completed ≠ none ∧ x.mapped = true
  failure : x.pending_start_failure ≠ none → x.state = .CLOSED ∧ x.mapped = true
  started : x.start_invoke.completed = none → x.state = .STARTING ∨ x.pending_start_failure ≠ none
  removed : x.mapped = false → x.lease_released = true
  waiting : x.stops.pending ≠ [] → x.state = .CLOSED ∧ x.mapped = true
  answered : x.stops.answered ≠ [] → x.mapped = false
  accounted : x.stops.Accounted
  updates : x.updates.Accounted
  one_update : x.pending_update = none → x.updates.pending = []
  updating : x.pending_update ≠ none → x.state ≠ .CLOSED ∧ x.mapped = true
  once : x.unregisters.Nodup
  unregisters_retired : ∀ g ∈ x.unregisters, g ∈ x.retired_registration_generations
  unregistering_retired : ∀ g ∈ x.unregistering_generations, g ∈ x.retired_registration_generations
  retired_bound : ∀ g ∈ x.retired_registration_generations, g ≤ x.generation
  alive : ∀ g ∈ x.alive, g = x.generation
  idle : x.state ≠ .CLOSED → x.stop_retry_scheduled = false
  delay : INITIAL_STOP_RETRY_DELAY_MILLIS ≤ x.stop_retry_delay_millis ∧
    x.stop_retry_delay_millis ≤ MAX_STOP_RETRY_DELAY_MILLIS
  acknowledged : x.state = .STARTING ∨ x.state = .ACTIVE → x.phase ≠ some .REGISTERING →
    x.info = x.acknowledged
  registering : ∀ u, x.pending_update = some u → u.phase = .REGISTERING → x.info = u.info

/-- What the platform owes the session: a start waits for a registration, an update for what it is at,
and a closed session that has not left the map for the end of its listener, or it tries again. An update
whose new listener ends by itself is left to the stop. -/
structure Coming (x : AdvertiseSession) : Prop where
  starting : x.state = .STARTING → x.owed = true
  active : x.state = .ACTIVE → x.phase ≠ some .REGISTERING → x.owed = false
  unregistering : x.phase = some .UNREGISTERING →
    x.state = .ACTIVE ∧ x.generation ∈ x.unregistering_generations
  registering : x.phase = some .REGISTERING →
    x.owed = true ∨ x.generation ∈ x.retired_registration_generations
  retired : x.state = .CLOSED → x.mapped = true →
    x.generation ∈ x.retired_registration_generations → x.generation ∈ x.unregistering_generations
  next : x.state = .CLOSED → x.mapped = true →
    x.generation ∈ x.unregistering_generations ∨ x.stop_retry_scheduled = true ∨ x.owed = true

theorem initial_delay_in_range : INITIAL_STOP_RETRY_DELAY_MILLIS ≤ INITIAL_STOP_RETRY_DELAY_MILLIS ∧
    INITIAL_STOP_RETRY_DELAY_MILLIS ≤ MAX_STOP_RETRY_DELAY_MILLIS := by decide

section Safe

variable {x : AdvertiseSession}

/-- A closed session has no update under way. -/
theorem Safe.not_updating (h : Safe x) (hclosed : x.state = .CLOSED) : x.pending_update = none := by
  by_contra hne
  exact (h.updating hne).1 hclosed

/-- A callback retires a listener of the session's own past. -/
theorem Safe.retire (h : Safe x) {generation : ℕ} (hg : generation ≤ x.generation) :
    Safe (x.retire generation) := { h with
  fresh := fun hs => by
    change x.unregistering_generations.erase generation = ∅
    rw [h.fresh hs, Finset.erase_empty]
  unregisters_retired := fun g hmem => Finset.mem_insert_of_mem (h.unregisters_retired g hmem)
  unregistering_retired := fun g hmem =>
    Finset.mem_insert_of_mem (h.unregistering_retired g (Finset.mem_of_mem_erase hmem))
  retired_bound := fun g hmem => by
    rcases Finset.mem_insert.mp hmem with rfl | hmem
    · exact hg
    · exact h.retired_bound g hmem
  alive := fun g hmem => h.alive g (Finset.mem_of_mem_erase hmem) }

/-- The platform accepts the unregistration of a listener once. -/
theorem Safe.accept_unregister (h : Safe x) (hs : x.state ≠ .STARTING) {generation : ℕ}
    (hg : generation ≤ x.generation) (hnew : generation ∉ x.retired_registration_generations) :
    Safe (x.accept_unregister generation) := { h with
  fresh := fun hno => absurd hno hs
  once := by
    rw [AdvertiseSession.accept_unregister, List.nodup_append]
    refine ⟨h.once, List.nodup_singleton _, ?_⟩
    rintro a ha b hb rfl
    rw [List.mem_singleton.mp hb] at ha
    exact hnew (h.unregisters_retired generation ha)
  unregisters_retired := fun g hmem => by
    rcases List.mem_append.mp hmem with hmem | hmem
    · exact Finset.mem_insert_of_mem (h.unregisters_retired g hmem)
    · rw [List.mem_singleton.mp hmem]
      exact Finset.mem_insert_self _ _
  unregistering_retired := fun g hmem => by
    rcases Finset.mem_insert.mp hmem with rfl | hmem
    · exact Finset.mem_insert_self _ _
    · exact Finset.mem_insert_of_mem (h.unregistering_retired g hmem)
  retired_bound := fun g hmem => by
    rcases Finset.mem_insert.mp hmem with rfl | hmem
    · exact hg
    · exact h.retired_bound g hmem }

/-- A scheduled retry changes no registration. -/
theorem Safe.schedule (h : Safe x) : Safe x.schedule_advertisement_stop_retry := by
  unfold schedule_advertisement_stop_retry
  split
  · exact h
  · next hgo =>
      have hclosed : x.state = .CLOSED := by
        by_contra hs
        apply hgo
        rw [Bool.or_eq_true]
        exact .inr (bne_iff_ne.mpr hs)
      exact { h with
        idle := fun hs => absurd hclosed hs
        delay := next_delay_in_range h.delay.1 }

/-- An unregistration has nothing to do, or is accepted, or is thrown at. -/
theorem with_retry_cases (x : AdvertiseSession) (generation : ℕ) (thrown : ℕ → Option String) :
    (generation ∈ x.retired_registration_generations ∧
      x.unregister_registration_with_retry generation thrown = (none, x)) ∨
    (generation ∉ x.retired_registration_generations ∧
      (x.unregister_registration_with_retry generation thrown =
          (none, x.accept_unregister generation) ∨
        ∃ error, x.unregister_registration_with_retry generation thrown = (some error, x))) := by
  unfold unregister_registration_with_retry
  split
  · next hretired => exact .inl ⟨hretired, rfl⟩
  · next hnew =>
      refine .inr ⟨hnew, ?_⟩
      split
      · exact .inl rfl
      · next error _ => exact .inr ⟨error, rfl⟩

/-- **What one unregistration does**: nothing to a listener that is used up, and otherwise it is
accepted or throws. -/
theorem once_cases (x : AdvertiseSession) (generation : ℕ) (thrown : Option String) :
    (generation ∈ x.retired_registration_generations ∧
      x.unregister_registration_once generation thrown = (.ok false, x)) ∨
    (generation ∉ x.retired_registration_generations ∧
      (x.unregister_registration_once generation thrown =
          (.ok true, x.accept_unregister generation) ∨
        ∃ error, x.unregister_registration_once generation thrown = (.error error, x))) := by
  unfold unregister_registration_once
  split
  · next hretired => exact .inl ⟨hretired, rfl⟩
  · next hnew =>
      refine .inr ⟨hnew, ?_⟩
      split
      · next error => exact .inr ⟨error, rfl⟩
      · exact .inl rfl

/-- A second attempt after a throw keeps the invariant as the first one does. -/
theorem Safe.with_retry (h : Safe x) (hs : x.state ≠ .STARTING) {generation : ℕ}
    (hg : generation ≤ x.generation) (thrown : ℕ → Option String) :
    Safe (x.unregister_registration_with_retry generation thrown).2 := by
  rcases with_retry_cases x generation thrown with ⟨_, hr⟩ | ⟨hnew, hr | ⟨error, hr⟩⟩
  · rw [hr]
    exact h
  · rw [hr]
    exact h.accept_unregister hs hg hnew
  · rw [hr]
    exact h

theorem Safe.unregister_or_schedule (h : Safe x) (hs : x.state ≠ .STARTING) {generation : ℕ}
    (hg : generation ≤ x.generation) (thrown : ℕ → Option String) :
    Safe (x.unregister_or_schedule generation thrown).2 := by
  have hr := h.with_retry hs hg thrown
  unfold AdvertiseSession.unregister_or_schedule
  dsimp only
  split
  · exact hr
  · exact hr.schedule

/-- The answer of a pending start changes no registration. -/
theorem Safe.reject_pending (h : Safe x) (cleanup_error : Option String) :
    Safe (x.reject_pending_advertisement_start cleanup_error) := by
  unfold reject_pending_advertisement_start
  split
  · exact h
  · next hfailure =>
      have hclosed := (h.failure (by rw [hfailure]; exact Option.some_ne_none _)).1
      exact { h with
        starting := fun hs => by rw [hclosed] at hs; cases hs
        fresh := h.fresh
        active := fun hs => by rw [hclosed] at hs; cases hs
        failure := fun hno => absurd rfl hno
        started := fun hnone => absurd hnone (InvokeOnce.reject_completed _ _) }

/-- The end of a stop, once the start has been answered. -/
theorem Safe.finish_advertisement_stop (h : Safe x) (hclosed : x.state = .CLOSED)
    (hnone : x.pending_start_failure = none) (error : Option String) :
    Safe (x.finish_advertisement_stop error) := { h with
  starting := fun hs => by
    change x.state = .STARTING at hs
    rw [hclosed] at hs
    cases hs
  active := fun hs => by
    change x.state = .ACTIVE at hs
    rw [hclosed] at hs
    cases hs
  failure := fun hf => absurd hnone hf
  removed := fun _ => rfl
  waiting := fun hno => absurd rfl hno
  answered := fun _ => rfl
  accounted := h.accounted.finish error
  updating := fun hne => absurd (h.not_updating hclosed) hne }

/-- The answer of a pending start leaves the state and the update alone. -/
theorem reject_pending_state (x : AdvertiseSession) (cleanup_error : Option String) :
    (x.reject_pending_advertisement_start cleanup_error).state = x.state ∧
      (x.reject_pending_advertisement_start cleanup_error).pending_update = x.pending_update ∧
      (x.reject_pending_advertisement_start cleanup_error).pending_start_failure = none := by
  unfold reject_pending_advertisement_start
  split
  · next hfailure => exact ⟨rfl, rfl, hfailure⟩
  · exact ⟨rfl, rfl, rfl⟩

/-- The end of a stop answers the start, takes the session out of the map and answers the stops, in
this order. -/
theorem Safe.finish_stop (h : Safe x) (hclosed : x.state = .CLOSED) (cleanup_error error : Option String) :
    Safe ((x.reject_pending_advertisement_start cleanup_error).finish_advertisement_stop error) := by
  obtain ⟨hstate, _, hnone⟩ := reject_pending_state x cleanup_error
  exact (h.reject_pending cleanup_error).finish_advertisement_stop (hstate.trans hclosed) hnone error

theorem Safe.with_terminal (h : Safe x) (terminal_error : Option String) :
    Safe { x with terminal_error := terminal_error } := { h with }

theorem Safe.with_owed (h : Safe x) (owed : Bool) : Safe { x with owed := owed } := { h with }

/-- A registration that fails before the start has been answered. -/
theorem Safe.fail_start (h : Safe x) (hs : x.state = .STARTING) (message : String) :
    Safe { x.remove with state := .FAILED, start_invoke := x.start_invoke.reject message } := by
  obtain ⟨_, _, hupdate⟩ := h.starting hs
  have hnotclosed : x.state ≠ .CLOSED := by
    rw [hs]
    decide
  exact { h with
    starting := fun hno => by cases hno
    active := fun hno => by cases hno
    fresh := fun hno => by cases hno
    failure := fun hf => absurd (h.failure hf).1 hnotclosed
    started := fun hnone => absurd hnone (InvokeOnce.reject_completed _ _)
    removed := fun _ => rfl
    waiting := fun hp => absurd (h.waiting hp).1 hnotclosed
    answered := fun _ => rfl
    updating := fun hne => absurd hupdate hne
    idle := fun _ => h.idle hnotclosed
    acknowledged := fun hno => by rcases hno with hno | hno <;> cases hno }

/-- A session that fails keeps its place in the map, and the update that waits if `told` is not set. -/
theorem Safe.fail (h : Safe x) (hclosed : x.state ≠ .CLOSED) (hs : x.state ≠ .STARTING)
    (terminal_error : Option String) (lease_released : Bool)
    (hlease : x.lease_released = true → lease_released = true) :
    Safe { x with
      state := .FAILED, terminal_error := terminal_error, lease_released := lease_released } := by
  exact { h with
    starting := fun hno => by cases hno
    fresh := fun hno => by cases hno
    active := fun hno => by cases hno
    failure := fun hf => absurd (h.failure hf).1 hclosed
    started := fun hnone => by
      rcases h.started hnone with hstarting | hf
      · exact absurd hstarting hs
      · exact absurd (h.failure hf).1 hclosed
    removed := fun hm => hlease (h.removed hm)
    waiting := fun hp => absurd (h.waiting hp).1 hclosed
    updating := fun hne => ⟨fun hno => (by cases hno), (h.updating hne).2⟩
    idle := fun _ => h.idle hclosed
    acknowledged := fun hno => by rcases hno with hno | hno <;> cases hno }

/-- A session that has failed has nobody waiting for an update. -/
theorem Safe.end_update (h : Safe x) (hfailed : x.state = .FAILED ∨ x.state = .CLOSED)
    (error : Option String) : Safe (x.end_update error) := { h with
  starting := fun hs => ⟨(h.starting hs).1, (h.starting hs).2.1, rfl⟩
  updates := h.updates.finish error
  one_update := fun _ => rfl
  updating := fun hno => absurd rfl hno
  acknowledged := fun hs => by
    change x.state = .STARTING ∨ x.state = .ACTIVE at hs
    rcases hfailed with hfailed | hfailed <;> rw [hfailed] at hs <;> rcases hs with hs | hs <;> cases hs
  registering := fun u hu => by cases hu }

/-- A stop closes the session and fails the update under way. -/
theorem Safe.close (h : Safe x) (hmapped : x.mapped = true) :
    Safe { x with stops := x.stops.add }.close := by
  unfold AdvertiseSession.close
  split
  · next hclosed => exact { h with
      waiting := fun _ => ⟨hclosed, hmapped⟩
      answered := h.answered
      accounted := h.accounted.add }
  · next hopen =>
      have hfailure : x.pending_start_failure = none := by
        by_contra hf
        exact hopen (h.failure hf).1
      refine { h with
        starting := fun hno => by cases hno
        fresh := fun hno => by cases hno
        active := fun hno => by cases hno
        failure := fun hf => absurd hfailure hf
        started := fun hnone => ?_
        waiting := fun _ => ⟨rfl, hmapped⟩
        answered := h.answered
        accounted := h.accounted.add
        updates := h.updates.finish _
        one_update := fun _ => rfl
        updating := fun hno => absurd rfl hno
        idle := fun hno => absurd rfl hno
        acknowledged := fun hno => by rcases hno with hno | hno <;> cases hno
        registering := fun u hu => by cases hu }
      split at hnone
      · exact absurd hnone (InvokeOnce.reject_completed _ _)
      · next hs =>
          rcases h.started hnone with hstarting | hf
          · exact absurd hstarting hs
          · exact absurd hfailure hf

/-- An update moves to its new listener. -/
theorem Safe.register_update (h : Safe x) {update : AdvertisementUpdate}
    (hupdate : x.pending_update = some update) (hnone : x.alive = ∅)
    (refused thrown : Option String) :
    Safe (x.register_update update refused thrown) := by
  have hsome : x.pending_update ≠ none := by
    rw [hupdate]
    exact Option.some_ne_none _
  obtain ⟨hopen, hmapped⟩ := h.updating hsome
  -- the session with its new listener, whatever the platform says to it
  have hs : x.state ≠ .STARTING := by
    intro hs
    exact hsome (h.starting hs).2.2
  have hy : Safe { x with
      pending_update := some { update with phase := .REGISTERING }
      generation := x.generation + 1, info := update.info
      owed := true, alive := insert (x.generation + 1) x.alive } := { h with
    starting := fun hno => absurd hno hs
    fresh := fun hno => absurd hno hs
    one_update := fun hno => by cases hno
    updating := fun _ => ⟨hopen, hmapped⟩
    retired_bound := fun g hmem => Nat.le_succ_of_le (h.retired_bound g hmem)
    alive := fun g hmem => by
      change g ∈ insert (x.generation + 1) x.alive at hmem
      rw [hnone] at hmem
      exact Finset.mem_singleton.mp hmem
    acknowledged := fun _ hno => absurd rfl hno
    registering := fun u hu _ => by rw [← Option.some.inj hu] }
  unfold AdvertiseSession.register_update
  dsimp only
  split
  · exact hy
  · next error =>
      have hfail := hy.fail hopen hs (some s!"Registration failed: {error}") x.lease_released id
      rcases once_cases { x with
          pending_update := some { update with phase := .REGISTERING }
          generation := x.generation + 1, info := update.info
          owed := true, alive := insert (x.generation + 1) x.alive
          state := .FAILED, terminal_error := some s!"Registration failed: {error}" }
          (x.generation + 1) thrown with ⟨_, hr⟩ | ⟨hnew, hr | ⟨error', hr⟩⟩
      · rw [hr]
        exact hfail.end_update (.inl rfl) _
      · rw [hr]
        exact (hfail.accept_unregister nofun le_rfl hnew).end_update (.inl rfl) _
      · rw [hr]
        exact hfail.end_update (.inl rfl) _

/-! ### Callbacks -/

/-- A session that waits for a registration has no update. -/
theorem Safe.not_starting (h : Safe x) (hupdate : x.pending_update ≠ none) : x.state ≠ .STARTING :=
  fun hs => hupdate (h.starting hs).2.2

theorem phase_eq_none_iff : x.phase = none ↔ x.pending_update = none := Option.map_eq_none_iff

theorem updating_of_phase {phase : AdvertisementUpdatePhase} (hphase : x.phase = some phase) :
    x.pending_update ≠ none := by
  intro hnone
  rw [phase_eq_none_iff.mpr hnone] at hphase
  cases hphase

/-- A registration that is reported makes the session active, with nobody left to tell. -/
theorem Safe.registered (h : Safe x) {info : ServiceInfo}
    (hupdate : x.pending_update = some ⟨info, .REGISTERING⟩) :
    Safe { x.end_update none with state := .ACTIVE, acknowledged := info } := by
  have hsome : x.pending_update ≠ none := by
    rw [hupdate]
    exact Option.some_ne_none _
  obtain ⟨hopen, hmapped⟩ := h.updating hsome
  have hstarted : x.start_invoke.completed ≠ none := by
    intro hnone
    rcases h.started hnone with hs | hf
    · exact h.not_starting hsome hs
    · exact hopen (h.failure hf).1
  exact { h with
    starting := fun hno => by cases hno
    fresh := fun hno => by cases hno
    active := fun _ => ⟨hstarted, hmapped⟩
    failure := fun hf => absurd (h.failure hf).1 hopen
    started := fun hnone => absurd hnone hstarted
    waiting := fun hp => absurd (h.waiting hp).1 hopen
    updates := h.updates.finish none
    one_update := fun _ => rfl
    updating := fun hno => absurd rfl hno
    idle := fun _ => h.idle hopen
    acknowledged := fun _ _ => h.registering _ hupdate rfl
    registering := fun u hu => by cases hu }

/-- The first registration makes the session active and answers the start. -/
theorem Safe.ready (h : Safe x) (hs : x.state = .STARTING) :
    Safe { x with state := .ACTIVE, start_invoke := x.start_invoke.resolve } := by
  obtain ⟨hnone, hmapped, hupdate⟩ := h.starting hs
  have hopen : x.state ≠ .CLOSED := by
    rw [hs]
    exact nofun
  have hdone : x.start_invoke.resolve.completed ≠ none := by
    rw [InvokeOnce.resolve_of_none hnone]
    exact Option.some_ne_none _
  exact { h with
    starting := fun hno => by cases hno
    fresh := fun hno => by cases hno
    active := fun _ => ⟨hdone, hmapped⟩
    failure := fun hf => absurd (h.failure hf).1 hopen
    started := fun hno => absurd hno hdone
    waiting := fun hp => absurd (h.waiting hp).1 hopen
    updating := fun hne => absurd hupdate hne
    idle := fun _ => h.idle hopen
    acknowledged := fun _ => h.acknowledged (.inl hs) }

theorem Safe.on_service_registered (h : Safe x) {generation : ℕ} (hg : generation ≤ x.generation)
    (thrown : ℕ → Option String) : Safe (x.on_service_registered generation thrown) := by
  unfold AdvertiseSession.on_service_registered
  split
  · have hy : Safe (if x.generation = generation then { x with owed := false } else x) := by
      split
      · exact h.with_owed false
      · exact h
    have hyg : (if x.generation = generation then { x with owed := false } else x).generation
        = x.generation := by
      split <;> rfl
    generalize (if x.generation = generation then { x with owed := false } else x) = y at hy hyg
    rw [← hyg] at hg
    dsimp only
    split
    · next hclosed =>
        refine hy.unregister_or_schedule ?_ hg thrown
        rw [hclosed]
        exact nofun
    · split
      · exact hy
      · split
        · next hupdate => exact hy.registered hupdate
        · split
          · next hs => exact hy.ready hs
          · exact hy
  · exact h

theorem Safe.on_registration_failed (h : Safe x) {generation : ℕ} (hg : generation ≤ x.generation)
    (error_code : ℤ) : Safe (x.on_registration_failed generation error_code) := by
  have hretire := h.retire hg
  unfold AdvertiseSession.on_registration_failed
  dsimp only
  split
  · split
    · next hclosed => exact (hretire.end_update (.inr hclosed) _).finish_stop hclosed none none
    · next hopen =>
        split
        · next hphase =>
            have hs := h.not_starting (updating_of_phase hphase)
            exact (hretire.fail hopen hs _ true fun _ => rfl).end_update (.inl rfl) _
        · split
          · next hs => exact (hretire.with_terminal _).fail_start hs _
          · next hs => exact hretire.fail hopen hs _ true fun _ => rfl
  · exact hretire

/-- The current listener is the only one that is alive, so none is once it has ended. -/
theorem Safe.retire_alive (h : Safe x) : (x.retire x.generation).alive = ∅ := by
  apply Finset.eq_empty_of_forall_notMem
  intro g hmem
  obtain ⟨hne, hg⟩ := Finset.mem_erase.mp hmem
  exact hne (h.alive g hg)

theorem Safe.on_service_unregistered (h : Safe x) {generation : ℕ} (hg : generation ≤ x.generation)
    (refused thrown : Option String) :
    Safe (x.on_service_unregistered generation refused thrown) := by
  have hretire := h.retire hg
  unfold AdvertiseSession.on_service_unregistered
  dsimp only
  split
  · next hcurrent =>
      have hgen : x.generation = generation := by
        rw [current, Bool.and_eq_true, beq_iff_eq] at hcurrent
        exact hcurrent.2
      split
      · next hclosed => exact hretire.finish_stop hclosed none none
      · next hopen =>
          split
          · next hupdate =>
              refine hretire.register_update hupdate ?_ refused thrown
              rw [← hgen]
              exact h.retire_alive
          · split
            · next hs => exact (hretire.with_terminal _).fail_start hs _
            · next hs =>
                have hnot : x.state ≠ .STARTING := by
                  rw [hs]
                  exact nofun
                exact hretire.fail hopen hnot _ true fun _ => rfl
            · exact hretire.with_terminal _
  · exact hretire

theorem Safe.on_unregistration_failed (h : Safe x) {generation : ℕ}
    (hg : generation ∈ x.unregistering_generations) (error_code : ℤ) :
    Safe (x.on_unregistration_failed generation error_code) := by
  have hretire := h.retire (h.retired_bound generation (h.unregistering_retired generation hg))
  have hs : x.state ≠ .STARTING := by
    intro hs
    rw [h.fresh hs] at hg
    exact absurd hg (Finset.notMem_empty _)
  unfold AdvertiseSession.on_unregistration_failed
  dsimp only
  split
  · split
    · next hclosed => exact (hretire.with_terminal _).finish_stop hclosed _ _
    · next hopen =>
        split
        · exact (hretire.fail hopen hs _ x.lease_released id).end_update (.inl rfl) _
        · exact hretire.fail hopen hs _ true fun _ => rfl
  · exact hretire

/-! ### Commands -/

/-- A call of `advertise_update` that is told at once. -/
theorem Safe.answer_update (h : Safe x) (error : Option String) :
    Safe { x with updates := x.updates.answer_now error } := { h with
  updates := h.updates.answer_now error
  one_update := h.one_update }

/-- An update begins in an active session without one. -/
theorem Safe.begin_update (h : Safe x) (hopen : x.state ≠ .CLOSED) (hs : x.state = .ACTIVE)
    (hnone : x.pending_update = none) (info : ServiceInfo) :
    Safe { x with pending_update := some { info := info }, updates := x.updates.add } := { h with
  starting := fun hno => by
    change x.state = .STARTING at hno
    rw [hs] at hno
    cases hno
  updates := h.updates.add
  one_update := fun hno => by cases hno
  updating := fun _ => ⟨hopen, (h.active hs).2⟩
  acknowledged := fun hlive _ => h.acknowledged hlive (by
    rw [phase_eq_none_iff.mpr hnone]
    exact nofun)
  registering := fun u hu hno => by
    cases hu
    cases hno }

theorem Safe.update_advertisement (h : Safe x) (info : ServiceInfo) (thrown : Option String) :
    Safe (x.update_advertisement info thrown) := by
  unfold AdvertiseSession.update_advertisement
  split
  · exact h.answer_update _
  · next hs =>
      have hs := not_not.mp hs
      split
      · exact h.answer_update _
      · next hnone =>
          have hopen : x.state ≠ .CLOSED := by
            rw [hs]
            exact nofun
          have hy := h.begin_update hopen hs (Option.not_isSome_iff_eq_none.mp hnone) info
          have hnot : x.state ≠ .STARTING := by
            rw [hs]
            exact nofun
          dsimp only
          rcases once_cases { x with pending_update := some { info := info }, updates := x.updates.add }
            x.generation thrown with ⟨_, hr⟩ | ⟨hnew, hr | ⟨error, hr⟩⟩
          · rw [hr]
            exact (hy.fail hopen hnot _ x.lease_released id).end_update (.inl rfl) _
          · rw [hr]
            exact hy.accept_unregister hnot le_rfl hnew
          · rw [hr]
            exact (hy.fail hopen hnot _ x.lease_released id).end_update (.inl rfl) _

theorem Safe.advertise_update (h : Safe x) (args : DnsSdAdvertiseUpdateArgs)
    (refused thrown : Option String) : Safe (x.advertise_update args refused thrown) := by
  unfold AdvertiseSession.advertise_update
  split
  · exact h.answer_update _
  · split
    · split
      · exact h.answer_update _
      · exact h.update_advertisement _ thrown
    · exact h.answer_update _

/-- Closing leaves the registrations as they are. -/
theorem close_frame (x : AdvertiseSession) : x.close.state = .CLOSED ∧ x.close.mapped = x.mapped ∧
    x.close.generation = x.generation ∧
    x.close.unregistering_generations = x.unregistering_generations ∧
    x.close.retired_registration_generations = x.retired_registration_generations ∧
    x.close.stop_retry_scheduled = x.stop_retry_scheduled ∧ x.close.owed = x.owed ∧
    x.close.pending_start_failure = x.pending_start_failure := by
  unfold AdvertiseSession.close
  split
  · next hclosed => exact ⟨hclosed, rfl, rfl, rfl, rfl, rfl, rfl, rfl⟩
  · exact ⟨rfl, rfl, rfl, rfl, rfl, rfl, rfl, rfl⟩

theorem Safe.advertise_stop (h : Safe x) (hc : Coming x) (thrown : ℕ → Option String) :
    Safe (x.advertise_stop thrown) := by
  unfold AdvertiseSession.advertise_stop
  split
  · next hmapped =>
      have hy := h.close hmapped
      obtain ⟨hclosed, _, hgen, hunreg, hret, hsched, _, hfailure⟩ :=
        close_frame { x with stops := x.stops.add }
      generalize { x with stops := x.stops.add }.close = y at hy hclosed hgen hunreg hret hsched hfailure
      have hs : y.state ≠ .STARTING := by
        rw [hclosed]
        exact nofun
      dsimp only
      split
      · exact hy
      split
      · exact hy
      split
      · exact hy
      split
      · next hnot _ hretired =>
          -- a closed session that is retired here has an unregistration on its way
          have hopen : x.state ≠ .CLOSED := by
            intro hx
            rw [hgen, hret] at hretired
            rw [hgen, hunreg] at hnot
            exact hnot (hc.retired hx hmapped hretired)
          have hnone : y.pending_start_failure = none := by
            rw [hfailure]
            by_contra hf
            exact hopen (h.failure hf).1
          exact hy.finish_advertisement_stop hclosed hnone none
      split
      · rcases once_cases y y.generation (thrown 0) with ⟨_, hr⟩ | ⟨hnew, hr | ⟨error, hr⟩⟩
        · rw [hr]
          exact hy
        · rw [hr]
          exact hy.accept_unregister hs le_rfl hnew
        · rw [hr]
          exact hy
      · exact hy.unregister_or_schedule hs le_rfl thrown
  · next hmapped => exact { h with
      waiting := h.waiting
      answered := fun _ => Bool.not_eq_true _ ▸ hmapped
      accounted := h.accounted.answer_now none }

theorem Safe.stop_retry (h : Safe x) (thrown : ℕ → Option String) : Safe (x.stop_retry thrown) := by
  have hy : Safe { x with stop_retry_scheduled := false } := { h with idle := fun _ => rfl }
  unfold AdvertiseSession.stop_retry
  dsimp only
  split
  · exact hy
  · next hgo =>
      have hs : x.state ≠ .STARTING := by
        intro hs
        simp [hs] at hgo
      have hr := hy.unregister_or_schedule hs le_rfl thrown
      split
      · exact { hr with delay := initial_delay_in_range }
      · exact hr

theorem safe_start (info : ServiceInfo) (refused : Option (Bool × String))
    (thrown : ℕ → Option String) : Safe (start info refused thrown) := by
  have hbase : Safe { info := info, acknowledged := info } := {
    starting := fun _ => ⟨rfl, rfl, rfl⟩
    fresh := fun _ => rfl
    active := fun hno => by cases hno
    failure := fun hno => absurd rfl hno
    started := fun _ => .inl rfl
    removed := fun hno => by cases hno
    waiting := fun hno => absurd rfl hno
    answered := fun hno => absurd rfl hno
    accounted := .refl _
    updates := .refl _
    one_update := fun _ => rfl
    updating := fun hno => absurd rfl hno
    once := List.nodup_nil
    unregisters_retired := fun g hmem => by cases hmem
    unregistering_retired := fun g hmem => absurd hmem (Finset.notMem_empty _)
    retired_bound := fun g hmem => absurd hmem (Finset.notMem_empty _)
    alive := fun g hmem => Finset.mem_singleton.mp hmem
    idle := fun _ => rfl
    delay := initial_delay_in_range
    acknowledged := fun _ _ => rfl
    registering := fun u hu => by cases hu }
  -- the platform takes the registration, refuses its arguments, or throws anything else
  unfold AdvertiseSession.start
  dsimp only
  split
  · exact hbase
  · next illegal error =>
      split
      · have hfail := (hbase.with_terminal (some s!"Registration failed: {error}")).fail_start rfl
          s!"Registration failed: {error}"
        exact { hfail with alive := fun g hmem => absurd hmem (Finset.notMem_empty _) }
      · have hy : Safe { info := info, acknowledged := info, state := .CLOSED
                         terminal_error := some s!"Registration failed: {error}"
                         pending_start_failure := some s!"Registration failed: {error}" } := { hbase with
          starting := fun hno => by cases hno
          fresh := fun _ => rfl
          active := fun hno => by cases hno
          failure := fun _ => ⟨rfl, rfl⟩
          started := fun _ => .inr (Option.some_ne_none _)
          waiting := fun hno => absurd rfl hno
          updating := fun hno => absurd rfl hno
          idle := fun hno => absurd rfl hno
          acknowledged := fun hno => by rcases hno with hno | hno <;> cases hno }
        have hr := hy.with_retry nofun le_rfl thrown
        split
        · exact hr
        · exact hr.with_terminal _

end Safe

section Coming

variable {x : AdvertiseSession}

/-- In a closed session something must still come as long as it is mapped. -/
theorem Coming.of_closed (hclosed : x.state = .CLOSED) (hupdate : x.pending_update = none)
    (hretired : x.mapped = true → x.generation ∈ x.retired_registration_generations →
      x.generation ∈ x.unregistering_generations)
    (hnext : x.mapped = true → x.generation ∈ x.unregistering_generations ∨
      x.stop_retry_scheduled = true ∨ x.owed = true) : Coming x where
  starting := fun hs => by
    rw [hclosed] at hs
    cases hs
  active := fun hs => by
    rw [hclosed] at hs
    cases hs
  unregistering := fun hphase => absurd hupdate (updating_of_phase hphase)
  registering := fun hphase => absurd hupdate (updating_of_phase hphase)
  retired := fun _ => hretired
  next := fun _ => hnext

/-- A failed session waits for the registration of its update at most. -/
theorem Coming.of_failed (hfailed : x.state = .FAILED) (hphase : x.phase ≠ some .UNREGISTERING)
    (hregistering : x.phase = some .REGISTERING →
      x.owed = true ∨ x.generation ∈ x.retired_registration_generations) : Coming x where
  starting := fun hs => by
    rw [hfailed] at hs
    cases hs
  active := fun hs => by
    rw [hfailed] at hs
    cases hs
  unregistering := fun hno => absurd hno hphase
  registering := hregistering
  retired := fun hs => by
    rw [hfailed] at hs
    cases hs
  next := fun hs => by
    rw [hfailed] at hs
    cases hs

/-- A session that has failed with nobody waiting for an update. -/
theorem Coming.of_idle (hfailed : x.state = .FAILED) (hupdate : x.pending_update = none) :
    Coming x :=
  .of_failed hfailed (fun hphase => absurd hupdate (updating_of_phase hphase))
    fun hphase => absurd hupdate (updating_of_phase hphase)

/-- An active session waits for nothing but its update. -/
theorem Coming.of_active (hs : x.state = .ACTIVE) (howed : x.phase ≠ some .REGISTERING → x.owed = false)
    (hunregistering : x.phase = some .UNREGISTERING → x.generation ∈ x.unregistering_generations)
    (hregistering : x.phase = some .REGISTERING →
      x.owed = true ∨ x.generation ∈ x.retired_registration_generations) : Coming x where
  starting := fun hno => by
    rw [hs] at hno
    cases hno
  active := fun _ => howed
  unregistering := fun hphase => ⟨hs, hunregistering hphase⟩
  registering := hregistering
  retired := fun hno => by
    rw [hs] at hno
    cases hno
  next := fun hno => by
    rw [hs] at hno
    cases hno

/-- The end of a listener that the session no longer uses. -/
theorem Coming.retire_other (h : Coming x) (hsafe : Safe x) {generation : ℕ}
    (hother : x.current generation = false) : Coming (x.retire generation) := by
  by_cases hgen : x.generation = generation
  · -- the session has left the map, so nothing is asked of the platform any more
    have hgone : ¬x.mapped = true := by
      rw [current, hgen, beq_self_eq_true, Bool.and_true] at hother
      exact Bool.not_eq_true _ ▸ hother
    have hidle : x.pending_update = none := by
      by_contra hne
      exact hgone (hsafe.updating hne).2
    exact {
      starting := fun hs => absurd (hsafe.starting hs).2.1 hgone
      active := fun hs => absurd (hsafe.active hs).2 hgone
      unregistering := fun hphase => absurd hidle (updating_of_phase hphase)
      registering := fun hphase => absurd hidle (updating_of_phase hphase)
      retired := fun _ hmapped => absurd hmapped hgone
      next := fun _ hmapped => absurd hmapped hgone }
  · have howed : (x.retire generation).owed = x.owed := by
      change (x.owed && x.generation != generation) = x.owed
      rw [bne_iff_ne.mpr hgen, Bool.and_true]
    have hunregistering : x.generation ∈ (x.retire generation).unregistering_generations ↔
        x.generation ∈ x.unregistering_generations := by
      change x.generation ∈ x.unregistering_generations.erase generation ↔ _
      rw [Finset.mem_erase]
      exact and_iff_right hgen
    have hretired : x.generation ∈ (x.retire generation).retired_registration_generations ↔
        x.generation ∈ x.retired_registration_generations := by
      change x.generation ∈ insert generation x.retired_registration_generations ↔ _
      rw [Finset.mem_insert]
      exact or_iff_right hgen
    exact {
      starting := fun hs => howed.trans (h.starting hs)
      active := fun hs hphase => howed.trans (h.active hs hphase)
      unregistering := fun hphase =>
        ⟨(h.unregistering hphase).1, hunregistering.mpr (h.unregistering hphase).2⟩
      registering := fun hphase => by
        rcases h.registering hphase with ho | hr
        · exact .inl (howed.trans ho)
        · exact .inr (hretired.mpr hr)
      retired := fun hs hm hr => hunregistering.mpr (h.retired hs hm (hretired.mp hr))
      next := fun hs hm => by
        rcases h.next hs hm with hu | hr | ho
        · exact .inl (hunregistering.mpr hu)
        · exact .inr (.inl hr)
        · exact .inr (.inr (howed.trans ho)) }

/-- A stop that is finished leaves nothing to come. -/
theorem Coming.finish (hclosed : x.state = .CLOSED) (hupdate : x.pending_update = none)
    (cleanup_error error : Option String) :
    Coming ((x.reject_pending_advertisement_start cleanup_error).finish_advertisement_stop error) := by
  obtain ⟨hstate, hpending, _⟩ := reject_pending_state x cleanup_error
  exact .of_closed (hstate.trans hclosed) (hpending.trans hupdate) (fun hno => by cases hno)
    fun hno => by cases hno

/-- An accepted unregistration has its end to come. -/
theorem Coming.accept (hclosed : x.state = .CLOSED) (hupdate : x.pending_update = none) :
    Coming (x.accept_unregister x.generation) :=
  .of_closed hclosed hupdate (fun _ _ => Finset.mem_insert_self _ _)
    fun _ => .inl (Finset.mem_insert_self _ _)

/-- A retry that is scheduled comes. -/
theorem Coming.schedule (hclosed : x.state = .CLOSED) (hmapped : x.mapped = true)
    (hupdate : x.pending_update = none)
    (hretired : x.generation ∈ x.retired_registration_generations →
      x.generation ∈ x.unregistering_generations) :
    Coming x.schedule_advertisement_stop_retry := by
  unfold schedule_advertisement_stop_retry
  split
  · next hstays =>
      have hscheduled : x.stop_retry_scheduled = true := by
        rw [hmapped, hclosed, Bool.not_true, Bool.or_false, bne_self_eq_false, Bool.or_false] at hstays
        exact hstays
      exact .of_closed hclosed hupdate (fun _ => hretired) fun _ => .inr (.inl hscheduled)
  · exact .of_closed hclosed hupdate (fun _ => hretired) fun _ => .inr (.inl rfl)

/-- A closed session that asks the platform for the end of a listener, of its own or of another. -/
theorem Coming.dispatch (hclosed : x.state = .CLOSED) (hmapped : x.mapped = true)
    (hupdate : x.pending_update = none)
    (hretired : x.generation ∈ x.retired_registration_generations →
      x.generation ∈ x.unregistering_generations) {generation : ℕ}
    (hnext : x.generation = generation ∨ x.generation ∈ x.unregistering_generations ∨
      x.stop_retry_scheduled = true ∨ x.owed = true) (thrown : ℕ → Option String) :
    Coming (x.unregister_or_schedule generation thrown).2 := by
  unfold AdvertiseSession.unregister_or_schedule
  dsimp only
  rcases with_retry_cases x generation thrown with ⟨hold, hr⟩ | ⟨_, hr | ⟨error, hr⟩⟩
  · rw [hr]
    refine .of_closed hclosed hupdate (fun _ => hretired) fun _ => ?_
    rcases hnext with rfl | hnext
    · exact .inl (hretired hold)
    · exact hnext
  · rw [hr]
    refine .of_closed hclosed hupdate (fun _ hmem => ?_) fun _ => ?_
    · rcases Finset.mem_insert.mp hmem with heq | hmem
      · exact Finset.mem_insert.mpr (.inl heq)
      · exact Finset.mem_insert_of_mem (hretired hmem)
    · rcases hnext with heq | hu | hnext
      · exact .inl (Finset.mem_insert.mpr (.inl heq))
      · exact .inl (Finset.mem_insert_of_mem hu)
      · exact .inr hnext
  · rw [hr]
    exact .schedule hclosed hmapped hupdate hretired

/-! ### Callbacks -/

/-- The phase is that of the pending update. -/
theorem registering_of_phase (hphase : x.phase = some .REGISTERING) :
    ∃ info, x.pending_update = some ⟨info, .REGISTERING⟩ := by
  obtain ⟨⟨info, phase⟩, hupdate, rfl⟩ := Option.map_eq_some_iff.mp hphase
  exact ⟨info, hupdate⟩

theorem unregistering_of_phase (hphase : x.phase = some .UNREGISTERING) :
    ∃ info, x.pending_update = some ⟨info, .UNREGISTERING⟩ := by
  obtain ⟨⟨info, phase⟩, hupdate, rfl⟩ := Option.map_eq_some_iff.mp hphase
  exact ⟨info, hupdate⟩

theorem Coming.on_service_registered (h : Coming x) (hsafe : Safe x) (generation : ℕ)
    (thrown : ℕ → Option String) : Coming (x.on_service_registered generation thrown) := by
  unfold AdvertiseSession.on_service_registered
  split
  · next hmapped =>
      dsimp only
      -- a late registration of an old generation is unregistered only where the session is closed
      by_cases hgen : x.generation = generation
      · rw [if_pos hgen]
        split
        · next hclosed =>
            exact .dispatch hclosed hmapped (hsafe.not_updating hclosed) (h.retired hclosed hmapped)
              (.inl hgen) thrown
        · next hopen =>
            rw [if_neg (not_not.mpr hgen)]
            split
            · exact .of_active rfl (fun _ => rfl) (fun hp => absurd rfl (updating_of_phase hp))
                fun hp => absurd rfl (updating_of_phase hp)
            · next hmatch =>
                have hphase : x.phase ≠ some .REGISTERING := by
                  intro hp
                  obtain ⟨info, hupdate⟩ := registering_of_phase hp
                  exact hmatch info hupdate
                split
                · next hs =>
                    have hupdate := (hsafe.starting hs).2.2
                    exact .of_active rfl (fun _ => rfl) (fun hp => absurd hupdate (updating_of_phase hp))
                      fun hp => absurd hp hphase
                · next hs => exact { h with
                    starting := fun hno => absurd hno hs
                    active := fun _ _ => rfl
                    registering := fun hp => absurd hp hphase
                    next := fun hno => absurd hno hopen }
      · rw [if_neg hgen]
        split
        · next hclosed =>
            exact .dispatch hclosed hmapped (hsafe.not_updating hclosed) (h.retired hclosed hmapped)
              (.inr (h.next hclosed hmapped)) thrown
        · exact h
  · exact h

theorem current_eq_true {generation : ℕ} (hcurrent : x.current generation = true) :
    x.generation = generation := by
  rw [current, Bool.and_eq_true, beq_iff_eq] at hcurrent
  exact hcurrent.2

theorem Coming.on_registration_failed (h : Coming x) (hsafe : Safe x) {generation : ℕ}
    (howed : generation < x.generation ∨ generation = x.generation ∧ x.owed = true)
    (error_code : ℤ) : Coming (x.on_registration_failed generation error_code) := by
  unfold AdvertiseSession.on_registration_failed
  dsimp only
  split
  · next hcurrent =>
      have howed : x.owed = true := by
        have hgen := current_eq_true hcurrent
        rcases howed with hlt | ⟨_, howed⟩
        · omega
        · exact howed
      split
      · next hclosed =>
          apply Coming.finish
          · exact hclosed
          · rfl
      · split
        · exact .of_idle rfl rfl
        · next hphase =>
            have hnot : x.phase ≠ some .UNREGISTERING := by
              intro hp
              rw [h.active (h.unregistering hp).1 hphase] at howed
              cases howed
            split
            · exact .of_failed rfl hnot fun hp => absurd hp hphase
            · exact .of_failed rfl hnot fun hp => absurd hp hphase
  · next hother => exact h.retire_other hsafe (Bool.eq_false_of_not_eq_true hother)

theorem once_state (x : AdvertiseSession) (generation : ℕ) (thrown : Option String) :
    (x.unregister_registration_once generation thrown).2.state = x.state := by
  rcases once_cases x generation thrown with ⟨_, hr⟩ | ⟨_, hr | ⟨error, hr⟩⟩ <;> rw [hr]
  rfl

theorem Coming.register_update (hs : x.state = .ACTIVE) (update : AdvertisementUpdate)
    (refused thrown : Option String) : Coming (x.register_update update refused thrown) := by
  unfold AdvertiseSession.register_update
  dsimp only
  split
  · exact .of_active hs (fun hno => absurd rfl hno) (fun hp => by cases hp) fun _ => .inl rfl
  · exact .of_idle (once_state _ _ _) rfl

theorem Coming.on_service_unregistered (h : Coming x) (hsafe : Safe x) (generation : ℕ)
    (refused thrown : Option String) :
    Coming (x.on_service_unregistered generation refused thrown) := by
  unfold AdvertiseSession.on_service_unregistered
  dsimp only
  split
  · next hcurrent =>
      have hgen := current_eq_true hcurrent
      split
      · next hclosed =>
          apply Coming.finish
          · exact hclosed
          · exact hsafe.not_updating hclosed
      · next hopen =>
          split
          · next info hupdate =>
              have hphase : x.phase = some .UNREGISTERING := by
                rw [phase, hupdate]
                rfl
              apply Coming.register_update
              exact (h.unregistering hphase).1
          · next hmatch =>
              have hphase : x.phase ≠ some .UNREGISTERING := by
                intro hp
                obtain ⟨info, hupdate⟩ := unregistering_of_phase hp
                exact hmatch info hupdate
              -- an unregistration that nobody asked for: the registration has ended, and the
              -- session fails
              have hended : x.generation ∈ insert generation x.retired_registration_generations :=
                Finset.mem_insert.mpr (.inl hgen)
              split
              · exact .of_failed rfl hphase fun _ => .inr hended
              · exact .of_failed rfl hphase fun _ => .inr hended
              · next hnot_starting hnot_active =>
                  have hfailed : x.state = .FAILED := by
                    cases hx : x.state with
                    | STARTING => exact absurd hx hnot_starting
                    | ACTIVE => exact absurd hx hnot_active
                    | CLOSED => exact absurd hx hopen
                    | FAILED => rfl
                  exact .of_failed hfailed hphase fun _ => .inr hended
  · next hother => exact h.retire_other hsafe (Bool.eq_false_of_not_eq_true hother)

theorem Coming.on_unregistration_failed (h : Coming x) (hsafe : Safe x) (generation : ℕ)
    (error_code : ℤ) : Coming (x.on_unregistration_failed generation error_code) := by
  unfold AdvertiseSession.on_unregistration_failed
  dsimp only
  split
  · next hcurrent =>
      have hended : x.generation ∈ insert generation x.retired_registration_generations :=
        Finset.mem_insert.mpr (.inl (current_eq_true hcurrent))
      -- an update that waits for a registration is left to the stop: its listener has ended
      split
      · next hclosed =>
          apply Coming.finish
          · exact hclosed
          · exact hsafe.not_updating hclosed
      · split
        · exact .of_idle rfl rfl
        · next hphase => exact .of_failed rfl hphase fun _ => .inr hended
  · next hother => exact h.retire_other hsafe (Bool.eq_false_of_not_eq_true hother)

/-! ### Commands -/

theorem Coming.update_advertisement (h : Coming x) (info : ServiceInfo) (thrown : Option String) :
    Coming (x.update_advertisement info thrown) := by
  unfold AdvertiseSession.update_advertisement
  split
  · exact { h with }
  · next hs =>
      have hs := not_not.mp hs
      split
      · exact { h with }
      · next hsome =>
          have hnone := phase_eq_none_iff.mpr (Option.not_isSome_iff_eq_none.mp hsome)
          have howed : x.owed = false := by
            apply h.active hs
            rw [hnone]
            exact nofun
          dsimp only
          rcases once_cases { x with pending_update := some { info := info }, updates := x.updates.add }
            x.generation thrown with ⟨_, hr⟩ | ⟨hnew, hr | ⟨error, hr⟩⟩
          · rw [hr]
            exact .of_idle rfl rfl
          · rw [hr]
            exact .of_active hs (fun _ => howed) (fun _ => Finset.mem_insert_self _ _)
              fun hp => by cases hp
          · rw [hr]
            exact .of_idle rfl rfl

theorem Coming.advertise_update (h : Coming x) (args : DnsSdAdvertiseUpdateArgs)
    (refused thrown : Option String) : Coming (x.advertise_update args refused thrown) := by
  unfold AdvertiseSession.advertise_update
  split
  · exact { h with }
  · split
    · split
      · exact { h with }
      · exact h.update_advertisement _ thrown
    · exact { h with }

theorem Coming.advertise_stop (h : Coming x) (hsafe : Safe x) (thrown : ℕ → Option String) :
    Coming (x.advertise_stop thrown) := by
  unfold AdvertiseSession.advertise_stop
  split
  · next hmapped =>
      have hy := hsafe.close hmapped
      -- closing settles the update and leaves the listener's own fields
      obtain ⟨hclosed, hmap, hgen, hunreg, hret, hsched, howed, _⟩ :=
        close_frame { x with stops := x.stops.add }
      generalize { x with stops := x.stops.add }.close = y at hy hclosed hmap hgen hunreg hret hsched howed
      have hupdate := hy.not_updating hclosed
      dsimp only
      -- the branches in turn: the update is unregistering, an unregistration is on its way, a retry
      -- is due, the registration has ended
      split
      · next hpending =>
          have hin : y.generation ∈ y.unregistering_generations := by
            rw [hgen, hunreg]
            exact (h.unregistering hpending.2).2
          exact .of_closed hclosed hupdate (fun _ _ => hin) fun _ => .inl hin
      split
      · next hin => exact .of_closed hclosed hupdate (fun _ _ => hin) fun _ => .inl hin
      split
      · next hscheduled =>
          have hx : x.state = .CLOSED := by
            -- a retry is scheduled by a stop only
            by_contra hopen
            rw [hsched] at hscheduled
            change x.stop_retry_scheduled = true at hscheduled
            rw [hsafe.idle hopen] at hscheduled
            cases hscheduled
          refine .of_closed hclosed hupdate (fun _ hretired => ?_) fun _ => .inr (.inl hscheduled)
          rw [hgen, hret] at hretired
          rw [hgen, hunreg]
          exact h.retired hx hmapped hretired
      split
      · exact .of_closed hclosed hupdate (fun hno => by cases hno) fun hno => by cases hno
      next hfresh =>
      split
      · next hpending =>
          -- a registration that was asked for still owes its answer
          have howed : y.owed = true := by
            rw [howed]
            rcases hpending with hs | ⟨_, hphase⟩
            · exact h.starting hs
            · rcases h.registering hphase with ho | hretired
              · exact ho
              · rw [hgen, hret] at hfresh
                exact absurd hretired hfresh
          rcases once_cases y y.generation (thrown 0) with ⟨hold, _⟩ | ⟨_, hr | ⟨error, hr⟩⟩
          · exact absurd hold hfresh
          · rw [hr]
            exact .accept hclosed hupdate
          · rw [hr]
            exact .of_closed hclosed hupdate (fun _ hretired => absurd hretired hfresh)
              fun _ => .inr (.inr howed)
      · exact .dispatch hclosed (hmap.trans hmapped) hupdate (fun hretired => absurd hretired hfresh)
          (.inl rfl) thrown
  · exact { h with }

theorem Coming.stop_retry (h : Coming x) (hsafe : Safe x) (thrown : ℕ → Option String) :
    Coming (x.stop_retry thrown) := by
  unfold AdvertiseSession.stop_retry
  dsimp only
  split
  -- the task leaves it: what it found under way is still to be reported
  · next hstays => exact { h with
      next := fun hs hm => .inl (by
        change x.state = .CLOSED at hs
        change x.mapped = true at hm
        rw [hs, hm, Bool.not_true, Bool.false_or, bne_self_eq_false, Bool.false_or, Bool.or_eq_true,
          decide_eq_true_iff, decide_eq_true_iff] at hstays
        exact hstays.elim id (h.retired hs hm)) }
  · next hgo =>
      rw [Bool.or_eq_true, Bool.or_eq_true, Bool.or_eq_true, not_or, not_or, not_or] at hgo
      obtain ⟨⟨⟨hmapped, hclosed⟩, _⟩, _⟩ := hgo
      have hmapped : x.mapped = true := by
        rw [Bool.not_eq_true', Bool.not_eq_false] at hmapped
        exact hmapped
      have hclosed : x.state = .CLOSED := by
        rw [bne_iff_ne, not_not] at hclosed
        exact hclosed
      have hr : Coming ({ x with stop_retry_scheduled := false }.unregister_or_schedule x.generation
          thrown).2 := by
        apply Coming.dispatch
        · exact hclosed
        · exact hmapped
        · exact hsafe.not_updating hclosed
        · exact h.retired hclosed hmapped
        · exact .inl rfl
      split
      · exact { hr with }
      · exact hr

end Coming

/-- **One step** keeps both invariants. -/
theorem safe_step {x y : AdvertiseSession} {event : Event} (h : Safe x ∧ Coming x)
    (hstep : step x event = some y) : Safe y ∧ Coming y := by
  obtain ⟨hsafe, hcoming⟩ := h
  -- a stop needs both: that what is retired is unregistering keeps a start from being left
  cases event with
  | service_registered generation thrown =>
      rw [step, Option.ite_none_right_eq_some] at hstep
      obtain ⟨hg, hstep⟩ := hstep
      cases hstep
      exact ⟨hsafe.on_service_registered hg thrown, hcoming.on_service_registered hsafe generation thrown⟩
  | registration_failed generation error_code =>
      rw [step, Option.ite_none_right_eq_some] at hstep
      obtain ⟨howed, hstep⟩ := hstep
      cases hstep
      have hg : generation ≤ x.generation := by omega
      exact ⟨hsafe.on_registration_failed hg error_code,
        hcoming.on_registration_failed hsafe howed error_code⟩
  | service_unregistered generation refused thrown =>
      rw [step, Option.ite_none_right_eq_some] at hstep
      obtain ⟨hg, hstep⟩ := hstep
      cases hstep
      exact ⟨hsafe.on_service_unregistered hg refused thrown,
        hcoming.on_service_unregistered hsafe generation refused thrown⟩
  | unregistration_failed generation error_code =>
      rw [step, Option.ite_none_right_eq_some] at hstep
      obtain ⟨hg, hstep⟩ := hstep
      cases hstep
      exact ⟨hsafe.on_unregistration_failed hg error_code,
        hcoming.on_unregistration_failed hsafe generation error_code⟩
  | advertise_update args refused thrown =>
      cases hstep
      exact ⟨hsafe.advertise_update args refused thrown, hcoming.advertise_update args refused thrown⟩
  | advertise_stop thrown =>
      cases hstep
      exact ⟨hsafe.advertise_stop hcoming thrown, hcoming.advertise_stop hsafe thrown⟩
  | stop_retry thrown =>
      rw [step, Option.ite_none_right_eq_some] at hstep
      obtain ⟨_, hstep⟩ := hstep
      cases hstep
      exact ⟨hsafe.stop_retry thrown, hcoming.stop_retry hsafe thrown⟩

/-! ### The calls and their answers -/

/-- The two records are of one service. -/
def SameService (info info' : ServiceInfo) : Prop :=
  info.service_name = info'.service_name ∧ info.service_type = info'.service_type

/-- What an update asks for depends on the name and the type of the session's record only. -/
theorem asks_same {info info' : ServiceInfo} (h : SameService info info') (event : Event) :
    event.asks info = event.asks info' := by
  rcases info with ⟨name, type, port, attributes⟩
  rcases info' with ⟨name', type', port', attributes'⟩
  obtain ⟨rfl, rfl⟩ : name = name' ∧ type = type' := h
  cases event <;> rfl

/-- An update keeps the name and the type of the service. -/
theorem same_service_update {args : DnsSdAdvertiseUpdateArgs} {info info' : ServiceInfo}
    {refused : Option String} (hupdate : update_info args info refused = .ok info') :
    SameService info' info := by
  unfold update_info check_record encode at hupdate
  split at hupdate
  · cases hupdate
  · split at hupdate
    · rcases refused with _ | error
      · rw [← Except.ok.inj hupdate]
        exact ⟨rfl, rfl⟩
      · cases hupdate
    · cases hupdate

/-- The record of the update that waits. -/
def pending_info (x : AdvertiseSession) : Option ServiceInfo :=
  x.pending_update.map AdvertisementUpdate.info

/-- Nobody is told of an update, and none begins. The session may go over to the record of the update
that waits. -/
structure Quiet (stop : Bool) (x y : AdvertiseSession) : Prop where
  calls : y.stops.calls = x.stops.calls + stop.toNat
  updates : y.updates = x.updates
  pending : y.pending_info = x.pending_info
  acknowledged : y.acknowledged = x.acknowledged
  info : y.info = x.info ∨ x.pending_info = some y.info

theorem Quiet.refl (x : AdvertiseSession) : Quiet false x x := ⟨rfl, rfl, rfl, rfl, .inl rfl⟩

theorem Quiet.trans {stop : Bool} {x y z : AdvertiseSession} (h : Quiet stop x y)
    (h' : Quiet false y z) : Quiet stop x z where
  calls := h'.calls.trans h.calls
  updates := h'.updates.trans h.updates
  pending := h'.pending.trans h.pending
  acknowledged := h'.acknowledged.trans h.acknowledged
  info := by
    rcases h'.info with heq | hpending
    · rw [heq]
      exact h.info
    · rw [h.pending] at hpending
      exact .inr hpending

section Quiet

variable (x : AdvertiseSession)

/-- An unregistration answers no call. -/
theorem quiet_once (generation : ℕ) (thrown : Option String) :
    Quiet false x (x.unregister_registration_once generation thrown).2 := by
  unfold unregister_registration_once
  split
  · exact .refl x
  · split
    · exact .refl x
    · exact ⟨rfl, rfl, rfl, rfl, .inl rfl⟩

theorem quiet_with_retry (generation : ℕ) (thrown : ℕ → Option String) :
    Quiet false x (x.unregister_registration_with_retry generation thrown).2 := by
  unfold unregister_registration_with_retry
  split
  · exact .refl x
  · split
    · exact ⟨rfl, rfl, rfl, rfl, .inl rfl⟩
    · exact .refl x

theorem quiet_unregister_or_schedule (generation : ℕ) (thrown : ℕ → Option String) :
    Quiet false x (x.unregister_or_schedule generation thrown).2 := by
  have hretry := quiet_with_retry x generation thrown
  unfold unregister_or_schedule
  dsimp only
  split
  · exact hretry
  · apply hretry.trans
    unfold schedule_advertisement_stop_retry
    split
    · exact .refl _
    · exact ⟨rfl, rfl, rfl, rfl, .inl rfl⟩

theorem quiet_retire (generation : ℕ) : Quiet false x (x.retire generation) :=
  ⟨rfl, rfl, rfl, rfl, .inl rfl⟩

/-- The end of a stop answers no update. -/
theorem quiet_finish (cleanup_error error : Option String) :
    Quiet false x
      ((x.reject_pending_advertisement_start cleanup_error).finish_advertisement_stop error) := by
  unfold reject_pending_advertisement_start
  split
  · exact ⟨rfl, rfl, rfl, rfl, .inl rfl⟩
  · exact ⟨rfl, rfl, rfl, rfl, .inl rfl⟩

end Quiet

/-- The session in which an update has begun. -/
def begun (x : AdvertiseSession) (info : ServiceInfo) : AdvertiseSession :=
  { x with pending_update := some { info := info }, updates := x.updates.add }

/-- What a step does for the calls: it may call a stop, and end, refuse or begin an update. -/
inductive Calls (x y : AdvertiseSession) : Bool → Option (Except String ServiceInfo) → Prop
  | quiet {stop : Bool} (quiet : Quiet stop x y) : Calls x y stop none
  | failed {stop : Bool} (z : AdvertiseSession) (error : String) (before : Quiet stop x z)
      (after : Quiet false (z.end_update (some error)) y) : Calls x y stop none
  | succeeded (z : AdvertiseSession) (info : ServiceInfo) (pending : z.pending_info = some info)
      (before : Quiet false x z)
      (after : Quiet false { z.end_update none with acknowledged := info } y) : Calls x y false none
  | refused (error : String) (asked : Except String ServiceInfo)
      (eq : y = { x with updates := x.updates.answer_now (some error) }) :
      Calls x y false (some asked)
  | begun (info : ServiceInfo) (idle : x.pending_update = none) (after : Quiet false (x.begun info) y) :
      Calls x y false (some (.ok info))
  | begun_failed (info : ServiceInfo) (error : String) (idle : x.pending_update = none)
      (after : Quiet false ((x.begun info).end_update (some error)) y) :
      Calls x y false (some (.ok info))

/-- A registration answers the update that waited for it, and no other. -/
theorem calls_service_registered (x : AdvertiseSession) (generation : ℕ) (thrown : ℕ → Option String) :
    Calls x (x.on_service_registered generation thrown) false none := by
  unfold AdvertiseSession.on_service_registered
  split
  · dsimp only
    have howed : Quiet false x (if x.generation = generation then { x with owed := false } else x) := by
      split
      · exact ⟨rfl, rfl, rfl, rfl, .inl rfl⟩
      · exact .refl x
    revert howed
    generalize (if x.generation = generation then { x with owed := false } else x) = z
    intro howed
    split
    · exact .quiet (howed.trans (quiet_unregister_or_schedule z generation thrown))
    · split
      · exact .quiet howed
      · split
        · next info hupdate =>
            have hpending : z.pending_info = some info := by rw [pending_info, hupdate]; rfl
            exact .succeeded z info hpending howed ⟨rfl, rfl, rfl, rfl, .inl rfl⟩
        · split
          · exact .quiet (howed.trans ⟨rfl, rfl, rfl, rfl, .inl rfl⟩)
          · exact .quiet howed
  · exact .quiet (.refl x)

/-- A registration that fails answers its update with an error. -/
theorem calls_registration_failed (x : AdvertiseSession) (generation : ℕ) (error_code : ℤ) :
    Calls x (x.on_registration_failed generation error_code) false none := by
  have hretire := quiet_retire x generation
  unfold AdvertiseSession.on_registration_failed
  dsimp only
  split
  · split
    · exact .failed _ _ hretire (quiet_finish _ none none)
    · split
      · exact .failed _ _ (hretire.trans ⟨rfl, rfl, rfl, rfl, .inl rfl⟩) ⟨rfl, rfl, rfl, rfl, .inl rfl⟩
      · split
        · exact .quiet (hretire.trans ⟨rfl, rfl, rfl, rfl, .inl rfl⟩)
        · exact .quiet (hretire.trans ⟨rfl, rfl, rfl, rfl, .inl rfl⟩)
  · exact .quiet hretire

/-- The end of the old registration answers its update only when the new one is refused. -/
theorem calls_service_unregistered (x : AdvertiseSession) (generation : ℕ)
    (refused thrown : Option String) :
    Calls x (x.on_service_unregistered generation refused thrown) false none := by
  have hretire := quiet_retire x generation
  unfold AdvertiseSession.on_service_unregistered
  dsimp only
  split
  · split
    · exact .quiet (hretire.trans (quiet_finish _ none none))
    · split
      · next info hupdate =>
          have hpending : x.pending_info = some info := by rw [pending_info, hupdate]; rfl
          have hnext : Quiet false x { x.retire generation with
              pending_update := some ⟨info, .REGISTERING⟩
              generation := (x.retire generation).generation + 1, info := info
              owed := true
              alive := insert ((x.retire generation).generation + 1) (x.retire generation).alive } :=
            ⟨rfl, rfl, hpending.symm, rfl, .inr hpending⟩
          unfold AdvertiseSession.register_update
          dsimp only
          split
          · exact .quiet hnext
          · next error =>
              refine .failed _ _ ?_ (.refl _)
              refine Quiet.trans ?_ (quiet_once _ _ thrown)
              exact hnext.trans ⟨rfl, rfl, rfl, rfl, .inl rfl⟩
      · split
        · exact .quiet (hretire.trans ⟨rfl, rfl, rfl, rfl, .inl rfl⟩)
        · exact .quiet (hretire.trans ⟨rfl, rfl, rfl, rfl, .inl rfl⟩)
        · exact .quiet (hretire.trans ⟨rfl, rfl, rfl, rfl, .inl rfl⟩)
  · exact .quiet hretire

/-- An unregistration that fails answers its update with an error. -/
theorem calls_unregistration_failed (x : AdvertiseSession) (generation : ℕ) (error_code : ℤ) :
    Calls x (x.on_unregistration_failed generation error_code) false none := by
  have hretire := quiet_retire x generation
  unfold AdvertiseSession.on_unregistration_failed
  dsimp only
  split
  · split
    · refine .quiet (Quiet.trans ?_ (quiet_finish _ _ _))
      exact hretire.trans ⟨rfl, rfl, rfl, rfl, .inl rfl⟩
    · split
      · refine .failed _ _ ?_ (.refl _)
        exact hretire.trans ⟨rfl, rfl, rfl, rfl, .inl rfl⟩
      · exact .quiet (hretire.trans ⟨rfl, rfl, rfl, rfl, .inl rfl⟩)
  · exact .quiet hretire

/-- An update is counted once, and what it asks for is what is recorded as acknowledged when it
succeeds. -/
theorem calls_advertise_update (x : AdvertiseSession) (args : DnsSdAdvertiseUpdateArgs)
    (refused thrown : Option String) :
    Calls x (x.advertise_update args refused thrown) false (some (update_info args x.info refused)) := by
  unfold AdvertiseSession.advertise_update
  split
  · exact .refused _ _ rfl
  · split
    · split
      · exact .refused _ _ rfl
      · next info hinfo =>
          rw [hinfo]
          unfold AdvertiseSession.update_advertisement
          split
          · exact .refused _ _ rfl
          · split
            · exact .refused _ _ rfl
            · next hnone =>
                have hidle : x.pending_update = none := Option.not_isSome_iff_eq_none.mp hnone
                have honce := quiet_once (x.begun info) x.generation thrown
                dsimp only
                split
                · next z heq =>
                    change (x.begun info).unregister_registration_once x.generation thrown = _ at heq
                    rw [heq] at honce
                    exact .begun info hidle honce
                · exact .begun_failed info _ hidle ⟨rfl, rfl, rfl, rfl, .inl rfl⟩
                · exact .begun_failed info _ hidle ⟨rfl, rfl, rfl, rfl, .inl rfl⟩
    · exact .refused _ _ rfl

/-- A stop ends the update that waits, if the session was open. -/
theorem calls_advertise_stop (x : AdvertiseSession) (thrown : ℕ → Option String) :
    Calls x (x.advertise_stop thrown) true none := by
  have hadd : Quiet true x { x with stops := x.stops.add } := ⟨rfl, rfl, rfl, rfl, .inl rfl⟩
  have hclose : ∀ {y : AdvertiseSession}, Quiet false { x with stops := x.stops.add }.close y →
      Calls x y true none := by
    intro y hquiet
    unfold AdvertiseSession.close at hquiet
    split at hquiet
    · exact .quiet (hadd.trans hquiet)
    · refine .failed _ "DNS-SD advertisement is closed" hadd (Quiet.trans ?_ hquiet)
      exact ⟨rfl, rfl, rfl, rfl, .inl rfl⟩
  unfold AdvertiseSession.advertise_stop
  split
  · dsimp only
    split
    · exact hclose (.refl _)
    · split
      · exact hclose (.refl _)
      · split
        · exact hclose (.refl _)
        · split
          · exact hclose ⟨rfl, rfl, rfl, rfl, .inl rfl⟩
          · split
            · exact hclose (quiet_once _ _ _)
            · exact hclose (quiet_unregister_or_schedule _ _ thrown)
  · exact .quiet ⟨rfl, rfl, rfl, rfl, .inl rfl⟩

/-- A retry makes no call. -/
theorem calls_stop_retry (x : AdvertiseSession) (thrown : ℕ → Option String) :
    Calls x (x.stop_retry thrown) false none := by
  have hfirst : Quiet false x { x with stop_retry_scheduled := false } :=
    ⟨rfl, rfl, rfl, rfl, .inl rfl⟩
  have hdispatch := hfirst.trans (quiet_unregister_or_schedule _ x.generation thrown)
  unfold AdvertiseSession.stop_retry
  dsimp only
  split
  · exact .quiet hfirst
  · split
    · exact .quiet (hdispatch.trans ⟨rfl, rfl, rfl, rfl, .inl rfl⟩)
    · exact .quiet hdispatch

/-- **One step and the calls**: it adds the event's own call, and tells no update of success but the
one that waits. -/
theorem calls_step {x y : AdvertiseSession} {event : Event} (hstep : x.step event = some y) :
    Calls x y event.is_stop (event.asks x.info) := by
  cases event with
  | service_registered generation thrown =>
      rw [step, Option.ite_none_right_eq_some, Option.some.injEq] at hstep
      rw [← hstep.2]
      exact calls_service_registered x generation thrown
  | registration_failed generation error_code =>
      rw [step, Option.ite_none_right_eq_some, Option.some.injEq] at hstep
      rw [← hstep.2]
      exact calls_registration_failed x generation error_code
  | service_unregistered generation refused thrown =>
      rw [step, Option.ite_none_right_eq_some, Option.some.injEq] at hstep
      rw [← hstep.2]
      exact calls_service_unregistered x generation refused thrown
  | unregistration_failed generation error_code =>
      rw [step, Option.ite_none_right_eq_some, Option.some.injEq] at hstep
      rw [← hstep.2]
      exact calls_unregistration_failed x generation error_code
  | advertise_update args refused thrown =>
      rw [← Option.some.inj hstep]
      exact calls_advertise_update x args refused thrown
  | advertise_stop thrown =>
      rw [← Option.some.inj hstep]
      exact calls_advertise_stop x thrown
  | stop_retry thrown =>
      rw [step, Option.ite_none_right_eq_some, Option.some.injEq] at hstep
      rw [← hstep.2]
      exact calls_stop_retry x thrown

/-- What the updates of a history ask for, in the order of the calls. -/
def asked (info : ServiceInfo) (history : List Event) : List (Except String ServiceInfo) :=
  history.filterMap (Event.asks info)

/-- The number of the last call that was told of success. -/
def last_success (answered : List (ℕ × Option String)) : Option ℕ :=
  ((answered.filter fun call => call.2.isNone).getLast?).map Prod.fst

/-- `record` is what the last update told of success asked for, or that of the start. -/
def LastTold (info : ServiceInfo) (history : List Event) (answered : List (ℕ × Option String))
    (record : ServiceInfo) : Prop :=
  match last_success answered with
  | none => record = info
  | some call => (asked info history)[call]? = some (.ok record)

/-- The updates of a session are those of the history: one that waits is one of them, and asked for the
record that waits. -/
structure Told (info : ServiceInfo) (past : List Event) (x : AdvertiseSession) : Prop where
  updates : x.updates.calls = (asked info past).length
  service : SameService x.info info
  idle : x.pending_info = none → x.updates.pending = []
  pending : ∀ i, x.pending_info = some i → SameService i info ∧ ∃ call, x.updates.pending = [call] ∧
    (asked info past)[call]? = some (.ok i)
  acknowledged : LastTold info past x.updates.answered x.acknowledged

section Told

variable {info : ServiceInfo} {past : List Event} {x y z : AdvertiseSession}

/-- Errors leave the last success where it was. -/
theorem last_success_failed (answered : List (ℕ × Option String)) (calls : List ℕ) (error : String) :
    last_success (answered ++ calls.map fun call => (call, some error)) = last_success answered := by
  have hnone : (calls.map fun call => (call, some error)).filter (fun call => call.2.isNone) = [] := by
    rw [List.filter_eq_nil_iff]
    intro call hmem
    obtain ⟨_, _, rfl⟩ := List.mem_map.mp hmem
    exact Bool.false_ne_true
  rw [last_success, List.filter_append, hnone, List.append_nil, last_success]

/-- A success is the last one. -/
theorem last_success_succeeded (answered : List (ℕ × Option String)) (call : ℕ) :
    last_success (answered ++ [(call, none)]) = some call := by
  have hone : [(call, (none : Option String))].filter (fun call => call.2.isNone) = [(call, none)] := rfl
  rw [last_success, List.filter_append, hone, List.getLast?_append, List.getLast?_singleton]
  rfl

theorem LastTold.congr {answered answered' : List (ℕ × Option String)} {record : ServiceInfo}
    (h : LastTold info past answered record)
    (heq : last_success answered' = last_success answered) :
    LastTold info past answered' record := by
  unfold LastTold at *
  rw [heq]
  exact h

/-- What has been asked for keeps its number. -/
theorem asked_extend {call : ℕ} {i : ServiceInfo} (h : (asked info past)[call]? = some (.ok i))
    (event : Event) : (asked info (past ++ [event]))[call]? = some (.ok i) := by
  unfold asked at *
  rw [List.filterMap_append, List.getElem?_append_left (List.getElem?_eq_some_iff.mp h).1]
  exact h

/-- What has been asked before is asked still. -/
theorem LastTold.extend {answered : List (ℕ × Option String)} {record : ServiceInfo}
    (h : LastTold info past answered record) (event : Event) :
    LastTold info (past ++ [event]) answered record := by
  unfold LastTold at *
  split
  · next hlast =>
      rw [hlast] at h
      exact h
  · next call hlast =>
      rw [hlast] at h
      exact asked_extend h event

/-- A step that answers nothing keeps what the calls have been told. -/
theorem Told.quiet {stop : Bool} (h : Told info past x) (hquiet : Quiet stop x y) :
    Told info past y where
  updates := by
    rw [hquiet.updates]
    exact h.updates
  service := by
    rcases hquiet.info with heq | hpending
    · rw [heq]
      exact h.service
    · exact (h.pending _ hpending).1
  idle hnone := by
    rw [hquiet.pending] at hnone
    rw [hquiet.updates]
    exact h.idle hnone
  pending i hi := by
    rw [hquiet.pending] at hi
    rw [hquiet.updates]
    exact h.pending i hi
  acknowledged := by
    rw [hquiet.updates, hquiet.acknowledged]
    exact h.acknowledged

/-- An event that is no update asks for nothing. -/
theorem Told.extend (h : Told info past x) {event : Event} (hasks : event.asks info = none) :
    Told info (past ++ [event]) x where
  updates := by
    rw [asked, List.filterMap_append, List.filterMap_cons_none hasks, List.filterMap_nil, List.append_nil]
    exact h.updates
  service := h.service
  idle := h.idle
  pending i hi := by
    obtain ⟨hservice, call, hcall, hasked⟩ := h.pending i hi
    exact ⟨hservice, call, hcall, asked_extend hasked event⟩
  acknowledged := h.acknowledged.extend event

/-- The update that waits fails. -/
theorem Told.failed (h : Told info past x) (error : String) :
    Told info past (x.end_update (some error)) where
  updates := h.updates
  service := h.service
  idle _ := rfl
  pending i hi := by cases hi
  acknowledged := h.acknowledged.congr (last_success_failed _ _ error)

/-- The update that waits succeeds. -/
theorem Told.succeeded {i : ServiceInfo} (h : Told info past x) (hi : x.pending_info = some i) :
    Told info past { x.end_update none with acknowledged := i } where
  updates := h.updates
  service := h.service
  idle _ := rfl
  pending i hi := by cases hi
  acknowledged := by
    obtain ⟨_, call, hcall, hasked⟩ := h.pending i hi
    have hanswered : (x.end_update none).updates.answered = x.updates.answered ++ [(call, none)] := by
      rw [AdvertiseSession.end_update, PendingCalls.finish, hcall]
      rfl
    unfold LastTold
    rw [hanswered, last_success_succeeded]
    exact hasked

/-- A call that asks for a record is the last of those asked. -/
theorem asked_length (past : List Event) {event : Event} {r : Except String ServiceInfo}
    (hasks : event.asks info = some r) : asked info (past ++ [event]) = asked info past ++ [r] := by
  rw [asked, List.filterMap_append, List.filterMap_cons_some hasks, List.filterMap_nil, asked]

/-- An update is refused. -/
theorem Told.refused (h : Told info past x) {event : Event} {r : Except String ServiceInfo}
    (hasks : event.asks info = some r) (error : String) :
    Told info (past ++ [event]) { x with updates := x.updates.answer_now (some error) } where
  updates := by
    rw [asked_length past hasks, List.length_append]
    exact congrArg Nat.succ h.updates
  service := h.service
  idle := h.idle
  pending i hi := by
    obtain ⟨hservice, call, hcall, hasked⟩ := h.pending i hi
    exact ⟨hservice, call, hcall, asked_extend hasked event⟩
  acknowledged :=
    (h.acknowledged.extend event).congr (last_success_failed _ [x.updates.calls] error)

/-- An update begins, where none waits. -/
theorem Told.begun (h : Told info past x) {event : Event} {i : ServiceInfo}
    (hasks : event.asks info = some (.ok i)) (hservice : SameService i info)
    (hidle : x.pending_update = none) : Told info (past ++ [event]) (x.begun i) where
  updates := by
    rw [asked_length past hasks, List.length_append]
    exact congrArg Nat.succ h.updates
  service := h.service
  idle hno := by cases hno
  pending i' hi := by
    obtain rfl : i = i' := Option.some.inj hi
    have hnone : x.updates.pending = [] := h.idle (by rw [pending_info, hidle]; rfl)
    refine ⟨hservice, x.updates.calls, ?_, ?_⟩
    · rw [AdvertiseSession.begun, PendingCalls.add, hnone, List.nil_append]
    · rw [asked_length past hasks, h.updates, List.getElem?_concat_length]
  acknowledged := h.acknowledged.extend event

/-- **One event** keeps the records of what was asked and acknowledged in step with the history. -/
theorem Told.step {event : Event} (h : Told info past x) (hstep : x.step event = some y) :
    Told info (past ++ [event]) y := by
  have hcalls := calls_step hstep
  -- the service of a session never changes, so an update asks the same at every moment
  have hsame := asks_same h.service event
  have hservice : ∀ {i : ServiceInfo}, event.asks x.info = some (.ok i) → SameService i info := by
    intro i hasks
    cases event with
    | advertise_update args refused thrown =>
        obtain ⟨hname, htype⟩ := same_service_update (Option.some.inj hasks)
        exact ⟨hname.trans h.service.1, htype.trans h.service.2⟩
    | _ => cases hasks
  revert hservice
  generalize hasks : event.asks x.info = r at hcalls
  generalize event.is_stop = stop at hcalls
  rw [hsame] at hasks
  intro hservice
  cases hcalls with
  | quiet quiet => exact (h.quiet quiet).extend hasks
  | failed z error before after => exact (((h.quiet before).failed error).quiet after).extend hasks
  | succeeded z i pending before after =>
      exact (((h.quiet before).succeeded pending).quiet after).extend hasks
  | refused error r eq =>
      rw [eq]
      exact h.refused hasks error
  | begun i idle after => exact (h.begun hasks (hservice rfl) idle).quiet after
  | begun_failed i error idle after =>
      exact ((h.begun hasks (hservice rfl) idle).failed error).quiet after

/-- The start of a session answers no call. -/
theorem quiet_start (info : ServiceInfo) (refused : Option (Bool × String)) (thrown : ℕ → Option String) :
    Quiet false { info := info, acknowledged := info } (start info refused thrown) := by
  have hcleanup : ∀ (message : String) (r : Option String × AdvertiseSession),
      Quiet false { info := info, acknowledged := info } r.2 →
      Quiet false { info := info, acknowledged := info }
        (match r.1 with
        | none => r.2
        | some error => { r.2 with terminal_error := some s!"{message}; cleanup: {error}" }) := by
    rintro message ⟨_ | error, y⟩ hquiet
    · exact hquiet
    · exact hquiet.trans ⟨rfl, rfl, rfl, rfl, .inl rfl⟩
  unfold start
  split
  · exact .refl _
  · split
    · exact ⟨rfl, rfl, rfl, rfl, .inl rfl⟩
    · apply hcleanup
      refine Quiet.trans ?_ (quiet_with_retry _ _ thrown)
      exact ⟨rfl, rfl, rfl, rfl, .inl rfl⟩

end Told

/-- The stops are counted by the events that are stops. -/
theorem Calls.stops {x y : AdvertiseSession} {stop : Bool} {r : Option (Except String ServiceInfo)}
    (h : Calls x y stop r) : y.stops.calls = x.stops.calls + stop.toNat := by
  cases h with
  | quiet quiet => exact quiet.calls
  | failed z error before after => exact after.calls.trans before.calls
  | succeeded z info pending before after => exact after.calls.trans before.calls
  | refused error r eq =>
      rw [eq]
      rfl
  | begun info idle after => exact after.calls
  | begun_failed info error idle after => exact after.calls

end AdvertiseSession

end IrohHttp.AndroidAdvertise
