/-
The resolve queue of `IrohHttpPlugin.kt`. `NsdManager` resolves one service at a time, so all browse
sessions share a queue and a thread drains it: it asks for the first resolve and goes, and whoever
learns of the end of that resolve goes on with the next.

The end may be an answer of the platform, a throw of `resolveService`, a session that is gone, or a
watchdog. `completed` of a request decides between them: who sets it has the queue to drain. A watchdog that
wins cannot cancel the resolve, so it puts a fresh client in the place of the busy one first, four
times at most.

A step is one synchronized block or one access of an atomic. A request carries the places of the
threads that are at work for it: `helper` of the one that took it from the queue, `completion` of the
one that has its end, `watchdog` of the handler and the recovery executor, and `native` for the platform.
-/
import IrohHttp.BrowseSession
import IrohHttp.Parties

set_option autoImplicit false

namespace IrohHttp.ResolveQueue

open IrohHttp.BrowseSession IrohHttp.Mobile IrohHttp.NativeSession IrohHttp.Parties Machine

/-- `MAX_RESOLVER_ROTATIONS`. -/
def MAX_RESOLVER_ROTATIONS : ℕ := 4

/-! ## Requests -/

/-- `ResolveOwner`: a presence of an instance in a session. -/
structure ResolveOwner where
  session : ℕ
  instance_name : String
  presence_generation : ℕ
  deriving DecidableEq, Repr

/-- What the platform answers to a resolve. -/
inductive Outcome
  | resolved (service : NsdServiceInfo)
  | failed

/-- Where the thread is that took the request from the queue, in `drainResolveQueue`. -/
inductive Helper
  | waiting
  | check
  | skip
  | choose
  | arm
  | recheck
  | recheck_owner
  | dispatch
  | ended
  deriving DecidableEq

/-- The platform's part of a resolve. -/
inductive Native
  | unasked
  | unanswered (manager : ℕ)
  | answered
  deriving DecidableEq

/-- Where the thread is that has the end of a resolve: in front of `claimResolve`, or behind it in
`finishClaimedResolve`. A session that was gone has no outcome to tell. -/
inductive Completion
  | idle
  | complete (outcome : Option Outcome)
  | deliver (outcome : Option Outcome)
  | release
  | ended

/-- The watchdog of a request: `abandon` in front of `claimResolve`, the rest on the recovery
executor. -/
inductive Watchdog
  | off
  | armed
  | abandon
  | recover
  | install (can_rotate : Bool) (replacement : Option ℕ)
  | fail (can_rotate : Bool)
  | release
  | ended
  deriving DecidableEq

/-- `epoch` is a record: how often the instance had been lost when it was found. -/
structure ResolveRequest where
  owner : ResolveOwner
  manager : ℕ
  epoch : ℕ
  completed : Bool := false
  helper : Helper := .waiting
  native : Native := .unasked
  completion : Completion := .idle
  watchdog : Watchdog := .off

/-! ## The plugin -/

/-- `arriving` has the calls of `enqueueResolve` that have not yet the lock, `retiring` those of
`retireResolveRequest`, `failing` the sessions that `failResolverSessions` has still to fail, each
with its message, `drains` the threads in front of the loop of `drainResolveQueue`. `next_client`
numbers the clients that Android has made, and `told` records the requests whose listener was called. -/
structure Plugin where
  sessions : List DnsSdBrowseSession := []
  requests : List ResolveRequest := []
  resolve_queue : List ℕ := []
  resolve_in_progress : Bool := false
  active_resolve : Option ℕ := none
  resolver_manager : Option ℕ := none
  resolver_rotation_count : ℕ := 0
  resolver_terminal_error : Option String := none
  arriving : List ResolveRequest := []
  retiring : List ResolveOwner := []
  failing : List (ℕ × String) := []
  drains : ℕ := 0
  next_client : ℕ := 1
  told : List ℕ := []

/-- A call of the plugin, a callback of a session, or the next step of a request's helper, answer or
watchdog. A thrown platform call is part of the label that makes it. -/
inductive Label
  | browse_start (service_type : String) (manager : ℕ) (refused : Option (Bool × String))
  | session (session : ℕ) (event : Event)
  | service_found (session : ℕ) (name : String)
  | service_lost (session : ℕ) (name : String)
  | fail_session (thrown : ℕ → Option String)
  | enqueue (call : ℕ)
  | retire (call : ℕ)
  | drain
  | help (request : ℕ) (refused : Bool)
  | answer (request : ℕ) (outcome : Outcome)
  | finish (request : ℕ)
  | expire (request : ℕ)
  | recover (request : ℕ) (refused : Bool)

/-- The steps of the plugin's own threads for the queue. -/
def Label.own : Label → Bool
  | .drain => true
  | .help _ _ => true
  | .finish _ => true
  | .expire _ => true
  | .recover _ _ => true
  | _ => false

/-- The steps of the sessions, and of the callers that are on their way to the queue. -/
def Label.outside : Label → Bool
  | .browse_start _ _ _ | .session _ _ | .service_found _ _ | .service_lost _ _ => true
  | .fail_session _ | .retire _ => true
  | _ => false

namespace Plugin

/-- Session `i` becomes `x`. -/
def set_session (s : Plugin) (i : ℕ) (x : DnsSdBrowseSession) : Plugin :=
  { s with sessions := s.sessions.set i x }

/-- Request `r` becomes `req`. -/
def set_request (s : Plugin) (r : ℕ) (req : ResolveRequest) : Plugin :=
  { s with requests := s.requests.set r req }

/-- `isCurrentResolveOwner`. -/
def is_current (s : Plugin) (owner : ResolveOwner) : Bool :=
  (s.sessions[owner.session]?).any fun x =>
    x.is_current owner.instance_name owner.presence_generation

/-- The presence a request was made for. -/
def owner_of (s : Plugin) (r : ℕ) : Option ResolveOwner := (s.requests[r]?).map ResolveRequest.owner

/-! ### The queue -/

/-- `retireResolveRequests`. -/
def retire_requests (s : Plugin) (i : ℕ) : Plugin :=
  { s with
    resolve_queue := s.resolve_queue.filter fun r => (s.owner_of r).map ResolveOwner.session ≠ some i }

/-- `retireResolveRequest`. -/
def retire_request (s : Plugin) (owner : ResolveOwner) : Plugin :=
  { s with resolve_queue := s.resolve_queue.filter fun r => s.owner_of r ≠ some owner }

/-- A call of `enqueueResolve` with the lock. -/
def enqueue (s : Plugin) (call : ℕ) : Option Plugin :=
  (s.arriving[call]?).map fun request =>
    { s with
      arriving := s.arriving.eraseIdx call
      requests := s.requests ++ [request]
      resolve_queue := s.resolve_queue ++ [s.requests.length]
      resolve_in_progress := true
      drains := if s.resolve_in_progress then s.drains else s.drains + 1 }

/-- `pollFirst` in `drainResolveQueue`. -/
def drain (s : Plugin) : Option Plugin :=
  if s.drains = 0 then none
  else
    match s.resolve_queue with
    | [] =>
      some { s with active_resolve := none, resolve_in_progress := false, drains := s.drains - 1 }
    | r :: rest =>
      (s.requests[r]?).map fun req =>
        { s.set_request r { req with helper := .check } with
          resolve_queue := rest, active_resolve := some r, drains := s.drains - 1 }

/-- What `drainResolveQueue` does with the request it has taken, one access at a time. `refused` says that
`resolveService` throws. -/
def help (s : Plugin) (r : ℕ) (req : ResolveRequest) (refused : Bool) : Option Plugin :=
  match req.helper with
  | .check =>
    some (s.set_request r { req with helper := if s.is_current req.owner then .choose else .skip })
  | .skip =>
    some (s.set_request r { req with completed := true, helper := .ended, completion := .release })
  | .choose =>
    let manager := s.resolver_manager.getD req.manager
    some { s.set_request r { req with manager := manager, helper := .arm } with
      resolver_manager := some manager }
  | .arm => some (s.set_request r { req with helper := .recheck, watchdog := .armed })
  | .recheck =>
    if req.completed then
      some (s.set_request r { req with helper := .ended, completion := .complete none })
    else some (s.set_request r { req with helper := .recheck_owner })
  | .recheck_owner =>
    if s.is_current req.owner then some (s.set_request r { req with helper := .dispatch })
    else some (s.set_request r { req with helper := .ended, completion := .complete none })
  | .dispatch =>
    if req.completed then some (s.set_request r { req with helper := .ended })
    else if refused then
      some (s.set_request r { req with helper := .ended, completion := .complete (some .failed) })
    else
      some (s.set_request r { req with helper := .ended, native := .unanswered req.manager })
  | _ => none

/-- The platform calls the listener. -/
def answer (s : Plugin) (r : ℕ) (req : ResolveRequest) (outcome : Outcome) : Option Plugin :=
  match req.native with
  | .unanswered _ =>
    some (s.set_request r
      { req with native := .answered, completion := .complete (some outcome) })
  | _ => none

/-- `activeResolve` is cleared, and the thread goes on with the queue. -/
def release (s : Plugin) (r : ℕ) (req : ResolveRequest) : Plugin :=
  { s.set_request r req with
    active_resolve := if s.active_resolve = some r then none else s.active_resolve
    drains := s.drains + 1 }

/-- What the listener does with an outcome. -/
def tell (s : Plugin) (r : ℕ) (req : ResolveRequest) : Option Outcome → Plugin
  | none => s
  | some .failed => { s with told := s.told ++ [r] }
  | some (.resolved service) =>
    let name := req.owner.instance_name
    let generation := req.owner.presence_generation
    match s.sessions[req.owner.session]? with
    | none => { s with told := s.told ++ [r] }
    | some x =>
      { s.set_session req.owner.session (x.on_service_resolved name generation service) with
        told := s.told ++ [r] }

/-- `completeResolve`. -/
def finish (s : Plugin) (r : ℕ) (req : ResolveRequest) : Option Plugin :=
  match req.completion with
  | .complete outcome =>
    if req.completed then some (s.set_request r { req with completion := .ended })
    else
      some (s.set_request r
        { req with
          completed := true, completion := .deliver outcome
          watchdog := if req.watchdog = .armed then .ended else req.watchdog })
  | .deliver outcome =>
    some ((s.set_request r { req with completion := .release }).tell r req outcome)
  | .release => some (s.release r { req with completion := .ended })
  | _ => none

/-! ### The watchdog -/

/-- The handler runs the watchdog. -/
def expire (s : Plugin) (r : ℕ) (req : ResolveRequest) : Option Plugin :=
  match req.watchdog with
  | .armed =>
    some (s.set_request r { req with watchdog := if req.completed then .ended else .abandon })
  | _ => none

/-- The error that ends the resolver: a fresh client could not be had, or none is allowed any more.
-/
def terminal_message (can_rotate : Bool) : String :=
  if can_rotate then "Android DNS-SD resolver recovery could not create a fresh client"
  else "Android DNS-SD resolver recovery exhausted after 4 recovery rotations; restart the app"

/-- `failResolverSessions` with the lock of the queue. -/
def fail_resolver (s : Plugin) (message : String) : Plugin :=
  { s with
    resolver_terminal_error := some message
    resolve_queue := []
    active_resolve := none
    resolve_in_progress := false
    failing := s.failing ++ ((List.range s.sessions.length).filter fun i =>
      (s.sessions[i]?).any DnsSdBrowseSession.mapped).map fun i => (i, message) }

/-- `abandonResolve`, and its task on the executor. `refused` says that no fresh client can be
made. -/
def recover (s : Plugin) (r : ℕ) (req : ResolveRequest) (refused : Bool) : Option Plugin :=
  match req.watchdog with
  | .abandon =>
    if req.completed then some (s.set_request r { req with watchdog := .ended })
    else some (s.set_request r { req with completed := true, watchdog := .recover })
  | .recover =>
    if s.resolver_rotation_count < MAX_RESOLVER_ROTATIONS then
      if refused then some (s.set_request r { req with watchdog := .install true none })
      else
        some { s.set_request r { req with watchdog := .install true (some s.next_client) } with
          next_client := s.next_client + 1 }
    else some (s.set_request r { req with watchdog := .install false none })
  | .install can_rotate replacement =>
    match replacement with
    | none => some (s.set_request r { req with watchdog := .fail can_rotate })
    | some client =>
      if s.resolver_manager = some req.manager then
        some { s.set_request r { req with watchdog := .release } with
          resolver_manager := some client
          resolver_rotation_count := s.resolver_rotation_count + 1 }
      else some (s.set_request r { req with watchdog := .fail can_rotate })
  | .fail can_rotate =>
    some ((s.set_request r { req with watchdog := .ended }).fail_resolver (terminal_message can_rotate))
  | .release => some (s.release r { req with watchdog := .ended })
  | _ => none

/-! ### Sessions -/

/-- `browse_start`. A resolver that has failed for good takes no session. -/
def browse_start (s : Plugin) (service_type : String) (manager : ℕ)
    (refused : Option (Bool × String)) : Option Plugin :=
  if s.next_client ≤ manager then none
  else if s.resolver_terminal_error.isSome then some s
  else
    some { s with
      sessions := s.sessions ++ [DnsSdBrowseSession.start service_type manager refused] }

/-- The events after which `retireResolveRequests` is called. -/
def retires (x : DnsSdBrowseSession) : Event → Bool
  | .start_thrown _ => x.start_error.any fun e => !e.1
  | .start_discovery_failed _ => x.mapped
  | .stop_discovery_failed _ => x.mapped
  | .discovery_stopped => x.mapped
  | .browse_stop _ => x.mapped && !x.native_terminal && x.state != .CLOSED
  | .resolver_failed _ _ => x.mapped && x.state == .STARTING
  | _ => false

/-- A callback of a session. When it ends the session, the session's requests are retired in the
same critical section. -/
def session_step (s : Plugin) (i : ℕ) (e : Event) : Option Plugin :=
  (s.sessions[i]?).bind fun x =>
    (x.step e).map fun y =>
      if retires x e then (s.set_session i y).retire_requests i else s.set_session i y

/-- `onServiceFound`: a presence that is to be resolved becomes a request on its way to
`enqueueResolve`. -/
def service_found (s : Plugin) (i : ℕ) (x : DnsSdBrowseSession) (name : String) : Plugin :=
  match x.on_service_found name with
  | (none, _) => s
  | (some generation, y) =>
    { s.set_session i y with
      arriving := s.arriving ++
        [{ owner := ⟨i, name, generation⟩, manager := x.manager, epoch := x.lost.count name }] }

/-- `onServiceLost`: the presence ends, and its owner is on its way to `retireRequest`. -/
def service_lost (s : Plugin) (i : ℕ) (x : DnsSdBrowseSession) (name : String) : Plugin :=
  match x.on_service_lost name with
  | (none, y) => s.set_session i y
  | (some generation, y) =>
    { s.set_session i y with retiring := s.retiring ++ [⟨i, name, generation⟩] }

/-- `failResolverSessions` at its next session. -/
def fail_session (s : Plugin) (thrown : ℕ → Option String) : Option Plugin :=
  match s.failing with
  | [] => none
  | (i, message) :: rest => { s with failing := rest }.session_step i (.resolver_failed message thrown)

/-- The events of a session that do not come from the queue or go to it. -/
def session_event (s : Plugin) (i : ℕ) : Event → Option Plugin
  | .service_found _ | .service_lost _ | .service_resolved _ _ _ | .resolver_failed _ _ => none
  | e => s.session_step i e

/-- One step of the plugin. -/
def step (s : Plugin) : Label → Option Plugin
  | .browse_start service_type manager refused => s.browse_start service_type manager refused
  | .session i e => s.session_event i e
  | .service_found i name => (s.sessions[i]?).map fun x => s.service_found i x name
  | .service_lost i name => (s.sessions[i]?).map fun x => s.service_lost i x name
  | .fail_session thrown => s.fail_session thrown
  | .enqueue call => s.enqueue call
  | .retire call =>
    (s.retiring[call]?).map fun owner =>
      { s with retiring := s.retiring.eraseIdx call }.retire_request owner
  | .drain => s.drain
  | .help r refused => (s.requests[r]?).bind fun req => s.help r req refused
  | .answer r outcome => (s.requests[r]?).bind fun req => s.answer r req outcome
  | .finish r => (s.requests[r]?).bind fun req => s.finish r req
  | .expire r => (s.requests[r]?).bind fun req => s.expire r req
  | .recover r refused => (s.requests[r]?).bind fun req => s.recover r req refused

end Plugin

/-! ## Who has the queue to drain -/

/-- The helper has not armed the watchdog. -/
def Helper.fresh : Helper → Bool
  | .waiting | .check | .skip | .choose | .arm => true
  | _ => false

/-- The helper has armed the watchdog and not asked the platform. -/
def Helper.underway : Helper → Bool
  | .recheck | .recheck_owner | .dispatch => true
  | _ => false

/-- The helper has chosen the client to ask. -/
def Helper.chosen : Helper → Bool
  | .arm | .recheck | .recheck_owner | .dispatch | .ended => true
  | _ => false

/-- The thread is behind `claimResolve` and in front of the loop. -/
def Completion.claimed : Completion → Bool
  | .deliver _ | .release => true
  | _ => false

/-- The watchdog won the request's `finished`, and will rotate the client or fail. -/
def Watchdog.claimed : Watchdog → Bool
  | .recover | .install _ _ | .fail _ | .release => true
  | _ => false

/-- The watchdog has claimed the request, and the busy client may still be in place. -/
def Watchdog.rotating : Watchdog → Bool
  | .recover | .install _ _ | .fail _ => true
  | _ => false

/-- The watchdog may still find the request without an end. -/
def Watchdog.pending : Watchdog → Bool
  | .armed | .abandon => true
  | _ => false

namespace ResolveRequest

/-- Some thread, or the platform, has this request's end to bring about and the queue to drain after
it. -/
def holding (req : ResolveRequest) : Bool :=
  req.helper != .waiting && !req.completed || req.completion.claimed || req.watchdog.claimed

/-- The places of the threads of a request go together. One thread at most has claimed it, and a
request that nobody has claimed has somebody who will. -/
structure Wf (req : ResolveRequest) : Prop where
  completion_claimed : req.completion.claimed = true →
    req.completed = true ∧ req.watchdog.claimed = false
  watchdog_claimed : req.watchdog.claimed = true → req.completed = true
  fresh : req.helper.fresh = true → req.completed = false ∧ req.native = .unasked ∧
    req.completion = .idle ∧ req.watchdog = .off
  underway : req.helper.underway = true → req.native = .unasked ∧ req.completion = .idle ∧
    (req.completed = false → req.watchdog.pending = true)
  unanswered : ∀ m, req.native = .unanswered m → req.helper = .ended ∧ req.completion = .idle ∧
    m = req.manager ∧ (req.completed = false → req.watchdog.pending = true)
  complete : ∀ outcome, req.completion = .complete outcome → req.helper = .ended
  moving : req.helper = .ended → req.completed = false →
    (∃ m, req.native = .unanswered m) ∨ ∃ outcome, req.completion = .complete outcome

end ResolveRequest

open ResolveRequest

/-- A step of a thread, or of the platform, for one request. The flag marks the steps that have to do
with the client: it is chosen, asked, made or installed. -/
inductive Moved (req : ResolveRequest) : Bool → ResolveRequest → Prop
  | check (current : Bool) (at_ : req.helper = .check) :
      Moved req false { req with helper := if current then .choose else .skip }
  | skip (at_ : req.helper = .skip) :
      Moved req false { req with completed := true, helper := .ended, completion := .release }
  | choose (manager : ℕ) (at_ : req.helper = .choose) :
      Moved req true { req with manager := manager, helper := .arm }
  | arm (at_ : req.helper = .arm) : Moved req false { req with helper := .recheck, watchdog := .armed }
  | recheck (at_ : req.helper = .recheck) : Moved req false { req with helper := .recheck_owner }
  | gone (at_ : req.helper = .recheck ∨ req.helper = .recheck_owner) :
      Moved req false { req with helper := .ended, completion := .complete none }
  | current (at_ : req.helper = .recheck_owner) : Moved req false { req with helper := .dispatch }
  | late (at_ : req.helper = .dispatch) (completed : req.completed = true) :
      Moved req false { req with helper := .ended }
  | refused (at_ : req.helper = .dispatch) :
      Moved req false { req with helper := .ended, completion := .complete (some .failed) }
  | asked (at_ : req.helper = .dispatch) (open_ : req.completed = false) :
      Moved req true { req with helper := .ended, native := .unanswered req.manager }
  | answered (m : ℕ) (outcome : Outcome) (at_ : req.native = .unanswered m) :
      Moved req false { req with native := .answered, completion := .complete (some outcome) }
  | lost (outcome : Option Outcome) (at_ : req.completion = .complete outcome)
      (completed : req.completed = true) : Moved req false { req with completion := .ended }
  | claimed (outcome : Option Outcome) (at_ : req.completion = .complete outcome)
      (open_ : req.completed = false) : Moved req false { req with
        completed := true, completion := .deliver outcome
        watchdog := if req.watchdog = .armed then .ended else req.watchdog }
  | delivered (outcome : Option Outcome) (at_ : req.completion = .deliver outcome) :
      Moved req false { req with completion := .release }
  | expired (at_ : req.watchdog = .armed) :
      Moved req false { req with watchdog := if req.completed then .ended else .abandon }
  | abandoned_late (at_ : req.watchdog = .abandon) (completed : req.completed = true) :
      Moved req false { req with watchdog := .ended }
  | abandoned (at_ : req.watchdog = .abandon) (open_ : req.completed = false) :
      Moved req false { req with completed := true, watchdog := .recover }
  | made (client : ℕ) (at_ : req.watchdog = .recover) :
      Moved req true { req with watchdog := .install true (some client) }
  | unmade (can_rotate : Bool) (at_ : req.watchdog = .recover) :
      Moved req false { req with watchdog := .install can_rotate none }
  | installed (can_rotate : Bool) (replacement : Option ℕ)
      (at_ : req.watchdog = .install can_rotate replacement) :
      Moved req true { req with watchdog := .release }
  | failed (can_rotate : Bool) (replacement : Option ℕ)
      (at_ : req.watchdog = .install can_rotate replacement) :
      Moved req false { req with watchdog := .fail can_rotate }

/-- The last step of the thread that has claimed a request. -/
inductive Released (req : ResolveRequest) : ResolveRequest → Prop
  | completion (at_ : req.completion = .release) : Released req { req with completion := .ended }
  | watchdog (at_ : req.watchdog = .release ∨ ∃ can_rotate, req.watchdog = .fail can_rotate) :
      Released req { req with watchdog := .ended }

/-- What the steps that have nothing to do with the client keep of it. -/
structure Plain (req req' : ResolveRequest) : Prop where
  manager : req'.manager = req.manager
  native : ∀ m, req'.native = .unanswered m → req.native = .unanswered m
  chosen : req'.helper.chosen = true → req'.completed = false →
    req.helper.chosen = true ∧ req.completed = false
  abandoned : ∀ m, req'.native = .unanswered m → req'.completed = true →
    req'.watchdog.rotating = false → req.completed = true ∧ req.watchdog.rotating = false
  install : ∀ can_rotate client, req'.watchdog = .install can_rotate (some client) →
    req.watchdog = .install can_rotate (some client)

section Moves

variable {req req' : ResolveRequest} {client : Bool}

attribute [local grind] Helper.fresh Helper.underway Helper.chosen Completion.claimed
  Watchdog.claimed Watchdog.rotating Watchdog.pending holding

/-- A request's own step keeps it well formed. -/
theorem Moved.wf (h : Wf req) (hmoved : Moved req client req') : Wf req' := by
  rcases req with ⟨owner, manager, epoch, completed, helper, native, completion, watchdog⟩
  obtain ⟨hcompletion, hwatchdog, hfresh, hunderway, hunanswered, hcomplete, hmoving⟩ := h
  cases hmoved
  all_goals
    constructor
    all_goals grind -ring -linarith

/-- The request is where it was, in the hands of somebody or of nobody. -/
theorem Moved.holding_eq (h : Wf req) (hmoved : Moved req client req') :
    req'.holding = req.holding := by
  rcases req with ⟨owner, manager, epoch, completed, helper, native, completion, watchdog⟩
  obtain ⟨hcompletion, hwatchdog, hfresh, hunderway, hunanswered, hcomplete, hmoving⟩ := h
  cases hmoved
  all_goals grind -ring -linarith

theorem Moved.not_waiting (h : Wf req) (hmoved : Moved req client req') :
    req.helper ≠ .waiting := by
  obtain ⟨hcompletion, hwatchdog, hfresh, hunderway, hunanswered, hcomplete, hmoving⟩ := h
  cases hmoved
  all_goals grind -ring -linarith

/-- A step that hands out no client is plain. -/
theorem Moved.plain (h : Wf req) (hmoved : Moved req false req') : Plain req req' := by
  rcases req with ⟨owner, manager, epoch, completed, helper, native, completion, watchdog⟩
  obtain ⟨hcompletion, hwatchdog, hfresh, hunderway, hunanswered, hcomplete, hmoving⟩ := h
  cases hmoved
  all_goals
    constructor
    all_goals grind -ring -linarith

/-- So does the step that releases the queue. -/
theorem Released.wf (h : Wf req) (hreleased : Released req req') : Wf req' := by
  rcases req with ⟨owner, manager, epoch, completed, helper, native, completion, watchdog⟩
  obtain ⟨hcompletion, hwatchdog, hfresh, hunderway, hunanswered, hcomplete, hmoving⟩ := h
  cases hreleased
  all_goals
    constructor
    all_goals grind -ring -linarith

theorem Released.holding (h : Wf req) (hreleased : Released req req') :
    req.holding = true ∧ req'.holding = false ∧ req.helper ≠ .waiting := by
  rcases req with ⟨owner, manager, epoch, completed, helper, native, completion, watchdog⟩
  obtain ⟨hcompletion, hwatchdog, hfresh, hunderway, hunanswered, hcomplete, hmoving⟩ := h
  cases hreleased
  all_goals grind -ring -linarith

theorem Released.plain (h : Wf req) (hreleased : Released req req')
    (hfail : ∀ can_rotate, req.watchdog ≠ .fail can_rotate) : Plain req req' := by
  rcases req with ⟨owner, manager, epoch, completed, helper, native, completion, watchdog⟩
  obtain ⟨hcompletion, hwatchdog, hfresh, hunderway, hunanswered, hcomplete, hmoving⟩ := h
  cases hreleased
  all_goals
    constructor
    all_goals grind -ring -linarith

end Moves

/-! ## What a step does to the queue -/

/-- A request as `enqueueResolve` makes it. -/
def ResolveRequest.Fresh (req : ResolveRequest) : Prop :=
  req.helper = .waiting ∧ req.completed = false ∧ req.native = .unasked ∧ req.completion = .idle ∧
    req.watchdog = .off

theorem ResolveRequest.Fresh.wf {req : ResolveRequest} (h : req.Fresh) :
    Wf req ∧ req.holding = false := by
  rcases req with ⟨owner, manager, epoch, completed, helper, native, completion, watchdog⟩
  obtain ⟨rfl, rfl, rfl, rfl, rfl⟩ := h
  refine ⟨⟨?_, ?_, fun _ => ⟨rfl, rfl, rfl, rfl⟩, ?_, ?_, ?_, ?_⟩, rfl⟩
  all_goals
    intros
    contradiction

/-- The listener of a request may have been called. -/
def ResolveRequest.Told (req : ResolveRequest) : Prop :=
  req.completion = .release ∨ req.completion = .ended

theorem Moved.told {req req' : ResolveRequest} {client : Bool} (h : Wf req) (hmoved : Moved req client req')
    (htold : req.Told) : req'.Told := by
  have hnot : ∀ {P : Prop}, req.completion = .idle → P := by
    intro P hidle
    rcases htold with htold | htold <;> rw [hidle] at htold <;> cases htold
  cases hmoved with
  | skip at_ => exact .inl rfl
  | gone at_ =>
      have hunderway : req.helper.underway = true := by
        rcases at_ with at_ | at_ <;> rw [at_] <;> rfl
      exact hnot (h.underway hunderway).2.1
  | refused at_ =>
      have hunderway : req.helper.underway = true := by rw [at_]; rfl
      exact hnot (h.underway hunderway).2.1
  | answered m outcome at_ => exact hnot (h.unanswered m at_).2.1
  | lost outcome at_ completed => exact .inr rfl
  | claimed outcome at_ open_ => rcases htold with htold | htold <;> rw [at_] at htold <;> cases htold
  | delivered outcome at_ => exact .inl rfl
  | _ => exact htold

/-- What the requests' own steps do not touch. -/
structure SameQueue (s s' : Plugin) : Prop where
  queue : s'.resolve_queue = s.resolve_queue
  in_progress : s'.resolve_in_progress = s.resolve_in_progress
  active : s'.active_resolve = s.active_resolve
  drains : s'.drains = s.drains
  arriving : s'.arriving = s.arriving

/-- The request of an announcement, in a session that was `x` before it. -/
def Announced (s' : Plugin) (x : DnsSdBrowseSession) (req : ResolveRequest) : Prop :=
  req.epoch = x.lost.count req.owner.instance_name ∧ ∃ y,
    x.on_service_found req.owner.instance_name = (some req.owner.presence_generation, y) ∧
      s'.sessions[req.owner.session]? = some y

/-- What the steps of the sessions do not touch. -/
structure Around (s s' : Plugin) : Prop where
  requests : s'.requests = s.requests
  queue : s'.resolve_queue.Sublist s.resolve_queue
  in_progress : s'.resolve_in_progress = s.resolve_in_progress
  active : s'.active_resolve = s.active_resolve
  drains : s'.drains = s.drains
  told : s'.told = s.told
  manager : s'.resolver_manager = s.resolver_manager
  rotations : s'.resolver_rotation_count = s.resolver_rotation_count
  terminal : s'.resolver_terminal_error = s.resolver_terminal_error
  client : s'.next_client = s.next_client
  sessions : ∀ y ∈ s'.sessions, y.manager < s.next_client ∨ ∃ x ∈ s.sessions, y.manager = x.manager
  arriving : ∀ req ∈ s'.arriving, req ∈ s.arriving ∨
    req.Fresh ∧ ∃ x, s.sessions[req.owner.session]? = some x ∧ req.manager = x.manager ∧
      Announced s' x req

/-- The clients are the same, and so are those of the sessions. -/
structure SameClients (s s' : Plugin) : Prop where
  manager : s'.resolver_manager = s.resolver_manager
  rotations : s'.resolver_rotation_count = s.resolver_rotation_count
  terminal : s'.resolver_terminal_error = s.resolver_terminal_error
  client : s'.next_client = s.next_client
  sessions : ∀ y ∈ s'.sessions, ∃ x ∈ s.sessions, y.manager = x.manager

/-- What a step for one request does to the clients. -/
inductive ClientStep (s s' : Plugin) (r : ℕ) (req : ResolveRequest) : Bool → ResolveRequest → Prop
  | same {req' : ResolveRequest} (clients : SameClients s s') : ClientStep s s' r req false req'
  | choose (at_ : req.helper = .choose)
      (eq : s' = { s.set_request r
        { req with manager := s.resolver_manager.getD req.manager, helper := .arm } with
        resolver_manager := some (s.resolver_manager.getD req.manager) }) :
      ClientStep s s' r req true
        { req with manager := s.resolver_manager.getD req.manager, helper := .arm }
  | asked (at_ : req.helper = .dispatch) (open_ : req.completed = false)
      (eq : s' = s.set_request r
        { req with helper := .ended, native := .unanswered req.manager }) :
      ClientStep s s' r req true { req with helper := .ended, native := .unanswered req.manager }
  | made (at_ : req.watchdog = .recover)
      (room : s.resolver_rotation_count < MAX_RESOLVER_ROTATIONS)
      (eq : s' = { s.set_request r { req with watchdog := .install true (some s.next_client) } with
        next_client := s.next_client + 1 }) :
      ClientStep s s' r req true { req with watchdog := .install true (some s.next_client) }
  | installed (can_rotate : Bool) (client : ℕ)
      (at_ : req.watchdog = .install can_rotate (some client))
      (manager : s.resolver_manager = some req.manager)
      (eq : s' = { s.set_request r { req with watchdog := .release } with
        resolver_manager := some client
        resolver_rotation_count := s.resolver_rotation_count + 1 }) :
      ClientStep s s' r req true { req with watchdog := .release }

/-- What one step does to the queue, the clients and the requests. Every invariant below is proved
by cases on it. -/
inductive Change (s s' : Plugin) : Prop
  | around (around : Around s s')
  | enqueued (request : ResolveRequest) (mem : request ∈ s.arriving) (clients : SameClients s s')
      (requests : s'.requests = s.requests ++ [request])
      (queue : s'.resolve_queue = s.resolve_queue ++ [s.requests.length])
      (in_progress : s'.resolve_in_progress = true) (active : s'.active_resolve = s.active_resolve)
      (drains : s'.drains = if s.resolve_in_progress then s.drains else s.drains + 1)
      (told : s'.told = s.told) (arriving : ∀ req ∈ s'.arriving, req ∈ s.arriving)
  | drained (drains : s.drains ≠ 0) (queue : s.resolve_queue = [])
      (eq : s' = { s with
        active_resolve := none, resolve_in_progress := false, drains := s.drains - 1 })
  | taken (r : ℕ) (rest : List ℕ) (req : ResolveRequest) (drains : s.drains ≠ 0)
      (queue : s.resolve_queue = r :: rest) (at_ : s.requests[r]? = some req)
      (eq : s' = { s.set_request r { req with helper := .check } with
        resolve_queue := rest, active_resolve := some r, drains := s.drains - 1 })
  | moved (r : ℕ) (req req' : ResolveRequest) (client : Bool) (at_ : s.requests[r]? = some req)
      (moved : Moved req client req') (clients : ClientStep s s' r req client req')
      (requests : s'.requests = s.requests.set r req')
      (same : SameQueue s s')
      (told : s'.told = s.told ∨
        s'.told = s.told ++ [r] ∧ (∃ outcome, req.completion = .deliver outcome) ∧ req'.Told)
  | released (r : ℕ) (req req' : ResolveRequest) (at_ : s.requests[r]? = some req)
      (released : Released req req') (told : req.Told → req'.Told)
      (fail : ∀ can_rotate, req.watchdog ≠ .fail can_rotate) (eq : s' = s.release r req')
  | failed (r : ℕ) (req : ResolveRequest) (can_rotate : Bool) (at_ : s.requests[r]? = some req)
      (watchdog : req.watchdog = .fail can_rotate)
      (eq : s' = (s.set_request r { req with watchdog := .ended }).fail_resolver
        (Plugin.terminal_message can_rotate))

namespace Plugin

/-- A session in the place of one with the same client. -/
theorem manager_set {s : Plugin} {i : ℕ} {x y : DnsSdBrowseSession} (hx : s.sessions[i]? = some x)
    (hmanager : y.manager = x.manager) :
    ∀ z ∈ s.sessions.set i y, ∃ w ∈ s.sessions, z.manager = w.manager := by
  intro z hz
  rcases List.mem_or_eq_of_mem_set hz with hmem | rfl
  · exact ⟨z, hmem, rfl⟩
  · exact ⟨x, List.mem_of_getElem? hx, hmanager⟩

theorem session_step_around {s s' : Plugin} {i : ℕ} {e : Event}
    (hstep : s.session_step i e = some s') : Around s s' := by
  rw [session_step, Option.bind_eq_some_iff] at hstep
  obtain ⟨x, hx, hmap⟩ := hstep
  obtain ⟨y, hy, rfl⟩ := Option.map_eq_some_iff.mp hmap
  have hmanagers := manager_set hx (DnsSdBrowseSession.manager_step hy)
  split
  · exact ⟨rfl, List.filter_sublist, rfl, rfl, rfl, rfl, rfl, rfl, rfl, rfl,
      fun z hz => .inr (hmanagers z hz), fun _ hmem => .inl hmem⟩
  · exact ⟨rfl, List.Sublist.refl _, rfl, rfl, rfl, rfl, rfl, rfl, rfl, rfl,
      fun z hz => .inr (hmanagers z hz), fun _ hmem => .inl hmem⟩

/-- A step of one request, as a change. -/
theorem moved_change {s : Plugin} {r : ℕ} {req req' : ResolveRequest}
    (hr : s.requests[r]? = some req) (hmoved : Moved req false req') :
    Change s (s.set_request r req') :=
  .moved r req req' false hr hmoved (.same ⟨rfl, rfl, rfl, rfl, fun y hy => ⟨y, hy, rfl⟩⟩) rfl
    ⟨rfl, rfl, rfl, rfl, rfl⟩ (.inl rfl)

/-- A step of a request's helper, as a change. -/
theorem help_change {s s' : Plugin} {r : ℕ} {req : ResolveRequest} {refused : Bool}
    (hr : s.requests[r]? = some req) (hstep : s.help r req refused = some s') : Change s s' := by
  have hmoved : ∀ {req' : ResolveRequest}, Moved req false req' → Change s (s.set_request r req') :=
    moved_change hr
  unfold help at hstep
  split at hstep
  · next at_ =>
      rw [← Option.some.inj hstep]
      exact hmoved (.check _ at_)
  · next at_ =>
      rw [← Option.some.inj hstep]
      exact hmoved (.skip at_)
  · next at_ =>
      rw [← Option.some.inj hstep]
      exact .moved r req _ true hr (.choose _ at_) (.choose at_ rfl) rfl ⟨rfl, rfl, rfl, rfl, rfl⟩
        (.inl rfl)
  · next at_ =>
      rw [← Option.some.inj hstep]
      exact hmoved (.arm at_)
  · next at_ =>
      split at hstep
      · rw [← Option.some.inj hstep]
        exact hmoved (.gone (.inl at_))
      · rw [← Option.some.inj hstep]
        exact hmoved (.recheck at_)
  · next at_ =>
      split at hstep
      · rw [← Option.some.inj hstep]
        exact hmoved (.current at_)
      · rw [← Option.some.inj hstep]
        exact hmoved (.gone (.inr at_))
  · next at_ =>
      split at hstep
      · next hcompleted =>
          rw [← Option.some.inj hstep]
          exact hmoved (.late at_ hcompleted)
      · next hopen =>
          split at hstep
          · rw [← Option.some.inj hstep]
            exact hmoved (.refused at_)
          · have hfalse := Bool.eq_false_of_not_eq_true hopen
            rw [← Option.some.inj hstep]
            exact .moved r req _ true hr (.asked at_ hfalse) (.asked at_ hfalse rfl) rfl
              ⟨rfl, rfl, rfl, rfl, rfl⟩ (.inl rfl)
  · cases hstep

theorem tell_change (s : Plugin) {r : ℕ} {req : ResolveRequest} {outcome : Option Outcome}
    (hr : s.requests[r]? = some req) (at_ : req.completion = .deliver outcome) :
    Change s ((s.set_request r { req with completion := .release }).tell r req outcome) := by
  have htold : ∀ {s' : Plugin}, s'.requests = s.requests.set r { req with completion := .release } →
      SameQueue s s' → SameClients s s' → s'.told = s.told ∨ s'.told = s.told ++ [r] →
      Change s s' := by
    intro s' hrequests hsame hclients htold
    refine .moved r req _ false hr (.delivered outcome at_) (.same hclients) hrequests hsame ?_
    rcases htold with htold | htold
    · exact .inl htold
    · exact .inr ⟨htold, ⟨outcome, at_⟩, .inl rfl⟩
  have hsame : ∀ y ∈ s.sessions, ∃ x ∈ s.sessions, y.manager = x.manager := fun y hy => ⟨y, hy, rfl⟩
  unfold tell
  split
  · exact htold rfl ⟨rfl, rfl, rfl, rfl, rfl⟩ ⟨rfl, rfl, rfl, rfl, hsame⟩ (.inl rfl)
  · exact htold rfl ⟨rfl, rfl, rfl, rfl, rfl⟩ ⟨rfl, rfl, rfl, rfl, hsame⟩ (.inr rfl)
  · dsimp only
    split
    · exact htold rfl ⟨rfl, rfl, rfl, rfl, rfl⟩ ⟨rfl, rfl, rfl, rfl, hsame⟩ (.inr rfl)
    · next service _ x hx =>
        have hmanagers := manager_set hx (DnsSdBrowseSession.manager_step
          (e := .service_resolved req.owner.instance_name req.owner.presence_generation service) rfl)
        exact htold rfl ⟨rfl, rfl, rfl, rfl, rfl⟩ ⟨rfl, rfl, rfl, rfl, hmanagers⟩ (.inr rfl)

/-- A step of a request's answer, as a change. -/
theorem finish_change {s s' : Plugin} {r : ℕ} {req : ResolveRequest}
    (hr : s.requests[r]? = some req) (hwf : Wf req) (hstep : s.finish r req = some s') :
    Change s s' := by
  have hmoved : ∀ {req' : ResolveRequest}, Moved req false req' → Change s (s.set_request r req') :=
    moved_change hr
  unfold finish at hstep
  split at hstep
  · next outcome at_ =>
      split at hstep
      · next hcompleted =>
          rw [← Option.some.inj hstep]
          exact hmoved (.lost outcome at_ hcompleted)
      · next hopen =>
          rw [← Option.some.inj hstep]
          exact hmoved (.claimed outcome at_ (Bool.eq_false_of_not_eq_true hopen))
  · next outcome at_ =>
      rw [← Option.some.inj hstep]
      exact tell_change s hr at_
  · next at_ =>
      rw [← Option.some.inj hstep]
      refine .released r req _ hr (.completion at_) (fun _ => .inr rfl) (fun can_rotate hfail => ?_) rfl
      have hclaimed := (hwf.completion_claimed (by rw [at_]; rfl)).2
      rw [hfail] at hclaimed
      cases hclaimed
  · cases hstep

/-- A step of a request's watchdog, as a change. -/
theorem recover_change {s s' : Plugin} {r : ℕ} {req : ResolveRequest} {refused : Bool}
    (hr : s.requests[r]? = some req) (hstep : s.recover r req refused = some s') :
    Change s s' := by
  have hmoved : ∀ {req' : ResolveRequest}, Moved req false req' → Change s (s.set_request r req') :=
    moved_change hr
  -- the two steps that make and install a client change more than the request
  have hspecial : ∀ {s' : Plugin} {req' : ResolveRequest}, Moved req true req' →
      ClientStep s s' r req true req' → s'.requests = s.requests.set r req' → SameQueue s s' →
      s'.told = s.told → Change s s' := fun hmoved hclients hrequests hsame htold =>
    .moved r req _ true hr hmoved hclients hrequests hsame (.inl htold)
  unfold recover at hstep
  split at hstep
  · next at_ =>
      split at hstep
      · next hcompleted =>
          rw [← Option.some.inj hstep]
          exact hmoved (.abandoned_late at_ hcompleted)
      · next hopen =>
          rw [← Option.some.inj hstep]
          exact hmoved (.abandoned at_ (Bool.eq_false_of_not_eq_true hopen))
  · next at_ =>
      split at hstep
      · next hroom =>
          split at hstep
          · rw [← Option.some.inj hstep]
            exact hmoved (.unmade true at_)
          · rw [← Option.some.inj hstep]
            exact hspecial (.made _ at_) (.made at_ hroom rfl) rfl ⟨rfl, rfl, rfl, rfl, rfl⟩ rfl
      · rw [← Option.some.inj hstep]
        exact hmoved (.unmade false at_)
  · next can_rotate replacement at_ =>
      split at hstep
      · rw [← Option.some.inj hstep]
        exact hmoved (.failed can_rotate _ at_)
      · split at hstep
        · next hmanager =>
            rw [← Option.some.inj hstep]
            exact hspecial (.installed can_rotate _ at_) (.installed can_rotate _ at_ hmanager rfl) rfl
              ⟨rfl, rfl, rfl, rfl, rfl⟩ rfl
        · rw [← Option.some.inj hstep]
          exact hmoved (.failed can_rotate _ at_)
  · next can_rotate at_ =>
      rw [← Option.some.inj hstep]
      exact .failed r req can_rotate hr at_ rfl
  · next at_ =>
      rw [← Option.some.inj hstep]
      refine .released r req _ hr (.watchdog (.inl at_)) id (fun can_rotate hfail => ?_) rfl
      rw [at_] at hfail
      cases hfail
  · cases hstep

/-- A step outside the queue leaves it alone. -/
theorem step_around {s s' : Plugin} {l : Label} (hl : l.outside = true)
    (hstep : s.step l = some s') : Around s s' := by
  have hsame : ∀ y ∈ s.sessions, y.manager < s.next_client ∨ ∃ x ∈ s.sessions, y.manager = x.manager :=
    fun y hy => .inr ⟨y, hy, rfl⟩
  cases l with
  | browse_start service_type manager refused =>
      change s.browse_start service_type manager refused = some s' at hstep
      unfold browse_start at hstep
      split at hstep
      · cases hstep
      · next hmanager =>
          split at hstep
          · rw [← Option.some.inj hstep]
            exact ⟨rfl, List.Sublist.refl _, rfl, rfl, rfl, rfl, rfl, rfl, rfl, rfl, hsame,
              fun _ hmem => .inl hmem⟩
          · rw [← Option.some.inj hstep]
            refine ⟨rfl, List.Sublist.refl _, rfl, rfl, rfl, rfl, rfl, rfl, rfl, rfl, fun y hy => ?_,
              fun _ hmem => .inl hmem⟩
            rcases mem_concat_cases hy with hmem | rfl
            · exact hsame y hmem
            · exact .inl (Nat.lt_of_not_le hmanager)
  | session i e =>
      change s.session_event i e = some s' at hstep
      unfold session_event at hstep
      split at hstep
      all_goals first
        | contradiction
        | exact session_step_around hstep
  | service_found i name =>
      obtain ⟨x, hx, rfl⟩ := Option.map_eq_some_iff.mp hstep
      have hmanagers := manager_set hx (DnsSdBrowseSession.manager_step (e := .service_found name) rfl)
      unfold service_found
      split
      · exact ⟨rfl, List.Sublist.refl _, rfl, rfl, rfl, rfl, rfl, rfl, rfl, rfl, hsame,
          fun _ hmem => .inl hmem⟩
      · next generation y hfound =>
          rw [hfound] at hmanagers
          refine ⟨rfl, List.Sublist.refl _, rfl, rfl, rfl, rfl, rfl, rfl, rfl, rfl,
            fun z hz => .inr (hmanagers z hz), fun req hmem => ?_⟩
          rcases mem_concat_cases hmem with hmem | rfl
          · exact .inl hmem
          · exact .inr ⟨⟨rfl, rfl, rfl, rfl, rfl⟩, x, hx, rfl, rfl, y, hfound, getElem?_set_self hx⟩
  | service_lost i name =>
      obtain ⟨x, hx, rfl⟩ := Option.map_eq_some_iff.mp hstep
      have hmanagers := manager_set hx (DnsSdBrowseSession.manager_step (e := .service_lost name) rfl)
      unfold service_lost
      split
      · next y hlost =>
          rw [hlost] at hmanagers
          exact ⟨rfl, List.Sublist.refl _, rfl, rfl, rfl, rfl, rfl, rfl, rfl, rfl,
            fun z hz => .inr (hmanagers z hz), fun _ hmem => .inl hmem⟩
      · next generation y hlost =>
          rw [hlost] at hmanagers
          exact ⟨rfl, List.Sublist.refl _, rfl, rfl, rfl, rfl, rfl, rfl, rfl, rfl,
            fun z hz => .inr (hmanagers z hz), fun _ hmem => .inl hmem⟩
  | fail_session thrown =>
      change s.fail_session thrown = some s' at hstep
      unfold fail_session at hstep
      split at hstep
      · cases hstep
      · exact { session_step_around hstep with }
  | retire call =>
      obtain ⟨owner, _, rfl⟩ := Option.map_eq_some_iff.mp hstep
      exact ⟨rfl, List.filter_sublist, rfl, rfl, rfl, rfl, rfl, rfl, rfl, rfl, hsame,
        fun _ hmem => .inl hmem⟩
  | _ => cases hl

/-- Every step is a change. -/
theorem step_change {s s' : Plugin} {l : Label} (hwf : ∀ (r : ℕ) (req : ResolveRequest),
    s.requests[r]? = some req → Wf req) (hstep : s.step l = some s') : Change s s' := by
  by_cases hl : l.outside = true
  · exact .around (step_around hl hstep)
  cases l with
  | enqueue call =>
      obtain ⟨request, hcall, rfl⟩ := Option.map_eq_some_iff.mp hstep
      exact .enqueued request (List.mem_of_getElem? hcall)
        ⟨rfl, rfl, rfl, rfl, fun y hy => ⟨y, hy, rfl⟩⟩ rfl rfl rfl rfl rfl rfl fun _ hmem =>
        List.mem_of_mem_eraseIdx hmem
  | drain =>
      change s.drain = some s' at hstep
      unfold drain at hstep
      split at hstep
      · cases hstep
      · next hdrains =>
          split at hstep
          · next hqueue =>
              rw [← Option.some.inj hstep]
              exact .drained hdrains hqueue rfl
          · next r rest hqueue =>
              obtain ⟨req, hr, rfl⟩ := Option.map_eq_some_iff.mp hstep
              exact .taken r rest req hdrains hqueue hr rfl
  | help r refused =>
      obtain ⟨req, hr, hstep⟩ := Option.bind_eq_some_iff.mp hstep
      exact help_change hr hstep
  | answer r outcome =>
      obtain ⟨req, hr, hstep⟩ := Option.bind_eq_some_iff.mp hstep
      unfold answer at hstep
      split at hstep
      · next m at_ =>
          rw [← Option.some.inj hstep]
          exact moved_change hr (.answered m outcome at_)
      · cases hstep
  | finish r =>
      obtain ⟨req, hr, hstep⟩ := Option.bind_eq_some_iff.mp hstep
      exact finish_change hr (hwf r req hr) hstep
  | expire r =>
      obtain ⟨req, hr, hstep⟩ := Option.bind_eq_some_iff.mp hstep
      unfold expire at hstep
      split at hstep
      · next at_ =>
          rw [← Option.some.inj hstep]
          exact moved_change hr (.expired at_)
      · cases hstep
  | recover r refused =>
      obtain ⟨req, hr, hstep⟩ := Option.bind_eq_some_iff.mp hstep
      exact recover_change hr hstep
  | _ => exact absurd rfl hl

/-! ## One at a time -/

/-- `active_resolve` is the request that somebody holds. While the queue is served there is one
such request or one thread in front of the loop, and not both; only then does a request wait. -/
structure Turns (s : Plugin) : Prop where
  wf : ∀ (r : ℕ) (req : ResolveRequest), s.requests[r]? = some req → Wf req
  held : Held holding s.active_resolve s.requests
  token : s.drains + s.active_resolve.isSome.toNat = s.resolve_in_progress.toNat
  waiting : ∀ r ∈ s.resolve_queue, ∃ req, s.requests[r]? = some req ∧ req.helper = .waiting
  nodup : s.resolve_queue.Nodup
  served : s.resolve_queue ≠ [] → s.resolve_in_progress = true
  arriving : ∀ req ∈ s.arriving, req.Fresh
  told : ∀ r ∈ s.told, ∃ req, s.requests[r]? = some req ∧ req.Told
  told_once : s.told.Nodup

theorem turns_start : Turns {} where
  wf _ _ hr := by
    rw [List.getElem?_nil] at hr
    cases hr
  held := held_nil holding
  token := rfl
  waiting _ hmem := absurd hmem List.not_mem_nil
  nodup := List.nodup_nil
  served hne := absurd rfl hne
  arriving _ hmem := absurd hmem List.not_mem_nil
  told _ hmem := absurd hmem List.not_mem_nil
  told_once := List.nodup_nil

section Turns

variable {s s' : Plugin} {r : ℕ} {req req' : ResolveRequest} {client : Bool}

theorem wf_set (h : Turns s) (hwf : Wf req') :
    ∀ (j : ℕ) (c : ResolveRequest), (s.requests.set r req')[j]? = some c → Wf c := by
  intro j c hj
  rcases getElem?_set_cases hj with ⟨_, rfl⟩ | ⟨_, hj⟩
  · exact hwf
  · exact h.wf j c hj

/-- A request that does not wait moves: those that wait are where they were. -/
theorem waiting_set (h : Turns s) (hr : s.requests[r]? = some req) (hne : req.helper ≠ .waiting) :
    ∀ j ∈ s.resolve_queue, ∃ c, (s.requests.set r req')[j]? = some c ∧ c.helper = .waiting := by
  intro j hj
  obtain ⟨c, hc, hwaiting⟩ := h.waiting j hj
  have hjr : r ≠ j := by
    rintro rfl
    rw [hr] at hc
    rw [Option.some.inj hc] at hne
    exact hne hwaiting
  exact ⟨c, by rw [List.getElem?_set_ne hjr]; exact hc, hwaiting⟩

theorem told_set (h : Turns s) (hr : s.requests[r]? = some req) (htold : req.Told → req'.Told) :
    ∀ j ∈ s.told, ∃ c, (s.requests.set r req')[j]? = some c ∧ c.Told := by
  intro j hj
  obtain ⟨c, hc, hctold⟩ := h.told j hj
  by_cases hjr : r = j
  · subst hjr
    rw [hr] at hc
    rw [← Option.some.inj hc] at hctold
    exact ⟨req', getElem?_set_self hr, htold hctold⟩
  · exact ⟨c, by rw [List.getElem?_set_ne hjr]; exact hc, hctold⟩

/-- A step outside the queue keeps the turns. -/
theorem Turns.around (h : Turns s) (haround : Around s s') : Turns s' where
  wf := by
    rw [haround.requests]
    exact h.wf
  held := by
    rw [haround.requests, haround.active]
    exact h.held
  token := by
    rw [haround.drains, haround.active, haround.in_progress]
    exact h.token
  waiting r hmem := by
    rw [haround.requests]
    exact h.waiting r (haround.queue.subset hmem)
  nodup := h.nodup.sublist haround.queue
  served hne := by
    rw [haround.in_progress]
    apply h.served
    intro hnil
    apply hne
    have hsub := haround.queue
    rw [hnil] at hsub
    exact List.eq_nil_of_sublist_nil hsub
  arriving req hmem := by
    rcases haround.arriving req hmem with hmem | ⟨hfresh, _⟩
    · exact h.arriving req hmem
    · exact hfresh
  told := by
    rw [haround.told, haround.requests]
    exact h.told
  told_once := by
    rw [haround.told]
    exact h.told_once

/-- Nobody holds a request while a thread is in front of the loop. -/
theorem Turns.idle (h : Turns s) (hdrains : s.drains ≠ 0) :
    s.active_resolve = none ∧ s.resolve_in_progress = true ∧ s.drains = 1 := by
  have htoken := h.token
  have hone := Bool.toNat_le s.resolve_in_progress
  rcases hactive : s.active_resolve with _ | r
  · rw [hactive, Option.isSome_none, Bool.toNat_false] at htoken
    refine ⟨rfl, ?_, by omega⟩
    rcases hprogress : s.resolve_in_progress with _ | _
    · rw [hprogress, Bool.toNat_false] at htoken
      omega
    · rfl
  · rw [hactive, Option.isSome_some, Bool.toNat_true] at htoken
    omega

/-- No thread is in front of the loop while somebody holds a request. -/
theorem Turns.busy (h : Turns s) (hr : s.requests[r]? = some req) (hin : req.holding = true) :
    s.active_resolve = some r ∧ s.resolve_in_progress = true ∧ s.drains = 0 := by
  have htoken := h.token
  have hone := Bool.toNat_le s.resolve_in_progress
  have hactive := (h.held.owns r req hr).mp hin
  rw [hactive, Option.isSome_some, Bool.toNat_true] at htoken
  refine ⟨hactive, ?_, by omega⟩
  rcases hprogress : s.resolve_in_progress with _ | _
  · rw [hprogress, Bool.toNat_false] at htoken
    omega
  · rfl

/-- A request joins the queue, and starts a drain when none is going. -/
theorem Turns.enqueued (h : Turns s) {request : ResolveRequest} (hmem : request ∈ s.arriving)
    (hrequests : s'.requests = s.requests ++ [request])
    (hqueue : s'.resolve_queue = s.resolve_queue ++ [s.requests.length])
    (hprogress : s'.resolve_in_progress = true) (hactive : s'.active_resolve = s.active_resolve)
    (hdrains : s'.drains = if s.resolve_in_progress then s.drains else s.drains + 1)
    (htold : s'.told = s.told) (harriving : ∀ req ∈ s'.arriving, req ∈ s.arriving) : Turns s' := by
  have hfresh := h.arriving request hmem
  have hkeep : ∀ {j : ℕ} {c : ResolveRequest}, s.requests[j]? = some c →
      (s.requests ++ [request])[j]? = some c := fun hj => by
    rw [List.getElem?_append_left (lt_of_getElem? hj)]
    exact hj
  refine ⟨?_, ?_, ?_, ?_, ?_, fun _ => hprogress, fun req hreq => h.arriving req (harriving req hreq),
    ?_, ?_⟩
  · rw [hrequests]
    intro j c hj
    rcases getElem?_concat_cases hj with ⟨_, rfl⟩ | hj
    · exact hfresh.wf.1
    · exact h.wf j c hj
  · rw [hrequests, hactive]
    exact h.held.add hfresh.wf.2
  -- a drain is started only where none was going, so there is still one token
  · have htoken := h.token
    rw [hdrains, hactive, hprogress]
    split
    · next hold =>
        rw [hold] at htoken
        exact htoken
    · next hnew =>
        rw [Bool.eq_false_of_not_eq_true hnew, Bool.toNat_false] at htoken
        rw [Bool.toNat_true]
        omega
  · rw [hqueue, hrequests]
    intro j hj
    rcases mem_concat_cases hj with hj | rfl
    · obtain ⟨c, hc, hwaiting⟩ := h.waiting j hj
      exact ⟨c, hkeep hc, hwaiting⟩
    · exact ⟨request, List.getElem?_concat_length, hfresh.1⟩
  · rw [hqueue, List.nodup_append]
    refine ⟨h.nodup, List.nodup_singleton _, ?_⟩
    rintro a ha b hb rfl
    obtain ⟨c, hc, _⟩ := h.waiting a ha
    have hlt := lt_of_getElem? hc
    rw [List.mem_singleton.mp hb] at hlt
    omega
  · rw [htold, hrequests]
    intro j hj
    obtain ⟨c, hc, hctold⟩ := h.told j hj
    exact ⟨c, hkeep hc, hctold⟩
  · rw [htold]
    exact h.told_once

/-- A drain finds nothing, and ends. -/
theorem Turns.drained (h : Turns s) (hdrains : s.drains ≠ 0) (hqueue : s.resolve_queue = []) :
    Turns { s with
      active_resolve := none, resolve_in_progress := false, drains := s.drains - 1 } := by
  obtain ⟨hactive, _, hone⟩ := h.idle hdrains
  exact { h with
    held := hactive ▸ h.held
    token := by rw [hone]; rfl
    served := fun hne => absurd hqueue hne }

/-- A drain takes the head of the queue. -/
theorem Turns.taken (h : Turns s) {rest : List ℕ} (hdrains : s.drains ≠ 0)
    (hqueue : s.resolve_queue = r :: rest) (hr : s.requests[r]? = some req) :
    Turns { s.set_request r { req with helper := .check } with
      resolve_queue := rest, active_resolve := some r, drains := s.drains - 1 } := by
  -- a drain that is due finds nobody holding the queue
  obtain ⟨hactive, hprogress, hone⟩ := h.idle hdrains
  have hheld := h.held
  rw [hactive] at hheld
  have hnodup := h.nodup
  rw [hqueue, List.nodup_cons] at hnodup
  -- who waits in the queue has not begun, so nothing of it is claimed
  have hwaiting : req.helper = .waiting := by
    obtain ⟨c, hc, hwaiting⟩ := h.waiting r (by rw [hqueue]; exact List.mem_cons_self)
    rw [hr] at hc
    rw [Option.some.inj hc]
    exact hwaiting
  obtain ⟨hopen, hnative, hcompletion, hwatchdog⟩ := (h.wf r req hr).fresh (by rw [hwaiting]; rfl)
  refine {
    wf := wf_set h ?_
    held := hheld.acquire hr ?_
    token := ?_
    waiting := fun j hj => ?_
    nodup := hnodup.2
    served := fun _ => hprogress
    arriving := h.arriving
    told := told_set h hr id
    told_once := h.told_once }
  · refine ⟨?_, ?_, fun _ => ⟨hopen, hnative, hcompletion, hwatchdog⟩, ?_, ?_, ?_, ?_⟩
    · intro hclaimed
      rw [hcompletion] at hclaimed
      cases hclaimed
    · intro hclaimed
      rw [hwatchdog] at hclaimed
      cases hclaimed
    · intro hno
      cases hno
    · intro m hm
      rw [hnative] at hm
      cases hm
    · intro outcome hno
      rw [hcompletion] at hno
      cases hno
    · intro hno
      cases hno
  · rw [holding, hopen]
    rfl
  · change s.drains - 1 + true.toNat = s.resolve_in_progress.toNat
    rw [hone, hprogress]
    rfl
  · obtain ⟨c, hc, hcwaiting⟩ := h.waiting j (by rw [hqueue]; exact List.mem_cons_of_mem r hj)
    have hjr : r ≠ j := by
      rintro rfl
      exact hnodup.1 hj
    exact ⟨c, by rw [set_request, List.getElem?_set_ne hjr]; exact hc, hcwaiting⟩

/-- A request's own step keeps the turns. -/
theorem Turns.moved (h : Turns s) (hr : s.requests[r]? = some req) (hmoved : Moved req client req')
    (hrequests : s'.requests = s.requests.set r req') (hsame : SameQueue s s')
    (htold : s'.told = s.told ∨
      s'.told = s.told ++ [r] ∧ (∃ outcome, req.completion = .deliver outcome) ∧ req'.Told) :
    Turns s' := by
  have hwf := h.wf r req hr
  have hkept := told_set h hr (hmoved.told hwf)
  refine ⟨?_, ?_, ?_, ?_, ?_, ?_, ?_, ?_, ?_⟩
  · rw [hrequests]
    exact wf_set h (hmoved.wf hwf)
  · rw [hrequests, hsame.active]
    exact h.held.keep hr (hmoved.holding_eq hwf)
  · rw [hsame.drains, hsame.active, hsame.in_progress]
    exact h.token
  · rw [hsame.queue, hrequests]
    exact waiting_set h hr (hmoved.not_waiting hwf)
  · rw [hsame.queue]
    exact h.nodup
  · rw [hsame.queue, hsame.in_progress]
    exact h.served
  · rw [hsame.arriving]
    exact h.arriving
  · rw [hrequests]
    rcases htold with heq | ⟨heq, _, hnow⟩
    · rw [heq]
      exact hkept
    · rw [heq]
      intro j hj
      rcases mem_concat_cases hj with hj | rfl
      · exact hkept j hj
      · exact ⟨req', getElem?_set_self hr, hnow⟩
  · rcases htold with heq | ⟨heq, ⟨outcome, hdeliver⟩, _⟩
    · rw [heq]
      exact h.told_once
    · rw [heq, List.nodup_append]
      refine ⟨h.told_once, List.nodup_singleton r, ?_⟩
      rintro a ha b hb rfl
      rw [List.mem_singleton.mp hb] at ha
      -- its listener is called now, so it has not been before
      obtain ⟨c, hc, hctold⟩ := h.told r ha
      rw [hr] at hc
      rw [← Option.some.inj hc] at hctold
      rcases hctold with hctold | hctold <;> rw [hdeliver] at hctold <;> cases hctold

/-- A request that is done releases the queue to the next drain. -/
theorem Turns.released (h : Turns s) (hr : s.requests[r]? = some req)
    (hreleased : Released req req') (htold : req.Told → req'.Told) : Turns (s.release r req') := by
  have hwf := h.wf r req hr
  obtain ⟨hin, hout, hne⟩ := hreleased.holding hwf
  obtain ⟨hactive, hprogress, hzero⟩ := h.busy hr hin
  have hnone : (s.release r req').active_resolve = none := if_pos hactive
  exact {
    wf := wf_set h (hreleased.wf hwf)
    held := by
      rw [hnone]
      exact h.held.release hr hin hout
    token := by
      rw [hnone, release, hzero]
      exact congrArg Bool.toNat hprogress.symm
    waiting := waiting_set h hr hne
    nodup := h.nodup
    served := h.served
    arriving := h.arriving
    told := told_set h hr htold
    told_once := h.told_once }

/-- A resolver that fails clears the queue. -/
theorem Turns.failed (h : Turns s) {can_rotate : Bool} (hr : s.requests[r]? = some req)
    (hwatchdog : req.watchdog = .fail can_rotate) (message : String) :
    Turns ((s.set_request r { req with watchdog := .ended }).fail_resolver message) := by
  have hwf := h.wf r req hr
  have hreleased : Released req { req with watchdog := .ended } :=
    .watchdog (.inr ⟨can_rotate, hwatchdog⟩)
  obtain ⟨hin, hout, hne⟩ := hreleased.holding hwf
  obtain ⟨_, _, hzero⟩ := h.busy hr hin
  exact {
    wf := wf_set h (hreleased.wf hwf)
    held := h.held.release hr hin hout
    token := by
      rw [fail_resolver, set_request, hzero]
      rfl
    waiting := fun _ hmem => absurd hmem List.not_mem_nil
    nodup := List.nodup_nil
    served := fun hno => absurd rfl hno
    arriving := h.arriving
    told := told_set h hr id
    told_once := h.told_once }

/-- What one step keeps of the turns. -/
theorem turns_step {l : Label} (h : Turns s) (hstep : s.step l = some s') : Turns s' := by
  cases step_change h.wf hstep with
  | around haround => exact h.around haround
  | enqueued request mem clients requests queue in_progress active drains told arriving =>
      exact h.enqueued mem requests queue in_progress active drains told arriving
  | drained drains queue eq =>
      rw [eq]
      exact h.drained drains queue
  | taken r rest req drains queue at_ eq =>
      rw [eq]
      exact h.taken drains queue at_
  | moved r req req' client at_ moved clients requests same told =>
      exact h.moved at_ moved requests same told
  | released r req req' at_ released told fail eq =>
      rw [eq]
      exact h.released at_ released told
  | failed r req can_rotate at_ watchdog eq =>
      rw [eq]
      exact h.failed at_ watchdog _

/-! ### Nothing stalls -/

/-- A drain that is due can run. -/
theorem own_drain (h : Turns s) (hdrains : s.drains ≠ 0) :
    ∃ l s', l.own = true ∧ s.step l = some s' := by
  have hsome : ∃ s', s.drain = some s' := by
    rw [drain, if_neg hdrains]
    rcases hqueue : s.resolve_queue with _ | ⟨r, rest⟩
    · exact ⟨_, rfl⟩
    · obtain ⟨req, hr, _⟩ := h.waiting r (by rw [hqueue]; exact List.mem_cons_self)
      exact ⟨_, Option.map_eq_some_iff.mpr ⟨req, hr, rfl⟩⟩
  obtain ⟨s', hs'⟩ := hsome
  exact ⟨.drain, s', rfl, hs'⟩

/-- A helper that is not done can go on. -/
theorem own_help (hr : s.requests[r]? = some req)
    (hhelper : req.helper ≠ .waiting ∧ req.helper ≠ .ended) :
    ∃ l s', l.own = true ∧ s.step l = some s' := by
  have hsome : ∃ s', s.help r req false = some s' := by
    unfold help
    split
    · exact ⟨_, rfl⟩
    · exact ⟨_, rfl⟩
    · exact ⟨_, rfl⟩
    · exact ⟨_, rfl⟩
    · split
      · exact ⟨_, rfl⟩
      · exact ⟨_, rfl⟩
    · split
      · exact ⟨_, rfl⟩
      · exact ⟨_, rfl⟩
    · split
      · exact ⟨_, rfl⟩
      · exact ⟨_, rfl⟩
    · next hcheck hskip hchoose harm hrecheck howner hdispatch =>
        rcases hplace : req.helper with _ | _ | _ | _ | _ | _ | _ | _ | _
        all_goals simp_all
  obtain ⟨s', hs'⟩ := hsome
  refine ⟨.help r false, s', rfl, ?_⟩
  rw [step, hr]
  exact hs'

/-- An answer that is due can be given. -/
theorem own_finish (hr : s.requests[r]? = some req)
    (hcompletion : req.completion.claimed = true ∨ ∃ outcome, req.completion = .complete outcome) :
    ∃ l s', l.own = true ∧ s.step l = some s' := by
  have hsome : ∃ s', s.finish r req = some s' := by
    unfold finish
    rcases hplace : req.completion with _ | outcome | outcome | _ | _
    · rw [hplace] at hcompletion
      rcases hcompletion with hclaimed | ⟨outcome, hcomplete⟩
      · cases hclaimed
      · cases hcomplete
    · dsimp only
      split
      · exact ⟨_, rfl⟩
      · exact ⟨_, rfl⟩
    · exact ⟨_, rfl⟩
    · exact ⟨_, rfl⟩
    · rw [hplace] at hcompletion
      rcases hcompletion with hclaimed | ⟨outcome, hcomplete⟩
      · cases hclaimed
      · cases hcomplete
  obtain ⟨s', hs'⟩ := hsome
  refine ⟨.finish r, s', rfl, ?_⟩
  rw [step, hr]
  exact hs'

/-- A watchdog that is due can go on. -/
theorem own_watchdog (hr : s.requests[r]? = some req)
    (hwatchdog : req.watchdog.claimed = true ∨ req.watchdog.pending = true) :
    ∃ l s', l.own = true ∧ s.step l = some s' := by
  by_cases harmed : req.watchdog = .armed
  · refine ⟨.expire r, s.set_request r
      { req with watchdog := if req.completed then .ended else .abandon }, rfl, ?_⟩
    rw [step, hr, Option.bind_some, expire, harmed]
  · have hsome : ∃ s', s.recover r req false = some s' := by
      unfold recover
      split
      · split
        · exact ⟨_, rfl⟩
        · exact ⟨_, rfl⟩
      · split
        · exact ⟨_, rfl⟩
        · exact ⟨_, rfl⟩
      · split
        · exact ⟨_, rfl⟩
        · split
          · exact ⟨_, rfl⟩
          · exact ⟨_, rfl⟩
      · exact ⟨_, rfl⟩
      · exact ⟨_, rfl⟩
      · next habandon hrecover hinstall hfail hrelease =>
          -- the places that are left have no step of their own, and are neither claimed nor pending
          exfalso
          rcases hplace : req.watchdog with _ | _ | _ | _ | ⟨can_rotate, replacement⟩ | can_rotate | _ | _
          all_goals simp_all [Watchdog.claimed, Watchdog.pending]
    obtain ⟨s', hs'⟩ := hsome
    refine ⟨.recover r false, s', rfl, ?_⟩
    rw [step, hr]
    exact hs'

/-- While the queue is served, some thread of the plugin can go on, whatever the platform does. -/
theorem Turns.moves (h : Turns s) (hprogress : s.resolve_in_progress = true) :
    ∃ l s', l.own = true ∧ s.step l = some s' := by
  rcases hactive : s.active_resolve with _ | r
  · have htoken := h.token
    rw [hactive, hprogress, Option.isSome_none, Bool.toNat_false, Bool.toNat_true] at htoken
    exact own_drain h (by omega)
  · have hlt := h.held.bound r hactive
    have hr : s.requests[r]? = some s.requests[r] := List.getElem?_eq_getElem hlt
    have hin := (h.held.owns r _ hr).mpr hactive
    have hwf := h.wf r _ hr
    generalize s.requests[r] = req at hr hin hwf
    rw [holding, Bool.or_eq_true, Bool.or_eq_true, Bool.and_eq_true, bne_iff_ne,
      Bool.not_eq_true'] at hin
    rcases hin with (⟨hwaiting, hopen⟩ | hcompletion) | hwatchdog
    · by_cases hended : req.helper = .ended
      · -- the platform or the thread that has its end; the watchdog goes off without the platform
        rcases hwf.moving hended hopen with ⟨m, hm⟩ | hcomplete
        · exact own_watchdog hr (.inr ((hwf.unanswered m hm).2.2.2 hopen))
        · exact own_finish hr (.inr hcomplete)
      · exact own_help hr ⟨hwaiting, hended⟩
    · exact own_finish hr (.inl hcompletion)
    · exact own_watchdog hr (.inl hwatchdog)

end Turns

/-! ## One resolve for each client -/

/-- How a request stands to the clients. A client that it has asked in vain is no longer in place
once the watchdog is through, except where the resolver has failed for good. -/
structure ClientOk (s : Plugin) (req : ResolveRequest) : Prop where
  bound : req.manager < s.next_client
  chosen : req.helper.chosen = true → req.completed = false →
    s.resolver_manager = some req.manager
  asked : ∀ m, req.native = .unanswered m → s.resolver_manager ≠ none
  abandoned : ∀ m, req.native = .unanswered m → req.completed = true →
    req.watchdog.rotating = false → s.resolver_manager = some m → s.resolver_terminal_error ≠ none
  replacement : ∀ can_rotate client, req.watchdog = .install can_rotate (some client) →
    client < s.next_client ∧ s.resolver_manager ≠ some client ∧
      s.resolver_rotation_count < MAX_RESOLVER_ROTATIONS

/-- The invariant of the clients: none is used before it is made, and while the resolver has not
failed for good at most one request is unanswered at a client. -/
structure Clients (s : Plugin) : Prop where
  resolver : ∀ m, s.resolver_manager = some m → m < s.next_client
  rotations : s.resolver_rotation_count ≤ MAX_RESOLVER_ROTATIONS
  sessions : ∀ x ∈ s.sessions, x.manager < s.next_client
  arriving : ∀ req ∈ s.arriving, req.manager < s.next_client
  ok : ∀ (r : ℕ) (req : ResolveRequest), s.requests[r]? = some req → ClientOk s req
  unused : ∀ (r j : ℕ) (req c : ResolveRequest) (can_rotate : Bool) (client : ℕ),
    s.requests[r]? = some req → s.requests[j]? = some c →
    req.watchdog = .install can_rotate (some client) → c.native ≠ .unanswered client
  distinct : s.resolver_terminal_error = none → ∀ (r j : ℕ) (req c : ResolveRequest) (m : ℕ),
    s.requests[r]? = some req → s.requests[j]? = some c → req.native = .unanswered m →
    c.native = .unanswered m → r = j

theorem clients_start : Clients {} := by
  have hnone : ∀ {r : ℕ} {req : ResolveRequest} {P : Prop},
      ([] : List ResolveRequest)[r]? = some req → P := by
    intro r req P hr
    rw [List.getElem?_nil] at hr
    cases hr
  exact {
    resolver := fun m hm => by cases hm
    rotations := Nat.zero_le _
    sessions := fun x hx => absurd hx List.not_mem_nil
    arriving := fun x hx => absurd hx List.not_mem_nil
    ok := fun r req hr => hnone hr
    unused := fun r j req c can_rotate client hr => hnone hr
    distinct := fun _ r j req c m hr => hnone hr }

section Clients

variable {s s' : Plugin} {r : ℕ} {req req' : ResolveRequest}

theorem plain_refl (req : ResolveRequest) : Plain req req :=
  ⟨rfl, fun _ hm => hm, fun hchosen hopen => ⟨hchosen, hopen⟩,
    fun _ _ hcompleted hrotating => ⟨hcompleted, hrotating⟩, fun _ _ h => h⟩

/-- A plain step keeps a request's client. -/
theorem ClientOk.plain (h : ClientOk s req) (hplain : Plain req req') : ClientOk s req' where
  bound := by
    rw [hplain.manager]
    exact h.bound
  chosen hchosen hopen := by
    rw [hplain.manager]
    obtain ⟨hchosen, hopen⟩ := hplain.chosen hchosen hopen
    exact h.chosen hchosen hopen
  asked m hm := h.asked m (hplain.native m hm)
  abandoned m hm hcompleted hrotating := by
    obtain ⟨hcompleted, hrotating⟩ := hplain.abandoned m hm hcompleted hrotating
    exact h.abandoned m (hplain.native m hm) hcompleted hrotating
  replacement can_rotate client hinstall :=
    h.replacement can_rotate client (hplain.install can_rotate client hinstall)

theorem ClientOk.same (h : ClientOk s req) (hmanager : s'.resolver_manager = s.resolver_manager)
    (hrotations : s'.resolver_rotation_count = s.resolver_rotation_count)
    (hterminal : s'.resolver_terminal_error = s.resolver_terminal_error)
    (hclient : s'.next_client = s.next_client) : ClientOk s' req where
  bound := by
    rw [hclient]
    exact h.bound
  chosen := by
    rw [hmanager]
    exact h.chosen
  asked := by
    rw [hmanager]
    exact h.asked
  abandoned := by
    rw [hmanager, hterminal]
    exact h.abandoned
  replacement := by
    rw [hmanager, hclient, hrotations]
    exact h.replacement

theorem client_ok_of_fresh (h : req.Fresh) (hbound : req.manager < s.next_client) :
    ClientOk s req where
  bound := hbound
  chosen hchosen := by
    rw [h.1] at hchosen
    cases hchosen
  asked m hm := by
    rw [h.2.2.1] at hm
    cases hm
  abandoned m hm := by
    rw [h.2.2.1] at hm
    cases hm
  replacement can_rotate client hinstall := by
    rw [h.2.2.2.2] at hinstall
    cases hinstall

/-- A step that leaves the clients alone, and whose requests are as before or fresh. -/
theorem Clients.plain (h : Clients s) (hmanager : s'.resolver_manager = s.resolver_manager)
    (hrotations : s'.resolver_rotation_count = s.resolver_rotation_count)
    (hterminal : s'.resolver_terminal_error = s.resolver_terminal_error)
    (hclient : s'.next_client = s.next_client)
    (hsessions : ∀ y ∈ s'.sessions, y.manager < s.next_client ∨ ∃ x ∈ s.sessions, y.manager = x.manager)
    (harriving : ∀ req ∈ s'.arriving, req.manager < s.next_client)
    (hplain : ∀ (j : ℕ) (c : ResolveRequest), s'.requests[j]? = some c →
      (∃ c₀, s.requests[j]? = some c₀ ∧ Plain c₀ c) ∨ c.Fresh ∧ c.manager < s.next_client) :
    Clients s' where
  resolver := by
    rw [hmanager, hclient]
    exact h.resolver
  rotations := by
    rw [hrotations]
    exact h.rotations
  sessions y hy := by
    rw [hclient]
    rcases hsessions y hy with hlt | ⟨x, hx, heq⟩
    · exact hlt
    · rw [heq]
      exact h.sessions x hx
  arriving := by
    rw [hclient]
    exact harriving
  ok j c hj := by
    have hok : ClientOk s c := by
      rcases hplain j c hj with ⟨c₀, hc₀, hplain⟩ | ⟨hfresh, hbound⟩
      · exact (h.ok j c₀ hc₀).plain hplain
      · exact client_ok_of_fresh hfresh hbound
    exact hok.same hmanager hrotations hterminal hclient
  unused i j b c can_rotate client hi hj hinstall hnative := by
    rcases hplain i b hi with ⟨b₀, hb₀, hb⟩ | ⟨hfresh, _⟩
    · rcases hplain j c hj with ⟨c₀, hc₀, hc⟩ | ⟨hfresh, _⟩
      · exact h.unused i j b₀ c₀ can_rotate client hb₀ hc₀ (hb.install _ _ hinstall)
          (hc.native client hnative)
      · rw [hfresh.2.2.1] at hnative
        cases hnative
    · rw [hfresh.2.2.2.2] at hinstall
      cases hinstall
  distinct hnone i j b c m hi hj hm hm' := by
    rw [hterminal] at hnone
    rcases hplain i b hi with ⟨b₀, hb₀, hb⟩ | ⟨hfresh, _⟩
    · rcases hplain j c hj with ⟨c₀, hc₀, hc⟩ | ⟨hfresh, _⟩
      · exact h.distinct hnone i j b₀ c₀ m hb₀ hc₀ (hb.native m hm) (hc.native m hm')
      · rw [hfresh.2.2.1] at hm'
        cases hm'
    · rw [hfresh.2.2.1] at hm
      cases hm

theorem plain_set (hr : s.requests[r]? = some req) (hplain : Plain req req') :
    ∀ (j : ℕ) (c : ResolveRequest), (s.requests.set r req')[j]? = some c →
      (∃ c₀, s.requests[j]? = some c₀ ∧ Plain c₀ c) ∨ c.Fresh ∧ c.manager < s.next_client := by
  intro j c hj
  rcases getElem?_set_cases hj with ⟨rfl, rfl⟩ | ⟨_, hj⟩
  · exact .inl ⟨req, hr, hplain⟩
  · exact .inl ⟨c, hj, plain_refl c⟩

/-- A request that has chosen its client, or whose watchdog is about to replace it, is held. -/
theorem holding_of_chosen (hchosen : req.helper.chosen = true) (hopen : req.completed = false) :
    req.holding = true := by
  rw [holding, hopen]
  rcases hhelper : req.helper with _ | _ | _ | _ | _ | _ | _ | _ | _
  all_goals
    rw [hhelper] at hchosen
    first
      | rfl
      | cases hchosen

theorem holding_of_rotating (hrotating : req.watchdog.rotating = true) : req.holding = true := by
  have hclaimed : req.watchdog.claimed = true := by
    rcases hwatchdog : req.watchdog with _ | _ | _ | _ | _ | _ | _ | _
    all_goals
      rw [hwatchdog] at hrotating
      first
        | rfl
        | cases hrotating
  rw [holding, hclaimed, Bool.or_true]

/-- A request takes the client that is there, or its session's. -/
theorem Clients.choose (h : Clients s) (ht : Turns s) (hr : s.requests[r]? = some req)
    (hhelper : req.helper = .choose) :
    Clients { s.set_request r
      { req with manager := s.resolver_manager.getD req.manager, helper := .arm } with
      resolver_manager := some (s.resolver_manager.getD req.manager) } := by
  obtain ⟨hopen, hnative, _, hwatchdog⟩ := (ht.wf r req hr).fresh (by rw [hhelper]; rfl)
  have hin : req.holding = true := by
    rw [holding, hhelper, hopen]
    rfl
  have hbound : s.resolver_manager.getD req.manager < s.next_client := by
    rcases hmanager : s.resolver_manager with _ | m
    · exact (h.ok r req hr).bound
    · exact h.resolver m hmanager
  -- the client in place stays, and where there was none no other request has one
  have hother : ∀ {j : ℕ} {c : ResolveRequest}, j ≠ r → s.requests[j]? = some c → ClientOk
      { s.set_request r { req with manager := s.resolver_manager.getD req.manager, helper := .arm } with
        resolver_manager := some (s.resolver_manager.getD req.manager) } c := by
    intro j c hne hj
    have hok := h.ok j c hj
    refine ⟨hok.bound, fun hchosen hcopen => ?_, fun m _ => Option.some_ne_none _,
      fun m hm hcompleted hrotating hnow => ?_, fun can_rotate client hinstall => ?_⟩
    · exact absurd (ht.held.only hr hin hj (holding_of_chosen hchosen hcopen)) hne
    · apply hok.abandoned m hm hcompleted hrotating
      rcases hmanager : s.resolver_manager with _ | m'
      · exact absurd hmanager (hok.asked m hm)
      · rw [hmanager] at hnow
        exact hnow
    · have hclaim : c.watchdog.rotating = true := by rw [hinstall]; rfl
      exact absurd (ht.held.only hr hin hj (holding_of_rotating hclaim)) hne
  refine {
    resolver := fun m hm => Option.some.inj hm ▸ hbound
    rotations := h.rotations
    sessions := h.sessions
    arriving := h.arriving
    ok := fun j c hj => ?_
    unused := fun i j b c can_rotate client hi hj hinstall => ?_
    distinct := fun hnone i j b c m hi hj hm hm' => ?_ }
  · rcases getElem?_set_cases hj with ⟨rfl, rfl⟩ | ⟨hne, hj⟩
    · refine ⟨hbound, fun _ _ => rfl, fun m _ => Option.some_ne_none _, fun m hm => ?_,
        fun can_rotate client hinstall => ?_⟩
      · change req.native = .unanswered m at hm
        rw [hnative] at hm
        cases hm
      · change req.watchdog = _ at hinstall
        rw [hwatchdog] at hinstall
        cases hinstall
    · exact hother hne hj
  · rcases getElem?_set_cases hi with ⟨rfl, rfl⟩ | ⟨_, hi⟩
    · change req.watchdog = _ at hinstall
      rw [hwatchdog] at hinstall
      cases hinstall
    · rcases getElem?_set_cases hj with ⟨rfl, rfl⟩ | ⟨_, hj⟩
      · change req.native ≠ _
        rw [hnative]
        exact fun hno => by cases hno
      · exact h.unused i j b c can_rotate client hi hj hinstall
  · have hback : ∀ {k : ℕ} {d : ResolveRequest}, d.native = .unanswered m →
        (s.requests.set r { req with
          manager := s.resolver_manager.getD req.manager, helper := .arm })[k]? = some d →
        s.requests[k]? = some d := by
      intro k d hd hk
      rcases getElem?_set_cases hk with ⟨rfl, rfl⟩ | ⟨_, hk⟩
      · change req.native = .unanswered m at hd
        rw [hnative] at hd
        cases hd
      · exact hk
    exact h.distinct hnone i j b c m (hback hm hi) (hback hm' hj) hm hm'

/-- A client is asked when no other resolve of it is unanswered. -/
theorem Clients.asked (h : Clients s) (ht : Turns s) (hr : s.requests[r]? = some req)
    (hhelper : req.helper = .dispatch) (hopen : req.completed = false) :
    Clients (s.set_request r { req with helper := .ended, native := .unanswered req.manager }) := by
  have hwf := ht.wf r req hr
  obtain ⟨hnative, _, hpending⟩ := hwf.underway (by rw [hhelper]; rfl)
  have hchosen : req.helper.chosen = true := by rw [hhelper]; rfl
  have hin := holding_of_chosen hchosen hopen
  have hmanager := (h.ok r req hr).chosen hchosen hopen
  -- an open request is not being given up, so its watchdog has not taken a client out
  have hwatchdog : req.watchdog.rotating = false := by
    by_contra hno
    have hclaimed := hpending hopen
    rcases hplace : req.watchdog with _ | _ | _ | _ | _ | _ | _ | _
    all_goals
      rw [hplace] at hno hclaimed
      first
        | exact hno rfl
        | cases hclaimed
  -- whoever is unanswered at this client holds the queue, and that is `r`
  have hfree : s.resolver_terminal_error = none → ∀ {j : ℕ} {c : ResolveRequest}, j ≠ r →
      s.requests[j]? = some c → c.native ≠ .unanswered req.manager := by
    intro hnone j c hne hj hm
    have hcwf := ht.wf j c hj
    have hended := (hcwf.unanswered _ hm).1
    have hheld : c.holding = true := by
      by_cases hcopen : c.completed = true
      · apply holding_of_rotating
        by_contra hrotating
        exact (h.ok j c hj).abandoned _ hm hcopen (Bool.eq_false_of_not_eq_true hrotating) hmanager
          hnone
      · exact holding_of_chosen (by rw [hended]; rfl) (Bool.eq_false_of_not_eq_true hcopen)
    exact hne (ht.held.only hr hin hj hheld)
  refine {
    resolver := h.resolver
    rotations := h.rotations
    sessions := h.sessions
    arriving := h.arriving
    ok := fun j c hj => ?_
    unused := fun i j b c can_rotate client hi hj hinstall => ?_
    distinct := fun hnone i j b c m hi hj hm hm' => ?_ }
  · rcases getElem?_set_cases hj with ⟨rfl, rfl⟩ | ⟨hne, hj⟩
    · have hok := h.ok j req hr
      refine ⟨hok.bound, fun _ _ => hmanager, fun m _ => ?_, fun m _ hcompleted => ?_, hok.replacement⟩
      · rw [set_request, hmanager]
        exact Option.some_ne_none _
      · change req.completed = true at hcompleted
        rw [hopen] at hcompleted
        cases hcompleted
    · exact (h.ok j c hj).same rfl rfl rfl rfl
  · rcases getElem?_set_cases hi with ⟨rfl, rfl⟩ | ⟨hne, hi⟩
    · change req.watchdog = _ at hinstall
      rw [hinstall] at hwatchdog
      cases hwatchdog
    · have hclaim : b.watchdog.rotating = true := by rw [hinstall]; rfl
      exact absurd (ht.held.only hr hin hi (holding_of_rotating hclaim)) hne
  · rcases getElem?_set_cases hi with ⟨rfl, rfl⟩ | ⟨hine, hib⟩
    · rcases getElem?_set_cases hj with ⟨rfl, rfl⟩ | ⟨hjne, hjc⟩
      · rfl
      · rw [← Native.unanswered.inj hm] at hm'
        exact absurd hm' (hfree hnone hjne hjc)
    · rcases getElem?_set_cases hj with ⟨rfl, rfl⟩ | ⟨hjne, hjc⟩
      · rw [← Native.unanswered.inj hm'] at hm
        exact absurd hm (hfree hnone hine hib)
      · exact h.distinct hnone i j b c m hib hjc hm hm'

/-- The watchdog makes a fresh client. -/
theorem Clients.made (h : Clients s) (ht : Turns s) (hr : s.requests[r]? = some req)
    (hwatchdog : req.watchdog = .recover)
    (hroom : s.resolver_rotation_count < MAX_RESOLVER_ROTATIONS) :
    Clients { s.set_request r { req with watchdog := .install true (some s.next_client) } with
      next_client := s.next_client + 1 } := by
  have hcompleted : req.completed = true :=
    (ht.wf r req hr).watchdog_claimed (by rw [hwatchdog]; rfl)
  -- a client that has just been made is no request's
  have hnew : ∀ {j : ℕ} {c : ResolveRequest}, s.requests[j]? = some c →
      c.native ≠ .unanswered s.next_client := by
    intro j c hj hm
    have hlt := (h.ok j c hj).bound
    rw [← ((ht.wf j c hj).unanswered _ hm).2.2.1] at hlt
    exact absurd hlt (Nat.lt_irrefl _)
  have hnative : ∀ {j : ℕ} {c : ResolveRequest},
      (s.requests.set r { req with watchdog := .install true (some s.next_client) })[j]? = some c →
      ∃ c₀, s.requests[j]? = some c₀ ∧ c₀.native = c.native := by
    intro j c hj
    rcases getElem?_set_cases hj with ⟨rfl, rfl⟩ | ⟨_, hj⟩
    · exact ⟨req, hr, rfl⟩
    · exact ⟨c, hj, rfl⟩
  refine {
    resolver := fun m hm => Nat.lt_succ_of_lt (h.resolver m hm)
    rotations := h.rotations
    sessions := fun x hx => Nat.lt_succ_of_lt (h.sessions x hx)
    arriving := fun x hx => Nat.lt_succ_of_lt (h.arriving x hx)
    ok := fun j c hj => ?_
    unused := fun i j b c can_rotate client hi hj hinstall hm => ?_
    distinct := fun hnone i j b c m hi hj hm hm' => ?_ }
  · rcases getElem?_set_cases hj with ⟨rfl, rfl⟩ | ⟨_, hj⟩
    · have hok := h.ok j req hr
      refine ⟨Nat.lt_succ_of_lt hok.bound, fun _ hopen => ?_, hok.asked, fun m _ _ hno => (by cases hno),
        fun can_rotate client hinstall => ?_⟩
      · change req.completed = false at hopen
        rw [hcompleted] at hopen
        cases hopen
      · rw [← Option.some.inj (Watchdog.install.inj hinstall).2]
        exact ⟨Nat.lt_succ_self _, fun hno => absurd (h.resolver _ hno) (Nat.lt_irrefl _), hroom⟩
    · have hok := h.ok j c hj
      refine ⟨Nat.lt_succ_of_lt hok.bound, hok.chosen, hok.asked, hok.abandoned,
        fun can_rotate client hinstall => ?_⟩
      obtain ⟨hlt, hrest⟩ := hok.replacement can_rotate client hinstall
      exact ⟨Nat.lt_succ_of_lt hlt, hrest⟩
  · obtain ⟨c₀, hc₀, heq⟩ := hnative hj
    rw [← heq] at hm
    rcases getElem?_set_cases hi with ⟨rfl, rfl⟩ | ⟨_, hi⟩
    · rw [← Option.some.inj (Watchdog.install.inj hinstall).2] at hm
      exact hnew hc₀ hm
    · exact h.unused i j b c₀ can_rotate client hi hc₀ hinstall hm
  · obtain ⟨b₀, hb₀, hbeq⟩ := hnative hi
    obtain ⟨c₀, hc₀, hceq⟩ := hnative hj
    exact h.distinct hnone i j b₀ c₀ m hb₀ hc₀ (hbeq.trans hm) (hceq.trans hm')

/-- It installs the client it made, and counts the rotation. -/
theorem Clients.installed (h : Clients s) (ht : Turns s) (hr : s.requests[r]? = some req)
    {can_rotate : Bool} {client : ℕ}
    (hwatchdog : req.watchdog = .install can_rotate (some client)) :
    Clients { s.set_request r { req with watchdog := .release } with
      resolver_manager := some client
      resolver_rotation_count := s.resolver_rotation_count + 1 } := by
  have hcompleted : req.completed = true :=
    (ht.wf r req hr).watchdog_claimed (by rw [hwatchdog]; rfl)
  have hin : req.holding = true := holding_of_rotating (by rw [hwatchdog]; rfl)
  obtain ⟨hclient, _, hroom⟩ := (h.ok r req hr).replacement can_rotate client hwatchdog
  -- the client is fresh: nobody has asked it anything
  have hunused : ∀ {j : ℕ} {c : ResolveRequest}, s.requests[j]? = some c →
      c.native ≠ .unanswered client :=
    fun hj => h.unused r _ req _ can_rotate client hr hj hwatchdog
  -- what the others wait for is unchanged by it
  have hback : ∀ {j : ℕ} {c : ResolveRequest},
      (s.requests.set r { req with watchdog := .release })[j]? = some c →
      ∃ c₀, s.requests[j]? = some c₀ ∧ c₀.native = c.native ∧
        (j = r ∧ c = { req with watchdog := .release } ∨ j ≠ r ∧ c = c₀) := by
    intro j c hj
    rcases getElem?_set_cases hj with ⟨rfl, rfl⟩ | ⟨hne, hj⟩
    · exact ⟨req, hr, rfl, .inl ⟨rfl, rfl⟩⟩
    · exact ⟨c, hj, rfl, .inr ⟨hne, rfl⟩⟩
  refine {
    resolver := fun m hm => Option.some.inj hm ▸ hclient
    rotations := hroom
    sessions := h.sessions
    arriving := h.arriving
    ok := fun j c hj => ?_
    unused := fun i j b c can_rotate client hi hj hinstall => ?_
    distinct := fun hnone i j b c m hi hj hm hm' => ?_ }
  · obtain ⟨c₀, hc₀, heq, hcase⟩ := hback hj
    have hnot : ∀ m, c.native = .unanswered m → (some client : Option ℕ) ≠ some m := by
      rintro m hm hnow
      rw [← heq, ← Option.some.inj hnow] at hm
      exact hunused hc₀ hm
    rcases hcase with ⟨rfl, rfl⟩ | ⟨hne, rfl⟩
    · refine ⟨(h.ok j req hr).bound, fun _ hopen => ?_, fun m _ => Option.some_ne_none _,
        fun m hm _ _ hnow => absurd hnow (hnot m hm), fun can_rotate client hinstall => ?_⟩
      · change req.completed = false at hopen
        rw [hcompleted] at hopen
        cases hopen
      · cases hinstall
    · refine ⟨(h.ok j c hc₀).bound, fun hchosen hopen => ?_, fun m _ => Option.some_ne_none _,
        fun m hm _ _ hnow => absurd hnow (hnot m hm), fun can_rotate client hinstall => ?_⟩
      · exact absurd (ht.held.only hr hin hc₀ (holding_of_chosen hchosen hopen)) hne
      · have hclaim : c.watchdog.rotating = true := by rw [hinstall]; rfl
        exact absurd (ht.held.only hr hin hc₀ (holding_of_rotating hclaim)) hne
  · obtain ⟨b₀, hb₀, _, hcase⟩ := hback hi
    rcases hcase with ⟨rfl, rfl⟩ | ⟨hne, rfl⟩
    · cases hinstall
    · have hclaim : b.watchdog.rotating = true := by rw [hinstall]; rfl
      exact absurd (ht.held.only hr hin hb₀ (holding_of_rotating hclaim)) hne
  · obtain ⟨b₀, hb₀, hbeq, _⟩ := hback hi
    obtain ⟨c₀, hc₀, hceq, _⟩ := hback hj
    exact h.distinct hnone i j b₀ c₀ m hb₀ hc₀ (hbeq.trans hm) (hceq.trans hm')

/-- Once the resolver has failed for good, a busy client may stay in place. -/
theorem Clients.failed (h : Clients s) (hr : s.requests[r]? = some req) (hwf : Wf req)
    {can_rotate : Bool} (hwatchdog : req.watchdog = .fail can_rotate) (message : String) :
    Clients ((s.set_request r { req with watchdog := .ended }).fail_resolver message) := by
  have hcompleted : req.completed = true := hwf.watchdog_claimed (by rw [hwatchdog]; rfl)
  refine {
    resolver := h.resolver
    rotations := h.rotations
    sessions := h.sessions
    arriving := h.arriving
    ok := fun j c hj => ?_
    unused := fun i j b c can_rotate client hi hj hinstall => ?_
    distinct := fun hnone => by cases hnone }
  · rcases getElem?_set_cases hj with ⟨rfl, rfl⟩ | ⟨_, hj⟩
    · refine ⟨(h.ok j req hr).bound, fun _ hopen => ?_, (h.ok j req hr).asked,
        fun _ _ _ _ _ => Option.some_ne_none _, fun can_rotate client hinstall => by cases hinstall⟩
      change req.completed = false at hopen
      rw [hcompleted] at hopen
      cases hopen
    · have hok := h.ok j c hj
      exact ⟨hok.bound, hok.chosen, hok.asked, fun _ _ _ _ _ => Option.some_ne_none _,
        hok.replacement⟩
  · rcases getElem?_set_cases hi with ⟨rfl, rfl⟩ | ⟨_, hib⟩
    · cases hinstall
    · rcases getElem?_set_cases hj with ⟨rfl, rfl⟩ | ⟨_, hjc⟩
      · exact h.unused i j b req can_rotate client hib hr hinstall
      · exact h.unused i j b c can_rotate client hib hjc hinstall

/-- What one step keeps of the clients. -/
theorem clients_step {l : Label} (h : Clients s) (ht : Turns s) (hstep : s.step l = some s') :
    Clients s' := by
  have hkept : ∀ (j : ℕ) (c : ResolveRequest), s.requests[j]? = some c →
      (∃ c₀, s.requests[j]? = some c₀ ∧ Plain c₀ c) ∨ c.Fresh ∧ c.manager < s.next_client :=
    fun j c hj => .inl ⟨c, hj, plain_refl c⟩
  have hsessions : ∀ y ∈ s.sessions, y.manager < s.next_client ∨
      ∃ x ∈ s.sessions, y.manager = x.manager := fun y hy => .inr ⟨y, hy, rfl⟩
  cases step_change ht.wf hstep with
  | around haround =>
      refine h.plain haround.manager haround.rotations haround.terminal haround.client haround.sessions
        (fun req hmem => ?_) (by rw [haround.requests]; exact hkept)
      rcases haround.arriving req hmem with hmem | ⟨_, x, hx, heq, _⟩
      · exact h.arriving req hmem
      · rw [heq]
        exact h.sessions x (List.mem_of_getElem? hx)
  | enqueued request mem clients requests queue in_progress active drains told arriving =>
      refine h.plain clients.manager clients.rotations clients.terminal clients.client
        (fun y hy => .inr (clients.sessions y hy)) (fun req hmem => h.arriving req (arriving req hmem))
        fun j c hj => ?_
      rw [requests] at hj
      rcases getElem?_concat_cases hj with ⟨_, rfl⟩ | hj
      · exact .inr ⟨ht.arriving c mem, h.arriving c mem⟩
      · exact hkept j c hj
  | drained drains queue eq =>
      rw [eq]
      exact h.plain rfl rfl rfl rfl hsessions h.arriving hkept
  -- from here on one request moves; only four of its steps touch a client
  | taken r rest req drains queue at_ eq =>
      rw [eq]
      have hplain : Plain req { req with helper := .check } :=
        ⟨rfl, fun _ hm => hm, fun hno => (by cases hno), fun _ _ hc hrot => ⟨hc, hrot⟩,
          fun _ _ hi => hi⟩
      exact h.plain rfl rfl rfl rfl hsessions h.arriving (plain_set at_ hplain)
  | moved r req req' client at_ moved clients requests same told =>
      cases clients with
      | same clients =>
          refine h.plain clients.manager clients.rotations clients.terminal clients.client
            (fun y hy => .inr (clients.sessions y hy)) (by rw [same.arriving]; exact h.arriving) ?_
          rw [requests]
          exact plain_set at_ (moved.plain (ht.wf r req at_))
      | choose hhelper eq =>
          rw [eq]
          exact h.choose ht at_ hhelper
      | asked hhelper hopen eq =>
          rw [eq]
          exact h.asked ht at_ hhelper hopen
      | made hwatchdog hroom eq =>
          rw [eq]
          exact h.made ht at_ hwatchdog hroom
      | installed can_rotate client hwatchdog hmanager eq =>
          rw [eq]
          exact h.installed ht at_ hwatchdog
  | released r req req' at_ released told fail eq =>
      rw [eq]
      exact h.plain rfl rfl rfl rfl hsessions h.arriving
        (plain_set at_ (released.plain (ht.wf r req at_) fail))
  | failed r req can_rotate at_ watchdog eq =>
      rw [eq]
      exact h.failed at_ (ht.wf r req at_) watchdog _

/-- What somebody who watches `resolver_manager` sees: each time one client gives way to another. -/
def replaced (s : Plugin) (_ : Label) (s' : Plugin) : List (Option ℕ) :=
  if s.resolver_manager.isSome ∧ s'.resolver_manager ≠ s.resolver_manager then [s'.resolver_manager]
  else []

theorem replaced_same {l : Label} (hmanager : s'.resolver_manager = s.resolver_manager) :
    s.replaced l s' = [] :=
  if_neg fun hne => hne.2 hmanager

/-- A client that gives way uses up one of the rotations. -/
theorem replaced_step {l : Label} (h : Clients s) (ht : Turns s) (hstep : s.step l = some s') :
    (s.replaced l s').length + (MAX_RESOLVER_ROTATIONS - s'.resolver_rotation_count) ≤
      MAX_RESOLVER_ROTATIONS - s.resolver_rotation_count := by
  have hsame : s'.resolver_manager = s.resolver_manager →
      s'.resolver_rotation_count = s.resolver_rotation_count →
      (s.replaced l s').length + (MAX_RESOLVER_ROTATIONS - s'.resolver_rotation_count) ≤
        MAX_RESOLVER_ROTATIONS - s.resolver_rotation_count := by
    intro hmanager hrotations
    rw [replaced_same hmanager, hrotations, List.length_nil, Nat.zero_add]
  cases step_change ht.wf hstep with
  | around around => exact hsame around.manager around.rotations
  | enqueued request mem clients requests queue in_progress active drains told arriving =>
      exact hsame clients.manager clients.rotations
  | drained drains queue eq =>
      subst eq
      exact hsame rfl rfl
  | taken r rest req drains queue at_ eq =>
      subst eq
      exact hsame rfl rfl
  | moved r req req' client at_ moved clients requests same told =>
      cases clients with
      | same clients => exact hsame clients.manager clients.rotations
      | choose hhelper eq =>
          -- the client in place is chosen, and one is put in place only where there was none
          have hchosen : s'.resolver_manager = some (s.resolver_manager.getD req.manager) := by rw [eq]
          have hrotations : s'.resolver_rotation_count = s.resolver_rotation_count := by rw [eq]; rfl
          rcases hmanager : s.resolver_manager with _ | m
          · have hnothing : ¬(s.resolver_manager.isSome = true ∧
                s'.resolver_manager ≠ s.resolver_manager) := by
              rw [hmanager]
              exact fun hno => by cases hno.1
            rw [replaced, if_neg hnothing, hrotations, List.length_nil, Nat.zero_add]
          · refine hsame ?_ hrotations
            rw [hchosen, hmanager, Option.getD_some]
      | asked hhelper hopen eq =>
          subst eq
          exact hsame rfl rfl
      | made hwatchdog hroom eq =>
          subst eq
          exact hsame rfl rfl
      | installed can_rotate client hwatchdog hmanager eq =>
          have hroom := ((h.ok r req at_).replacement can_rotate client hwatchdog).2.2
          have hone : (s.replaced l s').length ≤ 1 := by
            unfold replaced
            split
            · exact Nat.le_refl 1
            · exact Nat.zero_le 1
          subst eq
          change _ + (MAX_RESOLVER_ROTATIONS - (s.resolver_rotation_count + 1)) ≤ _
          omega
  | released r req req' at_ released told fail eq =>
      subst eq
      exact hsame rfl rfl
  | failed r req can_rotate at_ watchdog eq =>
      subst eq
      exact hsame rfl rfl

end Clients

/-- **The resolver is asked for one service at a time, and never stops.** In any order of the threads
and of the platform's callbacks: the threads that serve the queue are one at most, the thread in front
of the loop or those of the request in `active_resolve`. A listener is told once. Until the resolver
has failed for good, no client has two resolves unanswered. The code's count of rotations and the
times that one client gives way to another are four at most. While requests wait, some thread of the plugin has a next step, without the platform. -/
theorem resolves_one_at_a_time {s : Plugin} {history : List Label} (hrun : run step {} history = some s) :
    (s.drains + s.active_resolve.isSome.toNat = s.resolve_in_progress.toNat ∧
      ∀ (r : ℕ) (req : ResolveRequest), s.requests[r]? = some req →
        (req.holding = true ↔ s.active_resolve = some r)) ∧
      s.told.Nodup ∧
      (s.resolver_terminal_error = none → ∀ (r j : ℕ) (req c : ResolveRequest) (m : ℕ),
        s.requests[r]? = some req → s.requests[j]? = some c → req.native = .unanswered m →
        c.native = .unanswered m → r = j) ∧
      (s.resolver_rotation_count ≤ MAX_RESOLVER_ROTATIONS ∧
        (log step replaced {} history).length ≤ MAX_RESOLVER_ROTATIONS) ∧
      (s.resolve_queue ≠ [] → ∃ l s', l.own = true ∧ s.step l = some s') := by
  have hstart : Turns ({} : Plugin) ∧ Clients {} := ⟨turns_start, clients_start⟩
  have hkept : ∀ (s : Plugin) (l : Label) (s' : Plugin), Turns s ∧ Clients s → s.step l = some s' →
      Turns s' ∧ Clients s' :=
    fun _ _ _ h hstep => ⟨turns_step h.1 hstep, clients_step h.2 h.1 hstep⟩
  obtain ⟨ht, hc⟩ := run_invariant hkept hstart hrun
  have hreplaced : (log step replaced {} history).length ≤ MAX_RESOLVER_ROTATIONS - 0 :=
    length_log_le hkept (m := fun s => MAX_RESOLVER_ROTATIONS - s.resolver_rotation_count)
      (fun _ _ _ h hstep => replaced_step h.2 h.1 hstep) hstart history
  exact ⟨⟨ht.token, ht.held.owns⟩, ht.told_once, hc.distinct, ⟨hc.rotations, hreplaced⟩,
    fun hne => ht.moves (ht.served hne)⟩

/-- The first of two services is never answered. Its watchdog puts a fresh client in place, and the
second is asked for with that one. -/
def rotation : List Label :=
  [.browse_start "_iroh._udp" 0 none, .session 0 (.discovery_started fun _ => none),
    .service_found 0 "a", .enqueue 0, .service_found 0 "b", .enqueue 0, .drain] ++
  List.replicate 6 (.help 0 false) ++
  [.expire 0, .recover 0 false, .recover 0 false, .recover 0 false, .recover 0 false, .drain] ++
  List.replicate 6 (.help 1 false)

theorem resolves_one_at_a_time_rotated : ∃ s : Plugin, run step {} rotation = some s ∧
    s.requests.map ResolveRequest.native = [.unanswered 0, .unanswered 1] ∧ s.told.Nodup ∧
    log step replaced {} rotation = [some 1] := by
  have hrun : run step {} rotation = some _ := rfl
  exact ⟨_, hrun, rfl, (resolves_one_at_a_time hrun).2.1, rfl⟩

/-! ## One presence -/

/-- The event brings the answer to a resolve. -/
def resolves : Event → Bool
  | .service_resolved _ _ _ => true
  | _ => false

/-- What a step does to the sessions. Only the thread that ends a request brings an answer. -/
inductive SessionsStep (s s' : Plugin) (l : Label) : Prop
  | same (sessions : s'.sessions = s.sessions)
  | added (service_type : String) (manager : ℕ) (refused : Option (Bool × String))
      (sessions : s'.sessions =
        s.sessions ++ [DnsSdBrowseSession.start service_type manager refused])
  | stepped (i : ℕ) (x y : DnsSdBrowseSession) (e : Event) (at_ : s.sessions[i]? = some x)
      (plain : resolves e = false) (step : x.step e = some y)
      (sessions : s'.sessions = s.sessions.set i y)
  | told (r : ℕ) (req : ResolveRequest) (x : DnsSdBrowseSession) (service : NsdServiceInfo)
      (label : l = .finish r) (request : s.requests[r]? = some req)
      (at_ : s.sessions[req.owner.session]? = some x)
      (sessions : s'.sessions = s.sessions.set req.owner.session
        (x.on_service_resolved req.owner.instance_name req.owner.presence_generation service))

section Sessions

variable {s s' : Plugin} {l : Label} {r : ℕ} {req : ResolveRequest}

/-- A session's own step. -/
theorem session_step_sessions {i : ℕ} {e : Event} (hplain : resolves e = false)
    (hstep : s.session_step i e = some s') : SessionsStep s s' l := by
  rw [session_step, Option.bind_eq_some_iff] at hstep
  obtain ⟨x, hx, hmap⟩ := hstep
  obtain ⟨y, hy, rfl⟩ := Option.map_eq_some_iff.mp hmap
  split
  · exact .stepped i x y e hx hplain hy rfl
  · exact .stepped i x y e hx hplain hy rfl

/-- What the threads of a request do, but for the listener, is not about the sessions. -/
theorem request_step_sessions (refused : Bool) (outcome : Outcome)
    (hstep : s.help r req refused = some s' ∨ s.answer r req outcome = some s' ∨
      s.expire r req = some s' ∨ s.recover r req refused = some s') : SessionsStep s s' l := by
  rcases hstep with hstep | hstep | hstep | hstep
  · unfold help at hstep
    repeat' split at hstep
    all_goals first
      | contradiction
      | rw [← Option.some.inj hstep]
        exact .same rfl
  · unfold answer at hstep
    split at hstep
    · rw [← Option.some.inj hstep]
      exact .same rfl
    · cases hstep
  · unfold expire at hstep
    split at hstep
    · rw [← Option.some.inj hstep]
      exact .same rfl
    · cases hstep
  · unfold recover at hstep
    repeat' split at hstep
    all_goals first
      | contradiction
      | rw [← Option.some.inj hstep]
        exact .same rfl

theorem tell_sessions (hr : s.requests[r]? = some req) (outcome : Option Outcome) :
    SessionsStep s ((s.set_request r { req with completion := .release }).tell r req outcome)
      (.finish r) := by
  unfold tell
  split
  · exact .same rfl
  · exact .same rfl
  · dsimp only
    split
    · exact .same rfl
    · next service _ x hx => exact .told r req x service rfl hr hx rfl

/-- An answer reaches the session of its request. -/
theorem finish_sessions (hr : s.requests[r]? = some req) (hstep : s.finish r req = some s') :
    SessionsStep s s' (.finish r) := by
  unfold finish at hstep
  split at hstep
  · split at hstep
    · rw [← Option.some.inj hstep]
      exact .same rfl
    · rw [← Option.some.inj hstep]
      exact .same rfl
  · rw [← Option.some.inj hstep]
    exact tell_sessions hr _
  · rw [← Option.some.inj hstep]
    exact .same rfl
  · cases hstep

/-- What one step does to the sessions. -/
theorem step_sessions (hstep : s.step l = some s') : SessionsStep s s' l := by
  cases l with
  | browse_start service_type manager refused =>
      change s.browse_start service_type manager refused = some s' at hstep
      unfold browse_start at hstep
      split at hstep
      · cases hstep
      · split at hstep
        · rw [← Option.some.inj hstep]
          exact .same rfl
        · rw [← Option.some.inj hstep]
          exact .added service_type manager refused rfl
  | session i e =>
      change s.session_event i e = some s' at hstep
      -- what resolves a service is a label of its own, so these events are not let through here
      cases e
      all_goals first
        | contradiction
        | exact session_step_sessions rfl hstep
  | service_found i name =>
      obtain ⟨x, hx, rfl⟩ := Option.map_eq_some_iff.mp hstep
      unfold service_found
      split
      · exact .same rfl
      · next generation y hfound =>
          refine .stepped i x y (.service_found name) hx rfl ?_ rfl
          change some (x.on_service_found name).2 = some y
          rw [hfound]
  | service_lost i name =>
      obtain ⟨x, hx, rfl⟩ := Option.map_eq_some_iff.mp hstep
      unfold service_lost
      split
      · next y hlost =>
          refine .stepped i x y (.service_lost name) hx rfl ?_ rfl
          change some (x.on_service_lost name).2 = some y
          rw [hlost]
      · next generation y hlost =>
          refine .stepped i x y (.service_lost name) hx rfl ?_ rfl
          change some (x.on_service_lost name).2 = some y
          rw [hlost]
  | fail_session thrown =>
      change s.fail_session thrown = some s' at hstep
      unfold fail_session at hstep
      split at hstep
      · cases hstep
      · cases session_step_sessions (l := .fail_session thrown) rfl hstep with
        | same sessions => exact .same sessions
        | added service_type manager refused sessions =>
            exact .added service_type manager refused sessions
        | stepped i x y e at_ plain step sessions => exact .stepped i x y e at_ plain step sessions
        | told r req x service label request at_ sessions =>
            exact .told r req x service label request at_ sessions
  | enqueue call =>
      obtain ⟨request, _, rfl⟩ := Option.map_eq_some_iff.mp hstep
      exact .same rfl
  | retire call =>
      obtain ⟨owner, _, rfl⟩ := Option.map_eq_some_iff.mp hstep
      exact .same rfl
  | drain =>
      change s.drain = some s' at hstep
      unfold drain at hstep
      split at hstep
      · cases hstep
      · split at hstep
        · rw [← Option.some.inj hstep]
          exact .same rfl
        · obtain ⟨req, _, rfl⟩ := Option.map_eq_some_iff.mp hstep
          exact .same rfl
  | help r refused =>
      obtain ⟨req, _, hstep⟩ := Option.bind_eq_some_iff.mp hstep
      exact request_step_sessions refused .failed (.inl hstep)
  | answer r outcome =>
      obtain ⟨req, _, hstep⟩ := Option.bind_eq_some_iff.mp hstep
      exact request_step_sessions false outcome (.inr (.inl hstep))
  | finish r =>
      obtain ⟨req, hr, hstep⟩ := Option.bind_eq_some_iff.mp hstep
      exact finish_sessions hr hstep
  | expire r =>
      obtain ⟨req, _, hstep⟩ := Option.bind_eq_some_iff.mp hstep
      exact request_step_sessions false .failed (.inr (.inr (.inl hstep)))
  | recover r refused =>
      obtain ⟨req, _, hstep⟩ := Option.bind_eq_some_iff.mp hstep
      exact request_step_sessions refused .failed (.inr (.inr (.inr hstep)))

/-- The owner of a request names a presence of its session. -/
def OwnerOk (s : Plugin) (req : ResolveRequest) : Prop :=
  ∃ x, s.sessions[req.owner.session]? = some x ∧
    req.owner.presence_generation < x.next_presence_generation ∧
    (x.presence_generations.lookup req.owner.instance_name = some req.owner.presence_generation →
      req.epoch = x.lost.count req.owner.instance_name)

/-- Every session is reached by its own steps, and every request belongs to a presence of its
session. -/
structure Epochs (s : Plugin) : Prop where
  sessions : ∀ (i : ℕ) (x : DnsSdBrowseSession), s.sessions[i]? = some x → x.Reached
  arriving : ∀ req ∈ s.arriving, OwnerOk s req
  requests : ∀ (r : ℕ) (req : ResolveRequest), s.requests[r]? = some req → OwnerOk s req

theorem epochs_start : Epochs {} where
  sessions i x hi := by
    rw [List.getElem?_nil] at hi
    cases hi
  arriving req hreq := absurd hreq List.not_mem_nil
  requests r req hr := by
    rw [List.getElem?_nil] at hr
    cases hr

/-- Every session is still there, and has aged. -/
theorem sessions_age (hsessions : SessionsStep s s' l) {i : ℕ} {x : DnsSdBrowseSession}
    (hi : s.sessions[i]? = some x) : ∃ y, s'.sessions[i]? = some y ∧ x.Ages y := by
  have hrefl : x.Ages x := fun name g hlt => ⟨hlt, fun hg => ⟨hg, rfl⟩⟩
  have hset : ∀ {j : ℕ} {x' y : DnsSdBrowseSession}, s.sessions[j]? = some x' → x'.Ages y →
      ∃ y', (s.sessions.set j y)[i]? = some y' ∧ x.Ages y' := by
    intro j x' y hj hages
    by_cases hij : j = i
    · subst hij
      rw [hi] at hj
      rw [← Option.some.inj hj] at hages
      exact ⟨y, getElem?_set_self hi, hages⟩
    · exact ⟨x, by rw [List.getElem?_set_ne hij]; exact hi, hrefl⟩
  cases hsessions with
  | same sessions =>
      rw [sessions]
      exact ⟨x, hi, hrefl⟩
  | added service_type manager refused sessions =>
      rw [sessions, List.getElem?_append_left (lt_of_getElem? hi)]
      exact ⟨x, hi, hrefl⟩
  | stepped j x' y e at_ plain step sessions =>
      rw [sessions]
      exact hset at_ (DnsSdBrowseSession.ages_step step)
  | told r req x' service label request at_ sessions =>
      rw [sessions]
      exact hset at_ (DnsSdBrowseSession.ages_step
        (e := .service_resolved req.owner.instance_name req.owner.presence_generation service) rfl)

/-- A step keeps an owner's presence, and its epoch while the presence lasts. -/
theorem owner_ok_step (hsessions : SessionsStep s s' l) (h : OwnerOk s req) : OwnerOk s' req := by
  obtain ⟨x, hx, hlt, hepoch⟩ := h
  obtain ⟨y, hy, hages⟩ := sessions_age hsessions hx
  obtain ⟨hlt', hback⟩ := hages req.owner.instance_name _ hlt
  refine ⟨y, hy, hlt', fun hg => ?_⟩
  obtain ⟨hg', hcount⟩ := hback hg
  rw [hcount]
  exact hepoch hg'

theorem moved_owner {req' : ResolveRequest} {client : Bool} (hmoved : Moved req client req') :
    req'.owner = req.owner ∧ req'.epoch = req.epoch := by
  cases hmoved
  all_goals exact ⟨rfl, rfl⟩

theorem released_owner {req' : ResolveRequest} (hreleased : Released req req') :
    req'.owner = req.owner ∧ req'.epoch = req.epoch := by
  cases hreleased
  all_goals exact ⟨rfl, rfl⟩

/-- The requests of a step are those before it, with their owners, or have arrived. -/
theorem requests_owner (hchange : Change s s') {j : ℕ} {c : ResolveRequest}
    (hj : s'.requests[j]? = some c) :
    c ∈ s.arriving ∨ ∃ c₀, s.requests[j]? = some c₀ ∧ c.owner = c₀.owner ∧ c.epoch = c₀.epoch := by
  -- no step writes a request's owner or epoch
  have hset : ∀ {r : ℕ} {req : ResolveRequest} (req' : ResolveRequest), s.requests[r]? = some req →
      req'.owner = req.owner ∧ req'.epoch = req.epoch → (s.requests.set r req')[j]? = some c →
      c ∈ s.arriving ∨ ∃ c₀, s.requests[j]? = some c₀ ∧ c.owner = c₀.owner ∧ c.epoch = c₀.epoch := by
    intro r req req' hr howner hj
    rcases getElem?_set_cases hj with ⟨rfl, rfl⟩ | ⟨_, hj⟩
    · exact .inr ⟨req, hr, howner⟩
    · exact .inr ⟨c, hj, rfl, rfl⟩
  cases hchange with
  | around around =>
      rw [around.requests] at hj
      exact .inr ⟨c, hj, rfl, rfl⟩
  | enqueued request mem clients requests queue in_progress active drains told arriving =>
      rw [requests] at hj
      rcases getElem?_concat_cases hj with ⟨_, rfl⟩ | hj
      · exact .inl mem
      · exact .inr ⟨c, hj, rfl, rfl⟩
  | drained drains queue eq =>
      rw [eq] at hj
      exact .inr ⟨c, hj, rfl, rfl⟩
  | taken r rest req drains queue at_ eq =>
      rw [eq] at hj
      exact hset { req with helper := .check } at_ ⟨rfl, rfl⟩ hj
  | moved r req req' client at_ moved clients requests same told =>
      rw [requests] at hj
      exact hset req' at_ (moved_owner moved) hj
  | released r req req' at_ released told fail eq =>
      rw [eq] at hj
      exact hset req' at_ (released_owner released) hj
  | failed r req can_rotate at_ watchdog eq =>
      rw [eq] at hj
      exact hset { req with watchdog := .ended } at_ ⟨rfl, rfl⟩ hj

/-- What arrives has come before, or is announced now. -/
theorem arriving_step (hchange : Change s s') (hmem : req ∈ s'.arriving) : req ∈ s.arriving ∨
    ∃ x, s.sessions[req.owner.session]? = some x ∧ Announced s' x req := by
  cases hchange with
  | around around =>
      rcases around.arriving req hmem with hmem | ⟨_, x, hx, _, hannounced⟩
      · exact .inl hmem
      · exact .inr ⟨x, hx, hannounced⟩
  | enqueued request mem clients requests queue in_progress active drains told arriving =>
      exact .inl (arriving req hmem)
  | drained drains queue eq =>
      rw [eq] at hmem
      exact .inl hmem
  | taken r rest req drains queue at_ eq =>
      rw [eq] at hmem
      exact .inl hmem
  | moved r req req' client at_ moved clients requests same told =>
      rw [same.arriving] at hmem
      exact .inl hmem
  | released r req req' at_ released told fail eq =>
      rw [eq] at hmem
      exact .inl hmem
  | failed r req can_rotate at_ watchdog eq =>
      rw [eq] at hmem
      exact .inl hmem

theorem sessions_reached (h : Epochs s) (hsessions : SessionsStep s s' l) {i : ℕ}
    {y : DnsSdBrowseSession} (hi : s'.sessions[i]? = some y) : y.Reached := by
  have hset : ∀ {j : ℕ} {x z : DnsSdBrowseSession} {e : Event}, s.sessions[j]? = some x →
      x.step e = some z → (s.sessions.set j z)[i]? = some y → y.Reached := by
    intro j x z e hj hstep hi
    rcases getElem?_set_cases hi with ⟨_, rfl⟩ | ⟨_, hi⟩
    · exact (h.sessions j x hj).step hstep
    · exact h.sessions i y hi
  cases hsessions with
  | same sessions =>
      rw [sessions] at hi
      exact h.sessions i y hi
  | added service_type manager refused sessions =>
      rw [sessions] at hi
      rcases getElem?_concat_cases hi with ⟨_, rfl⟩ | hi
      · exact ⟨service_type, manager, refused, [], rfl⟩
      · exact h.sessions i y hi
  | stepped j x z e at_ plain step sessions =>
      rw [sessions] at hi
      exact hset at_ step hi
  | told r req x service label request at_ sessions =>
      rw [sessions] at hi
      exact hset (e := .service_resolved req.owner.instance_name req.owner.presence_generation service)
        at_ rfl hi

/-- What one step keeps of the epochs. -/
theorem epochs_step (h : Epochs s) (ht : Turns s) (hstep : s.step l = some s') :
    Epochs s' := by
  have hsessions := step_sessions hstep
  have hchange := step_change ht.wf hstep
  refine ⟨fun i y hi => sessions_reached h hsessions hi, fun req hmem => ?_, fun r req hr => ?_⟩
  · rcases arriving_step hchange hmem with hmem | ⟨x, hx, hepoch, y, hfound, hy⟩
    · exact owner_ok_step hsessions (h.arriving req hmem)
    · obtain ⟨hlt, hlost⟩ := DnsSdBrowseSession.found_generation (h.sessions _ x hx).presence hfound
      refine ⟨y, hy, hlt, fun _ => ?_⟩
      rw [hlost]
      exact hepoch
  · have hok : OwnerOk s req := by
      rcases requests_owner hchange hr with hmem | ⟨c, hc, howner, hepoch⟩
      · exact h.arriving req hmem
      · have hok := h.requests r c hc
        unfold OwnerOk at hok ⊢
        rw [howner, hepoch]
        exact hok
    exact owner_ok_step hsessions hok

end Sessions

/-! ### The active records -/

/-- The thread that has the end of a request. -/
def ended (s : Plugin) : Label → Option ResolveRequest
  | .finish r => s.requests[r]?
  | _ => none

/-- All records of a session, in the order in which they were made. -/
def records (s : Plugin) (i : ℕ) : List MobileServiceRecord :=
  (s.sessions[i]?).elim [] fun x => x.polled ++ x.pending_records

/-- An active record that a step has made: the session and the instance, the request whose end the step
brings, and how often the session had lost the instance. -/
structure Made where
  session : ℕ
  instance_name : String
  request : Option ResolveRequest
  losses : ℕ

/-- The active records by which the sessions have more than before. -/
def made (s : Plugin) (l : Label) (s' : Plugin) : List Made :=
  (List.range s'.sessions.length).flatMap fun i =>
    (((s'.records i).drop (s.records i).length).filter fun record => record.is_active).map fun record =>
      ⟨i, record.instance_name, s.ended l,
        (s.sessions[i]?).elim 0 fun x => x.lost.count record.instance_name⟩

/-- The record is for the presence that its resolve was asked for: the request is one of its session and
instance, and the instance has not been lost since it was announced. -/
def Made.ForItsPresence (line : Made) : Prop :=
  ∃ req, line.request = some req ∧ req.owner.session = line.session ∧
    req.owner.instance_name = line.instance_name ∧ req.epoch = line.losses

section Made

variable {s s' : Plugin} {l : Label}

/-- A line of the log is of a record that the step appended. -/
theorem mem_made {line : Made} (hmem : line ∈ s.made l s') : ∃ record,
    record ∈ (s'.records line.session).drop (s.records line.session).length ∧
      record.is_active = true ∧ line.instance_name = record.instance_name ∧
      line.request = s.ended l ∧
      line.losses = (s.sessions[line.session]?).elim 0 fun x => x.lost.count record.instance_name := by
  obtain ⟨i, _, hmem⟩ := List.mem_flatMap.mp hmem
  obtain ⟨record, hrecord, rfl⟩ := List.mem_map.mp hmem
  obtain ⟨hnew, hactive⟩ := List.mem_filter.mp hrecord
  exact ⟨record, hnew, hactive, rfl, rfl, rfl⟩

/-- A session that makes records has taken a step. -/
theorem drop_records {x y : DnsSdBrowseSession} {e : Event} {i j : ℕ} {record : MobileServiceRecord}
    (hi : s.sessions[i]? = some x) (hstep : x.step e = some y)
    (hsessions : s'.sessions = s.sessions.set i y)
    (hmem : record ∈ (s'.records j).drop (s.records j).length) (hactive : record.is_active = true) :
    j = i ∧ ∃ name generation resolved, e = .service_resolved name generation resolved ∧
      record.instance_name = name ∧ x.is_current name generation = true := by
  unfold records at hmem
  rw [hsessions] at hmem
  by_cases hij : i = j
  · subst hij
    obtain ⟨new, hnew, hresolved⟩ := DnsSdBrowseSession.records_step hstep
    rw [getElem?_set_self hi, hi, Option.elim_some, Option.elim_some, hnew, List.drop_left] at hmem
    exact ⟨rfl, hresolved record hmem hactive⟩
  · rw [List.getElem?_set_ne hij, List.drop_length] at hmem
    exact absurd hmem List.not_mem_nil

/-- The lines of one step. -/
theorem made_for_its_presence (h : Epochs s) (hstep : s.step l = some s') :
    ∀ line ∈ s.made l s', line.ForItsPresence := by
  intro line hline
  obtain ⟨record, hmem, hactive, hname, hrequest, hlosses⟩ := mem_made hline
  cases step_sessions hstep with
  | same sessions =>
      unfold records at hmem
      rw [sessions, List.drop_length] at hmem
      exact absurd hmem List.not_mem_nil
  | added service_type manager refused sessions =>
      -- a session starts without records
      unfold records at hmem
      rw [sessions] at hmem
      rcases hi : (s.sessions ++ [DnsSdBrowseSession.start service_type manager refused])[line.session]?
        with _ | x
      · rw [hi] at hmem
        exact absurd (List.mem_of_mem_drop hmem) List.not_mem_nil
      · rw [hi] at hmem
        rcases getElem?_concat_cases hi with ⟨_, rfl⟩ | hold
        · exact absurd (List.mem_of_mem_drop hmem) List.not_mem_nil
        · rw [hold, List.drop_length] at hmem
          exact absurd hmem List.not_mem_nil
  | stepped i x y e at_ plain step sessions =>
      obtain ⟨_, name, generation, resolved, rfl, _⟩ := drop_records at_ step sessions hmem hactive
      cases plain
  | told r req x service label request at_ sessions =>
      have hanswer : x.step (.service_resolved req.owner.instance_name req.owner.presence_generation
        service) = some _ := rfl
      obtain ⟨hsession, name, generation, resolved, he, hrecord, hcurrent⟩ :=
        drop_records at_ hanswer sessions hmem hactive
      obtain ⟨rfl, rfl, rfl⟩ := Event.service_resolved.inj he
      rw [DnsSdBrowseSession.is_current, Bool.and_eq_true, beq_iff_eq] at hcurrent
      -- the presence is that of the announcement, so the instance has not been lost since
      obtain ⟨x', hx', _, hepoch⟩ := h.requests r req request
      rw [at_] at hx'
      rw [← Option.some.inj hx'] at hepoch
      refine ⟨req, ?_, hsession.symm, hrecord.symm.trans hname.symm, ?_⟩
      · rw [hrequest, label]
        exact request
      · rw [hlosses, hsession, at_, Option.elim_some, hrecord]
        exact hepoch hcurrent.2

end Made

/-- **Records follow the presence of their instance.** In any order of the threads and of the
platform's callbacks: who has read the polls of a session, and what waits for the next, can say which
instances are there. Nothing is taken away that was not there, and while the session is open all that
is there has been found and not lost since. Each active record that a session comes to have is made for
the presence that its resolve was asked for: the instance has not been lost between. -/
theorem records_follow_presence {s : Plugin} {history : List Label}
    (hrun : run step {} history = some s) :
    (∀ (i : ℕ) (x : DnsSdBrowseSession), s.sessions[i]? = some x →
      DnsSdBrowseSession.replay [] (x.polled ++ x.pending_records) = some x.known_instances ∧
        (x.open_ = true → ∀ name ∈ x.known_instances, name ∈ x.found)) ∧
      ∀ line ∈ log step made {} history, line.ForItsPresence := by
  have hstart : Turns ({} : Plugin) ∧ Epochs {} := ⟨turns_start, epochs_start⟩
  have hkept : ∀ (s : Plugin) (l : Label) (s' : Plugin), Turns s ∧ Epochs s → s.step l = some s' →
      Turns s' ∧ Epochs s' :=
    fun _ _ _ h hstep => ⟨turns_step h.1 hstep, epochs_step h.2 h.1 hstep⟩
  refine ⟨fun i x hi => ?_, forall_mem_log hkept (fun s l s' h => made_for_its_presence h.2) hstart history⟩
  have hinv := run_invariant hkept hstart hrun
  have hpresence := (hinv.2.sessions i x hi).presence
  exact ⟨hpresence.replayed, fun hopen => hpresence.known_found (DnsSdBrowseSession.live_of_open hopen)⟩

/-- A service without an address. -/
def bare : NsdServiceInfo := ⟨none, 0, [], List.nodup_nil, by decide⟩

/-- A service goes while its resolve is on its way, and comes back: the answer to the first resolve makes no
record, that to the second does. -/
def reappearance : List Label :=
  [.browse_start "_iroh._udp" 0 none, .session 0 (.discovery_started fun _ => none),
    .service_found 0 "a", .enqueue 0, .drain] ++
  List.replicate 6 (.help 0 false) ++
  [.service_lost 0 "a", .retire 0, .service_found 0 "a", .enqueue 0,
    .answer 0 (.resolved bare), .finish 0, .finish 0, .finish 0, .drain] ++
  List.replicate 6 (.help 1 false) ++
  [.answer 1 (.resolved bare), .finish 1, .finish 1, .finish 1]

theorem records_follow_presence_reappearance : ∃ s : Plugin, run step {} reappearance = some s ∧
    s.told = [0, 1] ∧
    s.sessions.map DnsSdBrowseSession.pending_records = [[resolved_record "_iroh._udp" "a" bare]] ∧
    (log step made {} reappearance).map
    (fun line => (line.session, line.instance_name, line.losses)) =
      [(0, "a", 1)] ∧
    ∀ line ∈ log step made {} reappearance, line.ForItsPresence := by
  have hrun : run step {} reappearance = some _ := rfl
  exact ⟨_, hrun, rfl, rfl, rfl, (records_follow_presence hrun).2⟩

end Plugin

end IrohHttp.ResolveQueue
