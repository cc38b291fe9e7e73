/-
The calls of `irohFetch` on one endpoint, from the JS function to the transport:
`iroh-http-shared/src/fetch.ts`, `pipeToWriter` of `streams.ts`, the adapters'
`rawFetch`, and `iroh-http-core/src/ffi/fetch.rs`.

A call runs in three places at once. The JS function allocates the writer and the
fetch token, dispatches `rawFetch` and races its promise against the abort
signal. The native fetch claims the reader, hands the request over, waits for the
response head under the token, and packages the response. The pipe reads the
source and sends its chunks until the source ends or fails. What connects them is
the handle store and nothing else.

The bodies are those of `RequestBody.lean`, on the same store. In the registry of
fetch tokens and in that of response readers the value of an entry is the number
of its call; a call allocates at most one of each.

Not modelled: other users of the store (sessions, the server's responses), and
the closing of the endpoint, which drops the store as a whole.
-/
import IrohHttp.Parties
import IrohHttp.RequestBody

set_option autoImplicit false

namespace IrohHttp.FetchCalls

open SlotMap Handles Machine

/-! ## A call -/

/-- The three hosts. -/
inductive Adapter
  | node
  | deno
  | tauri
  deriving DecidableEq, Repr

/-- `pipeToWriter`: at a `read`, before or at the `sendChunk` of a piece with
pieces of the same chunk behind it, or past the source's end. A rejected pipe has
its `catch` handler to run. -/
inductive Pipe
  | idle
  | reading
  | sending (piece : Bytes) (rest : List Bytes)
  | awaiting (call : ℕ) (rest : List Bytes)
  | finishing
  | resolved
  | rejected
  | reset
  deriving DecidableEq

/-- The upload of a call with a body: the writer's handle, the channel behind it,
the chunks the source has yielded, and whether the source has ended with all of
them sent. -/
structure Upload where
  req_body_handle : ℕ
  channel : ℕ
  pipe : Pipe
  yielded : List Bytes
  drained : Bool
  deriving DecidableEq

/-- The JS function at its awaits; `ready` is the stretch after the last
allocation, up to the race. -/
inductive Js
  | alloc_body_writer
  | alloc_fetch_token
  | ready
  | racing
  | returned
  | thrown
  deriving DecidableEq, Repr

/-- What `rawFetch` resolves to; no body handle for a null-body status. -/
structure Response where
  status : ℕ
  body_handle : Option ℕ
  deriving DecidableEq, Repr

/-- The native fetch: dispatched, waiting for the response head (with the notify
of the call it listens to), packaging the response, or finished. -/
inductive Native
  | idle
  | dispatched
  | awaiting (request : ℕ) (listening : Option ℕ)
  | packaging
  | finished (response : Option Response)
  deriving DecidableEq, Repr

/-- `notified` is the permit of the notify behind the call's token, `aborted` the
state of its signal. -/
structure Call where
  has_body : Bool
  has_signal : Bool
  js : Js
  native : Native
  upload : Option Upload
  fetch_token : Option ℕ
  notified : Bool
  aborted : Bool
  deriving DecidableEq

/-- Where the checks between the dispatch and the first await stop a call, in
their order: the adapter's own call, its endpoint, its options, the handle of the
body; then, with the reader claimed, the addresses and the token; then, with a
token allocated for a Deno call without one, those of the core. -/
inductive Exit
  | adapter_call
  | get_endpoint
  | coerce_fetch_options
  | req_body_handle
  | parse_direct_addrs
  | fetch_token
  | url_scheme
  | method
  | header
  | node_addr
  | build_request
  | local_service
  deriving DecidableEq, Repr

/-- The reader has been claimed by then. -/
def Exit.claimed : Exit → Bool
  | .adapter_call | .get_endpoint | .coerce_fetch_options | .req_body_handle => false
  | _ => true

/-- The core has been entered by then. -/
def Exit.in_core : Exit → Bool
  | .url_scheme | .method | .header | .node_addr | .build_request | .local_service => true
  | _ => false

/-- What the body's side sees of an exit. -/
def checks : Option Exit → RequestBody.Checks
  | none => .pass
  | some exit => if exit.claimed then .fail_after_claim else .fail_before_claim

/-- The response head as `package_response` finds it. -/
inductive Head
  | too_large
  | not_utf8
  | accepted (status : ℕ)
  deriving DecidableEq, Repr

/-- The statuses without a body. -/
def null_body (status : ℕ) : Bool := status == 204 || status == 205 || status == 304

/-! ## States and labels -/

/-- A host with its fetches. -/
structure State (M : Type → Type) where
  adapter : Adapter
  max_chunk : ℕ
  bodies : RequestBody.State M
  calls : List Call

/-- `endpoint` says whether an allocation finds its endpoint. -/
inductive Label
  | begin_call (has_body has_signal accepted : Bool)
  | alloc_body_writer (u : ℕ) (endpoint : Bool) (now : Instant)
  | alloc_fetch_token (u : ℕ) (endpoint : Bool) (now : Instant)
  | dispatch (u : ℕ)
  | abort (u : ℕ)
  | raw_fetch (u : ℕ) (exit : Option Exit) (now : Instant)
  | response_head (u : ℕ)
  | fetch_error (u : ℕ)
  | cancelled (u : ℕ)
  | package_response (u : ℕ) (head : Head) (now : Instant)
  | settle (u : ℕ)
  | release_response (u : ℕ)
  | source_yields (u : ℕ) (chunk : Bytes)
  | source_ends (u : ℕ)
  | source_fails (u : ℕ)
  | send_chunk (u : ℕ) (now : Instant)
  | send_settles (u : ℕ)
  | adapter_fails (u : ℕ)
  | finish_body (u : ℕ)
  | pipe_catch (u : ℕ)
  | push (call : ℕ)
  | send_returns (call : ℕ)
  | sweep (i : Registry) (ttl : Duration) (now : Instant)
  | sweep_pending_readers (ttl : Duration) (now : Instant)
  | poll_frame (request : ℕ)
  | drop_body (request : ℕ)
  deriving DecidableEq

namespace State

variable {K : Type} {M : Type → Type} [SlotMap K M]

/-- No fetch yet. -/
def start (adapter : Adapter) (max_chunk : ℕ) (config : StoreConfig) : State M :=
  ⟨adapter, max_chunk, RequestBody.State.start config, []⟩

/-- A fetch goes on. -/
def set_call (s : State M) (u : ℕ) (c : Call) : State M := { s with calls := s.calls.set u c }

/-- The handle store changes. -/
def set_store (s : State M) (store : HandleStore M RequestBody.Ends) : State M :=
  { s with bodies := { s.bodies with store := store } }

/-- `cancel_in_flight`: the permit goes to the call whose notify the entry has. -/
def cancel_in_flight (s : State M) (token : ℕ) : State M :=
  match s.bodies.store.cancel_in_flight token with
  | none => s
  | some v => { s with calls := s.calls.modify v fun c => { c with notified := true } }

/-- `adapter.cancelFetch(fetchToken)`, for a token other than `0n`. -/
def cancel_fetch (s : State M) (c : Call) : State M :=
  match c.fetch_token with
  | none => s
  | some token => s.cancel_in_flight token

/-! ## The JS function -/

/-- The function up to its first await, which it does not reach with a bad URL, a
body on a GET, a bad body or a signal that has fired. -/
def begin_call (s : State M) (has_body has_signal accepted : Bool) : State M :=
  let js :=
    if !accepted then Js.thrown
    else if has_body then .alloc_body_writer
    else if has_signal then .alloc_fetch_token
    else .ready
  { s with calls := s.calls ++ [⟨has_body, has_signal, js, .idle, none, none, false, false⟩] }

/-- The adapter allocates the writer and stashes its reader. -/
def alloc_body_writer (s : State M) (u : ℕ) (c : Call) (endpoint : Bool) (now : Instant) :
    State M :=
  if endpoint then
    match s.bodies.alloc_body_writer now with
    | (.error _, bodies) => { s with bodies := bodies }.set_call u { c with js := .thrown }
    | (.ok handle, bodies) =>
      let channel := s.bodies.next_channel
      { s with bodies := bodies.stash handle channel now }.set_call u
        { c with
          js := .alloc_fetch_token
          upload := some ⟨handle, channel, .idle, [], false⟩ }
  else s.set_call u { c with js := .thrown }

/-- `allocFetchToken`, which fails on a closed endpoint or a full registry. -/
def alloc_fetch_token (s : State M) (u : ℕ) (c : Call) (endpoint : Bool) (now : Instant) :
    State M :=
  if endpoint then
    match s.bodies.store.alloc_fetch_token u now with
    | (.error _, store) => (s.set_store store).set_call u { c with js := .thrown }
    | (.ok token, store) =>
      (s.set_store store).set_call u { c with js := .ready, fetch_token := some token }
  else s.set_call u { c with js := .thrown }

/-- From the last allocation to the race: the check of the signal, the dispatch,
and then the pipe. -/
def dispatch (s : State M) (u : ℕ) (c : Call) : State M :=
  if c.has_signal && c.aborted then (s.set_call u { c with js := .thrown }).cancel_fetch c
  else
    s.set_call u { c with
      js := .racing
      native := .dispatched
      upload := c.upload.map fun up => { up with pipe := .reading } }

/-- The signal fires. While the race is on, its listeners cancel the fetch and
reject; once the response is returned, the listener cancels its body. -/
def abort (s : State M) (u : ℕ) (c : Call) : State M :=
  match c.js with
  | .racing => (s.set_call u { c with aborted := true, js := .thrown }).cancel_fetch c
  | .returned =>
    match c.native with
    | .finished (some ⟨_, some handle⟩) =>
      (s.set_store (s.bodies.store.cancel_reader handle).2).set_call u { c with aborted := true }
    | _ => s.set_call u { c with aborted := true }
  | _ => s.set_call u { c with aborted := true }

/-- `new Response` refuses a status outside 200..599. -/
def constructs (r : Response) : Bool := decide (200 ≤ r.status) && decide (r.status ≤ 599)

/-- The promise of `rawFetch` wins the race. -/
def settle (s : State M) (u : ℕ) (c : Call) (response : Option Response) : State M :=
  match response with
  | none => s.set_call u { c with js := .thrown }
  | some r => s.set_call u { c with js := if constructs r then .returned else .thrown }

/-! ## The native fetch -/

/-- The token the core gets: the caller's, or one that the Deno adapter allocates
before it enters the core. -/
def native_token (s : State M) (u : ℕ) (c : Call) (exit : Option Exit) (now : Instant)
    (store : HandleStore M RequestBody.Ends) : Option ℕ × HandleStore M RequestBody.Ends :=
  match c.fetch_token with
  | some token => (some token, store)
  | none =>
    if s.adapter = .deno && exit.all Exit.in_core then
      let r := store.alloc_fetch_token u now
      (r.1.toOption, r.2)
    else (none, store)

/-- `rawFetch` up to its first await: the claim, the checks, the hand-over, and
the lookup of the notify. -/
def raw_fetch (s : State M) (u : ℕ) (c : Call) (exit : Option Exit) (now : Instant) : State M :=
  let bodies := s.bodies.raw_fetch (c.upload.map Upload.req_body_handle) (checks exit)
  let token := s.native_token u c exit now bodies.store
  let native :=
    match exit with
    | some _ => Native.finished none
    | none =>
      .awaiting s.bodies.requests.length (token.1.bind token.2.get_fetch_cancel_notify)
  { s with bodies := { bodies with store := token.2 } }.set_call u
    { c with native := native, fetch_token := token.1 }

/-- `run_with_cancel_and_timeout` returns: the token goes on every exit. -/
def leave (s : State M) (u : ℕ) (c : Call) (native : Native) : State M :=
  let store :=
    match c.fetch_token with
    | none => s.bodies.store
    | some token => s.bodies.store.remove_fetch_token token
  (s.set_store store).set_call u { c with native := native }

/-- The notify the fetch listens to has a permit. -/
def permit (s : State M) (listening : Option ℕ) : Bool :=
  (listening.bind fun v => s.calls[v]?).any Call.notified

/-- `package_response`: the head is checked before a reader is made. -/
def package_response (s : State M) (u : ℕ) (c : Call) (head : Head) (now : Instant) : State M :=
  match head with
  | .too_large | .not_utf8 => s.set_call u { c with native := .finished none }
  | .accepted status =>
    if null_body status then s.set_call u { c with native := .finished (some ⟨status, none⟩) }
    else
      match s.bodies.store.insert_reader u now with
      | (.error _, store) => (s.set_store store).set_call u { c with native := .finished none }
      | (.ok handle, store) =>
        (s.set_store store).set_call u { c with native := .finished (some ⟨status, some handle⟩) }

/-! ## The pipe -/

/-- The upload's pipe goes on. -/
def set_pipe (s : State M) (u : ℕ) (c : Call) (up : Upload) (pipe : Pipe) : State M :=
  s.set_call u { c with upload := some { up with pipe := pipe } }

/-- The pieces left of a chunk; the next read where there are none. -/
def next_piece : List Bytes → Pipe
  | [] => .reading
  | piece :: rest => .sending piece rest

/-- A read yields a chunk; an empty one is skipped. -/
def source_yields (s : State M) (u : ℕ) (c : Call) (up : Upload) (chunk : Bytes) : State M :=
  let pipe :=
    if chunk.isEmpty then Pipe.reading
    else next_piece (RequestBody.State.pieces s.max_chunk chunk)
  s.set_call u { c with upload := some { up with pipe := pipe, yielded := up.yielded ++ [chunk] } }

/-- The source of the body has ended. -/
def source_ends (s : State M) (u : ℕ) (c : Call) (up : Upload) : State M :=
  s.set_call u { c with upload := some { up with pipe := .finishing, drained := true } }

/-- `sendChunk` of a piece: the call is on its way, or the handle is unknown. -/
def send_chunk (s : State M) (u : ℕ) (c : Call) (up : Upload) (piece : Bytes) (rest : List Bytes)
    (now : Instant) : State M :=
  let pipe :=
    match s.bodies.store.entry .writers up.req_body_handle with
    | some _ => Pipe.awaiting s.bodies.sends.length rest
    | none => .rejected
  { s with bodies := s.bodies.send_chunk up.req_body_handle piece now }.set_pipe u c up pipe

/-- The promise of `sendChunk` settles once its call has returned. -/
def send_settles (s : State M) (u : ℕ) (c : Call) (up : Upload) (call : ℕ) (rest : List Bytes) :
    Option (State M) :=
  match s.bodies.sends[call]? with
  | some ⟨_, [], false⟩ => some (s.set_pipe u c up (next_piece rest))
  | some ⟨_, _ :: _, false⟩ => some (s.set_pipe u c up .rejected)
  | _ => none

/-- The pipe's `finishBody`, which fails on a handle that is gone. -/
def finish_body (s : State M) (u : ℕ) (c : Call) (up : Upload) : State M :=
  let pipe :=
    match s.bodies.store.entry .writers up.req_body_handle with
    | some _ => Pipe.resolved
    | none => .rejected
  { s with bodies := s.bodies.finish_body up.req_body_handle }.set_pipe u c up pipe

/-! ## Steps -/

/-- A step of call `u`. -/
def call_step (s : State M) (u : ℕ) (f : Call → Option (State M)) : Option (State M) :=
  s.calls[u]?.bind f

/-- A step of the pipe of call `u`. -/
def pipe_step (s : State M) (u : ℕ) (f : Call → Upload → Option (State M)) : Option (State M) :=
  s.call_step u fun c => c.upload.bind fun up => f c up

/-- A step of the transport or of the handle store on the bodies. -/
def body_step (s : State M) (a : RequestBody.Label) : Option (State M) :=
  (s.bodies.step a).map fun bodies => { s with bodies := bodies }

/-- One step, `none` where the label is not enabled. -/
def step (s : State M) : Label → Option (State M)
  | .begin_call has_body has_signal accepted => some (s.begin_call has_body has_signal accepted)
  | .alloc_body_writer u endpoint now => s.call_step u fun c =>
    if c.js = .alloc_body_writer then some (s.alloc_body_writer u c endpoint now) else none
  | .alloc_fetch_token u endpoint now => s.call_step u fun c =>
    if c.js = .alloc_fetch_token then some (s.alloc_fetch_token u c endpoint now) else none
  | .dispatch u => s.call_step u fun c => if c.js = .ready then some (s.dispatch u c) else none
  | .abort u => s.call_step u fun c =>
    if c.has_signal && !c.aborted then some (s.abort u c) else none
  | .raw_fetch u exit now => s.call_step u fun c =>
    if c.native = .dispatched then some (s.raw_fetch u c exit now) else none
  | .response_head u => s.call_step u fun c =>
    match c.native with
    | .awaiting _ _ => some (s.leave u c .packaging)
    | _ => none
  | .fetch_error u => s.call_step u fun c =>
    match c.native with
    | .awaiting _ _ => some (s.leave u c (.finished none))
    | _ => none
  | .cancelled u => s.call_step u fun c =>
    match c.native with
    | .awaiting _ listening =>
      if s.permit listening then some (s.leave u c (.finished none)) else none
    | _ => none
  | .package_response u head now => s.call_step u fun c =>
    if c.native = .packaging then some (s.package_response u c head now) else none
  | .settle u => s.call_step u fun c =>
    match c.js, c.native with
    | .racing, .finished response => some (s.settle u c response)
    | _, _ => none
  -- the body of a returned response is read to its end, or cancelled
  | .release_response u => s.call_step u fun c =>
    match c.js, c.native with
    | .returned, .finished (some ⟨_, some handle⟩) =>
      some (s.set_store (s.bodies.store.cancel_reader handle).2)
    | _, _ => none
  | .source_yields u chunk => s.pipe_step u fun c up =>
    if up.pipe = .reading then some (s.source_yields u c up chunk) else none
  | .source_ends u => s.pipe_step u fun c up =>
    if up.pipe = .reading then some (s.source_ends u c up) else none
  | .source_fails u => s.pipe_step u fun c up =>
    if up.pipe = .reading then some (s.set_pipe u c up .rejected) else none
  | .send_chunk u now => s.pipe_step u fun c up =>
    match up.pipe with
    | .sending piece rest => some (s.send_chunk u c up piece rest now)
    | _ => none
  | .send_settles u => s.pipe_step u fun c up =>
    match up.pipe with
    | .awaiting call rest => s.send_settles u c up call rest
    | _ => none
  -- `sendChunk` or `finishBody` fails in the adapter, without reaching the store
  | .adapter_fails u => s.pipe_step u fun c up =>
    match up.pipe with
    | .sending _ _ | .finishing => some (s.set_pipe u c up .rejected)
    | _ => none
  | .finish_body u => s.pipe_step u fun c up =>
    if up.pipe = .finishing then some (s.finish_body u c up) else none
  | .pipe_catch u => s.pipe_step u fun c up =>
    if up.pipe = .rejected then some ((s.set_pipe u c up .reset).cancel_fetch c) else none
  | .push call => s.body_step (.push call)
  | .send_returns call => s.body_step (.send_returns call)
  | .sweep i ttl now => s.body_step (.sweep i ttl now)
  | .sweep_pending_readers ttl now => s.body_step (.sweep_pending_readers ttl now)
  | .poll_frame request => s.body_step (.poll_frame request)
  | .drop_body request => s.body_step (.drop_body request)

/-! ## What a step does to the calls -/

variable {s s' : State M} {u : ℕ} {c : Call}

/-- A step of a fetch wants the fetch to be there. -/
theorem call_step_eq_some {f : Call → Option (State M)} :
    s.call_step u f = some s' ↔ ∃ c, s.calls[u]? = some c ∧ f c = some s' := by
  simp only [call_step, Option.bind_eq_some_iff]

/-- A step of a pipe wants the upload to be there. -/
theorem pipe_step_eq_some {f : Call → Upload → Option (State M)} :
    s.pipe_step u f = some s' ↔
      ∃ c up, s.calls[u]? = some c ∧ c.upload = some up ∧ f c up = some s' := by
  simp only [pipe_step, call_step_eq_some, Option.bind_eq_some_iff]
  constructor
  · rintro ⟨c, hc, up, hup, hf⟩
    exact ⟨c, up, hc, hup, hf⟩
  · rintro ⟨c, up, hc, hup, hf⟩
    exact ⟨c, hc, up, hup, hf⟩

theorem guard_eq_some {p : Prop} [Decidable p] {t : State M}
    (h : (if p then some t else none) = some s') : p ∧ s' = t := by
  split at h
  · next hp => exact ⟨hp, (Option.some.inj h).symm⟩
  · cases h

/-- A cancellation gives permits and does nothing else. -/
theorem cancel_in_flight_call {token v : ℕ} {c : Call}
    (h : (s.cancel_in_flight token).calls[v]? = some c) :
    ∃ c₀, s.calls[v]? = some c₀ ∧ c = { c₀ with notified := c.notified } := by
  unfold cancel_in_flight at h
  split at h
  · exact ⟨c, h, rfl⟩
  · rcases Parties.getElem?_modify_cases h with ⟨-, c₀, hc₀, rfl⟩ | ⟨-, hold⟩
    · exact ⟨c₀, hc₀, rfl⟩
    · exact ⟨c, hold, rfl⟩

theorem cancel_in_flight_bodies (s : State M) (token : ℕ) :
    (s.cancel_in_flight token).bodies = s.bodies := by
  unfold cancel_in_flight
  split <;> rfl

theorem cancel_fetch_bodies (s : State M) (c : Call) : (s.cancel_fetch c).bodies = s.bodies := by
  unfold cancel_fetch
  split
  · rfl
  · exact cancel_in_flight_bodies s _

/-- A cancellation only notifies. -/
theorem cancel_fetch_call {v : ℕ} {c₁ : Call}
    (h : (s.cancel_fetch c).calls[v]? = some c₁) :
    ∃ c₀, s.calls[v]? = some c₀ ∧ c₁ = { c₀ with notified := c₁.notified } := by
  unfold cancel_fetch at h
  split at h
  · exact ⟨c₁, h, rfl⟩
  · exact cancel_in_flight_call h

/-- One fetch goes on, and the others stay. -/
theorem set_call_call (hc : s.calls[u]? = some c) {c' c₁ : Call} {v : ℕ}
    (h : (s.set_call u c').calls[v]? = some c₁) :
    (v = u ∧ c₁ = c') ∨ (v ≠ u ∧ s.calls[v]? = some c₁) := by
  have hlt := (List.getElem?_eq_some_iff.mp hc).1
  by_cases hv : v = u
  · subst hv
    rw [set_call, List.getElem?_set_self hlt, Option.some.injEq] at h
    exact .inl ⟨rfl, h.symm⟩
  · rw [set_call, List.getElem?_set_ne (Ne.symm hv)] at h
    exact .inr ⟨hv, h⟩

/-- The steps that are the transport's or the handle store's own. -/
def body_label : Label → Option RequestBody.Label
  | .push call => some (.push call)
  | .send_returns call => some (.send_returns call)
  | .sweep i ttl now => some (.sweep i ttl now)
  | .sweep_pending_readers ttl now => some (.sweep_pending_readers ttl now)
  | .poll_frame request => some (.poll_frame request)
  | .drop_body request => some (.drop_body request)
  | _ => none

/-- **What a step can do**, with what has to hold before it. -/
inductive Move (s : State M) : Label → State M → Prop
  | begin_call {has_body has_signal accepted : Bool} :
    Move s (.begin_call has_body has_signal accepted) (s.begin_call has_body has_signal accepted)
  | alloc_body_writer {u : ℕ} {c : Call} {endpoint : Bool} {now : Instant}
    (hc : s.calls[u]? = some c) (hjs : c.js = .alloc_body_writer) :
    Move s (.alloc_body_writer u endpoint now) (s.alloc_body_writer u c endpoint now)
  | alloc_fetch_token {u : ℕ} {c : Call} {endpoint : Bool} {now : Instant}
    (hc : s.calls[u]? = some c) (hjs : c.js = .alloc_fetch_token) :
    Move s (.alloc_fetch_token u endpoint now) (s.alloc_fetch_token u c endpoint now)
  | dispatch {u : ℕ} {c : Call} (hc : s.calls[u]? = some c) (hjs : c.js = .ready) :
    Move s (.dispatch u) (s.dispatch u c)
  | abort {u : ℕ} {c : Call} (hc : s.calls[u]? = some c) (hsignal : c.has_signal = true) :
    Move s (.abort u) (s.abort u c)
  | raw_fetch {u : ℕ} {c : Call} {exit : Option Exit} {now : Instant}
    (hc : s.calls[u]? = some c) (hn : c.native = .dispatched) :
    Move s (.raw_fetch u exit now) (s.raw_fetch u c exit now)
  | response_head {u request : ℕ} {listening : Option ℕ} {c : Call}
    (hc : s.calls[u]? = some c) (hn : c.native = .awaiting request listening) :
    Move s (.response_head u) (s.leave u c .packaging)
  | fetch_error {u request : ℕ} {listening : Option ℕ} {c : Call}
    (hc : s.calls[u]? = some c) (hn : c.native = .awaiting request listening) :
    Move s (.fetch_error u) (s.leave u c (.finished none))
  | cancelled {u request : ℕ} {listening : Option ℕ} {c : Call} (hc : s.calls[u]? = some c)
    (hn : c.native = .awaiting request listening) (hpermit : s.permit listening = true) :
    Move s (.cancelled u) (s.leave u c (.finished none))
  | package_response {u : ℕ} {c : Call} {head : Head} {now : Instant}
    (hc : s.calls[u]? = some c) (hn : c.native = .packaging) :
    Move s (.package_response u head now) (s.package_response u c head now)
  | settle {u : ℕ} {c : Call} {response : Option Response} (hc : s.calls[u]? = some c)
    (hjs : c.js = .racing) (hn : c.native = .finished response) :
    Move s (.settle u) (s.settle u c response)
  | release_response {u status handle : ℕ} {c : Call} (hc : s.calls[u]? = some c)
    (hjs : c.js = .returned) (hn : c.native = .finished (some ⟨status, some handle⟩)) :
    Move s (.release_response u) (s.set_store (s.bodies.store.cancel_reader handle).2)
  | source_yields {u : ℕ} {c : Call} {up : Upload} {chunk : Bytes} (hc : s.calls[u]? = some c)
    (hup : c.upload = some up) (hp : up.pipe = .reading) :
    Move s (.source_yields u chunk) (s.source_yields u c up chunk)
  | source_ends {u : ℕ} {c : Call} {up : Upload} (hc : s.calls[u]? = some c)
    (hup : c.upload = some up) (hp : up.pipe = .reading) :
    Move s (.source_ends u) (s.source_ends u c up)
  | source_fails {u : ℕ} {c : Call} {up : Upload} (hc : s.calls[u]? = some c)
    (hup : c.upload = some up) (hp : up.pipe = .reading) :
    Move s (.source_fails u) (s.set_pipe u c up .rejected)
  | send_chunk {u : ℕ} {c : Call} {up : Upload} {piece : Bytes} {rest : List Bytes} {now : Instant}
    (hc : s.calls[u]? = some c) (hup : c.upload = some up) (hp : up.pipe = .sending piece rest) :
    Move s (.send_chunk u now) (s.send_chunk u c up piece rest now)
  | send_resolves {u call channel : ℕ} {c : Call} {up : Upload} {rest : List Bytes}
    (hc : s.calls[u]? = some c) (hup : c.upload = some up) (hp : up.pipe = .awaiting call rest)
    (hx : s.bodies.sends[call]? = some ⟨channel, [], false⟩) :
    Move s (.send_settles u) (s.set_pipe u c up (next_piece rest))
  | send_rejects {u call channel : ℕ} {c : Call} {up : Upload} {rest : List Bytes} {piece : Bytes}
    {left : List Bytes} (hc : s.calls[u]? = some c) (hup : c.upload = some up)
    (hp : up.pipe = .awaiting call rest)
    (hx : s.bodies.sends[call]? = some ⟨channel, piece :: left, false⟩) :
    Move s (.send_settles u) (s.set_pipe u c up .rejected)
  | adapter_fails {u : ℕ} {c : Call} {up : Upload} (hc : s.calls[u]? = some c)
    (hup : c.upload = some up)
    (hp : (∃ piece rest, up.pipe = .sending piece rest) ∨ up.pipe = .finishing) :
    Move s (.adapter_fails u) (s.set_pipe u c up .rejected)
  | finish_body {u : ℕ} {c : Call} {up : Upload} (hc : s.calls[u]? = some c)
    (hup : c.upload = some up) (hp : up.pipe = .finishing) :
    Move s (.finish_body u) (s.finish_body u c up)
  | pipe_catch {u : ℕ} {c : Call} {up : Upload} (hc : s.calls[u]? = some c)
    (hup : c.upload = some up) (hp : up.pipe = .rejected) :
    Move s (.pipe_catch u) ((s.set_pipe u c up .reset).cancel_fetch c)
  | bodies {a : Label} {b : RequestBody.Label} {bodies : RequestBody.State M}
    (ha : body_label a = some b) (hb : s.bodies.step b = some bodies) :
    Move s a { s with bodies := bodies }

/-- A step of the body's side is a move. -/
theorem move_of_body_step {a : Label} {b : RequestBody.Label} (ha : body_label a = some b)
    (h : s.body_step b = some s') : Move s a s' := by
  rw [body_step, Option.map_eq_some_iff] at h
  obtain ⟨bodies, hb, rfl⟩ := h
  exact .bodies ha hb

/-- **Every step is one of the moves.** -/
theorem move_of_step {a : Label} (h : s.step a = some s') : Move s a s' := by
  -- each label asks for the place its call is at, which is all that `Move` keeps of it
  cases a with
  | begin_call has_body has_signal accepted => exact Option.some.inj h ▸ .begin_call
  | alloc_body_writer u endpoint now =>
      obtain ⟨c, hc, hf⟩ := call_step_eq_some.mp h
      obtain ⟨hjs, rfl⟩ := guard_eq_some hf
      exact .alloc_body_writer hc hjs
  | alloc_fetch_token u endpoint now =>
      obtain ⟨c, hc, hf⟩ := call_step_eq_some.mp h
      obtain ⟨hjs, rfl⟩ := guard_eq_some hf
      exact .alloc_fetch_token hc hjs
  | dispatch u =>
      obtain ⟨c, hc, hf⟩ := call_step_eq_some.mp h
      obtain ⟨hjs, rfl⟩ := guard_eq_some hf
      exact .dispatch hc hjs
  | abort u =>
      obtain ⟨c, hc, hf⟩ := call_step_eq_some.mp h
      obtain ⟨hguard, rfl⟩ := guard_eq_some hf
      rw [Bool.and_eq_true] at hguard
      exact .abort hc hguard.1
  | raw_fetch u exit now =>
      obtain ⟨c, hc, hf⟩ := call_step_eq_some.mp h
      obtain ⟨hn, rfl⟩ := guard_eq_some hf
      exact .raw_fetch hc hn
  | response_head u =>
      obtain ⟨c, hc, hf⟩ := call_step_eq_some.mp h
      split at hf
      · next hn => exact Option.some.inj hf ▸ .response_head hc hn
      · cases hf
  | fetch_error u =>
      obtain ⟨c, hc, hf⟩ := call_step_eq_some.mp h
      split at hf
      · next hn => exact Option.some.inj hf ▸ .fetch_error hc hn
      · cases hf
  | cancelled u =>
      obtain ⟨c, hc, hf⟩ := call_step_eq_some.mp h
      split at hf
      · next hn =>
        obtain ⟨hpermit, rfl⟩ := guard_eq_some hf
        exact .cancelled hc hn hpermit
      · cases hf
  | package_response u head now =>
      obtain ⟨c, hc, hf⟩ := call_step_eq_some.mp h
      obtain ⟨hn, rfl⟩ := guard_eq_some hf
      exact .package_response hc hn
  | settle u =>
      obtain ⟨c, hc, hf⟩ := call_step_eq_some.mp h
      split at hf
      · next hjs hn => exact Option.some.inj hf ▸ .settle hc hjs hn
      · cases hf
  | release_response u =>
      obtain ⟨c, hc, hf⟩ := call_step_eq_some.mp h
      split at hf
      · next hjs hn => exact Option.some.inj hf ▸ .release_response hc hjs hn
      · cases hf
  | source_yields u chunk =>
      obtain ⟨c, up, hc, hup, hf⟩ := pipe_step_eq_some.mp h
      obtain ⟨hp, rfl⟩ := guard_eq_some hf
      exact .source_yields hc hup hp
  | source_ends u =>
      obtain ⟨c, up, hc, hup, hf⟩ := pipe_step_eq_some.mp h
      obtain ⟨hp, rfl⟩ := guard_eq_some hf
      exact .source_ends hc hup hp
  | source_fails u =>
      obtain ⟨c, up, hc, hup, hf⟩ := pipe_step_eq_some.mp h
      obtain ⟨hp, rfl⟩ := guard_eq_some hf
      exact .source_fails hc hup hp
  | send_chunk u now =>
      obtain ⟨c, up, hc, hup, hf⟩ := pipe_step_eq_some.mp h
      split at hf
      · next hp => exact Option.some.inj hf ▸ .send_chunk hc hup hp
      · cases hf
  | send_settles u =>
      obtain ⟨c, up, hc, hup, hf⟩ := pipe_step_eq_some.mp h
      split at hf
      · next hp =>
        unfold send_settles at hf
        split at hf
        · next hx => exact Option.some.inj hf ▸ .send_resolves hc hup hp hx
        · next hx => exact Option.some.inj hf ▸ .send_rejects hc hup hp hx
        · cases hf
      · cases hf
  | adapter_fails u =>
      obtain ⟨c, up, hc, hup, hf⟩ := pipe_step_eq_some.mp h
      split at hf
      · next hp => exact Option.some.inj hf ▸ .adapter_fails hc hup (.inl ⟨_, _, hp⟩)
      · next hp => exact Option.some.inj hf ▸ .adapter_fails hc hup (.inr hp)
      · cases hf
  | finish_body u =>
      obtain ⟨c, up, hc, hup, hf⟩ := pipe_step_eq_some.mp h
      obtain ⟨hp, rfl⟩ := guard_eq_some hf
      exact .finish_body hc hup hp
  | pipe_catch u =>
      obtain ⟨c, up, hc, hup, hf⟩ := pipe_step_eq_some.mp h
      obtain ⟨hp, rfl⟩ := guard_eq_some hf
      exact .pipe_catch hc hup hp
  | push call => exact move_of_body_step rfl h
  | send_returns call => exact move_of_body_step rfl h
  | sweep i ttl now => exact move_of_body_step rfl h
  | sweep_pending_readers ttl now => exact move_of_body_step rfl h
  | poll_frame request => exact move_of_body_step rfl h
  | drop_body request => exact move_of_body_step rfl h

end State

/-! ## The JS function keeps its order -/

/-- The function is past its allocations, or has thrown. -/
def Call.late (c : Call) : Prop := c.js = .racing ∨ c.js = .returned ∨ c.js = .thrown

/-- Before its dispatch a call has what it has allocated by then, no native fetch,
and a pipe that has not begun. -/
structure Call.Wf (c : Call) : Prop where
  writer : c.js = .alloc_body_writer → c.upload = none
  token : c.js = .alloc_body_writer ∨ c.js = .alloc_fetch_token → c.fetch_token = none
  early : ¬ c.late → c.native = .idle ∧ ∀ up, c.upload = some up → up.pipe = .idle

theorem Call.Wf.of_late {c : Call} (h : c.late) : c.Wf := by
  refine ⟨fun hjs => ?_, fun hjs => ?_, fun hnot => absurd h hnot⟩
  · rcases h with h | h | h <;> cases hjs.symm.trans h
  · rcases hjs with hjs | hjs <;> rcases h with h | h | h <;> cases hjs.symm.trans h

/-- A native fetch is there only behind the hand-over. -/
theorem Call.Wf.late_of_native {c : Call} (h : c.Wf) (hn : c.native ≠ .idle) : c.late := by
  by_contra hnot
  exact hn (h.early hnot).1

/-- So is a pipe that has begun. -/
theorem Call.Wf.late_of_pipe {c : Call} (h : c.Wf) {up : Upload} (hup : c.upload = some up)
    (hp : up.pipe ≠ .idle) : c.late := by
  by_contra hnot
  exact hp ((h.early hnot).2 up hup)

theorem Call.not_late_of_ready {c : Call} (h : c.js = .ready) : ¬ c.late := by
  rintro (h' | h' | h') <;> cases h.symm.trans h'

theorem Call.not_late_of_alloc_fetch_token {c : Call} (h : c.js = .alloc_fetch_token) :
    ¬ c.late := by
  rintro (h' | h' | h') <;> cases h.symm.trans h'

theorem Call.not_late_of_alloc_body_writer {c : Call} (h : c.js = .alloc_body_writer) :
    ¬ c.late := by
  rintro (h' | h' | h') <;> cases h.symm.trans h'

namespace State

variable {K : Type} {M : Type → Type} [SlotMap K M] {s s' : State M} {u : ℕ} {c : Call}

/-- Every fetch is in a shape it can have. -/
def Wf (s : State M) : Prop := ∀ (u : ℕ) c, s.calls[u]? = some c → c.Wf

/-- A fetch that stays in shape keeps all in shape. -/
theorem Wf.set_call (h : s.Wf) (hc : s.calls[u]? = some c) {c' : Call} (hc' : c'.Wf) :
    (s.set_call u c').Wf := by
  intro v c₁ h₁
  rcases set_call_call hc h₁ with ⟨-, rfl⟩ | ⟨-, h₁⟩
  · exact hc'
  · exact h v c₁ h₁

theorem Wf.cancel_fetch (h : s.Wf) (c : Call) : (s.cancel_fetch c).Wf := by
  intro v c₁ h₁
  obtain ⟨c₀, h₀, heq⟩ := cancel_fetch_call h₁
  obtain ⟨hw, ht, he⟩ := h v c₀ h₀
  rw [heq]
  exact ⟨hw, ht, he⟩

theorem wf_start (adapter : Adapter) (max_chunk : ℕ) (config : StoreConfig) :
    (start adapter max_chunk config : State M).Wf := by
  intro v c h
  cases h

/-- A new fetch is in shape. -/
theorem Wf.begin_call (h : s.Wf) (has_body has_signal accepted : Bool) :
    (s.begin_call has_body has_signal accepted).Wf := by
  intro v c hv
  by_cases hlt : v < s.calls.length
  · rw [State.begin_call, List.getElem?_append_left hlt] at hv
    exact h v c hv
  · have hmem := List.mem_of_getElem? hv
    rw [State.begin_call, List.getElem?_append_right (by omega)] at hv
    rw [List.mem_singleton.mp (List.mem_of_getElem? hv)]
    exact ⟨fun _ => rfl, fun _ => rfl, fun _ => ⟨rfl, fun up hup => by cases hup⟩⟩

/-- The body's channel is made before the hand-over. -/
theorem Wf.alloc_body_writer (h : s.Wf) (hc : s.calls[u]? = some c)
    (hjs : c.js = .alloc_body_writer) (endpoint : Bool) (now : Instant) :
    (s.alloc_body_writer u c endpoint now).Wf := by
  have hthrown : ({ c with js := .thrown } : Call).Wf := .of_late (.inr (.inr rfl))
  unfold State.alloc_body_writer
  split
  · split
    · exact Wf.set_call (s := { s with bodies := _ }) h hc hthrown
    · refine Wf.set_call (s := { s with bodies := _ }) h hc ⟨fun hj => (by cases hj), ?_, ?_⟩
      · exact fun _ => (h u c hc).token (.inl hjs)
      · intro _
        refine ⟨((h u c hc).early (Call.not_late_of_alloc_body_writer hjs)).1, fun up hup => ?_⟩
        rw [← Option.some.inj hup]
  · exact h.set_call hc hthrown

/-- So is the token. -/
theorem Wf.alloc_fetch_token (h : s.Wf) (hc : s.calls[u]? = some c)
    (hjs : c.js = .alloc_fetch_token) (endpoint : Bool) (now : Instant) :
    (s.alloc_fetch_token u c endpoint now).Wf := by
  have hthrown : ({ c with js := .thrown } : Call).Wf := .of_late (.inr (.inr rfl))
  have hearly := (h u c hc).early (Call.not_late_of_alloc_fetch_token hjs)
  unfold State.alloc_fetch_token
  split
  · split
    · exact Wf.set_call (s := s.set_store _) h hc hthrown
    · refine Wf.set_call (s := s.set_store _) h hc ⟨fun hj => (by cases hj), ?_, fun _ => hearly⟩
      rintro (hj | hj) <;> cases hj
  · exact h.set_call hc hthrown

/-- The hand-over begins the native fetch. -/
theorem Wf.dispatch (h : s.Wf) (hc : s.calls[u]? = some c) : (s.dispatch u c).Wf := by
  unfold State.dispatch
  split
  · exact (h.set_call hc (.of_late (.inr (.inr rfl)))).cancel_fetch c
  · exact h.set_call hc (.of_late (.inl rfl))

theorem Wf.abort (h : s.Wf) (hc : s.calls[u]? = some c) : (s.abort u c).Wf := by
  obtain ⟨hw, ht, he⟩ := h u c hc
  have hsame : ({ c with aborted := true } : Call).Wf := ⟨hw, ht, he⟩
  unfold State.abort
  split
  · exact (h.set_call hc (.of_late (.inr (.inr rfl)))).cancel_fetch c
  · split
    · exact Wf.set_call (s := s.set_store _) h hc hsame
    · exact h.set_call hc hsame
  · exact h.set_call hc hsame

/-- Past the allocations nothing is asked of a call. -/
theorem Wf.set_late (h : s.Wf) (hc : s.calls[u]? = some c) {c' : Call} (hjs : c'.js = c.js)
    (hlate : c.late) : (s.set_call u c').Wf := by
  refine h.set_call hc (.of_late ?_)
  rw [Call.late, hjs]
  exact hlate

/-- A response belongs to a fetch that was handed over. -/
theorem Wf.package_response (h : s.Wf) (hc : s.calls[u]? = some c) (hlate : c.late) (head : Head)
    (now : Instant) : (s.package_response u c head now).Wf := by
  unfold State.package_response
  split
  · exact h.set_late hc rfl hlate
  · exact h.set_late hc rfl hlate
  · split
    · exact h.set_late hc rfl hlate
    · split
      · exact Wf.set_late (s := s.set_store _) h hc rfl hlate
      · exact Wf.set_late (s := s.set_store _) h hc rfl hlate

theorem Wf.settle (h : s.Wf) (hc : s.calls[u]? = some c) (response : Option Response) :
    (s.settle u c response).Wf := by
  unfold State.settle
  split
  · exact h.set_call hc (.of_late (.inr (.inr rfl)))
  · refine h.set_call hc (.of_late ?_)
    split
    · exact .inr (.inl rfl)
    · exact .inr (.inr rfl)

/-- **Every step keeps the order.** -/
theorem Wf.move (h : s.Wf) {a : Label} (hm : Move s a s') : s'.Wf := by
  -- each step happens where the call is late already, or is one of the first four
  cases hm with
  | begin_call => exact h.begin_call _ _ _
  | alloc_body_writer hc hjs => exact h.alloc_body_writer hc hjs _ _
  | alloc_fetch_token hc hjs => exact h.alloc_fetch_token hc hjs _ _
  | dispatch hc hjs => exact h.dispatch hc
  | abort hc hsignal => exact h.abort hc
  | @raw_fetch u c exit now hc hn =>
      exact Wf.set_late (s := { s with bodies := _ }) h hc rfl
        ((h u c hc).late_of_native (by simp [hn]))
  | @response_head u request listening c hc hn =>
      exact Wf.set_late (s := s.set_store _) h hc rfl ((h u c hc).late_of_native (by simp [hn]))
  | @fetch_error u request listening c hc hn =>
      exact Wf.set_late (s := s.set_store _) h hc rfl ((h u c hc).late_of_native (by simp [hn]))
  | @cancelled u request listening c hc hn hpermit =>
      exact Wf.set_late (s := s.set_store _) h hc rfl ((h u c hc).late_of_native (by simp [hn]))
  | @package_response u c head now hc hn =>
      exact h.package_response hc ((h u c hc).late_of_native (by simp [hn])) head now
  | settle hc hjs hn => exact h.settle hc _
  | release_response hc hjs hn => exact h
  | @source_yields u c up chunk hc hup hp =>
      exact h.set_late hc rfl ((h u c hc).late_of_pipe hup (by simp [hp]))
  | @source_ends u c up hc hup hp =>
      exact h.set_late hc rfl ((h u c hc).late_of_pipe hup (by simp [hp]))
  | @source_fails u c up hc hup hp =>
      exact h.set_late hc rfl ((h u c hc).late_of_pipe hup (by simp [hp]))
  | @send_chunk u c up piece rest now hc hup hp =>
      exact Wf.set_late (s := { s with bodies := _ }) h hc rfl
        ((h u c hc).late_of_pipe hup (by simp [hp]))
  | @send_resolves u call channel c up rest hc hup hp hx =>
      exact h.set_late hc rfl ((h u c hc).late_of_pipe hup (by simp [hp]))
  | @send_rejects u call channel c up rest piece left hc hup hp hx =>
      exact h.set_late hc rfl ((h u c hc).late_of_pipe hup (by simp [hp]))
  | @adapter_fails u c up hc hup hp =>
      refine h.set_late hc rfl ((h u c hc).late_of_pipe hup ?_)
      rcases hp with ⟨piece, rest, hp⟩ | hp
      · simp [hp]
      · simp [hp]
  | @finish_body u c up hc hup hp =>
      exact Wf.set_late (s := { s with bodies := _ }) h hc rfl
        ((h u c hc).late_of_pipe hup (by simp [hp]))
  | @pipe_catch u c up hc hup hp =>
      have hreset : (s.set_pipe u c up .reset).Wf :=
        h.set_late hc rfl ((h u c hc).late_of_pipe hup (by simp [hp]))
      exact hreset.cancel_fetch c
  | bodies ha hb => exact h

end State

/-! ## What a call allocates -/

/-- A writer is for a body, and a token for a body or a signal. Only the native side gives a call
a token that it has not asked for. -/
structure Call.Asked (c : Call) : Prop where
  writer : c.js = .alloc_body_writer → c.has_body = true
  token : c.js = .alloc_fetch_token → c.has_body = true ∨ c.has_signal = true
  upload : c.upload ≠ none → c.has_body = true
  fetch_token : c.native = .idle ∨ c.native = .dispatched → c.fetch_token ≠ none →
    c.has_body = true ∨ c.has_signal = true

/-- The allocations are behind the call, or where they were. -/
def Js.past (js js' : Js) : Prop := js' = js ∨ js' ≠ .alloc_body_writer ∧ js' ≠ .alloc_fetch_token

/-- A call moves on without another allocation. -/
theorem Call.Asked.turn {c c' : Call} (h : c.Asked) (hbody : c'.has_body = c.has_body)
    (hsignal : c'.has_signal = c.has_signal) (hjs : Js.past c.js c'.js)
    (hupload : c'.upload ≠ none → c.upload ≠ none)
    (htoken : c'.native = .idle ∨ c'.native = .dispatched →
      (c.native = .idle ∨ c.native = .dispatched) ∧ c'.fetch_token = c.fetch_token) : c'.Asked := by
  refine ⟨?_, ?_, ?_, ?_⟩
  · intro halloc
    rw [hbody]
    rcases hjs with hsame | ⟨hnot, -⟩
    · exact h.writer (hsame.symm.trans halloc)
    · exact absurd halloc hnot
  · intro halloc
    rw [hbody, hsignal]
    rcases hjs with hsame | ⟨-, hnot⟩
    · exact h.token (hsame.symm.trans halloc)
    · exact absurd halloc hnot
  · intro hup
    rw [hbody]
    exact h.upload (hupload hup)
  · intro hnative hne
    rw [hbody, hsignal]
    obtain ⟨hbefore, hsame⟩ := htoken hnative
    exact h.fetch_token hbefore (hsame ▸ hne)

/-- The function is past its allocations. -/
theorem Call.Asked.js {c : Call} (h : c.Asked) {js : Js} (hpast : Js.past c.js js) :
    Call.Asked { c with js := js } :=
  h.turn rfl rfl hpast id fun hnative => ⟨hnative, rfl⟩

/-- The native side goes on; the token may be its own. -/
theorem Call.Asked.native {c : Call} (h : c.Asked) {native : Native} (token : Option ℕ)
    (hidle : native ≠ .idle) (hdispatched : native ≠ .dispatched) :
    Call.Asked { c with native := native, fetch_token := token } := by
  refine h.turn rfl rfl (.inl rfl) id ?_
  rintro (hno | hno)
  · exact absurd hno hidle
  · exact absurd hno hdispatched

/-- An upload that goes on asks for the same body. -/
theorem Call.Asked.set_upload {c : Call} (h : c.Asked) {up : Upload} (hup : c.upload = some up)
    (up' : Upload) : Call.Asked { c with upload := some up' } := by
  refine h.turn rfl rfl (.inl rfl) ?_ fun hnative => ⟨hnative, rfl⟩
  rw [hup]
  exact fun _ hno => by cases hno

namespace State

variable {K : Type} {M : Type → Type} [SlotMap K M] {s s' : State M} {u : ℕ} {c : Call}

/-- Every fetch asks for its own body. -/
def Asked (s : State M) : Prop := ∀ (u : ℕ) c, s.calls[u]? = some c → c.Asked

theorem asked_start (adapter : Adapter) (max_chunk : ℕ) (config : StoreConfig) :
    (start adapter max_chunk config : State M).Asked := by
  intro v c h
  cases h

theorem Asked.set_call (h : s.Asked) (hc : s.calls[u]? = some c) {c' : Call} (hc' : c'.Asked) :
    (s.set_call u c').Asked := by
  intro v c₁ h₁
  rcases set_call_call hc h₁ with ⟨-, rfl⟩ | ⟨-, h₁⟩
  · exact hc'
  · exact h v c₁ h₁

theorem Asked.cancel_fetch (h : s.Asked) (c : Call) : (s.cancel_fetch c).Asked := by
  intro v c₁ h₁
  obtain ⟨c₀, h₀, heq⟩ := cancel_fetch_call h₁
  rw [heq]
  exact (h v c₀ h₀).turn rfl rfl (.inl rfl) id fun hnative => ⟨hnative, rfl⟩

theorem Asked.begin_call (h : s.Asked) (has_body has_signal accepted : Bool) :
    (s.begin_call has_body has_signal accepted).Asked := by
  intro v c hv
  by_cases hlt : v < s.calls.length
  · rw [State.begin_call, List.getElem?_append_left hlt] at hv
    exact h v c hv
  · rw [State.begin_call, List.getElem?_append_right (by omega)] at hv
    rw [List.mem_singleton.mp (List.mem_of_getElem? hv)]
    refine ⟨?_, ?_, fun hno => absurd rfl hno, fun _ hno => absurd rfl hno⟩
    · cases accepted <;> cases has_body <;> cases has_signal <;> simp
    · cases accepted <;> cases has_body <;> cases has_signal <;> simp

theorem past_thrown (js : Js) : Js.past js .thrown := .inr ⟨by decide, by decide⟩

theorem past_racing (js : Js) : Js.past js .racing := .inr ⟨by decide, by decide⟩

/-- A fetch without a channel has no token yet. -/
theorem Asked.alloc_body_writer (h : s.Asked) (hc : s.calls[u]? = some c)
    (hjs : c.js = .alloc_body_writer) (endpoint : Bool) (now : Instant) :
    (s.alloc_body_writer u c endpoint now).Asked := by
  have hcall := h u c hc
  have hthrown : Call.Asked { c with js := .thrown } := hcall.js (past_thrown _)
  unfold State.alloc_body_writer
  split
  · split
    · exact Asked.set_call (s := { s with bodies := _ }) h hc hthrown
    · refine Asked.set_call (s := { s with bodies := _ }) h hc
        ⟨fun hno => (by cases hno), ?_, ?_, hcall.fetch_token⟩
      · exact fun _ => .inl (hcall.writer hjs)
      · exact fun _ => hcall.writer hjs
  · exact h.set_call hc hthrown

/-- A fetch without a token asks for nothing. -/
theorem Asked.alloc_fetch_token (h : s.Asked) (hc : s.calls[u]? = some c)
    (hjs : c.js = .alloc_fetch_token) (endpoint : Bool) (now : Instant) :
    (s.alloc_fetch_token u c endpoint now).Asked := by
  have hcall := h u c hc
  have hthrown : Call.Asked { c with js := .thrown } := hcall.js (past_thrown _)
  unfold State.alloc_fetch_token
  split
  · split
    · exact Asked.set_call (s := s.set_store _) h hc hthrown
    · refine Asked.set_call (s := s.set_store _) h hc
        ⟨fun hno => (by cases hno), fun hno => (by cases hno), hcall.upload, ?_⟩
      exact fun _ _ => hcall.token hjs
  · exact h.set_call hc hthrown

/-- The native fetch asks for the body of its own channel. -/
theorem Asked.dispatch (h : s.Asked) (hwf : s.Wf) (hc : s.calls[u]? = some c)
    (hjs : c.js = .ready) : (s.dispatch u c).Asked := by
  have hcall := h u c hc
  have hidle := ((hwf u c hc).early (Call.not_late_of_ready hjs)).1
  unfold State.dispatch
  split
  · exact (h.set_call hc (hcall.js (past_thrown _))).cancel_fetch c
  · refine h.set_call hc (hcall.turn rfl rfl (past_racing _) ?_ ?_)
    · exact fun hup hno => hup (by rw [hno, Option.map_none])
    · exact fun _ => ⟨.inl hidle, rfl⟩

theorem Asked.abort (h : s.Asked) (hc : s.calls[u]? = some c) : (s.abort u c).Asked := by
  have hcall := h u c hc
  have hsame : Call.Asked { c with aborted := true } :=
    hcall.turn rfl rfl (.inl rfl) id fun hnative => ⟨hnative, rfl⟩
  unfold State.abort
  split
  · exact (h.set_call hc (hsame.js (past_thrown _))).cancel_fetch c
  · split
    · exact Asked.set_call (s := s.set_store _) h hc hsame
    · exact h.set_call hc hsame
  · exact h.set_call hc hsame

/-- A native fetch that goes on asks for what it asked for. -/
theorem Asked.raw_fetch (h : s.Asked) (hc : s.calls[u]? = some c) (exit : Option Exit)
    (now : Instant) : (s.raw_fetch u c exit now).Asked := by
  apply Asked.set_call (s := { s with bodies := _ }) h hc
  apply (h u c hc).native
  · cases exit <;> exact fun hno => by cases hno
  · cases exit <;> exact fun hno => by cases hno

/-- A native fetch that ends asks for nothing more. -/
theorem Asked.leave (h : s.Asked) (hc : s.calls[u]? = some c) {native : Native}
    (hidle : native ≠ .idle) (hdispatched : native ≠ .dispatched) : (s.leave u c native).Asked :=
  Asked.set_call (s := s.set_store _) h hc ((h u c hc).native c.fetch_token hidle hdispatched)

theorem Asked.package_response (h : s.Asked) (hc : s.calls[u]? = some c) (head : Head)
    (now : Instant) : (s.package_response u c head now).Asked := by
  have hfinished : ∀ r, Call.Asked { c with native := .finished r } := fun r =>
    (h u c hc).native c.fetch_token (fun hno => by cases hno) fun hno => by cases hno
  unfold State.package_response
  split
  · exact h.set_call hc (hfinished _)
  · exact h.set_call hc (hfinished _)
  · split
    · exact h.set_call hc (hfinished _)
    · split
      · exact Asked.set_call (s := s.set_store _) h hc (hfinished _)
      · exact Asked.set_call (s := s.set_store _) h hc (hfinished _)

theorem Asked.settle (h : s.Asked) (hc : s.calls[u]? = some c) (response : Option Response) :
    (s.settle u c response).Asked := by
  have hcall := h u c hc
  unfold State.settle
  split
  · exact h.set_call hc (hcall.js (past_thrown _))
  · refine h.set_call hc (hcall.js ?_)
    split
    · exact .inr ⟨by decide, by decide⟩
    · exact past_thrown _

/-- **Nothing is allocated that was not asked for.** -/
theorem Asked.move (h : s.Asked) (hwf : s.Wf) {a : Label} (hm : Move s a s') : s'.Asked := by
  cases hm with
  | begin_call => exact h.begin_call _ _ _
  | alloc_body_writer hc hjs => exact h.alloc_body_writer hc hjs _ _
  | alloc_fetch_token hc hjs => exact h.alloc_fetch_token hc hjs _ _
  | dispatch hc hjs => exact h.dispatch hwf hc hjs
  | abort hc hsignal => exact h.abort hc
  | raw_fetch hc hn => exact h.raw_fetch hc _ _
  | response_head hc hn => exact h.leave hc (fun hno => by cases hno) fun hno => by cases hno
  | fetch_error hc hn => exact h.leave hc (fun hno => by cases hno) fun hno => by cases hno
  | cancelled hc hn hpermit => exact h.leave hc (fun hno => by cases hno) fun hno => by cases hno
  | package_response hc hn => exact h.package_response hc _ _
  | settle hc hjs hn => exact h.settle hc _
  | release_response hc hjs hn => exact h
  | @source_yields u c up chunk hc hup hp => exact h.set_call hc ((h u c hc).set_upload hup _)
  | @source_ends u c up hc hup hp => exact h.set_call hc ((h u c hc).set_upload hup _)
  | @source_fails u c up hc hup hp => exact h.set_call hc ((h u c hc).set_upload hup _)
  | @send_chunk u c up piece rest now hc hup hp =>
      exact Asked.set_call (s := { s with bodies := _ }) h hc ((h u c hc).set_upload hup _)
  | @send_resolves u call channel c up rest hc hup hp hx =>
      exact h.set_call hc ((h u c hc).set_upload hup _)
  | @send_rejects u call channel c up rest piece left hc hup hp hx =>
      exact h.set_call hc ((h u c hc).set_upload hup _)
  | @adapter_fails u c up hc hup hp => exact h.set_call hc ((h u c hc).set_upload hup _)
  | @finish_body u c up hc hup hp =>
      exact Asked.set_call (s := { s with bodies := _ }) h hc ((h u c hc).set_upload hup _)
  | @pipe_catch u c up hc hup hp =>
      exact (h.set_call hc ((h u c hc).set_upload hup _)).cancel_fetch c
  | bodies ha hb => exact h

end State

end IrohHttp.FetchCalls
