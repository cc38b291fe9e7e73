/-
One delivered request on the JavaScript side: the request callback that
`makeServe` of `iroh-http-shared/src/serve.ts` hands to `rawServe`, `pipeToWriter`
of `iroh-http-shared/src/streams.ts`, and the code of the Node and Deno adapters
that answers with what the callback returns: `rawServe` of
`iroh-http-node/lib.ts` over `raw_respond`, and `rawServe` and `syncRespond` of
`iroh-http-deno/src/adapter.ts` over `iroh_http_respond`.

JavaScript runs from one await to the next, so a step is what happens when an
awaited promise settles. The callback is one task and the body pipe another; in
between, a `sendChunk` may fail at any time, the native side may drop the
dispatch, sweep its entries or close the endpoint.

A handler may return anything, and so may `onError`. Of such a value the model
has what each operation that the code performs on it gives: `Value`. What the
platform makes of the payload (`new Headers`, `new Request`) is a parameter.
Handles come across unchanged here; `HandleNumbers.lean` is about that.
-/
import IrohHttp.Machine
import IrohHttp.Rendezvous
import Mathlib.Data.List.Defs

set_option autoImplicit false

open Machine

namespace IrohHttp.Shared

open IrohHttp.Http IrohHttp.Dispatcher

/-! ## Header rows at the adapter boundary -/

/-- Adapter-boundary input validation error. -/
inductive AdapterInputError
  | InvalidNodeId
  | InvalidUrl
  | InputTooLarge (field : String) (max got : ℕ)
  | InvalidEncoding (field : String)
  | InvalidArgument (field reason : String)
  deriving DecidableEq, Repr

/-- `MAX_HEADER_COUNT`. -/
def MAX_HEADER_COUNT : ℕ := 100

/-- `MAX_HEADER_NAME_LEN`. -/
def MAX_HEADER_NAME_LEN : ℕ := 256

/-- `MAX_HEADER_VALUE_LEN`. -/
def MAX_HEADER_VALUE_LEN : ℕ := 8192

/-- `validate_bounded_string`: the empty string, one of too many bytes, and one with a null byte are
refused. -/
def validate_bounded_string (field value : String) (max_len : ℕ) :
    Except AdapterInputError Unit :=
  let bytes := as_bytes value
  if bytes.isEmpty then .error (.InvalidArgument field "must not be empty")
  else if max_len < bytes.length then .error (.InputTooLarge field max_len bytes.length)
  else if bytes.contains 0 then .error (.InvalidEncoding field)
  else .ok ()

/-- The loop of `validate_header_rows`. -/
def validate_rows : List (List String) → Except AdapterInputError (List (String × String))
  | [] => .ok []
  | [name, value] :: rest => do
    validate_bounded_string "headerName" name MAX_HEADER_NAME_LEN
    validate_bounded_string "headerValue" value MAX_HEADER_VALUE_LEN
    let pairs ← validate_rows rest
    return (name, value) :: pairs
  | _ :: _ => .error (.InvalidArgument "headers" "each header must be [name, value]")

/-- `validate_header_rows`: the count first, then row by row. -/
def validate_header_rows (headers : List (List String)) :
    Except AdapterInputError (List (String × String)) :=
  if MAX_HEADER_COUNT < headers.length then
    .error (.InputTooLarge "headers" MAX_HEADER_COUNT headers.length)
  else validate_rows headers

/-- The rows that `iroh_http_respond` keeps: one of another length is left out. -/
def filter_rows (rows : List (List String)) : List (String × String) :=
  rows.filterMap fun
    | [name, value] => some (name, value)
    | _ => none

/-- `n as u16`. -/
def as_u16 (n : ℕ) : ℕ := n % 65536

/-! ## JavaScript values -/

/-- How an operation ends: with a value, or with a throw or a rejection. -/
inductive Completion (α : Type)
  | normal (a : α)
  | thrown
  deriving DecidableEq, Repr

/-- A body stream by what `pipeToWriter` gets from it. A read gives `none` where
the value has no bytes to send; after the last read the stream ends, or fails. -/
structure Stream where
  get_reader : Bool
  reads : List (Option Bytes)
  failed : Bool
  release_lock : Bool
  deriving DecidableEq, Repr

/-- `[...res.headers]` as it crosses to the native side: rows of strings, or
something else, which `JSON.stringify` may refuse. -/
inductive Rows
  | strings (rows : List (List String))
  | foreign (json : Bool)
  deriving DecidableEq, Repr

/-- A value used as a response. Its body is `none` where `res.body` is falsy, its
status `none` where it is no `u32` to the native call. -/
structure Value where
  body : Completion (Option Stream)
  array_buffer : Completion Bytes
  status : Completion (Option ℕ)
  headers : Completion Rows
  deriving DecidableEq, Repr

/-- A stream of one chunk. -/
def Stream.of (b : Bytes) : Stream := ⟨true, if b.isEmpty then [] else [some b], false, true⟩

/-- `new Response(text, { status, headers })`. -/
def Value.response (status : ℕ) (headers : List (List String)) (text : String) : Value where
  body := .normal (some (Stream.of (as_bytes text)))
  array_buffer := .normal (as_bytes text)
  status := .normal (some status)
  headers := .normal (.strings headers)

/-- `undefined`, or any other value without these properties. -/
def Value.undefined : Value := ⟨.thrown, .thrown, .thrown, .thrown⟩

/-- The callback's own fallback, `new Response("Internal Server Error", { status: 500 })`. -/
def internal_server_error : Value :=
  Value.response 500 [["content-type", "text/plain;charset=UTF-8"]] "Internal Server Error"

/-- How the handler's promise settles; `is_response` is the `instanceof` test. -/
inductive Handled
  | returns (res : Value) (is_response : Bool)
  | throws
  deriving DecidableEq, Repr

/-! ## The request -/

/-- `RequestPayload`, as far as the callback reads it. -/
structure RequestPayload where
  req_handle : ℕ
  method : String
  url : String
  headers : List (String × String)
  deriving DecidableEq, Repr

/-- The methods of `METHODS_WITHOUT_BODY`. -/
def METHODS_WITHOUT_BODY : List String := ["GET", "HEAD", "CONNECT", "TRACE"]

/-- The request has a body: the method, in capitals, is none of those without. -/
def RequestPayload.has_body (payload : RequestPayload) : Bool :=
  !METHODS_WITHOUT_BODY.any fun m => m.toList == payload.method.toList.map Char.toUpper

/-- The constructors of the platform: which calls do not throw. -/
structure WebPlatform where
  /-- `new Headers(headers)`. -/
  headers : List (String × String) → Bool
  /-- `new Request(url, { method, body })`, with a body or without one. -/
  request : String → String → Bool → Bool

/-- The `Request` for the handler can be built. -/
def builds_request (web : WebPlatform) (payload : RequestPayload) : Bool :=
  web.headers payload.headers && web.request payload.url payload.method payload.has_body

/-- The two adapters whose callback is modelled. -/
inductive Adapter
  | node
  | deno
  deriving DecidableEq, Repr

/-- One call of the callback: the payload, how the handler and `onError` settle,
and the options of `makeServe` that matter. -/
structure Call where
  adapter : Adapter
  payload : RequestPayload
  handler : Handled
  on_error : Completion Value
  max_chunk_size_bytes : Option ℕ
  deriving DecidableEq, Repr

namespace Call

/-- `res` when the handler failed: what `onError` returned, unchecked. -/
def recovered (c : Call) : Value :=
  match c.on_error with
  | .normal res => res
  | .thrown => internal_server_error

/-- The size of the largest piece handed to `sendChunk`. -/
def max_chunk (c : Call) : ℕ :=
  match c.max_chunk_size_bytes with
  | some n => if 0 < n then n else 64 * 1024
  | none => 64 * 1024

/-- The pieces of a chunk, in order. -/
def pieces (c : Call) (b : Bytes) : List Bytes :=
  if b.length ≤ c.max_chunk then [b] else b.toChunks c.max_chunk

end Call

/-! ## States -/

/-- The adapter's task for the request, at the promise it awaits: the handler's,
that of `onError`, `arrayBuffer` or the pipe; then the callback's own promise, in
the last step before the task is done. -/
inductive Task
  | delivered
  | handling
  | recovering
  | buffering (res : Value) (handler_failed : Bool)
  | piping (res : Value)
  | resolved (status : Option ℕ) (headers : Rows)
  | rejected
  | done
  deriving DecidableEq, Repr

/-- `pipeToWriter`: at a `read`, or at the `sendChunk` of a piece with more to
come. -/
inductive Pipe
  | idle
  | reading (stream : Stream) (reads : List (Option Bytes))
  | sending (stream : Stream) (pieces : List Bytes) (reads : List (Option Bytes))
  | settled
  deriving DecidableEq, Repr

/-- Why a native respond failed. -/
inductive RespondError
  | arguments
  | endpoint_gone
  | adapter (e : AdapterInputError)
  | json
  | core (e : CoreError)
  deriving DecidableEq, Repr

/-- The two tasks, and what the native side holds for the request: whether the
endpoint is registered, the sender parked, the dispatch waiting and the writer
open. `responds` and `finished` record what the native calls returned. -/
structure Exchange where
  task : Task
  pipe : Pipe
  endpoint : Bool
  sender : Bool
  receiver : Bool
  writer : Bool
  responds : List (Except RespondError Unit)
  finished : Bool

/-- The steps. -/
inductive Event
  | callback
  | handler
  | on_error
  | array_buffer
  | piped
  | answer
  | read
  | sent (ok : Bool)
  | cancel
  | sweep_head
  | sweep_writer
  | close_endpoint
  deriving DecidableEq, Repr

namespace Exchange

/-- A request has been delivered; nothing has run yet. -/
def start : Exchange := ⟨.delivered, .idle, true, true, true, true, [], false⟩

/-! ### Responding -/

/-- Record what a native respond returned. -/
def returned (s : Exchange) (result : Except RespondError Unit) : Exchange :=
  { s with responds := s.responds ++ [result] }

/-- `respond` of the core on this request's handle: the sender is taken once the
head is valid, and sends if the dispatch still waits. -/
def respond (http : HttpCrate) (req_handle : ℕ) (s : Exchange) (head : ResponseHeadEntry) :
    Exchange :=
  match validate http head with
  -- the sender stays where it is, so a second respond could still succeed
  | .error e => s.returned (.error (.core e))
  | .ok _ =>
    if s.sender then
      let s := { s with sender := false }
      if s.receiver then s.returned (.ok ())
      else s.returned (.error (.core (CoreError.internal "serve task dropped before respond")))
    else s.returned (.error (.core (CoreError.invalid_handle req_handle)))

/-- `napiRawRespond`, which throws on every error. -/
def raw_respond (http : HttpCrate) (req_handle : ℕ) (s : Exchange) (status : Option ℕ)
    (headers : Rows) : Exchange :=
  match status, headers with
  | some status, .strings rows =>
    if s.endpoint then
      match validate_header_rows rows with
      | .error e => s.returned (.error (.adapter e))
      | .ok pairs => s.respond http req_handle ⟨as_u16 status, pairs⟩
    else s.returned (.error .endpoint_gone)
  | _, _ => s.returned (.error .arguments)

/-- `iroh_http_respond` of the Deno adapter: the endpoint is looked up, then the rows are read as
strings. -/
def iroh_http_respond (http : HttpCrate) (req_handle : ℕ) (s : Exchange) (status : ℕ)
    (headers : Rows) : Exchange :=
  if s.endpoint then
    match headers with
    | .strings rows => s.respond http req_handle ⟨as_u16 status, filter_rows rows⟩
    | .foreign _ => s.returned (.error .json)
  else s.returned (.error .endpoint_gone)

/-- `none` where it throws, before the native call. A negative return value is
dropped. -/
def sync_respond (http : HttpCrate) (req_handle : ℕ) (s : Exchange) (status : Option ℕ)
    (headers : Rows) : Option Exchange :=
  match headers, status with
  -- `JSON.stringify` throws, or the FFI call refuses the status
  | .foreign false, _ => none
  | _, none => none
  | headers, some status => some (s.iroh_http_respond http req_handle status headers)

/-- The adapter's continuation of a resolved callback. The Node adapter only logs
a respond that throws; the Deno adapter falls back to a bare 500. -/
def answer (http : HttpCrate) (c : Call) (s : Exchange) (status : Option ℕ) (headers : Rows) :
    Exchange :=
  match c.adapter with
  -- the inner `catch` of the `.then` keeps the `.catch` behind it from running
  | .node => s.raw_respond http c.payload.req_handle status headers
  | .deno =>
    match s.sync_respond http c.payload.req_handle status headers with
    | some s' => s'
    | none => s.iroh_http_respond http c.payload.req_handle 500 (.strings [])

/-- The adapter's continuation of a rejected callback. -/
def fall_back (http : HttpCrate) (c : Call) (s : Exchange) : Exchange :=
  match c.adapter with
  | .node => s.raw_respond http c.payload.req_handle (some 500) (.strings [])
  | .deno => s.iroh_http_respond http c.payload.req_handle 500 (.strings [])

/-! ### The pipe -/

/-- `finishBody`; both of its callers go on when it throws. -/
def finish_body (s : Exchange) : Exchange :=
  if s.endpoint && s.writer then { s with writer := false, finished := true } else s

/-- `getReader` stands before the `try`: where it throws, nothing is finished. -/
def start_pipe (s : Exchange) (stream : Stream) : Exchange :=
  if stream.get_reader then { s with pipe := .reading stream stream.reads }
  else { s with pipe := .settled }

/-- The `finally` of `pipeToWriter`: the lock is released, then the writer is
finished, also after an error. -/
def end_pipe (s : Exchange) (stream : Stream) : Exchange :=
  if stream.release_lock then { s with pipe := .settled }.finish_body
  else { s with pipe := .settled }

/-- The next read of the response's stream. An empty chunk is skipped, and the end of the stream
ends the pipe. -/
def read (c : Call) (s : Exchange) (stream : Stream) : List (Option Bytes) → Exchange
  | [] => s.end_pipe stream
  | none :: rest => { s with pipe := .reading stream rest }
  | some b :: rest =>
    if b.isEmpty then { s with pipe := .reading stream rest }
    else { s with pipe := .sending stream (c.pieces b) rest }

/-- A send of a piece came back. A failed one ends the pipe. -/
def sent (s : Exchange) (stream : Stream) (ok : Bool) (pieces : List Bytes)
    (reads : List (Option Bytes)) : Exchange :=
  if ok then
    match pieces with
    -- a piece of this chunk is left, or the next read is due
    | _ :: p :: rest => { s with pipe := .sending stream (p :: rest) reads }
    | _ => { s with pipe := .reading stream reads }
  else s.end_pipe stream

/-! ### The callback -/

/-- `{ status: res.status, headers: [...res.headers] }`. -/
def head_of (res : Value) : Task :=
  match res.status, res.headers with
  | .normal status, .normal headers => .resolved status headers
  | _, _ => .rejected

/-- A failed handler's pipe is awaited before the head is returned. -/
def send_body (s : Exchange) (res : Value) (handler_failed : Bool) (stream : Stream) : Exchange :=
  { s.start_pipe stream with task := if handler_failed then .piping res else head_of res }

/-- From `res` to the next await. -/
def use_body (s : Exchange) (res : Value) (handler_failed : Bool) : Exchange :=
  match res.body with
  | .normal (some stream) => s.send_body res handler_failed stream
  | .normal none => { s with task := .buffering res handler_failed }
  | .thrown => { s with task := .rejected }

/-- One step of the exchange: the callback, the handler, `onError`, the answer, or the pipe. -/
def step (web : WebPlatform) (http : HttpCrate) (c : Call) (s : Exchange) :
    Event → Option Exchange
  | .callback =>
    match s.task with
    -- a throw before the handler is called rejects the callback; `onError` is not asked
    | .delivered =>
      some { s with task := if builds_request web c.payload then .handling else .rejected }
    | _ => none
  | .handler =>
    match s.task with
    | .handling =>
      -- what is no `Response` is thrown as a `TypeError`, into the same `catch`
      match c.handler with
      | .returns res true => some (s.use_body res false)
      | _ => some { s with task := .recovering }
    | _ => none
  | .on_error =>
    match s.task with
    | .recovering => some (s.use_body c.recovered true)
    | _ => none
  | .array_buffer =>
    match s.task with
    | .buffering res handler_failed =>
      match res.array_buffer with
      | .normal buffered => some (s.send_body res handler_failed (Stream.of buffered))
      | .thrown => some { s with task := .rejected }
    | _ => none
  | .piped =>
    match s.task, s.pipe with
    -- the pipe's own rejection was caught and logged
    | .piping res, .settled => some { s with task := head_of res }
    | _, _ => none
  | .answer =>
    match s.task with
    | .resolved status headers => some { s.answer http c status headers with task := .done }
    | .rejected => some { s.fall_back http c with task := .done }
    | _ => none
  | .read =>
    match s.pipe with
    | .reading stream reads => some (s.read c stream reads)
    | _ => none
  | .sent ok =>
    match s.pipe with
    | .sending stream pieces reads => some (s.sent stream ok pieces reads)
    | _ => none
  | .cancel => some { s with receiver := false }
  | .sweep_head => some { s with sender := false }
  | .sweep_writer => some { s with writer := false }
  | .close_endpoint => some { s with endpoint := false }

/-! ## When a request terminates -/

/-- How many responds succeeded. -/
def answered (s : Exchange) : ℕ := s.responds.countP Except.isOk

/-- Both tasks are over. -/
def Settled (s : Exchange) : Prop := s.task = .done ∧ (s.pipe = .idle ∨ s.pipe = .settled)

/-- One respond succeeded, and the writer is finished. -/
def Terminated (s : Exchange) : Prop := s.answered = 1 ∧ s.finished = true

/-- The native side neither drops a request that is not answered nor a writer
that is not finished. -/
def Undisturbed (s : Exchange) : Event → Prop
  | .cancel => 0 < s.answered
  | .sweep_head => 0 < s.answered
  | .sweep_writer => s.finished = true
  | .close_endpoint => 0 < s.answered ∧ s.finished = true
  | _ => True

end Exchange

/-- The stream that is piped for a response: its body, or a copy of its bytes. -/
def Value.stream (res : Value) : Option Stream :=
  match res.body with
  | .normal (some stream) => some stream
  -- a platform that shows no `body` stream still has the bytes
  | .normal none =>
    match res.array_buffer with
    | .normal buffered => some (Stream.of buffered)
    | .thrown => none
  | .thrown => none

/-- The bare 500 of both adapters. -/
def bare_500 : ResponseHeadEntry := ⟨500, []⟩

/-- What the core is asked to respond with, if it is asked at all. -/
def Adapter.head : Adapter → Option ℕ → Rows → Option ResponseHeadEntry
  | .node, some status, .strings rows =>
    (validate_header_rows rows).toOption.map fun pairs => ⟨as_u16 status, pairs⟩
  | .node, _, _ => none
  | .deno, _, .foreign false => some bare_500
  | .deno, none, _ => some bare_500
  | .deno, some status, .strings rows => some ⟨as_u16 status, filter_rows rows⟩
  | .deno, some _, .foreign true => none

/-- The same for a response: one whose head cannot be read is a rejected callback. -/
def Value.head (adapter : Adapter) (res : Value) : Option ResponseHeadEntry :=
  match res.status, res.headers with
  | .normal status, .normal headers => adapter.head status headers
  | _, _ => some bare_500

/-- The value the callback takes for the response. -/
def Call.res (c : Call) : Value :=
  match c.handler with
  | .returns res true => res
  | _ => c.recovered

/-- The stream of that value, where the callback comes so far. -/
def Call.stream (web : WebPlatform) (c : Call) : Option Stream :=
  if builds_request web c.payload then c.res.stream else none

/-- The core accepts this head. -/
def Accepted (http : HttpCrate) (head : Option ResponseHeadEntry) : Prop :=
  ∃ h, head = some h ∧ validate http h = .ok ()

/-- The request can be built, the response has a body that can be read and
released, and its head is accepted. -/
def Answerable (web : WebPlatform) (http : HttpCrate) (c : Call) : Prop :=
  (∃ stream, c.stream web = some stream ∧ stream.get_reader = true ∧ stream.release_lock = true) ∧
    Accepted http (c.res.head c.adapter)

namespace Exchange

variable {web : WebPlatform} {http : HttpCrate} {c : Call} {s s' : Exchange} {e : Event}

/-! ### What a respond does -/

/-- The native side would still take an answer. -/
def Live (s : Exchange) : Prop := s.endpoint = true ∧ s.sender = true ∧ s.receiver = true

/-- One native respond was made, and succeeded as `ok` says. -/
def Responds (s s' : Exchange) (ok : Prop) : Prop :=
  ∃ b r, s' = { s with sender := b, responds := s.responds ++ [r] } ∧
    (b = true → s.sender = true) ∧ (r.isOk = true ↔ ok)

theorem responds_error (s : Exchange) (err : RespondError) {ok : Prop} (hno : ¬ ok) :
    Responds s (s.returned (.error err)) ok :=
  ⟨s.sender, .error err, rfl, id, by simp only [Except.isOk, Except.toBool, Bool.false_eq_true,
    hno]⟩

/-- `respond` succeeds when the head is accepted and the request still waits. -/
theorem respond_spec (http : HttpCrate) (h : ℕ) (s : Exchange) (head : ResponseHeadEntry)
    (hend : s.endpoint = true) :
    Responds s (s.respond http h head) (Accepted http (some head) ∧ s.Live) := by
  unfold respond
  cases hv : validate http head with
  | error err =>
      refine responds_error s _ fun hok => ?_
      obtain ⟨⟨h', hh', hvalid⟩, -⟩ := hok
      rw [← Option.some.inj hh', hv] at hvalid
      cases hvalid
  | ok u =>
      dsimp only
      by_cases hsend : s.sender = true
      · rw [if_pos hsend]
        by_cases hrecv : s.receiver = true
        · rw [if_pos hrecv]
          refine ⟨false, .ok (), rfl, nofun, ?_⟩
          exact iff_of_true rfl ⟨⟨head, rfl, hv⟩, hend, hsend, hrecv⟩
        · rw [if_neg hrecv]
          refine ⟨false, _, rfl, nofun, ?_⟩
          exact iff_of_false Bool.false_ne_true fun hok => hrecv hok.2.2.2
      · rw [if_neg hsend]
        exact responds_error s _ fun hok => hsend hok.2.2.1

theorem not_accepted_none (http : HttpCrate) : ¬ Accepted http none := by
  rintro ⟨h, hh, -⟩
  cases hh

/-- `rawRespond` of the Node adapter does. -/
theorem raw_respond_spec (http : HttpCrate) (h : ℕ) (s : Exchange) (status : Option ℕ)
    (headers : Rows) :
    Responds s (s.raw_respond http h status headers)
      (Accepted http (Adapter.node.head status headers) ∧ s.Live) := by
  unfold raw_respond
  split
  · next status rows =>
    have hhead : Adapter.node.head (some status) (.strings rows)
        = (validate_header_rows rows).toOption.map fun pairs => ⟨as_u16 status, pairs⟩ := rfl
    rw [hhead]
    by_cases hend : s.endpoint = true
    · rw [if_pos hend]
      cases hrows : validate_header_rows rows with
      | error err => exact responds_error s _ fun hok => not_accepted_none http hok.1
      | ok pairs => exact respond_spec http h s ⟨as_u16 status, pairs⟩ hend
    · rw [if_neg hend]
      exact responds_error s _ fun hok => hend hok.2.1
  · next hno =>
    have hnone : Adapter.node.head status headers = none := by
      unfold Adapter.head
      split <;> simp_all
    rw [hnone]
    exact responds_error s _ fun hok => not_accepted_none http hok.1

/-- `iroh_http_respond` of the Deno adapter does. -/
theorem iroh_http_respond_spec (http : HttpCrate) (h : ℕ) (s : Exchange) (status : ℕ)
    (rows : List (List String)) :
    Responds s (s.iroh_http_respond http h status (.strings rows))
      (Accepted http (some ⟨as_u16 status, filter_rows rows⟩) ∧ s.Live) := by
  unfold iroh_http_respond
  by_cases hend : s.endpoint = true
  · rw [if_pos hend]
    exact respond_spec http h s _ hend
  · rw [if_neg hend]
    exact responds_error s _ fun hok => hend hok.2.1

/-- What an adapter does with a resolved callback. -/
theorem answer_spec (http : HttpCrate) (c : Call) (s : Exchange) (status : Option ℕ)
    (headers : Rows) :
    Responds s (s.answer http c status headers)
      (Accepted http (c.adapter.head status headers) ∧ s.Live) := by
  unfold answer
  cases c.adapter with
  | node => exact raw_respond_spec http c.payload.req_handle s status headers
  | deno =>
      -- on Deno what cannot be passed to the native call at all becomes the bare 500
      rcases headers with rows | json
      · cases status with
        | none => exact iroh_http_respond_spec http c.payload.req_handle s 500 []
        | some status => exact iroh_http_respond_spec http c.payload.req_handle s status rows
      · cases json with
        | false => exact iroh_http_respond_spec http c.payload.req_handle s 500 []
        | true =>
            cases status with
            | none => exact iroh_http_respond_spec http c.payload.req_handle s 500 []
            | some status =>
                dsimp only [sync_respond, iroh_http_respond]
                split <;> exact responds_error s _ fun hok => not_accepted_none http hok.1

/-- And with a rejected one. -/
theorem fall_back_spec (http : HttpCrate) (c : Call) (s : Exchange) :
    Responds s (s.fall_back http c) (Accepted http (some bare_500) ∧ s.Live) := by
  unfold fall_back
  cases c.adapter with
  | node => exact raw_respond_spec http c.payload.req_handle s (some 500) (.strings [])
  | deno => exact iroh_http_respond_spec http c.payload.req_handle s 500 []

/-! ### What is left to do -/

/-- The JavaScript side's own steps: a promise it awaits settles. -/
def own : Event → Bool
  | .cancel => false
  | .sweep_head => false
  | .sweep_writer => false
  | .close_endpoint => false
  | _ => true

/-- A bound on the steps of the pipe for these reads. -/
def reads_left (c : Call) : List (Option Bytes) → ℕ
  | [] => 1
  | none :: rest => reads_left c rest + 1
  | some b :: rest => (c.pieces b).length + 2 + reads_left c rest

/-- How many steps the pipe has left. -/
def pipe_left (c : Call) : Pipe → ℕ
  | .idle => 0
  | .reading _ reads => reads_left c reads
  | .sending _ pieces reads => pieces.length + 1 + reads_left c reads
  | .settled => 0

/-- The same for the pipe that a response will start. -/
def stream_left (c : Call) (res : Value) : ℕ :=
  match res.stream with
  | some stream => reads_left c stream.reads
  | none => 0

/-- A bound on the steps of the task, with those of the pipe it is to start. -/
def task_left (c : Call) : Task → ℕ
  | .delivered => 6 + stream_left c c.res
  | .handling => 5 + stream_left c c.res
  | .recovering => 4 + stream_left c c.recovered
  | .buffering res _ =>
    match res.array_buffer with
    | .normal buffered => 3 + reads_left c (Stream.of buffered).reads
    | .thrown => 3
  | .piping _ => 2
  | .resolved _ _ => 1
  | .rejected => 1
  | .done => 0

/-- How many steps the exchange has left. -/
def left (c : Call) (s : Exchange) : ℕ := task_left c s.task + pipe_left c s.pipe

/-- The head of a response is there, or the callback is rejected. -/
theorem head_of_cases (res : Value) :
    (∃ status headers, head_of res = .resolved status headers ∧
      ∀ adapter, res.head adapter = Adapter.head adapter status headers) ∨
    (head_of res = .rejected ∧ ∀ adapter, res.head adapter = some bare_500) := by
  obtain ⟨body, array_buffer, status, headers⟩ := res
  cases status with
  | normal status =>
      cases headers with
      | normal headers => exact .inl ⟨status, headers, rfl, fun _ => rfl⟩
      | thrown => exact .inr ⟨rfl, fun _ => rfl⟩
  | thrown => exact .inr ⟨rfl, fun _ => rfl⟩

theorem start_pipe_eq (s : Exchange) (stream : Stream) :
    s.start_pipe stream = { s with pipe :=
      if stream.get_reader then .reading stream stream.reads else .settled } := by
  unfold start_pipe
  split <;> rfl

/-! ### What a step does -/

/-- The value that the task is about to take for the response. -/
inductive Takes (c : Call) : Task → Value → Prop
  | handling : Takes c .handling c.res
  | recovering : Takes c .recovering c.recovered

/-- The task goes on to another await, or comes to the end of the callback,
without the pipe. -/
inductive Next (web : WebPlatform) (c : Call) (pipe : Pipe) : Task → Task → Prop
  | built (h : builds_request web c.payload = true) : Next web c pipe .delivered .handling
  | unbuilt (h : ¬ builds_request web c.payload = true) : Next web c pipe .delivered .rejected
  | failed (h : c.res = c.recovered) : Next web c pipe .handling .recovering
  | buffers {task : Task} {res : Value} {handler_failed : Bool} (h : Takes c task res)
      (hbody : res.body = .normal none) : Next web c pipe task (.buffering res handler_failed)
  | bodiless {task : Task} {res : Value} (h : Takes c task res) (hbody : res.body = .thrown) :
      Next web c pipe task .rejected
  | unbuffered {res : Value} {handler_failed : Bool} (h : res.array_buffer = .thrown) :
      Next web c pipe (.buffering res handler_failed) .rejected
  | piped {res : Value} (h : pipe = .settled) : Next web c pipe (.piping res) (head_of res)

/-- The task has a body to pipe. -/
inductive Sends (c : Call) : Task → Value → Stream → Prop
  | body {task : Task} {res : Value} {stream : Stream} (h : Takes c task res)
      (hbody : res.body = .normal (some stream)) : Sends c task res stream
  | buffered {res : Value} {handler_failed : Bool} {b : Bytes} (h : res.array_buffer = .normal b) :
      Sends c (.buffering res handler_failed) res (Stream.of b)

/-- The callback is over, and this is what the adapter asks the core for. -/
inductive Answers (c : Call) : Task → Option ResponseHeadEntry → Prop
  | resolved {status : Option ℕ} {headers : Rows} :
      Answers c (.resolved status headers) (c.adapter.head status headers)
  | rejected : Answers c .rejected (some bare_500)

/-- The pipe is at work on this stream. -/
def Works (stream : Stream) : Pipe → Prop
  | .reading st _ => st = stream
  | .sending st _ _ => st = stream
  | _ => False

/-- **The inversion of a step.** Six things can happen: the task moves, it starts
the pipe, the adapter answers, the pipe moves, it ends, or the native side takes
something away. -/
inductive Move (web : WebPlatform) (http : HttpCrate) (c : Call) (s : Exchange) :
    Event → Exchange → Prop
  | task {e : Event} {task : Task} (hown : own e = true) (h : Next web c s.pipe s.task task) :
      Move web http c s e { s with task := task }
  | send {e : Event} {res : Value} {handler_failed : Bool} {stream : Stream} (hown : own e = true)
      (h : Sends c s.task res stream) : Move web http c s e (s.send_body res handler_failed stream)
  | answer {e : Event} {s₁ : Exchange} {head : Option ResponseHeadEntry} (hown : own e = true)
      (h : Answers c s.task head) (hresp : Responds s s₁ (Accepted http head ∧ s.Live)) :
      Move web http c s e { s₁ with task := .done }
  | pipe {e : Event} {stream : Stream} {pipe : Pipe} (hown : own e = true)
      (h : Works stream s.pipe) (h' : Works stream pipe)
      (hleft : 1 + pipe_left c pipe ≤ pipe_left c s.pipe) :
      Move web http c s e { s with pipe := pipe }
  | close {e : Event} {stream : Stream} (hown : own e = true) (h : Works stream s.pipe)
      (hleft : 1 ≤ pipe_left c s.pipe) : Move web http c s e (s.end_pipe stream)
  | dispose {e : Event} {endpoint sender receiver writer : Bool} (hown : own e = false)
      (hless : (endpoint = true → s.endpoint = true) ∧ (sender = true → s.sender = true) ∧
        (receiver = true → s.receiver = true) ∧ (writer = true → s.writer = true))
      (hlive : s.Undisturbed e →
        0 < s.answered ∨ (endpoint = s.endpoint ∧ sender = s.sender ∧ receiver = s.receiver))
      (hopen : s.Undisturbed e →
        s.finished = true ∨ (endpoint = s.endpoint ∧ writer = s.writer)) :
      Move web http c s e { s with
        endpoint := endpoint, sender := sender, receiver := receiver, writer := writer }

/-- The response's body is used. -/
theorem move_use_body {res : Value} (htakes : Takes c s.task res) (hown : own e = true)
    (handler_failed : Bool) : Move web http c s e (s.use_body res handler_failed) := by
  unfold use_body
  cases hbody : res.body with
  | thrown => exact .task hown (.bodiless htakes hbody)
  | normal body =>
      cases body with
      | none => exact .task hown (.buffers htakes hbody)
      | some stream => exact .send hown (.body htakes hbody)

theorem reads_left_pos (c : Call) (reads : List (Option Bytes)) : 1 ≤ reads_left c reads := by
  unfold reads_left
  split <;> omega

/-- A read of the stream. -/
theorem move_read {stream : Stream} {reads : List (Option Bytes)}
    (hpipe : s.pipe = .reading stream reads) :
    Move web http c s .read (s.read c stream reads) := by
  have hworks : Works stream s.pipe := by rw [hpipe]; rfl
  have hleft : pipe_left c s.pipe = reads_left c reads := by rw [hpipe, pipe_left]
  unfold read
  split
  · exact .close rfl hworks (by rw [hleft]; exact reads_left_pos c _)
  · next rest =>
    refine .pipe rfl hworks rfl ?_
    rw [hleft, pipe_left, reads_left]
    omega
  · next b rest =>
    split
    · refine .pipe rfl hworks rfl ?_
      rw [hleft, pipe_left, reads_left]
      omega
    · refine .pipe rfl hworks rfl ?_
      rw [hleft, pipe_left, reads_left]
      omega

/-- A send that came back. -/
theorem move_sent {stream : Stream} {pieces : List Bytes} {reads : List (Option Bytes)}
    (hpipe : s.pipe = .sending stream pieces reads) (ok : Bool) :
    Move web http c s (.sent ok) (s.sent stream ok pieces reads) := by
  have hworks : Works stream s.pipe := by rw [hpipe]; rfl
  have hleft : pipe_left c s.pipe = pieces.length + 1 + reads_left c reads := by
    rw [hpipe, pipe_left]
  unfold sent
  split
  · split
    · refine .pipe rfl hworks rfl ?_
      rw [hleft, pipe_left]
      simp only [List.length_cons]
      omega
    · refine .pipe rfl hworks rfl ?_
      rw [hleft, pipe_left]
      omega
  · refine .close rfl hworks ?_
    rw [hleft]
    omega

/-- Every step is a move. -/
theorem step_move (h : step web http c s e = some s') : Move web http c s e s' := by
  cases e with
  | callback =>
      simp only [step] at h
      split at h <;> cases h
      next hat =>
      refine .task rfl ?_
      rw [hat]
      split
      · next hbuilds => exact .built hbuilds
      · next hbuilds => exact .unbuilt hbuilds
  | handler =>
      simp only [step] at h
      split at h
      · next hat =>
        split at h
        · next res hres =>
          cases h
          have heq : c.res = res := by rw [Call.res, hres]
          refine move_use_body ?_ rfl false
          rw [hat, ← heq]
          exact .handling
        · next hno =>
          cases h
          have heq : c.res = c.recovered := by
            unfold Call.res
            split
            · next res hres => exact absurd hres (hno res)
            · rfl
          refine .task rfl ?_
          rw [hat]
          exact .failed heq
      · cases h
  | on_error =>
      simp only [step] at h
      split at h <;> cases h
      next hat =>
      refine move_use_body ?_ rfl true
      rw [hat]
      exact .recovering
  | array_buffer =>
      simp only [step] at h
      split at h
      · next hat =>
        split at h
        · next hbuf =>
          cases h
          refine .send rfl ?_
          rw [hat]
          exact .buffered hbuf
        · next hbuf =>
          cases h
          refine .task rfl ?_
          rw [hat]
          exact .unbuffered hbuf
      · cases h
  | piped =>
      simp only [step] at h
      -- `.piped` is the one step that reads both tasks
      split at h <;> cases h
      next hat hpipe =>
      refine .task rfl ?_
      rw [hat]
      exact .piped hpipe
  | answer =>
      simp only [step] at h
      split at h
      · next status headers hat =>
        cases h
        refine .answer rfl ?_ (answer_spec http c s status headers)
        rw [hat]
        exact .resolved
      · next hat =>
        cases h
        refine .answer rfl ?_ (fall_back_spec http c s)
        rw [hat]
        exact .rejected
      · cases h
  | read =>
      simp only [step] at h
      split at h <;> cases h
      next hpipe => exact move_read hpipe
  | sent ok =>
      simp only [step] at h
      split at h <;> cases h
      next hpipe => exact move_sent hpipe ok
  | cancel =>
      cases h
      exact .dispose rfl ⟨id, id, nofun, id⟩ .inl fun _ => .inr ⟨rfl, rfl⟩
  | sweep_head =>
      cases h
      exact .dispose rfl ⟨id, nofun, id, id⟩ .inl fun _ => .inr ⟨rfl, rfl⟩
  | sweep_writer =>
      cases h
      exact .dispose rfl ⟨id, id, id, nofun⟩ (fun _ => .inr ⟨rfl, rfl, rfl⟩) .inl
  | close_endpoint =>
      cases h
      exact .dispose rfl ⟨nofun, id, id, id⟩ (fun hund => .inl hund.1) fun hund => .inl hund.2

/-- No respond has succeeded, and none will. -/
def HeadLost (s : Exchange) : Prop := s.answered = 0 ∧ ¬ s.Live

/-- The writer is not finished, and will not be. -/
def WriterLost (s : Exchange) : Prop := s.finished = false ∧ ¬ (s.endpoint = true ∧ s.writer = true)

theorem answered_append (s : Exchange) (b : Bool) (r : Except RespondError Unit) :
    ({ s with sender := b, responds := s.responds ++ [r] } : Exchange).answered
      = s.answered + if r.isOk then 1 else 0 := by
  simp only [answered, List.countP_append, List.countP_singleton]

/-- A head that is lost stays lost. -/
theorem headLost_step (hlost : s.HeadLost) (h : step web http c s e = some s') : s'.HeadLost := by
  obtain ⟨hzero, hlive⟩ := hlost
  cases step_move h with
  | task => exact ⟨hzero, hlive⟩
  | send =>
      rw [send_body, start_pipe_eq]
      exact ⟨hzero, hlive⟩
  | answer hown hanswers hresp =>
      -- the respond finds the native side gone
      obtain ⟨b, r, rfl, hb, hr⟩ := hresp
      have hfail : ¬ r.isOk = true := fun hok => hlive (hr.mp hok).2
      have happ := answered_append s b r
      rw [if_neg hfail, hzero] at happ
      exact ⟨happ, fun hl => hlive ⟨hl.1, hb hl.2.1, hl.2.2⟩⟩
  | pipe => exact ⟨hzero, hlive⟩
  | close =>
      unfold end_pipe finish_body
      split
      · split <;> exact ⟨hzero, hlive⟩
      · exact ⟨hzero, hlive⟩
  | dispose hown hless =>
      exact ⟨hzero, fun hl => hlive ⟨hless.1 hl.1, hless.2.1 hl.2.1, hless.2.2.1 hl.2.2⟩⟩

/-- A writer left open stays open. -/
theorem writerLost_step (hlost : s.WriterLost) (h : step web http c s e = some s') :
    s'.WriterLost := by
  obtain ⟨hfin, hopen⟩ := hlost
  cases step_move h with
  | task => exact ⟨hfin, hopen⟩
  | send =>
      rw [send_body, start_pipe_eq]
      exact ⟨hfin, hopen⟩
  | answer hown hanswers hresp =>
      obtain ⟨b, r, rfl, -, -⟩ := hresp
      exact ⟨hfin, hopen⟩
  | pipe => exact ⟨hfin, hopen⟩
  | close =>
      unfold end_pipe
      split
      · rw [finish_body, if_neg (by simpa only [Bool.and_eq_true] using hopen)]
        exact ⟨hfin, hopen⟩
      · exact ⟨hfin, hopen⟩
  | dispose hown hless =>
      exact ⟨hfin, fun ho => hopen ⟨hless.1 ho.1, hless.2.2.2 ho.2⟩⟩

/-- A disturbance is for good. -/
theorem lost_of_disturbed (web : WebPlatform) (http : HttpCrate) (c : Call)
    (hdist : ¬ s.Undisturbed e) :
    ∃ s', step web http c s e = some s' ∧ (s'.HeadLost ∨ s'.WriterLost) := by
  cases e with
  | cancel =>
      refine ⟨_, rfl, .inl ⟨Nat.eq_zero_of_not_pos hdist, fun hl => ?_⟩⟩
      cases hl.2.2
  | sweep_head =>
      refine ⟨_, rfl, .inl ⟨Nat.eq_zero_of_not_pos hdist, fun hl => ?_⟩⟩
      cases hl.2.1
  | sweep_writer =>
      refine ⟨_, rfl, .inr ⟨Bool.eq_false_iff.mpr hdist, fun ho => ?_⟩⟩
      cases ho.2
  | close_endpoint =>
      refine ⟨_, rfl, ?_⟩
      by_cases hans : 0 < s.answered
      · refine .inr ⟨Bool.eq_false_iff.mpr fun hfin => hdist ⟨hans, hfin⟩, fun ho => ?_⟩
        cases ho.1
      · refine .inl ⟨Nat.eq_zero_of_not_pos hans, fun hl => ?_⟩
        cases hl.1
  | _ => exact absurd trivial hdist

/-! ### The invariant -/

/-- The pipe is at work on this stream, or has been. -/
def PipeOk (stream : Stream) : Pipe → Prop
  | .idle => False
  | .reading st _ => st = stream ∧ stream.get_reader = true
  | .sending st _ _ => st = stream ∧ stream.get_reader = true
  | .settled => True

/-- A pipe of this call carries its response's stream. -/
def Piped (web : WebPlatform) (c : Call) (pipe : Pipe) : Prop :=
  ∃ stream, c.stream web = some stream ∧ PipeOk stream pipe

/-- What each await of the task says about the call and the pipe. -/
def TaskOk (web : WebPlatform) (c : Call) (pipe : Pipe) : Task → Prop
  | .delivered => pipe = .idle
  | .handling => pipe = .idle ∧ builds_request web c.payload = true
  | .recovering => pipe = .idle ∧ builds_request web c.payload = true ∧ c.res = c.recovered
  | .buffering res _ =>
    pipe = .idle ∧ builds_request web c.payload = true ∧ c.res = res ∧ res.body = .normal none
  | .piping res => Piped web c pipe ∧ c.res = res
  | .resolved status headers => Piped web c pipe ∧ head_of c.res = .resolved status headers
  | .rejected =>
    (pipe = .idle ∧ c.stream web = none) ∨ (Piped web c pipe ∧ head_of c.res = .rejected)
  | .done => (pipe = .idle ∧ c.stream web = none) ∨ Piped web c pipe

/-- As long as nothing disturbs the request: the native side waits until the task
is done, and holds the writer until the pipe has settled. -/
structure Inv (web : WebPlatform) (http : HttpCrate) (c : Call) (s : Exchange) : Prop where
  task : TaskOk web c s.pipe s.task
  waiting : s.task ≠ .done → s.answered = 0 ∧ s.Live
  answer : s.task = .done → Piped web c s.pipe →
    (s.answered = 1 ↔ Accepted http (c.res.head c.adapter))
  writer : s.pipe ≠ .settled → s.finished = false ∧ s.endpoint = true ∧ s.writer = true
  settled : s.pipe = .settled → ∀ stream, c.stream web = some stream →
    (s.finished = true ↔ stream.get_reader = true ∧ stream.release_lock = true)

theorem inv_start : Inv web http c start where
  task := rfl
  waiting _ := ⟨rfl, rfl, rfl, rfl⟩
  answer h := by cases h
  writer _ := ⟨rfl, rfl, rfl⟩
  settled h := by cases h

/-- The stream of a request that can be built is that of its response. -/
theorem stream_eq (hbuilds : builds_request web c.payload = true) :
    c.stream web = c.res.stream := by
  rw [Call.stream, if_pos hbuilds]

theorem stream_eq_none (hbuilds : ¬ builds_request web c.payload = true) :
    c.stream web = none := by
  rw [Call.stream, if_neg hbuilds]

/-- The task moves on to another await, and the pipe stays where it is. -/
theorem Inv.set_task (hinv : Inv web http c s) {task : Task} (htask : TaskOk web c s.pipe task)
    (hbefore : s.task ≠ .done) (hafter : task ≠ .done) :
    Inv web http c { s with task := task } where
  task := htask
  waiting _ := hinv.waiting hbefore
  answer h := absurd h hafter
  writer := hinv.writer
  settled := hinv.settled

/-- The task after the pipe has started. -/
theorem taskOk_head_of {pipe : Pipe} (hpiped : Piped web c pipe) :
    TaskOk web c pipe (head_of c.res) := by
  obtain ⟨status, headers, hhead, -⟩ | ⟨hhead, -⟩ := head_of_cases c.res
  · rw [hhead]
    exact ⟨hpiped, hhead⟩
  · rw [hhead]
    exact .inr ⟨hpiped, hhead⟩

theorem head_of_ne_done (res : Value) : head_of res ≠ .done := by
  obtain ⟨status, headers, hhead, -⟩ | ⟨hhead, -⟩ := head_of_cases res <;>
  · rw [hhead]
    exact nofun

/-- The body is handed to the pipe. -/
theorem inv_send_body (hinv : Inv web http c s) (hidle : s.pipe = .idle) (hbefore : s.task ≠ .done)
    {handler_failed : Bool} {stream : Stream} (hstream : c.stream web = some stream) :
    Inv web http c (s.send_body c.res handler_failed stream) := by
  have hunfinished := (hinv.writer (by rw [hidle]; exact nofun))
  -- whether or not the reader could be had, the pipe is on this stream
  have hpiped : Piped web c (if stream.get_reader then .reading stream stream.reads else .settled) := by
    refine ⟨stream, hstream, ?_⟩
    split
    · next hreader => exact ⟨rfl, hreader⟩
    · exact trivial
  rw [send_body, start_pipe_eq]
  refine ⟨?_, fun _ => hinv.waiting hbefore, ?_, fun _ => hunfinished, ?_⟩
  · dsimp only
    cases handler_failed with
    | true => exact ⟨hpiped, rfl⟩
    | false => exact taskOk_head_of hpiped
  · intro hdone
    dsimp only at hdone
    cases handler_failed with
    | true => cases hdone
    | false => exact absurd hdone (head_of_ne_done c.res)
  · intro hset st hst
    dsimp only at hset ⊢
    rw [hstream, Option.some.injEq] at hst
    rw [← hst, hunfinished.1]
    -- a pipe that has settled already is one whose `getReader` threw
    refine iff_of_false Bool.false_ne_true fun hok => ?_
    rw [if_pos hok.1] at hset
    cases hset

/-- The pipe moves on with its stream. -/
theorem TaskOk.set_pipe {task : Task} {pipe pipe' : Pipe} (htask : TaskOk web c pipe task)
    (hidle : pipe ≠ .idle) (hmove : ∀ stream, PipeOk stream pipe → PipeOk stream pipe') :
    TaskOk web c pipe' task := by
  have hpiped : Piped web c pipe → Piped web c pipe' :=
    fun ⟨stream, hstream, hok⟩ => ⟨stream, hstream, hmove stream hok⟩
  cases task with
  | delivered => exact absurd htask hidle
  | handling => exact absurd htask.1 hidle
  | recovering => exact absurd htask.1 hidle
  | buffering res handler_failed => exact absurd htask.1 hidle
  | piping res => exact htask.imp_left hpiped
  | resolved status headers => exact htask.imp_left hpiped
  | rejected => exact .inr ((htask.resolve_left fun h => hidle h.1).imp_left hpiped)
  | done => exact .inr (hpiped (htask.resolve_left fun h => hidle h.1))

/-- The stream a pipe in progress works on. -/
theorem TaskOk.piped {task : Task} {pipe : Pipe} (htask : TaskOk web c pipe task)
    (hidle : pipe ≠ .idle) : Piped web c pipe := by
  cases task with
  | delivered => exact absurd htask hidle
  | handling => exact absurd htask.1 hidle
  | recovering => exact absurd htask.1 hidle
  | buffering res handler_failed => exact absurd htask.1 hidle
  | piping res => exact htask.1
  | resolved status headers => exact htask.1
  | rejected => exact (htask.resolve_left fun h => hidle h.1).1
  | done => exact htask.resolve_left fun h => hidle h.1

theorem Works.ne_idle {stream : Stream} {pipe : Pipe} (h : Works stream pipe) : pipe ≠ .idle := by
  rintro rfl
  exact h

theorem Works.ne_settled {stream : Stream} {pipe : Pipe} (h : Works stream pipe) :
    pipe ≠ .settled := by
  rintro rfl
  exact h

/-- The stream at work is the one the invariant speaks of. -/
theorem Works.eq {stream st : Stream} {pipe : Pipe} (h : Works stream pipe) (hok : PipeOk st pipe) :
    stream = st ∧ st.get_reader = true := by
  cases pipe with
  | idle => cases hok
  | settled => cases h
  | reading | sending => exact ⟨(h : _ = stream) ▸ hok.1, hok.2⟩

theorem Works.pipeOk {stream : Stream} {pipe : Pipe} (h : Works stream pipe)
    (hreader : stream.get_reader = true) : PipeOk stream pipe := by
  cases pipe with
  | idle => cases h
  | settled => cases h
  | reading | sending => exact ⟨h, hreader⟩

/-- The pipe goes on to another await. -/
theorem inv_pipe (hinv : Inv web http c s) {stream : Stream} {pipe : Pipe}
    (hworks : Works stream s.pipe) (hworks' : Works stream pipe) :
    Inv web http c { s with pipe := pipe } where
  task := hinv.task.set_pipe hworks.ne_idle fun st hok => by
    obtain ⟨rfl, hreader⟩ := hworks.eq hok
    exact hworks'.pipeOk hreader
  waiting := hinv.waiting
  answer hdone _ := hinv.answer hdone (hinv.task.piped hworks.ne_idle)
  writer _ := hinv.writer hworks.ne_settled
  settled h := absurd h hworks'.ne_settled

/-- The pipe settles; the writer is finished where the lock could be released. -/
theorem inv_end_pipe (hinv : Inv web http c s) {stream : Stream} (hworks : Works stream s.pipe) :
    Inv web http c (s.end_pipe stream) := by
  obtain ⟨hfin, hend, hopen⟩ := hinv.writer hworks.ne_settled
  have hpiped := hinv.task.piped hworks.ne_idle
  -- the task does not see the pipe end, except where it awaits it
  have htask : TaskOk web c .settled s.task :=
    hinv.task.set_pipe hworks.ne_idle fun _ _ => trivial
  have hans := fun hdone (_ : Piped web c .settled) => hinv.answer hdone hpiped
  obtain ⟨st, hst, hpipe⟩ := hpiped
  obtain ⟨rfl, hreader⟩ := hworks.eq hpipe
  unfold end_pipe
  split
  · next hrelease =>
    rw [finish_body, if_pos (by rw [Bool.and_eq_true]; exact ⟨hend, hopen⟩)]
    refine ⟨htask, hinv.waiting, hans, fun h => absurd rfl h, fun _ st' hst' => ?_⟩
    rw [hst, Option.some.injEq] at hst'
    exact iff_of_true rfl ⟨hst' ▸ hreader, hst' ▸ hrelease⟩
  · next hrelease =>
    refine ⟨htask, hinv.waiting, hans, fun h => absurd rfl h, fun _ st' hst' => ?_⟩
    rw [hst, Option.some.injEq] at hst'
    refine iff_of_false ?_ fun h => hrelease (hst' ▸ h.2)
    rw [Bool.not_eq_true]
    exact hfin

/-- The adapter answers, with what the callback came to. -/
theorem inv_answered (hinv : Inv web http c s) {s₁ : Exchange} {head : Option ResponseHeadEntry}
    (hbefore : s.task ≠ .done) (hresp : Responds s s₁ (Accepted http head ∧ s.Live))
    (hhead : Piped web c s.pipe → c.res.head c.adapter = head)
    (htask : TaskOk web c s.pipe .done) : Inv web http c { s₁ with task := .done } := by
  -- nothing was answered before, so this respond decides the count
  obtain ⟨hzero, hlive⟩ := hinv.waiting hbefore
  obtain ⟨b, r, rfl, -, hr⟩ := hresp
  refine ⟨htask, fun h => absurd rfl h, fun _ hpiped => ?_, hinv.writer, hinv.settled⟩
  rw [hhead hpiped]
  have happ : answered { s with sender := b, responds := s.responds ++ [r], task := .done }
      = s.answered + if r.isOk then 1 else 0 := answered_append s b r
  rw [happ, hzero]
  by_cases hok : r.isOk = true
  · rw [if_pos hok]
    exact iff_of_true rfl (hr.mp hok).1
  · rw [if_neg hok]
    exact iff_of_false Nat.zero_ne_one fun hacc => hok (hr.mpr ⟨hacc, hlive⟩)

/-- The native side lets go of an entry that was used. -/
theorem Inv.dispose (hinv : Inv web http c s) {endpoint sender receiver writer : Bool}
    (hlive : 0 < s.answered ∨ (endpoint = s.endpoint ∧ sender = s.sender ∧ receiver = s.receiver))
    (hopen : s.finished = true ∨ (endpoint = s.endpoint ∧ writer = s.writer)) :
    Inv web http c { s with
      endpoint := endpoint, sender := sender, receiver := receiver, writer := writer } where
  task := hinv.task
  waiting hbefore := by
    obtain ⟨hzero, hwaits⟩ := hinv.waiting hbefore
    obtain hpos | ⟨rfl, rfl, rfl⟩ := hlive
    · rw [hzero] at hpos
      cases hpos
    · exact ⟨hzero, hwaits⟩
  answer := hinv.answer
  writer hbefore := by
    obtain ⟨hfin, hheld⟩ := hinv.writer hbefore
    obtain hdone | ⟨rfl, rfl⟩ := hopen
    · rw [hfin] at hdone
      cases hdone
    · exact ⟨hfin, hheld⟩
  settled := hinv.settled

theorem Takes.ne_done {task : Task} {res : Value} (h : Takes c task res) : task ≠ .done := by
  cases h <;> exact nofun

/-- Before the response is taken, nothing is piped. -/
theorem Takes.ready {pipe : Pipe} {task : Task} {res : Value} (h : Takes c task res)
    (htask : TaskOk web c pipe task) :
    pipe = .idle ∧ builds_request web c.payload = true ∧ c.res = res := by
  cases h with
  | handling => exact ⟨htask.1, htask.2, rfl⟩
  | recovering => exact htask

/-- The task goes on to another await. -/
theorem taskOk_next {task task' : Task} (hnext : Next web c s.pipe task task')
    (htask : TaskOk web c s.pipe task) : TaskOk web c s.pipe task' := by
  cases hnext with
  | built hbuilds => exact ⟨htask, hbuilds⟩
  | unbuilt hbuilds => exact .inl ⟨htask, stream_eq_none hbuilds⟩
  | failed heq => exact ⟨htask.1, htask.2, heq⟩
  | buffers htakes hbody =>
      obtain ⟨hidle, hbuilds, rfl⟩ := htakes.ready htask
      exact ⟨hidle, hbuilds, rfl, hbody⟩
  | bodiless htakes hbody =>
      obtain ⟨hidle, hbuilds, rfl⟩ := htakes.ready htask
      refine .inl ⟨hidle, ?_⟩
      rw [stream_eq hbuilds, Value.stream, hbody]
  | unbuffered hbuf =>
      obtain ⟨hidle, hbuilds, rfl, hbody⟩ := htask
      refine .inl ⟨hidle, ?_⟩
      rw [stream_eq hbuilds, Value.stream, hbody, hbuf]
  | piped hpipe =>
      obtain ⟨hpiped, rfl⟩ := htask
      exact taskOk_head_of hpiped

theorem Next.ne_done {pipe : Pipe} {task task' : Task} (hnext : Next web c pipe task task') :
    task ≠ .done ∧ task' ≠ .done := by
  cases hnext with
  | buffers htakes | bodiless htakes => exact ⟨htakes.ne_done, nofun⟩
  | piped => exact ⟨nofun, head_of_ne_done _⟩
  | _ => exact ⟨nofun, nofun⟩

/-- Where the task has a body to pipe, it is that of the call. -/
theorem sends_stream {pipe : Pipe} {task : Task} {res : Value} {stream : Stream}
    (hsends : Sends c task res stream) (htask : TaskOk web c pipe task) :
    pipe = .idle ∧ c.res = res ∧ c.stream web = some stream ∧ task ≠ .done := by
  cases hsends with
  | body htakes hbody =>
      obtain ⟨hidle, hbuilds, rfl⟩ := htakes.ready htask
      refine ⟨hidle, rfl, ?_, htakes.ne_done⟩
      rw [stream_eq hbuilds, Value.stream, hbody]
  | buffered hbuf =>
      obtain ⟨hidle, hbuilds, rfl, hbody⟩ := htask
      refine ⟨hidle, rfl, ?_, nofun⟩
      rw [stream_eq hbuilds, Value.stream, hbody, hbuf]

/-- Where the callback is over, the adapter asks for the head of the response. -/
theorem answers_head {pipe : Pipe} {task : Task} {head : Option ResponseHeadEntry}
    (hanswers : Answers c task head) (htask : TaskOk web c pipe task) :
    TaskOk web c pipe .done ∧ task ≠ .done ∧
      (Piped web c pipe → c.res.head c.adapter = head) := by
  cases hanswers with
  | resolved =>
      obtain ⟨hpiped, hhead⟩ := htask
      refine ⟨.inr hpiped, nofun, fun _ => ?_⟩
      obtain ⟨status, headers, heq, hval⟩ | ⟨heq, -⟩ := head_of_cases c.res
      · rw [hhead, Task.resolved.injEq] at heq
        obtain ⟨rfl, rfl⟩ := heq
        exact hval c.adapter
      · rw [hhead] at heq
        cases heq
  | rejected =>
      refine ⟨htask.imp_right And.left, nofun, fun hpiped => ?_⟩
      -- without a pipe there is nothing to compare the bare 500 with
      obtain ⟨rfl, -⟩ | ⟨-, hhead⟩ := htask
      · obtain ⟨stream, -, hpipe⟩ := hpiped
        cases hpipe
      · obtain ⟨status, headers, heq, -⟩ | ⟨-, hval⟩ := head_of_cases c.res
        · rw [hhead] at heq
          cases heq
        · exact hval c.adapter

theorem inv_step (hinv : Inv web http c s) (hund : s.Undisturbed e)
    (h : step web http c s e = some s') : Inv web http c s' := by
  cases step_move h with
  | task hown hnext =>
      exact hinv.set_task (taskOk_next hnext hinv.task) hnext.ne_done.1 hnext.ne_done.2
  | send hown hsends =>
      obtain ⟨hidle, rfl, hstream, hbefore⟩ := sends_stream hsends hinv.task
      exact inv_send_body hinv hidle hbefore hstream
  | answer hown hanswers hresp =>
      obtain ⟨htask, hbefore, hhead⟩ := answers_head hanswers hinv.task
      exact inv_answered hinv hbefore hresp hhead htask
  | pipe hown hworks hworks' => exact inv_pipe hinv hworks hworks'
  | close hown hworks => exact inv_end_pipe hinv hworks
  | dispose hown hless hlive hopen => exact hinv.dispose (hlive hund) (hopen hund)

/-- In a settled state of an undisturbed run, all is decided by the call. -/
theorem Inv.terminated_iff (hinv : Inv web http c s) (hset : s.Settled) :
    s.Terminated ↔ Answerable web http c := by
  obtain ⟨hdone, hpipe⟩ := hset
  have htask := hinv.task
  rw [hdone] at htask
  obtain ⟨hidle, hnone⟩ | hpiped := htask
  · -- no stream was ever there to pipe
    have hfin := (hinv.writer (by rw [hidle]; exact nofun)).1
    refine iff_of_false (fun h => ?_) fun h => ?_
    · rw [h.2] at hfin
      cases hfin
    · obtain ⟨stream, hstream, -⟩ := h.1
      rw [hnone] at hstream
      cases hstream
  · have hanswer := hinv.answer hdone hpiped
    obtain ⟨stream, hstream, hok⟩ := hpiped
    have hsettled : s.pipe = .settled := by
      refine hpipe.resolve_left fun hidle => ?_
      rw [hidle] at hok
      cases hok
    have hwriter := hinv.settled hsettled stream hstream
    constructor
    · rintro ⟨hone, hfin⟩
      exact ⟨⟨stream, hstream, hwriter.mp hfin⟩, hanswer.mp hone⟩
    · rintro ⟨⟨st, hst, hbody⟩, hacc⟩
      rw [hstream, Option.some.injEq] at hst
      exact ⟨hanswer.mpr hacc, hwriter.mpr (hst ▸ hbody)⟩

/-! ### Every request settles -/

theorem task_left_head_of (c : Call) (res : Value) : task_left c (head_of res) = 1 := by
  obtain ⟨status, headers, hhead, -⟩ | ⟨hhead, -⟩ := head_of_cases res <;>
  · rw [hhead]
    rfl

theorem Takes.left {task : Task} {res : Value} (h : Takes c task res) :
    4 + stream_left c res ≤ task_left c task := by
  cases h with
  | handling => exact Nat.add_le_add_right (Nat.le_succ 4) _
  | recovering => exact Nat.le_refl _

theorem Next.left {pipe : Pipe} {task task' : Task} (h : Next web c pipe task task') :
    1 + task_left c task' ≤ task_left c task := by
  cases h with
  | built =>
      simp only [task_left]
      omega
  | unbuilt =>
      simp only [task_left]
      omega
  | failed heq =>
      simp only [task_left, heq]
      omega
  | @buffers _ res handler_failed htakes hbody =>
      -- the bytes are counted where the value is taken, and again where they are there
      have hleft := htakes.left
      cases hbuf : res.array_buffer with
      | normal buffered =>
          have hwait : task_left c (.buffering res handler_failed)
              = 3 + reads_left c (Stream.of buffered).reads := by rw [task_left, hbuf]
          simp only [stream_left, Value.stream, hbody, hbuf] at hleft
          omega
      | thrown =>
          have hwait : task_left c (.buffering res handler_failed) = 3 := by rw [task_left, hbuf]
          omega
  | bodiless htakes =>
      have hleft := htakes.left
      have hend : task_left c .rejected = 1 := rfl
      omega
  | unbuffered hbuf =>
      simp only [task_left, hbuf]
      omega
  | piped => rw [task_left_head_of, task_left]

theorem Sends.left {task : Task} {res : Value} {stream : Stream} (h : Sends c task res stream) :
    3 + reads_left c stream.reads ≤ task_left c task := by
  cases h with
  | body htakes hbody =>
      have hleft := htakes.left
      simp only [stream_left, Value.stream, hbody] at hleft
      omega
  | buffered hbuf =>
      rw [task_left, hbuf]

theorem Answers.left {task : Task} {head : Option ResponseHeadEntry} (h : Answers c task head) :
    task_left c task = 1 := by
  cases h <;> rfl

theorem left_end_pipe (c : Call) (s : Exchange) (stream : Stream) :
    left c (s.end_pipe stream) = task_left c s.task := by
  unfold end_pipe finish_body
  split
  · split <;> rfl
  · rfl

theorem left_send_body (c : Call) (s : Exchange) (res : Value) (handler_failed : Bool)
    (stream : Stream) :
    left c (s.send_body res handler_failed stream) ≤ 2 + reads_left c stream.reads := by
  rw [send_body, start_pipe_eq]
  have htask : task_left c (if handler_failed then .piping res else head_of res) ≤ 2 := by
    split
    · exact Nat.le_refl 2
    · rw [task_left_head_of]
      exact Nat.le_succ 1
  have hpipe : pipe_left c (if stream.get_reader then .reading stream stream.reads else .settled)
      ≤ reads_left c stream.reads := by
    split
    · exact Nat.le_refl _
    · exact Nat.zero_le _
  exact Nat.add_le_add htask hpipe

/-- **Nothing goes on for ever.** A step of its own brings the request nearer to
its end, and the native side's steps do not take it further away. -/
theorem left_step (h : step web http c s e = some s') :
    (if own e then 1 else 0) + left c s' ≤ left c s := by
  cases step_move h with
  | task hown hnext =>
      have hleft := hnext.left
      rw [if_pos hown, left, left]
      dsimp only
      omega
  | @send res handler_failed stream hown hsends =>
      have hleft := hsends.left
      have hsend := left_send_body c s res handler_failed stream
      have hnow : left c s = task_left c s.task + pipe_left c s.pipe := rfl
      rw [if_pos hown]
      omega
  | answer hown hanswers hresp =>
      obtain ⟨b, r, rfl, -, -⟩ := hresp
      rw [if_pos hown, left, left, hanswers.left]
      show 1 + (0 + pipe_left c s.pipe) ≤ 1 + pipe_left c s.pipe
      omega
  | pipe hown hworks hworks' hpipe =>
      rw [if_pos hown, left, left]
      dsimp only
      omega
  | close hown hworks hpipe =>
      rw [if_pos hown, left_end_pipe, left]
      omega
  | dispose hown =>
      rw [hown]
      exact Nat.le_of_eq (Nat.zero_add _)

/-- A failed handler's task waits for a pipe that has been started. -/
def Started (s : Exchange) : Prop := ∀ res, s.task = .piping res → s.pipe ≠ .idle

theorem Next.ne_piping {pipe : Pipe} {task task' : Task} (h : Next web c pipe task task')
    (res : Value) : task' ≠ .piping res := by
  cases h with
  | @piped res' =>
      obtain ⟨status, headers, hhead, -⟩ | ⟨hhead, -⟩ := head_of_cases res' <;>
      · rw [hhead]
        exact nofun
  | _ => exact nofun

/-- A step leaves every task that waits for its pipe with one that was started. -/
theorem started_step (hst : s.Started) (h : step web http c s e = some s') : s'.Started := by
  cases step_move h with
  | task hown hnext => exact fun res hat => absurd hat (hnext.ne_piping res)
  | send =>
      rw [send_body, start_pipe_eq]
      intro _ _
      dsimp only
      split <;> exact nofun
  | answer => exact nofun
  | pipe hown hworks hworks' => exact fun _ _ => hworks'.ne_idle
  | close =>
      unfold end_pipe finish_body
      split
      · split <;> exact fun _ _ => nofun
      · exact fun _ _ => nofun
  | dispose => exact hst

/-- As long as the request has not settled, there is a promise that can. -/
theorem own_enabled (hst : s.Started) (hno : ¬ s.Settled) :
    ∃ e, own e = true ∧ (step web http c s e).isSome = true := by
  -- a pipe at work can go on whatever the task does
  have hpipe : (s.pipe = .idle ∨ s.pipe = .settled) ∨
      ∃ e, own e = true ∧ (step web http c s e).isSome = true := by
    cases hat : s.pipe with
    | idle => exact .inl (.inl rfl)
    | settled => exact .inl (.inr rfl)
    | reading stream reads => exact .inr ⟨.read, rfl, by rw [step, hat]; rfl⟩
    | sending stream pieces reads => exact .inr ⟨.sent true, rfl, by rw [step, hat]; rfl⟩
  obtain hpipe | henabled := hpipe
  · cases hat : s.task with
    | delivered => exact ⟨.callback, rfl, by rw [step, hat]; rfl⟩
    | handling =>
        refine ⟨.handler, rfl, ?_⟩
        rw [step, hat]
        dsimp only
        split <;> rfl
    | recovering => exact ⟨.on_error, rfl, by rw [step, hat]; rfl⟩
    | buffering res handler_failed =>
        refine ⟨.array_buffer, rfl, ?_⟩
        rw [step, hat]
        dsimp only
        split <;> rfl
    | piping res =>
        -- `Started`: a task that awaits the pipe has started it
        have hsettled := hpipe.resolve_left (hst res hat)
        exact ⟨.piped, rfl, by rw [step, hat, hsettled]; rfl⟩
    | resolved status headers => exact ⟨.answer, rfl, by rw [step, hat]; rfl⟩
    | rejected => exact ⟨.answer, rfl, by rw [step, hat]; rfl⟩
    | done => exact absurd ⟨hat, hpipe⟩ hno
  · exact henabled

/-- The request settles: its own steps are bounded in number, and until it has
settled there is always one to take. -/
def Settles (web : WebPlatform) (http : HttpCrate) (c : Call) : Prop :=
  ∃ n, ∀ l s, run (step web http c) start l = some s →
    l.countP own ≤ n ∧ (s.Settled ∨ ∃ e, own e = true ∧ (step web http c s e).isSome = true)

theorem settles (web : WebPlatform) (http : HttpCrate) (c : Call) : Settles web http c := by
  refine ⟨left c start, fun l s hrun => ⟨?_, ?_⟩⟩
  · have hbound : l.countP own + left c s ≤ left c start :=
      run_countP_add_le (fun _ _ _ h => left_step h) hrun
    omega
  · have hstart : start.Started := fun res h => by cases h
    have hst : s.Started := run_invariant (fun _ _ _ hst h => started_step hst h) hstart hrun
    by_cases hset : s.Settled
    · exact .inl hset
    · exact .inr (own_enabled hst hset)

/-- In every settled state, what the request came to. -/
theorem terminated_iff (l : List Event) (hrun : run (step web http c) start l = some s)
    (hset : s.Settled) :
    s.Terminated ↔ Answerable web http c ∧ Along (step web http c) Undisturbed start l := by
  by_cases hal : Along (step web http c) Undisturbed start l
  · have hinv := along_invariant (fun _ _ _ h hC hstep => inv_step h hC hstep) inv_start hal hrun
    rw [hinv.terminated_iff hset]
    exact ⟨fun h => ⟨h, hal⟩, And.left⟩
  · -- after the first disturbance one of the two is lost
    obtain ⟨l₁, e, l₂, s₁, rfl, -, hrun₁, hdist⟩ := exists_first_violation hal
    obtain ⟨s₂, hstep, hlost⟩ := lost_of_disturbed web http c hdist
    rw [run_append hrun₁] at hrun
    obtain ⟨s₂', hstep', hrun₂⟩ := run_cons_eq_some.mp hrun
    rw [hstep, Option.some.injEq] at hstep'
    subst hstep'
    have hend : s.HeadLost ∨ s.WriterLost := by
      refine run_invariant (P := fun s => s.HeadLost ∨ s.WriterLost) ?_ hlost hrun₂
      intro t a t' ht hstep
      exact ht.imp (headLost_step · hstep) (writerLost_step · hstep)
    refine iff_of_false (fun hterm => ?_) fun h => hal h.2
    obtain ⟨hone, hfin⟩ := hterm
    obtain ⟨hzero, -⟩ | ⟨hopen, -⟩ := hend
    · rw [hone] at hzero
      cases hzero
    · rw [hfin] at hopen
      cases hopen

/-- **When a delivered request terminates.** Every request settles, and then one
respond has succeeded and the writer is finished exactly when the call is
answerable and nothing disturbed it on the way. -/
theorem request_terminates_iff (web : WebPlatform) (http : HttpCrate) (c : Call) :
    Settles web http c ∧
      ∀ l s, run (step web http c) start l = some s → s.Settled →
        (s.Terminated ↔ Answerable web http c ∧ Along (step web http c) Undisturbed start l) :=
  ⟨settles web http c, fun l _ hrun hset => terminated_iff l hrun hset⟩

/-! ### Three requests -/

/-- A platform as the fetch standard describes it, with the URLs of the
dispatcher: no header value has a character beyond Latin-1 or a control
character that ends a line, and no request is made with a forbidden method. -/
def fetch_standard : WebPlatform where
  headers headers := headers.all fun h => header_name h.1 &&
    h.2.toList.all fun ch => ch.toNat < 256 && !([0, 10, 13].contains ch.toNat)
  request url method has_body :=
    "httpi://".toList.isPrefixOf url.toList && header_name method &&
      !(["CONNECT", "TRACE", "TRACK"].any fun m => m.toList == method.toList.map Char.toUpper) &&
      !(has_body && ["GET", "HEAD"].any fun m => m.toList == method.toList.map Char.toUpper)

/-- A `GET` of `/` by a peer. -/
def get_root : RequestPayload := ⟨1, "GET", "httpi://peer/", [("host", "peer")]⟩

/-- A handler's plain response. -/
def greeting : Call where
  adapter := .node
  payload := get_root
  handler := .returns (.response 200 [["content-type", "text/plain"]] "hi") true
  on_error := .thrown
  max_chunk_size_bytes := none

/-- A response with a control character in a header value. -/
def control_header : Call where
  adapter := .deno
  payload := get_root
  handler := .returns (.response 200 [["x-name", "\x01"]] "hi") true
  on_error := .thrown
  max_chunk_size_bytes := none

/-- A handler that throws, with an `onError` that returns nothing. -/
def careless : Call where
  adapter := .node
  payload := get_root
  handler := .throws
  on_error := .normal .undefined
  max_chunk_size_bytes := none

/-- The body is sent, then the head. -/
def greeting_events : List Event := [.callback, .handler, .read, .sent true, .answer, .read]

/-- The handler throws, `onError` is asked, and the answer is given. -/
def careless_events : List Event := [.callback, .handler, .on_error, .answer]

/-- The response of the first is piped, and its head accepted. -/
theorem request_terminates_answered :
    ∃ s, run (step fetch_standard visible_ascii greeting) start greeting_events = some s ∧
      s.Settled ∧ s.Terminated ∧ Answerable fetch_standard visible_ascii greeting := by
  obtain ⟨s, hrun, hset, hterm⟩ :
      ∃ s, run (step fetch_standard visible_ascii greeting) start greeting_events = some s ∧
        s.Settled ∧ s.Terminated :=
    ⟨_, rfl, ⟨rfl, .inr rfl⟩, rfl, rfl⟩
  have hiff := (request_terminates_iff fetch_standard visible_ascii greeting).2
    greeting_events s hrun hset
  exact ⟨s, hrun, hset, hterm, (hiff.mp hterm).1⟩

/-- The other two end otherwise, with no step but their own. On Deno the header
value is one that the platform allows and the core does not: no respond
succeeds. On Node, where `onError` returned nothing, the bare 500 goes out and
the writer stays open. -/
theorem rejected_head_unanswered :
    (∃ s, run (step fetch_standard visible_ascii control_header) start greeting_events = some s ∧
      (∀ e ∈ greeting_events, own e = true) ∧ s.Settled ∧ ¬ s.Terminated ∧ s.answered = 0) ∧
    ∃ s, run (step fetch_standard visible_ascii careless) start careless_events = some s ∧
      (∀ e ∈ careless_events, own e = true) ∧ s.Settled ∧ ¬ s.Terminated ∧ s.finished = false := by
  constructor
  · refine ⟨_, rfl, by decide, ⟨rfl, .inr rfl⟩, fun h => ?_, rfl⟩
    cases h.1
  · refine ⟨_, rfl, by decide, ⟨rfl, .inl rfl⟩, fun h => ?_, rfl⟩
    cases h.2

end Exchange

end IrohHttp.Shared
