/-
The serve queue of the Deno adapter: `iroh-http-deno/src/serve_registry.rs`, the
serve part of `dispatch.rs`, `iroh_http_try_next_request` of `lib.rs`, and the
drain loop of `rawServe` in `adapter.ts`.

A request that reaches the adapter is put into the queue that is registered for
its endpoint, and the JavaScript loop is woken to take it out. `stop_serve`,
`serve_start` and `close_endpoint` close, replace and remove the queue meanwhile.
The model has one endpoint; requests, queues, loops and lifecycle calls are
numbered in the order they come up. A request's event is its number, and
`len` gives the length of its JSON.

Native code runs on any thread, so every access to the registry, to a queue's
flag, to its channel and to its waker is a step of its own. The receiver's mutex is
only ever tried: a poll and a drain have it over several steps, and the look that
`set_request_ready_waker` takes at the channel, on the JavaScript thread, only for
that one step, so that a drain that meets it finds the mutex `busy`. The loops share
the JavaScript thread: one native poll is in progress at a time. A wake-up is a
message to that thread.
-/
import IrohHttp.ChunkTransfer
import IrohHttp.Machine
import Mathlib.Data.List.Count
import Mathlib.Logic.Function.Basic

set_option autoImplicit false

open Machine

namespace IrohHttp.Deno

/-! ## State -/

/-- The capacity of a serve queue's channel. -/
def QUEUE_CAPACITY : ℕ := 256

/-- Who has the mutex of a receiver: the poll, or the drain of an operation. -/
inductive Locker
  | poll
  | drain (o : ℕ)
  deriving DecidableEq, Repr

/-- A `ServeQueue`: its channel, its shutdown flag, the token its waker posts to, and who holds the
lock on its receiver. -/
structure ServeQueue where
  queue : List ℕ
  shutdown : Bool
  waker : Option ℕ
  holder : Option Locker
  deriving DecidableEq, Repr

/-- An empty queue, as `ServeQueue::new` makes it. -/
def ServeQueue.new : ServeQueue := ⟨[], false, none, none⟩

/-- Where `DenoTransport::deliver` is with a request. -/
inductive Delivery
  | idle
  | looked (q : ℕ)
  | checked (q : ℕ)
  | sent (q : ℕ)
  | returned
  | refused
  deriving DecidableEq, Repr

/-- The request has been put into a queue, so `deliver` returns `Ok`. -/
def Delivery.accepted : Delivery → Bool
  | .sent _ => true
  | .returned => true
  | _ => false

/-- The queue a delivery holds. -/
def Delivery.queue : Delivery → Option ℕ
  | .looked q => some q
  | .checked q => some q
  | .sent q => some q
  | _ => none

/-- The delivery has found its queue and not returned. -/
def Delivery.in_progress (d : Delivery) : Bool := d.queue.isSome

/-- Where a call of `rawServe` is: waiting for `serveStart`, registering its
callback, in its drain loop, or done. -/
inductive LoopPhase
  | idle
  | starting
  | registered
  | found (q : ℕ)
  | checking (q : ℕ)
  | seen (q : ℕ) (waiting : Bool)
  | ready
  | retrying
  | waiting
  | exited
  deriving DecidableEq, Repr

/-- A call of `rawServe`, with its wake signal. -/
structure ServeCall where
  phase : LoopPhase
  pollBuf : ℕ
  pending : Bool
  deriving DecidableEq, Repr

/-- Where `iroh_http_try_next_request` is. -/
inductive PollPhase
  | looked
  | checked
  | locked
  deriving DecidableEq, Repr

/-- A poll of the loop `token`, in the queue it looked up. -/
structure Poll where
  token : ℕ
  queue : ℕ
  phase : PollPhase
  deriving DecidableEq, Repr

/-- Where a `stop_serve` (`stop`) or a `close_endpoint` is. -/
inductive Operation
  | idle
  | signalling (q : ℕ) (stop : Bool)
  | waking (q : ℕ) (stop : Bool)
  | getting
  | locking (q : ℕ)
  | draining (q : ℕ)
  | done
  deriving DecidableEq, Repr

/-- The queue that a stop or a close works on. -/
def Operation.queue : Operation → Option ℕ
  | .signalling q _ => some q
  | .waking q _ => some q
  | .locking q => some q
  | .draining q => some q
  | _ => none

/-- The operation has begun and not returned. -/
def Operation.in_progress : Operation → Bool
  | .idle => false
  | .done => false
  | _ => true

/-- `posted` has the wake-ups under way, by token. `returned` lists the requests
that polls have returned in full, `rejected` those that were answered with the
undeliverable rejection and `finished` those whose response body was finished
with it. -/
structure ServeState where
  queues : ℕ → ServeQueue
  next_queue : ℕ
  registry : Option ℕ
  deliveries : ℕ → Delivery
  loops : ℕ → ServeCall
  poll : Option Poll
  operations : ℕ → Operation
  posted : List ℕ
  returned : List ℕ
  rejected : List ℕ
  finished : List ℕ

/-- One access to shared state: of a delivery, of a loop that starts, polls or drains, or of a stop
or a close. -/
inductive ServeStep
  | lookup (id : ℕ)
  | check (id : ℕ)
  | try_send (id : ℕ)
  | wake (id : ℕ)
  | raw_serve (t : ℕ)
  | serve_start (t : ℕ) (gone : Bool)
  | find_queue (t : ℕ)
  | set_waker (t : ℕ)
  | check_waiting (t : ℕ)
  | check_flag (t : ℕ)
  | poll (t : ℕ)
  | poll_check
  | poll_lock
  | poll_recv
  | run_wake (i : ℕ)
  | cancel (t : ℕ)
  | stop_serve (o : ℕ)
  | close_endpoint (o : ℕ)
  | signal (o : ℕ)
  | signal_wake (o : ℕ)
  | drain_get (o : ℕ)
  | drain_lock (o : ℕ) (busy : Bool)
  | drain_recv (o : ℕ)
  deriving DecidableEq, Repr

namespace ServeState

/-- No queue is registered. -/
def new : ServeState where
  queues _ := ServeQueue.new
  next_queue := 0
  registry := none
  deliveries _ := .idle
  loops _ := ⟨.idle, 4096, false⟩
  poll := none
  operations _ := .idle
  posted := []
  returned := []
  rejected := []
  finished := []

/-- Queue `q` becomes `v`. -/
def set_queue (s : ServeState) (q : ℕ) (v : ServeQueue) : ServeState :=
  { s with queues := Function.update s.queues q v }

/-- Delivery `id` goes to `d`. -/
def set_delivery (s : ServeState) (id : ℕ) (d : Delivery) : ServeState :=
  { s with deliveries := Function.update s.deliveries id d }

/-- The call with token `t` becomes `l`. -/
def set_call (s : ServeState) (t : ℕ) (l : ServeCall) : ServeState :=
  { s with loops := Function.update s.loops t l }

/-- The loop `t` goes to a phase. -/
def set_loop (s : ServeState) (t : ℕ) (phase : LoopPhase) : ServeState :=
  s.set_call t { s.loops t with phase := phase }

/-- Operation `o` goes to `v`. -/
def set_operation (s : ServeState) (o : ℕ) (v : Operation) : ServeState :=
  { s with operations := Function.update s.operations o v }

/-- `wake_request_loop`. -/
def wake_request_loop (s : ServeState) (q : ℕ) : ServeState :=
  { s with posted := s.posted ++ (s.queues q).waker.toList }

/-! ## Delivery -/

/-- `deliver` fails, and `deliver_request` rejects the request and finishes its
response body. -/
def refuse (s : ServeState) (id : ℕ) : ServeState :=
  { s.set_delivery id .refused with
    rejected := s.rejected ++ [id], finished := s.finished ++ [id] }

/-- A delivery looks its queue up. -/
def lookup (s : ServeState) (id : ℕ) : Option ServeState :=
  match s.deliveries id with
  | .idle =>
    -- the registry is read here and not again: a restart after this leaves the
    -- delivery with the queue it found
    match s.registry with
    | none => some (s.refuse id)
    | some q => some (s.set_delivery id (.looked q))
  | _ => none

/-- The delivery reads the queue's shutdown flag. -/
def check (s : ServeState) (id : ℕ) : Option ServeState :=
  match s.deliveries id with
  | .looked q =>
    -- a stopped cycle keeps its queue in the registry, so that it refuses
    if (s.queues q).shutdown then some (s.refuse id) else some (s.set_delivery id (.checked q))
  | _ => none

/-- `try_send`. A full channel refuses the request. -/
def try_send (s : ServeState) (id : ℕ) : Option ServeState :=
  match s.deliveries id with
  | .checked q =>
    let v := s.queues q
    -- the receiver lives as long as the queue, so only a full channel is an error
    if v.queue.length < QUEUE_CAPACITY then
      some ((s.set_queue q { v with queue := v.queue ++ [id] }).set_delivery id (.sent q))
    else some (s.refuse id)
  | _ => none

/-- The delivery wakes the loop, and returns. -/
def wake (s : ServeState) (id : ℕ) : Option ServeState :=
  match s.deliveries id with
  | .sent q => some ((s.wake_request_loop q).set_delivery id .returned)
  | _ => none

/-! ## The JavaScript loop -/

/-- `wakeSignal.wait()`. -/
def wait (s : ServeState) (t : ℕ) : ServeState :=
  let l := s.loops t
  s.set_call t (if l.pending then { l with phase := .ready, pending := false }
    else { l with phase := .waiting })

/-- `wakeSignal.wake()`, for a signal that exists. -/
def wake_signal (s : ServeState) (t : ℕ) : ServeState :=
  let l := s.loops t
  match l.phase with
  -- before `rawServe` and after its `finally` the token is in no map
  | .idle => s
  | .exited => s
  | .waiting => s.set_loop t .ready
  | _ => s.set_call t { l with pending := true }

/-- `rawServe` is called. -/
def raw_serve (s : ServeState) (t : ℕ) : Option ServeState :=
  if (s.loops t).phase = .idle then some (s.set_loop t .starting) else none

/-- `serve_start` registers a new queue, unless the endpoint is gone. -/
def serve_start (s : ServeState) (t : ℕ) (gone : Bool) : Option ServeState :=
  if (s.loops t).phase = .starting then
    if gone then some (s.set_loop t .exited)
    else some ({ s with registry := some s.next_queue, next_queue := s.next_queue + 1 }.set_loop t
      .registered)
  else none

/-- `iroh_http_set_request_ready_callback` looks its queue up. -/
def find_queue (s : ServeState) (t : ℕ) : Option ServeState :=
  if (s.loops t).phase = .registered then
    match s.registry with
    | none => some (s.set_loop t .exited)
    | some q => some (s.set_loop t (.found q))
  else none

/-- `set_request_ready_waker`, to where the waker is in its place. -/
def set_waker (s : ServeState) (t : ℕ) : Option ServeState :=
  match (s.loops t).phase with
  | .found q => some ((s.set_queue q { s.queues q with waker := some t }).set_loop t (.checking q))
  | _ => none

/-- `request_waiting`. -/
def check_waiting (s : ServeState) (t : ℕ) : Option ServeState :=
  match (s.loops t).phase with
  | .checking q =>
    let v := s.queues q
    -- `try_lock` failing counts as work
    some (s.set_loop t (.seen q (v.holder.isSome || !v.queue.isEmpty)))
  | _ => none

/-- The rest of it: wake at once if work arrived first. -/
def check_flag (s : ServeState) (t : ℕ) : Option ServeState :=
  match (s.loops t).phase with
  | .seen q waiting =>
    if (s.queues q).shutdown || waiting then
      some ({ s with posted := s.posted ++ [t] }.set_loop t .ready)
    else some (s.set_loop t .ready)
  | _ => none

/-- A loop that is ready to poll looks its queue up. Without one it ends. -/
def poll_lookup (s : ServeState) (t : ℕ) : Option ServeState :=
  if s.poll = none ∧ ((s.loops t).phase = .ready ∨ (s.loops t).phase = .retrying) then
    match s.registry with
    | none => some (s.set_loop t .exited)
    | some q => some { s with poll := some ⟨t, q, .looked⟩ }
  else none

/-- The poll reads the shutdown flag, on which the loop ends. -/
def poll_check (s : ServeState) : Option ServeState :=
  match s.poll with
  | some ⟨t, q, .looked⟩ =>
    if (s.queues q).shutdown then some ({ s with poll := none }.set_loop t .exited)
    else some { s with poll := some ⟨t, q, .checked⟩ }
  | _ => none

/-- The poll tries the receiver's lock. -/
def poll_lock (s : ServeState) : Option ServeState :=
  match s.poll with
  | some ⟨t, q, .checked⟩ =>
    -- "another call has the lock; treat as empty"
    if (s.queues q).holder.isSome then some ({ s with poll := none }.wait t)
    else some ({ s with poll := some ⟨t, q, .locked⟩ }.set_queue q
      { s.queues q with holder := some .poll })
  | _ => none

/-- The return value for an event of `len` bytes, which is taken from the queue
either way. -/
def poll_result (out_cap len : ℕ) : ℤ := if out_cap < len then required_size len else as_i32 len

/-- What the loop makes of the value. An event that is there only in part, or not
at all, does not parse. -/
def on_result (s : ServeState) (t id len : ℕ) (n : ℤ) : ServeState :=
  -- the retry is made once; a second `n < -1` goes on to `JSON.parse`
  if n < -1 ∧ (s.loops t).phase ≠ .retrying then
    s.set_call t { s.loops t with phase := .retrying, pollBuf := (-n).toNat }
  else if n = -1 then s.set_loop t .exited
  else if n = 0 then s.wait t
  else if n = len then { s with returned := s.returned ++ [id] }.set_loop t .ready
  else s.set_loop t .exited

/-- `try_recv`, and what comes of it. An event larger than the buffer is out of the channel all the
same. -/
def poll_recv (len : ℕ → ℕ) (s : ServeState) : Option ServeState :=
  match s.poll with
  | some ⟨t, q, .locked⟩ =>
    let v := s.queues q
    match v.queue with
    | [] => some (({ s with poll := none }.set_queue q { v with holder := none }).wait t)
    | id :: rest =>
      -- the event is out of the channel before its length is compared with the buffer
      some (({ s with poll := none }.set_queue q { v with queue := rest, holder := none }).on_result
        t id (len id) (poll_result (s.loops t).pollBuf (len id)))
  | _ => none

/-- A wake-up reaches the JavaScript thread. -/
def run_wake (s : ServeState) (i : ℕ) : Option ServeState :=
  match s.posted[i]? with
  | none => none
  | some t => some ({ s with posted := s.posted.eraseIdx i }.wake_signal t)

/-! ## Lifecycle -/

/-- The `get` of `signal_shutdown`. -/
def stop_serve (s : ServeState) (o : ℕ) : Option ServeState :=
  match s.operations o, s.registry with
  | .idle, some q => some (s.set_operation o (.signalling q true))
  | .idle, none => some (s.set_operation o .getting)
  | _, _ => none

/-- `serve_registry::remove`, up to the flag. -/
def close_endpoint (s : ServeState) (o : ℕ) : Option ServeState :=
  match s.operations o, s.registry with
  | .idle, some q => some ({ s with registry := none }.set_operation o (.signalling q false))
  | .idle, none => some (s.set_operation o .done)
  | _, _ => none

/-- A stop or a close sets the queue's shutdown flag. -/
def signal (s : ServeState) (o : ℕ) : Option ServeState :=
  match s.operations o with
  | .signalling q stop =>
    some ((s.set_queue q { s.queues q with shutdown := true }).set_operation o (.waking q stop))
  | _ => none

/-- It wakes the loop. A stop goes on to drain the queue. -/
def signal_wake (s : ServeState) (o : ℕ) : Option ServeState :=
  match s.operations o with
  | .waking q stop =>
    some ((s.wake_request_loop q).set_operation o (if stop then .getting else .done))
  | _ => none

/-- `stop_serve` looks the queue up again. -/
def drain_get (s : ServeState) (o : ℕ) : Option ServeState :=
  match s.operations o, s.registry with
  | .getting, none => some (s.set_operation o .done)
  | .getting, some q => some (s.set_operation o (.locking q))
  | _, _ => none

/-- It tries the lock: a queue that somebody else has is not drained. -/
def drain_lock (s : ServeState) (o : ℕ) (busy : Bool) : Option ServeState :=
  match s.operations o with
  | .locking q =>
    if busy || (s.queues q).holder.isSome then some (s.set_operation o .done)
    else
      some ((s.set_queue q { s.queues q with holder := some (.drain o) }).set_operation o
        (.draining q))
  | _ => none

/-- A turn of the drain. The rejection is sent, and nothing finishes the response
body. -/
def drain_recv (s : ServeState) (o : ℕ) : Option ServeState :=
  match s.operations o with
  | .draining q =>
    let v := s.queues q
    match v.queue with
    | [] => some ((s.set_queue q { v with holder := none }).set_operation o .done)
    | id :: rest =>
      some { s.set_queue q { v with queue := rest } with rejected := s.rejected ++ [id] }
  | _ => none

/-- One step. `len` gives the length of each request's event. -/
def step (len : ℕ → ℕ) (s : ServeState) : ServeStep → Option ServeState
  | .lookup id => s.lookup id
  | .check id => s.check id
  | .try_send id => s.try_send id
  | .wake id => s.wake id
  | .raw_serve t => s.raw_serve t
  | .serve_start t gone => s.serve_start t gone
  | .find_queue t => s.find_queue t
  | .set_waker t => s.set_waker t
  | .check_waiting t => s.check_waiting t
  | .check_flag t => s.check_flag t
  | .poll t => s.poll_lookup t
  | .poll_check => s.poll_check
  | .poll_lock => s.poll_lock
  | .poll_recv => s.poll_recv len
  | .run_wake i => s.run_wake i
  | .cancel t => some (s.wake_signal t)
  | .stop_serve o => s.stop_serve o
  | .close_endpoint o => s.close_endpoint o
  | .signal o => s.signal o
  | .signal_wake o => s.signal_wake o
  | .drain_get o => s.drain_get o
  | .drain_lock o busy => s.drain_lock o busy
  | .drain_recv o => s.drain_recv o

/-! ## The loop's own state

Waking, waiting and reading a result change one call of `rawServe` and nothing
native. -/

@[simp] theorem set_call_self (s : ServeState) (t : ℕ) (l : ServeCall) :
    (s.set_call t l).loops t = l :=
  Function.update_self ..

theorem set_call_of_ne (s : ServeState) {t t' : ℕ} (l : ServeCall) (h : t' ≠ t) :
    (s.set_call t l).loops t' = s.loops t' :=
  Function.update_of_ne h ..

/-- What `wake` does to a signal: nothing to one that is gone, it ends a wait, or
it is kept for the next. -/
theorem wake_signal_cases (s : ServeState) (t : ℕ) :
    (s.wake_signal t = s ∧ ((s.loops t).phase = .idle ∨ (s.loops t).phase = .exited)) ∨
      (s.wake_signal t = s.set_loop t .ready ∧ (s.loops t).phase = .waiting) ∨
      (s.wake_signal t = s.set_call t { s.loops t with pending := true } ∧
        (s.loops t).phase ≠ .waiting) := by
  unfold wake_signal
  dsimp only
  split
  · next hphase => exact .inl ⟨rfl, .inl hphase⟩
  · next hphase => exact .inl ⟨rfl, .inr hphase⟩
  · next hphase => exact .inr (.inl ⟨rfl, hphase⟩)
  · next hphase => exact .inr (.inr ⟨rfl, hphase⟩)

/-- A result that is the length of the event is the one that returns it. -/
theorem on_result_cases (s : ServeState) (t id len : ℕ) (n : ℤ) :
    (0 < n ∧ n = len ∧ s.on_result t id len n =
      { s with returned := s.returned ++ [id] }.set_loop t .ready) ∨
      (¬ (0 < n ∧ n = len) ∧ ∃ l, (∀ q, l.phase ≠ .found q) ∧ s.on_result t id len n = s.set_call t l) := by
  unfold on_result
  split
  · next hgrow => exact .inr ⟨fun h => by omega, _, fun _ hno => (by cases hno), rfl⟩
  · split
    · next hn => exact .inr ⟨fun h => by omega, _, fun _ hno => (by cases hno), rfl⟩
    · split
      · next hn =>
        refine .inr ⟨fun h => by omega, _, fun q => ?_, rfl⟩
        split <;> nofun
      · split
        · next hgrow hminus hzero hn =>
          refine .inl ⟨?_, hn, rfl⟩
          omega
        · next hn => exact .inr ⟨fun h => hn h.2, _, fun _ hno => (by cases hno), rfl⟩

/-- An event that fits the buffer is returned, and no other one is. -/
theorem poll_result_eq_iff {out_cap len : ℕ} :
    0 < poll_result out_cap len ∧ poll_result out_cap len = len ↔
      0 < len ∧ len ≤ out_cap ∧ len ≤ i32.MAX := by
  unfold poll_result
  constructor
  · rintro ⟨hpos, heq⟩
    split at heq
    · next hlong =>
      rw [if_pos hlong] at hpos
      unfold required_size i32.MIN at hpos
      split at hpos <;> omega
    · next hcap =>
      have hle := as_i32_le len
      rw [heq] at hle
      rw [if_neg hcap, heq] at hpos
      exact ⟨by omega, Nat.not_lt.mp hcap, by omega⟩
  · rintro ⟨hpos, hcap, hle⟩
    rw [if_neg (Nat.not_lt.mpr hcap), as_i32_of_le hle]
    exact ⟨by omega, rfl⟩

/-! ## What one step can do -/

/-- The steps as a relation, guards included. -/
inductive Step (len : ℕ → ℕ) (s : ServeState) : ServeStep → ServeState → Prop
  | refused (x : ServeStep) (id : ℕ) (hd : (s.deliveries id).accepted = false) :
      Step len s x (s.refuse id)
  | looked (id q : ℕ) (hd : s.deliveries id = .idle) (hreg : s.registry = some q) :
      Step len s (.lookup id) (s.set_delivery id (.looked q))
  | checked (id q : ℕ) (hd : s.deliveries id = .looked q) :
      Step len s (.check id) (s.set_delivery id (.checked q))
  | sent (id q : ℕ) (hd : s.deliveries id = .checked q)
      (hroom : (s.queues q).queue.length < QUEUE_CAPACITY) :
      Step len s (.try_send id) ((s.set_queue q
        { s.queues q with queue := (s.queues q).queue ++ [id] }).set_delivery id (.sent q))
  | woke (id q : ℕ) (hd : s.deliveries id = .sent q) :
      Step len s (.wake id) ((s.wake_request_loop q).set_delivery id .returned)
  | called (t : ℕ) (hp : (s.loops t).phase = .idle) :
      Step len s (.raw_serve t) (s.set_loop t .starting)
  | gone (t : ℕ) (hp : (s.loops t).phase = .starting) :
      Step len s (.serve_start t true) (s.set_loop t .exited)
  | registered (t : ℕ) (hp : (s.loops t).phase = .starting) :
      Step len s (.serve_start t false) ({ s with
        registry := some s.next_queue, next_queue := s.next_queue + 1 }.set_loop t .registered)
  | removed (x : ServeStep) (t : ℕ) (hreg : s.registry = none) (hpoll : s.poll = none)
      (hp : (s.loops t).phase = .ready ∨ (s.loops t).phase = .retrying) :
      Step len s x (s.set_loop t .exited)
  | unfound (t : ℕ) (hreg : s.registry = none) (hp : (s.loops t).phase = .registered) :
      Step len s (.find_queue t) (s.set_loop t .exited)
  | found (t q : ℕ) (hp : (s.loops t).phase = .registered) (hreg : s.registry = some q) :
      Step len s (.find_queue t) (s.set_loop t (.found q))
  | waked (t q : ℕ) (hp : (s.loops t).phase = .found q) :
      Step len s (.set_waker t)
        ((s.set_queue q { s.queues q with waker := some t }).set_loop t (.checking q))
  | seen (t q : ℕ) (waiting : Bool) (hp : (s.loops t).phase = .checking q) :
      Step len s (.check_waiting t) (s.set_loop t (.seen q waiting))
  | ready (t q : ℕ) (waiting : Bool) (posted : List ℕ) (hp : (s.loops t).phase = .seen q waiting) :
      Step len s (.check_flag t) ({ s with posted := s.posted ++ posted }.set_loop t .ready)
  | polled (t q : ℕ) (hpoll : s.poll = none)
      (hp : (s.loops t).phase = .ready ∨ (s.loops t).phase = .retrying)
      (hreg : s.registry = some q) :
      Step len s (.poll t) { s with poll := some ⟨t, q, .looked⟩ }
  | stopped (t q : ℕ) (hpoll : s.poll = some ⟨t, q, .looked⟩)
      (hshut : (s.queues q).shutdown = true) :
      Step len s .poll_check ({ s with poll := none }.set_loop t .exited)
  | unstopped (t q : ℕ) (hpoll : s.poll = some ⟨t, q, .looked⟩)
      (hshut : (s.queues q).shutdown = false) :
      Step len s .poll_check { s with poll := some ⟨t, q, .checked⟩ }
  | contended (t q : ℕ) (hpoll : s.poll = some ⟨t, q, .checked⟩)
      (hlock : (s.queues q).holder ≠ none) :
      Step len s .poll_lock ({ s with poll := none }.wait t)
  | locked (t q : ℕ) (hpoll : s.poll = some ⟨t, q, .checked⟩)
      (hlock : (s.queues q).holder = none) :
      Step len s .poll_lock ({ s with poll := some ⟨t, q, .locked⟩ }.set_queue q
        { s.queues q with holder := some .poll })
  | empty (t q : ℕ) (hpoll : s.poll = some ⟨t, q, .locked⟩) (hq : (s.queues q).queue = []) :
      Step len s .poll_recv (({ s with poll := none }.set_queue q
        { s.queues q with holder := none }).wait t)
  | received (t q id : ℕ) (rest : List ℕ) (hpoll : s.poll = some ⟨t, q, .locked⟩)
      (hq : (s.queues q).queue = id :: rest) :
      Step len s .poll_recv (({ s with poll := none }.set_queue q
        { s.queues q with queue := rest, holder := none }).on_result t id (len id)
          (poll_result (s.loops t).pollBuf (len id)))
  | woken (i t : ℕ) (hi : s.posted[i]? = some t) :
      Step len s (.run_wake i) ({ s with posted := s.posted.eraseIdx i }.wake_signal t)
  | cancelled (t : ℕ) : Step len s (.cancel t) (s.wake_signal t)
  | stopping (o q : ℕ) (ho : s.operations o = .idle) (hreg : s.registry = some q) :
      Step len s (.stop_serve o) (s.set_operation o (.signalling q true))
  | closing (o q : ℕ) (ho : s.operations o = .idle) (hreg : s.registry = some q) :
      Step len s (.close_endpoint o)
        ({ s with registry := none }.set_operation o (.signalling q false))
  | signalled (o q : ℕ) (stop : Bool) (ho : s.operations o = .signalling q stop) :
      Step len s (.signal o)
        ((s.set_queue q { s.queues q with shutdown := true }).set_operation o (.waking q stop))
  | signal_woke (o q : ℕ) (stop : Bool) (ho : s.operations o = .waking q stop) :
      Step len s (.signal_wake o)
        ((s.wake_request_loop q).set_operation o (if stop then .getting else .done))
  | skipped (x : ServeStep) (o : ℕ) (v : Operation) (ho : ∀ q, s.operations o ≠ .draining q)
      (hv : v.queue = none) : Step len s x (s.set_operation o v)
  | drain_found (o q : ℕ) (ho : s.operations o = .getting) (hreg : s.registry = some q) :
      Step len s (.drain_get o) (s.set_operation o (.locking q))
  | drain_locked (o q : ℕ) (ho : s.operations o = .locking q)
      (hlock : (s.queues q).holder = none) :
      Step len s (.drain_lock o false) ((s.set_queue q
        { s.queues q with holder := some (.drain o) }).set_operation o (.draining q))
  | drained (o q : ℕ) (ho : s.operations o = .draining q) (hq : (s.queues q).queue = []) :
      Step len s (.drain_recv o)
        ((s.set_queue q { s.queues q with holder := none }).set_operation o .done)
  | rejected (o q id : ℕ) (rest : List ℕ) (ho : s.operations o = .draining q)
      (hq : (s.queues q).queue = id :: rest) :
      Step len s (.drain_recv o)
        { s.set_queue q { s.queues q with queue := rest } with rejected := s.rejected ++ [id] }

/-- **Every step is one of these.** -/
theorem step_cases {len : ℕ → ℕ} {s s' : ServeState} {x : ServeStep} (h : s.step len x = some s') :
    Step len s x s' := by
  -- one constructor of `Step` for each way a step can go; what cannot run has no case
  cases x with
  | lookup id =>
      simp only [step, lookup] at h
      split at h
      · next hd =>
        split at h
        · cases h
          exact .refused _ id (by rw [hd]; rfl)
        · next q hreg =>
          cases h
          exact .looked id q hd hreg
      · cases h
  | check id =>
      simp only [step, check] at h
      split at h
      · next q hd =>
        split at h
        · cases h
          exact .refused _ id (by rw [hd]; rfl)
        · cases h
          exact .checked id q hd
      · cases h
  | try_send id =>
      simp only [step, try_send] at h
      split at h
      · next q hd =>
        split at h
        · next hroom =>
          cases h
          exact .sent id q hd hroom
        · cases h
          exact .refused _ id (by rw [hd]; rfl)
      · cases h
  | wake id =>
      simp only [step, wake] at h
      split at h
      · next q hd =>
        cases h
        exact .woke id q hd
      · cases h
  | raw_serve t =>
      simp only [step, raw_serve] at h
      split at h
      · next hp =>
        cases h
        exact .called t hp
      · cases h
  | serve_start t gone =>
      simp only [step, serve_start] at h
      split at h
      · next hp =>
        cases gone with
        | true =>
            cases h
            exact .gone t hp
        | false =>
            cases h
            exact .registered t hp
      · cases h
  | find_queue t =>
      simp only [step, find_queue] at h
      split at h
      · next hp =>
        split at h
        · next hreg =>
          cases h
          exact .unfound t hreg hp
        · next q hreg =>
          cases h
          exact .found t q hp hreg
      · cases h
  | set_waker t =>
      simp only [step, set_waker] at h
      split at h
      · next q hp =>
        cases h
        exact .waked t q hp
      · cases h
  | check_waiting t =>
      simp only [step, check_waiting] at h
      split at h
      · next q hp =>
        cases h
        exact .seen t q _ hp
      · cases h
  | check_flag t =>
      simp only [step, check_flag] at h
      split at h
      · next q waiting hp =>
        split at h
        · cases h
          exact .ready t q waiting [t] hp
        · cases h
          have hready : Step len s (.check_flag t) _ := .ready t q waiting [] hp
          rw [List.append_nil] at hready
          exact hready
      · cases h
  | poll t =>
      simp only [step, poll_lookup] at h
      split at h
      · next hp =>
        split at h
        · next hreg =>
          cases h
          exact .removed _ t hreg hp.1 hp.2
        · next q hreg =>
          cases h
          exact .polled t q hp.1 hp.2 hreg
      · cases h
  | poll_check =>
      simp only [step, poll_check] at h
      split at h
      · next t q hpoll =>
        split at h
        · next hshut =>
          cases h
          exact .stopped t q hpoll hshut
        · next hshut =>
          cases h
          exact .unstopped t q hpoll (Bool.eq_false_iff.mpr hshut)
      · cases h
  | poll_lock =>
      simp only [step, poll_lock] at h
      split at h
      · next t q hpoll =>
        split at h
        · next hlock =>
          cases h
          exact .contended t q hpoll (Option.isSome_iff_ne_none.mp hlock)
        · next hlock =>
          cases h
          exact .locked t q hpoll (Option.not_isSome_iff_eq_none.mp hlock)
      · cases h
  | poll_recv =>
      simp only [step, poll_recv] at h
      split at h
      · next t q hpoll =>
        split at h
        · next hq =>
          cases h
          exact .empty t q hpoll hq
        · next id rest hq =>
          cases h
          exact .received t q id rest hpoll hq
      · cases h
  | run_wake i =>
      simp only [step, run_wake] at h
      split at h
      · cases h
      · next t hi =>
        cases h
        exact .woken i t hi
  | cancel t =>
      cases h
      exact .cancelled t
  | stop_serve o =>
      simp only [step, stop_serve] at h
      split at h
      · next q ho hreg =>
        cases h
        exact .stopping o q ho hreg
      · next ho _ =>
        cases h
        exact .skipped _ o _ (by rw [ho]; nofun) rfl
      · cases h
  | close_endpoint o =>
      simp only [step, close_endpoint] at h
      split at h
      · next q ho hreg =>
        cases h
        exact .closing o q ho hreg
      · next ho _ =>
        cases h
        exact .skipped _ o _ (by rw [ho]; nofun) rfl
      · cases h
  | signal o =>
      simp only [step, signal] at h
      split at h
      · next q stop ho =>
        cases h
        exact .signalled o q stop ho
      · cases h
  | signal_wake o =>
      simp only [step, signal_wake] at h
      split at h
      · next q stop ho =>
        cases h
        exact .signal_woke o q stop ho
      · cases h
  | drain_get o =>
      simp only [step, drain_get] at h
      split at h
      · next ho _ =>
        cases h
        exact .skipped _ o _ (by rw [ho]; nofun) rfl
      · next q ho hreg =>
        cases h
        exact .drain_found o q ho hreg
      · cases h
  | drain_lock o busy =>
      simp only [step, drain_lock] at h
      split at h
      · next q ho =>
        split at h
        · cases h
          exact .skipped _ o _ (by rw [ho]; nofun) rfl
        · next hlock =>
          cases h
          rw [Bool.not_eq_true, Bool.or_eq_false_iff] at hlock
          obtain ⟨rfl, hfree⟩ := hlock
          exact .drain_locked o q ho (Option.isNone_iff_eq_none.mp (Option.isSome_eq_false_iff.mp hfree))
      · cases h
  | drain_recv o =>
      simp only [step, drain_recv] at h
      split at h
      · next q ho =>
        split at h
        · next hq =>
          cases h
          exact .drained o q ho hq
        · next id rest hq =>
          cases h
          exact .rejected o q id rest ho hq
      · cases h

/-! ## Which queues are known -/

/-- Whatever refers to a queue refers to one that has been registered, and the
others are as new. -/
structure Bounded (s : ServeState) : Prop where
  registry : ∀ q, s.registry = some q → q < s.next_queue
  deliveries : ∀ id q, (s.deliveries id).queue = some q → q < s.next_queue
  operations : ∀ o q, (s.operations o).queue = some q → q < s.next_queue
  loops : ∀ t q, (s.loops t).phase = .found q → q < s.next_queue
  poll : ∀ p, s.poll = some p → p.queue < s.next_queue
  fresh : ∀ q, s.next_queue ≤ q → s.queues q = ServeQueue.new

theorem bounded_new : Bounded new where
  registry := nofun
  deliveries := nofun
  operations := nofun
  loops := nofun
  poll := nofun
  fresh _ _ := rfl

theorem Bounded.set_queue {s : ServeState} (h : Bounded s) {q : ℕ} (hq : q < s.next_queue)
    (v : ServeQueue) : Bounded (s.set_queue q v) := by
  -- a queue that was never registered is not the one that changes
  refine ⟨h.registry, h.deliveries, h.operations, h.loops, h.poll, fun q' hle => ?_⟩
  have hne : q' ≠ q := by
    rintro rfl
    exact absurd hq (Nat.not_lt.mpr hle)
  exact (Function.update_of_ne hne _ _).trans (h.fresh q' hle)

theorem Bounded.set_delivery {s : ServeState} (h : Bounded s) (id : ℕ) {d : Delivery}
    (hd : ∀ q, d.queue = some q → q < s.next_queue) : Bounded (s.set_delivery id d) := by
  refine ⟨h.registry, fun id' q hq => ?_, h.operations, h.loops, h.poll, h.fresh⟩
  by_cases hid : id' = id
  · subst hid
    exact hd q (by simpa [ServeState.set_delivery] using hq)
  · exact h.deliveries id' q (by simpa [ServeState.set_delivery, hid] using hq)

theorem Bounded.set_operation {s : ServeState} (h : Bounded s) (o : ℕ) {v : Operation}
    (hv : ∀ q, v.queue = some q → q < s.next_queue) : Bounded (s.set_operation o v) := by
  refine ⟨h.registry, h.deliveries, fun o' q hq => ?_, h.loops, h.poll, h.fresh⟩
  by_cases ho : o' = o
  · subst ho
    exact hv q (by simpa [ServeState.set_operation] using hq)
  · exact h.operations o' q (by simpa [ServeState.set_operation, ho] using hq)

theorem Bounded.set_call {s : ServeState} (h : Bounded s) (t : ℕ) {l : ServeCall}
    (hl : ∀ q, l.phase = .found q → q < s.next_queue) : Bounded (s.set_call t l) := by
  refine ⟨h.registry, h.deliveries, h.operations, fun t' q hq => ?_, h.poll, h.fresh⟩
  by_cases ht : t' = t
  · rw [ht, set_call_self] at hq
    exact hl q hq
  · rw [set_call_of_ne s l ht] at hq
    exact h.loops t' q hq

theorem Bounded.end_poll {s : ServeState} (h : Bounded s) : Bounded { s with poll := none } :=
  ⟨h.registry, h.deliveries, h.operations, h.loops, nofun, h.fresh⟩

theorem Bounded.refuse {s : ServeState} (h : Bounded s) (id : ℕ) : Bounded (s.refuse id) := by
  obtain ⟨hr, hd, ho, hl, hp, hf⟩ := h.set_delivery id (d := .refused) nofun
  exact ⟨hr, hd, ho, hl, hp, hf⟩

theorem Bounded.wake_request_loop {s : ServeState} (h : Bounded s) (q : ℕ) :
    Bounded (s.wake_request_loop q) :=
  ⟨h.registry, h.deliveries, h.operations, h.loops, h.poll, h.fresh⟩

theorem Bounded.wait {s : ServeState} (h : Bounded s) (t : ℕ) : Bounded (s.wait t) := by
  refine h.set_call t fun q hq => ?_
  split at hq <;> cases hq

theorem Bounded.wake_signal {s : ServeState} (h : Bounded s) (t : ℕ) :
    Bounded (s.wake_signal t) := by
  obtain ⟨heq, -⟩ | ⟨heq, -⟩ | ⟨heq, -⟩ := wake_signal_cases s t
  · rw [heq]
    exact h
  · rw [heq]
    exact h.set_call t nofun
  · rw [heq]
    exact h.set_call t (h.loops t)

theorem Bounded.on_result {s : ServeState} (h : Bounded s) (t id len : ℕ) (n : ℤ) :
    Bounded (s.on_result t id len n) := by
  obtain ⟨-, -, heq⟩ | ⟨-, l, hl, heq⟩ := on_result_cases s t id len n
  · have hreturned : Bounded { s with returned := s.returned ++ [id] } :=
      ⟨h.registry, h.deliveries, h.operations, h.loops, h.poll, h.fresh⟩
    rw [heq]
    exact hreturned.set_call t nofun
  · rw [heq]
    exact h.set_call t fun q hq => absurd hq (hl q)

/-- Every step keeps to known queues. -/
theorem bounded_step {len : ℕ → ℕ} {s s' : ServeState} {x : ServeStep} (h : Bounded s)
    (hstep : s.step len x = some s') : Bounded s' := by
  cases step_cases hstep with
  | refused x id hd => exact h.refuse id
  | looked id q hd hreg => exact h.set_delivery id fun _ heq => Option.some.inj heq ▸ h.registry q hreg
  | checked id q hd => exact h.set_delivery id fun q' heq => h.deliveries id q' (by rw [hd]; exact heq)
  | sent id q hd hroom =>
      have hq : q < s.next_queue := h.deliveries id q (by rw [hd]; rfl)
      exact (h.set_queue hq _).set_delivery id fun _ heq => Option.some.inj heq ▸ hq
  | woke id q hd => exact (h.wake_request_loop q).set_delivery id nofun
  | called t hp => exact h.set_call t nofun
  | gone t hp => exact h.set_call t nofun
  | registered t hp =>
      have hnext : Bounded { s with registry := some s.next_queue, next_queue := s.next_queue + 1 } := by
        refine ⟨fun q hq => ?_, fun id q hq => ?_, fun o q hq => ?_, fun t q hq => ?_, fun p hp => ?_,
          fun q hle => ?_⟩
        · exact Option.some.inj hq ▸ Nat.lt_succ_self _
        · exact Nat.lt_succ_of_lt (h.deliveries id q hq)
        · exact Nat.lt_succ_of_lt (h.operations o q hq)
        · exact Nat.lt_succ_of_lt (h.loops t q hq)
        · exact Nat.lt_succ_of_lt (h.poll p hp)
        · exact h.fresh q (Nat.le_of_succ_le hle)
      exact hnext.set_call t nofun
  | removed x t hreg hpoll hp => exact h.set_call t nofun
  | unfound t hreg hp => exact h.set_call t nofun
  | found t q hp hreg => exact h.set_call t fun _ heq => LoopPhase.found.inj heq ▸ h.registry q hreg
  | waked t q hp => exact (h.set_queue (h.loops t q hp) _).set_call t nofun
  | seen t q waiting hp => exact h.set_call t nofun
  | ready t q waiting posted hp =>
      have hposted : Bounded { s with posted := s.posted ++ posted } :=
        ⟨h.registry, h.deliveries, h.operations, h.loops, h.poll, h.fresh⟩
      exact hposted.set_call t nofun
  | polled t q hpoll hp hreg =>
      refine ⟨h.registry, h.deliveries, h.operations, h.loops, fun p heq => ?_, h.fresh⟩
      exact Option.some.inj heq ▸ h.registry q hreg
  | stopped t q hpoll hshut => exact h.end_poll.set_call t nofun
  | unstopped t q hpoll hshut =>
      have hq : q < s.next_queue := h.poll _ hpoll
      refine ⟨h.registry, h.deliveries, h.operations, h.loops, fun p heq => ?_, h.fresh⟩
      exact Option.some.inj heq ▸ hq
  | contended t q hpoll hlock => exact h.end_poll.wait t
  | locked t q hpoll hlock =>
      have hq : q < s.next_queue := h.poll _ hpoll
      have hlocked : Bounded { s with poll := some ⟨t, q, .locked⟩ } := by
        refine ⟨h.registry, h.deliveries, h.operations, h.loops, fun p heq => ?_, h.fresh⟩
        exact Option.some.inj heq ▸ hq
      exact hlocked.set_queue hq _
  | empty t q hpoll hq => exact (h.end_poll.set_queue (h.poll _ hpoll) _).wait t
  | received t q id rest hpoll hq =>
      exact (h.end_poll.set_queue (h.poll _ hpoll) _).on_result t id _ _
  | woken i t hi =>
      have hposted : Bounded { s with posted := s.posted.eraseIdx i } :=
        ⟨h.registry, h.deliveries, h.operations, h.loops, h.poll, h.fresh⟩
      exact hposted.wake_signal t
  | cancelled t => exact h.wake_signal t
  | stopping o q ho hreg =>
      exact h.set_operation o fun _ heq => Option.some.inj heq ▸ h.registry q hreg
  | closing o q ho hreg =>
      have hremoved : Bounded { s with registry := none } :=
        ⟨nofun, h.deliveries, h.operations, h.loops, h.poll, h.fresh⟩
      exact hremoved.set_operation o fun _ heq => Option.some.inj heq ▸ h.registry q hreg
  | signalled o q stop ho =>
      have hq : q < s.next_queue := h.operations o q (by rw [ho]; rfl)
      exact (h.set_queue hq _).set_operation o fun _ heq => Option.some.inj heq ▸ hq
  | signal_woke o q stop ho =>
      refine (h.wake_request_loop q).set_operation o fun q' hq' => ?_
      split at hq' <;> cases hq'
  | skipped x o v ho hv => exact h.set_operation o fun q heq => nomatch hv.symm.trans heq
  | drain_found o q ho hreg =>
      exact h.set_operation o fun _ heq => Option.some.inj heq ▸ h.registry q hreg
  | drain_locked o q ho hlock =>
      have hq : q < s.next_queue := h.operations o q (by rw [ho]; rfl)
      exact (h.set_queue hq _).set_operation o fun _ heq => Option.some.inj heq ▸ hq
  | drained o q ho hq => exact (h.set_queue (h.operations o q (by rw [ho]; rfl)) _).set_operation o nofun
  | rejected o q id rest ho hq =>
      obtain ⟨hr, hd, hop, hl, hp, hf⟩ := h.set_queue (h.operations o q (by rw [ho]; rfl))
        { s.queues q with queue := rest }
      exact ⟨hr, hd, hop, hl, hp, hf⟩

/-! ## Which requests are where -/

/-- The queue that deliveries find and loops drain. -/
def live (s : ServeState) (q : ℕ) : Prop :=
  s.registry = some q ∧ (s.queues q).shutdown = false

/-- How many requests the poll in progress can still take from a queue: one, when
it is past the check of the flag and nobody else has the receiver. -/
def spare (s : ServeState) (q : ℕ) : ℕ :=
  match s.poll with
  | none => 0
  | some p =>
    if p.queue = q ∧ (p.phase = .locked ∨ p.phase = .checked ∧ (s.queues q).holder = none) then 1
    else 0

/-- No queue that is closed or replaced has more than the poll will take. -/
def Unstranded (s : ServeState) : Prop :=
  ∀ q, ¬ s.live q → (s.queues q).queue.length ≤ s.spare q

/-- **No request is lost**: one that has been accepted is in a queue, or was
returned by one poll, or was rejected with its response body finished; and no
queue that is no longer served keeps any. -/
structure Accounted (s : ServeState) : Prop where
  each : ∀ id, (s.deliveries id).accepted = true →
    (∃ q, id ∈ (s.queues q).queue) ∨ s.returned.count id = 1 ∨ id ∈ s.rejected ∧ id ∈ s.finished
  unstranded : s.Unstranded

/-- The side condition. A poll receives a request whose event fits its buffer. A
queue that is closed, replaced or removed is left with no more than the poll in
progress will take, and so is one that a request is put into after that; and the
drain of `stop_serve` finds nothing: neither when it takes the mutex of such a
queue from that poll, nor at any of its turns. -/
def Safe (len : ℕ → ℕ) (s : ServeState) : ServeStep → Prop
  | .try_send id => ∀ q, s.deliveries id = .checked q →
      (s.queues q).queue.length < QUEUE_CAPACITY → s.live q ∨
        (s.queues q).queue.length < s.spare q
  | .serve_start t gone => (s.loops t).phase = .starting → gone = false →
      ∀ q, s.registry = some q → (s.queues q).queue.length ≤ s.spare q
  | .close_endpoint o => s.operations o = .idle →
      ∀ q, s.registry = some q → (s.queues q).queue.length ≤ s.spare q
  | .signal o => ∀ q stop, s.operations o = .signalling q stop →
      (s.queues q).queue.length ≤ s.spare q
  | .drain_lock o busy => ∀ q, s.operations o = .locking q → busy = false →
      (s.queues q).holder = none → s.live q ∨ (s.queues q).queue = []
  | .drain_recv o => ∀ q, s.operations o = .draining q → (s.queues q).queue = []
  | .poll_recv => ∀ t q id rest, s.poll = some ⟨t, q, .locked⟩ →
      (s.queues q).queue = id :: rest →
      0 < len id ∧ len id ≤ (s.loops t).pollBuf ∧ len id ≤ i32.MAX
  | _ => True

/-- Where a request is, as far as the queues go. -/
inductive Place
  | nowhere
  | queued (q : ℕ)
  | returned
  deriving DecidableEq, Repr

/-- Every accepted request has one place. -/
structure Located (s : ServeState) (place : ℕ → Place) : Prop where
  queued : ∀ q id, (s.queues q).queue.count id = if place id = .queued q then 1 else 0
  returned : ∀ id, s.returned.count id = if place id = .returned then 1 else 0
  accepted : ∀ id, (s.deliveries id).accepted = true ↔ place id ≠ .nowhere
  finished : ∀ id ∈ s.finished, s.deliveries id = .refused

/-- The receiver's holder is at the step that has it. -/
structure Held (s : ServeState) : Prop where
  poll : ∀ q, (s.queues q).holder = some .poll ↔ ∃ t, s.poll = some ⟨t, q, .locked⟩
  drain : ∀ q o, (s.queues q).holder = some (.drain o) ↔ s.operations o = .draining q

/-- The invariant of the requests: each is in one place, none is stranded, and the locks are held by
those who took them. -/
structure Requests (s : ServeState) : Prop where
  located : ∃ place, Located s place
  unstranded : s.Unstranded
  held : s.Held

theorem requests_new : Requests new where
  located := ⟨fun _ => .nowhere, fun _ _ => rfl, fun _ => rfl, fun _ => ⟨nofun, fun h => absurd rfl h⟩,
    nofun⟩
  unstranded _ _ := Nat.zero_le _
  held := ⟨fun _ => ⟨nofun, nofun⟩, fun _ _ => ⟨nofun, nofun⟩⟩

/-! ### Places -/

theorem set_queue_self (s : ServeState) (q : ℕ) (v : ServeQueue) :
    (s.set_queue q v).queues q = v :=
  Function.update_self ..

theorem set_queue_of_ne (s : ServeState) {q q' : ℕ} (v : ServeQueue) (h : q' ≠ q) :
    (s.set_queue q v).queues q' = s.queues q' :=
  Function.update_of_ne h ..

/-- A change to a queue that leaves its requests alone. -/
theorem Located.set_queue {s : ServeState} {place : ℕ → Place} (h : Located s place) {q : ℕ}
    {v : ServeQueue} (hv : v.queue = (s.queues q).queue) : Located (s.set_queue q v) place := by
  refine ⟨fun q' id => ?_, h.returned, h.accepted, h.finished⟩
  by_cases hq : q' = q
  · rw [hq, set_queue_self, hv]
    exact h.queued q id
  · rw [set_queue_of_ne s v hq]
    exact h.queued q' id

theorem set_delivery_self (s : ServeState) (id : ℕ) (d : Delivery) :
    (s.set_delivery id d).deliveries id = d :=
  Function.update_self ..

theorem set_delivery_of_ne (s : ServeState) {id id' : ℕ} (d : Delivery) (h : id' ≠ id) :
    (s.set_delivery id d).deliveries id' = s.deliveries id' :=
  Function.update_of_ne h ..

/-- A delivery that has not been refused moves on. -/
theorem Located.set_delivery {s : ServeState} {place : ℕ → Place} (h : Located s place) {id : ℕ}
    {d : Delivery} (hd : d.accepted = (s.deliveries id).accepted)
    (hopen : s.deliveries id ≠ .refused) :
    Located (s.set_delivery id d) place := by
  refine ⟨h.queued, h.returned, fun id' => ?_, fun id' hmem => ?_⟩
  · by_cases hid : id' = id
    · subst hid
      rw [set_delivery_self, hd]
      exact h.accepted id'
    · rw [set_delivery_of_ne s d hid]
      exact h.accepted id'
  · have hid : id' ≠ id := by
      rintro rfl
      exact hopen (h.finished id' hmem)
    rw [set_delivery_of_ne s d hid]
    exact h.finished id' hmem

/-- A refused request is nowhere. -/
theorem Located.refuse {s : ServeState} {place : ℕ → Place} (h : Located s place) {id : ℕ}
    (hd : (s.deliveries id).accepted = false) : Located (s.refuse id) place := by
  refine ⟨h.queued, h.returned, fun id' => ?_, fun id' hmem => ?_⟩
  · by_cases hid : id' = id
    · rw [hid, ← h.accepted id, hd]
      exact iff_of_eq (congrArg (· = true) (congrArg Delivery.accepted (set_delivery_self s id _)))
    · exact (iff_of_eq (congrArg (fun d : Delivery => d.accepted = true)
        (set_delivery_of_ne s _ hid))).trans (h.accepted id')
  · by_cases hid : id' = id
    · rw [hid]
      exact set_delivery_self s id _
    · rcases List.mem_append.mp hmem with hold | hnew
      · exact (set_delivery_of_ne s _ hid).trans (h.finished id' hold)
      · exact absurd (List.mem_singleton.mp hnew) hid

/-- A request is put into a queue. -/
theorem Located.send {s : ServeState} {place : ℕ → Place} (h : Located s place) {id q : ℕ}
    (hd : s.deliveries id = .checked q) :
    Located ((s.set_queue q { s.queues q with queue := (s.queues q).queue ++ [id] }).set_delivery id
      (.sent q)) (Function.update place id (.queued q)) := by
  -- a delivery that has only checked was not accepted, so its request is nowhere yet
  have hnowhere : place id = .nowhere := by
    by_contra hplace
    have hacc := (h.accepted id).mpr hplace
    rw [hd] at hacc
    cases hacc
  refine ⟨fun q' id' => ?_, fun id' => ?_, fun id' => ?_, fun id' hmem => ?_⟩
  · have hold := h.queued q' id'
    show ((s.set_queue q _).queues q').queue.count id' = _
    by_cases hid : id' = id
    · subst hid
      rw [hnowhere, if_neg nofun] at hold
      rw [Function.update_self]
      by_cases hq : q' = q
      · subst hq
        rw [set_queue_self, if_pos rfl, List.count_append, hold, List.count_singleton_self]
      · rw [set_queue_of_ne s _ hq, hold, if_neg fun heq => hq (Place.queued.inj heq).symm]
    · rw [Function.update_of_ne hid, ← hold]
      by_cases hq : q' = q
      · subst hq
        rw [set_queue_self, List.count_append, List.count_singleton, if_neg (by simpa using Ne.symm hid)]
        rfl
      · rw [set_queue_of_ne s _ hq]
  · refine (h.returned id').trans ?_
    by_cases hid : id' = id
    · rw [hid, Function.update_self, hnowhere]
      rfl
    · rw [Function.update_of_ne hid]
  · by_cases hid : id' = id
    · rw [hid, set_delivery_self, Function.update_self]
      exact ⟨nofun, fun _ => rfl⟩
    · rw [set_delivery_of_ne _ _ hid, Function.update_of_ne hid]
      exact h.accepted id'
  · have hrefused := h.finished id' hmem
    have hid : id' ≠ id := by
      rintro rfl
      rw [hd] at hrefused
      cases hrefused
    rw [set_delivery_of_ne _ _ hid]
    exact hrefused

/-- The head of a queue is in no other place, and not behind itself. -/
theorem Located.head {s : ServeState} {place : ℕ → Place} (h : Located s place) {q id : ℕ}
    {rest : List ℕ} (hq : (s.queues q).queue = id :: rest) :
    place id = .queued q ∧ rest.count id = 0 := by
  have hcount := h.queued q id
  rw [hq, List.count_cons_self] at hcount
  by_cases hplace : place id = .queued q
  · rw [if_pos hplace] at hcount
    exact ⟨hplace, by omega⟩
  · rw [if_neg hplace] at hcount
    omega

/-- Once it is taken it is in no queue. -/
theorem Located.not_mem_of_take {s : ServeState} {place : ℕ → Place} (h : Located s place) {q id : ℕ}
    {v : ServeQueue} (hq : (s.queues q).queue = id :: v.queue) (q' : ℕ) :
    id ∉ ((s.set_queue q v).queues q').queue := by
  obtain ⟨hplace, hrest⟩ := h.head hq
  by_cases heq : q' = q
  · rw [heq, set_queue_self]
    exact List.count_eq_zero.mp hrest
  · rw [set_queue_of_ne s v heq]
    refine List.count_eq_zero.mp ?_
    rw [h.queued q' id, hplace]
    exact if_neg fun hother => heq (Place.queued.inj hother).symm

/-- A poll returns the head of a queue. -/
theorem Located.take {s : ServeState} {place : ℕ → Place} (h : Located s place) {q id : ℕ}
    {v : ServeQueue} (hq : (s.queues q).queue = id :: v.queue) :
    Located { s.set_queue q v with returned := s.returned ++ [id] }
      (Function.update place id .returned) := by
  obtain ⟨hplace, hrest⟩ := h.head hq
  refine ⟨fun q' id' => ?_, fun id' => ?_, fun id' => ?_, h.finished⟩
  · by_cases hid : id' = id
    · subst hid
      rw [Function.update_self, if_neg nofun]
      exact List.count_eq_zero.mpr (h.not_mem_of_take hq q')
    · rw [Function.update_of_ne hid, ← h.queued q' id']
      show ((s.set_queue q v).queues q').queue.count id' = _
      by_cases heq : q' = q
      · rw [heq, set_queue_self, hq, List.count_cons_of_ne (Ne.symm hid)]
      · rw [set_queue_of_ne s v heq]
  · show (s.returned ++ [id]).count id' = _
    have hold := h.returned id'
    rw [List.count_append, hold]
    by_cases hid : id' = id
    · rw [hid, Function.update_self, hplace, List.count_singleton_self]
      rfl
    · have hnone : [id].count id' = 0 :=
        List.count_eq_zero.mpr fun hmem => hid (List.mem_singleton.mp hmem)
      rw [Function.update_of_ne hid, hnone, Nat.add_zero]
  · refine (h.accepted id').trans ?_
    by_cases hid : id' = id
    · rw [hid, Function.update_self, hplace]
      exact ⟨nofun, nofun⟩
    · rw [Function.update_of_ne hid]

/-! ### What is left behind -/

/-- The poll takes at most one request out of a queue. -/
theorem spare_le_one (s : ServeState) (q : ℕ) : s.spare q ≤ 1 := by
  unfold spare
  split
  · exact Nat.zero_le 1
  · split
    · exact Nat.le_refl 1
    · exact Nat.zero_le 1

theorem spare_of_none {s : ServeState} (hpoll : s.poll = none) (q : ℕ) : s.spare q = 0 := by
  rw [spare, hpoll]

theorem spare_of_looked {s : ServeState} {t q : ℕ} (hpoll : s.poll = some ⟨t, q, .looked⟩) (q' : ℕ) :
    s.spare q' = 0 := by
  rw [spare, hpoll]
  exact if_neg fun h => h.2.elim nofun fun h => nomatch h.1

theorem spare_of_ne {s : ServeState} {p : Poll} (hpoll : s.poll = some p) {q : ℕ} (hne : q ≠ p.queue) :
    s.spare q = 0 := by
  rw [spare, hpoll]
  exact if_neg fun h => hne h.1.symm

theorem spare_of_contended {s : ServeState} {t q : ℕ} (hpoll : s.poll = some ⟨t, q, .checked⟩)
    (hlock : (s.queues q).holder ≠ none) (q' : ℕ) : s.spare q' = 0 := by
  by_cases hq : q' = q
  · rw [spare, hpoll, hq]
    exact if_neg fun h => h.2.elim nofun fun h => hlock h.2
  · exact spare_of_ne hpoll hq

/-- A change to a queue that leaves its lock alone leaves it the same to spare. -/
theorem spare_set_queue {s : ServeState} {q : ℕ} {v : ServeQueue}
    (hv : v.holder = (s.queues q).holder) : (s.set_queue q v).spare q = s.spare q := by
  unfold spare
  rw [set_queue_self, hv]
  rfl

theorem spare_set_queue_of_ne {s : ServeState} {q q' : ℕ} (v : ServeQueue) (hne : q' ≠ q) :
    (s.set_queue q v).spare q' = s.spare q' := by
  unfold spare
  rw [set_queue_of_ne s v hne]
  rfl

/-- One queue changes. -/
theorem Unstranded.set_queue {s : ServeState} (h : s.Unstranded) {q : ℕ} {v : ServeQueue}
    (hq : (s.registry = some q → v.shutdown = true) → v.queue.length ≤ (s.set_queue q v).spare q) :
    (s.set_queue q v).Unstranded := by
  intro q' hdead
  by_cases heq : q' = q
  · subst heq
    rw [set_queue_self]
    refine hq fun hreg => ?_
    by_contra hopen
    refine hdead ⟨hreg, ?_⟩
    rw [set_queue_self]
    exact Bool.eq_false_iff.mpr hopen
  · rw [set_queue_of_ne s v heq, spare_set_queue_of_ne v heq]
    refine h q' fun hlive => hdead ⟨hlive.1, ?_⟩
    rw [set_queue_of_ne s v heq]
    exact hlive.2

/-- The poll moves on where it had nothing to spare. -/
theorem Unstranded.set_poll {s : ServeState} (h : s.Unstranded) (hspare : ∀ q, s.spare q = 0)
    (poll : Option Poll) : Unstranded { s with poll := poll } := by
  intro q hdead
  have hle : (s.queues q).queue.length ≤ s.spare q := h q hdead
  rw [hspare q] at hle
  exact Nat.le_trans hle (Nat.zero_le _)

/-- The poll has taken what it could. -/
theorem Unstranded.take {s : ServeState} (h : s.Unstranded) {t q : ℕ}
    (hpoll : s.poll = some ⟨t, q, .locked⟩) {v : ServeQueue}
    (hv : v.queue = (s.queues q).queue.tail) (hshut : v.shutdown = (s.queues q).shutdown) :
    Unstranded ({ s with poll := none }.set_queue q v) := by
  intro q' hdead
  by_cases heq : q' = q
  · subst heq
    have hle : (s.queues q').queue.length ≤ s.spare q' := by
      refine h q' fun hlive => hdead ⟨hlive.1, ?_⟩
      rw [set_queue_self, hshut]
      exact hlive.2
    have hone := spare_le_one s q'
    rw [set_queue_self, hv, List.length_tail]
    omega
  · have hle : (s.queues q').queue.length ≤ s.spare q' := by
      refine h q' fun hlive => hdead ⟨hlive.1, ?_⟩
      rw [set_queue_of_ne _ v heq]
      exact hlive.2
    rw [spare_of_ne hpoll heq] at hle
    rw [set_queue_of_ne _ v heq]
    exact Nat.le_trans hle (Nat.zero_le _)

/-! ### Who has the receiver -/

theorem Held.set_queue {s : ServeState} (h : s.Held) {q : ℕ} {v : ServeQueue}
    (hv : v.holder = (s.queues q).holder) : (s.set_queue q v).Held := by
  have hsame : ∀ q', ((s.set_queue q v).queues q').holder = (s.queues q').holder := by
    intro q'
    by_cases heq : q' = q
    · rw [heq, set_queue_self, hv]
    · rw [set_queue_of_ne s v heq]
  refine ⟨fun q' => ?_, fun q' o => ?_⟩
  · rw [hsame q']
    exact h.poll q'
  · rw [hsame q']
    exact h.drain q' o

theorem set_operation_self (s : ServeState) (o : ℕ) (v : Operation) :
    (s.set_operation o v).operations o = v :=
  Function.update_self ..

theorem set_operation_of_ne (s : ServeState) {o o' : ℕ} (v : Operation) (h : o' ≠ o) :
    (s.set_operation o v).operations o' = s.operations o' :=
  Function.update_of_ne h ..

theorem Held.set_operation {s : ServeState} (h : s.Held) {o : ℕ} {v : Operation}
    (ho : ∀ q, s.operations o ≠ .draining q) (hv : ∀ q, v ≠ .draining q) :
    (s.set_operation o v).Held := by
  refine ⟨h.poll, fun q o' => ?_⟩
  by_cases heq : o' = o
  · rw [heq, set_operation_self]
    exact ⟨fun hold => absurd ((h.drain q o).mp hold) (ho q), fun hd => absurd hd (hv q)⟩
  · rw [set_operation_of_ne s v heq]
    exact h.drain q o'

/-- The poll ends or moves on without having had the receiver. -/
theorem Held.set_poll {s : ServeState} (h : s.Held) {poll : Option Poll}
    (hp : ∀ t q, s.poll ≠ some ⟨t, q, .locked⟩) (hp' : ∀ t q, poll ≠ some ⟨t, q, .locked⟩) :
    Held { s with poll := poll } := by
  refine ⟨fun q => ⟨fun hold => ?_, ?_⟩, h.drain⟩
  · obtain ⟨t, hpoll⟩ := (h.poll q).mp hold
    exact absurd hpoll (hp t q)
  · rintro ⟨t, hpoll⟩
    exact absurd hpoll (hp' t q)

/-- The poll locks its queue. -/
theorem Held.lock {s : ServeState} (h : s.Held) {t q : ℕ} (hpoll : s.poll = some ⟨t, q, .checked⟩)
    (hfree : (s.queues q).holder = none) {v : ServeQueue} (hv : v.holder = some .poll) :
    Held ({ s with poll := some ⟨t, q, .locked⟩ }.set_queue q v) := by
  refine ⟨fun q' => ?_, fun q' o => ?_⟩
  · by_cases heq : q' = q
    · subst heq
      rw [set_queue_self, hv]
      exact ⟨fun _ => ⟨t, rfl⟩, fun _ => rfl⟩
    · rw [set_queue_of_ne _ v heq]
      constructor
      · intro hold
        obtain ⟨t', hpoll'⟩ := (h.poll q').mp hold
        exact nomatch hpoll.symm.trans hpoll'
      · rintro ⟨t', hpoll'⟩
        cases hpoll'
        exact absurd rfl heq
  · refine Iff.trans ?_ (h.drain q' o)
    by_cases heq : q' = q
    · subst heq
      rw [set_queue_self, hv, hfree]
      exact ⟨nofun, nofun⟩
    · rw [set_queue_of_ne _ v heq]

/-- The poll releases the receiver of its queue. -/
theorem Held.release {s : ServeState} (h : s.Held) {t q : ℕ} (hpoll : s.poll = some ⟨t, q, .locked⟩)
    {v : ServeQueue} (hv : v.holder = none) : Held ({ s with poll := none }.set_queue q v) := by
  have hheld : (s.queues q).holder = some .poll := (h.poll q).mpr ⟨t, hpoll⟩
  refine ⟨fun q' => ⟨fun hold => ?_, nofun⟩, fun q' o => ?_⟩
  · by_cases heq : q' = q
    · rw [heq, set_queue_self, hv] at hold
      cases hold
    · rw [set_queue_of_ne _ v heq] at hold
      obtain ⟨t', hpoll'⟩ := (h.poll q').mp hold
      rw [hpoll, Option.some.injEq, Poll.mk.injEq] at hpoll'
      exact absurd hpoll'.2.1.symm heq
  · refine Iff.trans ?_ (h.drain q' o)
    by_cases heq : q' = q
    · subst heq
      rw [set_queue_self, hv, hheld]
      exact ⟨nofun, nofun⟩
    · rw [set_queue_of_ne _ v heq]

/-- A drain locks the queue it has found. -/
theorem Held.drain_lock {s : ServeState} (h : s.Held) {o q : ℕ} (ho : s.operations o = .locking q)
    (hfree : (s.queues q).holder = none) {v : ServeQueue} (hv : v.holder = some (.drain o)) :
    Held ((s.set_queue q v).set_operation o (.draining q)) := by
  refine ⟨fun q' => ?_, fun q' o' => ?_⟩
  · refine Iff.trans ?_ (h.poll q')
    show ((s.set_queue q v).queues q').holder = _ ↔ _
    by_cases heq : q' = q
    · subst heq
      rw [set_queue_self, hv, hfree]
      exact ⟨nofun, nofun⟩
    · rw [set_queue_of_ne s v heq]
  · show ((s.set_queue q v).queues q').holder = _ ↔ _
    by_cases heq : q' = q
    · subst heq
      rw [set_queue_self, hv]
      -- the lock was free, so no other drain had it
      by_cases ho' : o' = o
      · rw [ho', set_operation_self]
        exact ⟨fun _ => rfl, fun _ => rfl⟩
      · rw [set_operation_of_ne _ _ ho']
        refine ⟨fun hd => ?_, fun hd => ?_⟩
        · cases hd
          exact absurd rfl ho'
        · exact nomatch hfree.symm.trans ((h.drain q' o').mpr hd)
    · rw [set_queue_of_ne s v heq]
      by_cases ho' : o' = o
      · subst ho'
        rw [set_operation_self, h.drain q' o', ho]
        refine ⟨nofun, fun hd => ?_⟩
        cases hd
        exact absurd rfl heq
      · rw [set_operation_of_ne _ _ ho']
        exact h.drain q' o'

/-- The poll takes nothing from a queue that a drain has locked. -/
theorem Held.spare_drain_lock {s : ServeState} (h : s.Held) {o q : ℕ}
    (hfree : (s.queues q).holder = none) {v : ServeQueue} (hv : v.holder = some (.drain o)) :
    (s.set_queue q v).spare q = 0 := by
  cases hpoll : s.poll with
  | none => exact spare_of_none (s := s.set_queue q v) hpoll q
  | some p =>
      obtain ⟨t, q', phase⟩ := p
      rw [spare, show (s.set_queue q v).poll = _ from hpoll]
      refine if_neg ?_
      rintro ⟨rfl, hlocked | ⟨-, hnone⟩⟩
      · have hheld := (h.poll q').mpr ⟨t, hpoll.trans (by rw [show phase = .locked from hlocked])⟩
        exact nomatch hfree.symm.trans hheld
      · rw [set_queue_self, hv] at hnone
        cases hnone

/-- A drain gives the receiver back. -/
theorem Held.drain_release {s : ServeState} (h : s.Held) {o q : ℕ}
    (ho : s.operations o = .draining q) {v : ServeQueue} (hv : v.holder = none) :
    Held ((s.set_queue q v).set_operation o .done) := by
  -- a drain gives back the lock that it holds, and no other
  have hheld : (s.queues q).holder = some (.drain o) := (h.drain q o).mpr ho
  refine ⟨fun q' => ?_, fun q' o' => ?_⟩
  · refine Iff.trans ?_ (h.poll q')
    show ((s.set_queue q v).queues q').holder = _ ↔ _
    by_cases heq : q' = q
    · subst heq
      rw [set_queue_self, hv, hheld]
      exact ⟨nofun, nofun⟩
    · rw [set_queue_of_ne s v heq]
  · show ((s.set_queue q v).queues q').holder = _ ↔ _
    by_cases ho' : o' = o
    · subst ho'
      rw [set_operation_self]
      refine ⟨fun hd => ?_, nofun⟩
      by_cases heq : q' = q
      · rw [heq, set_queue_self, hv] at hd
        cases hd
      · rw [set_queue_of_ne s v heq, h.drain q' o', ho, Operation.draining.injEq] at hd
        exact absurd hd.symm heq
    · rw [set_operation_of_ne _ _ ho']
      refine Iff.trans ?_ (h.drain q' o')
      by_cases heq : q' = q
      · subst heq
        rw [set_queue_self, hv, hheld]
        refine ⟨nofun, fun hd => ?_⟩
        cases hd
        exact absurd rfl ho'
      · rw [set_queue_of_ne s v heq]

/-! ### Steps -/

/-- The loops and the wake-ups have no part in it. -/
theorem Requests.set_loops {s : ServeState} (h : Requests s) (loops : ℕ → ServeCall)
    (posted : List ℕ) : Requests { s with loops := loops, posted := posted } := by
  obtain ⟨place, hl⟩ := h.located
  exact ⟨⟨place, hl.queued, hl.returned, hl.accepted, hl.finished⟩, h.unstranded,
    ⟨h.held.poll, h.held.drain⟩⟩

/-- A wake moves no request. -/
theorem Requests.wake_signal {s : ServeState} (h : Requests s) (t : ℕ) :
    Requests (s.wake_signal t) := by
  obtain ⟨heq, -⟩ | ⟨heq, -⟩ | ⟨heq, -⟩ := wake_signal_cases s t
  · rw [heq]
    exact h
  · rw [heq]
    exact h.set_loops _ _
  · rw [heq]
    exact h.set_loops _ _

/-- A delivery moves on without a request being queued. -/
theorem Requests.set_delivery {s : ServeState} (h : Requests s) {id : ℕ} {d : Delivery}
    (hd : d.accepted = (s.deliveries id).accepted) (hopen : s.deliveries id ≠ .refused) :
    Requests (s.set_delivery id d) := by
  obtain ⟨place, hl⟩ := h.located
  exact ⟨⟨place, hl.set_delivery hd hopen⟩, h.unstranded, ⟨h.held.poll, h.held.drain⟩⟩

/-- An operation that does not drain moves no request. -/
theorem Requests.set_operation {s : ServeState} (h : Requests s) {o : ℕ} {v : Operation}
    (ho : ∀ q, s.operations o ≠ .draining q) (hv : ∀ q, v ≠ .draining q) :
    Requests (s.set_operation o v) := by
  obtain ⟨place, hl⟩ := h.located
  exact ⟨⟨place, hl.queued, hl.returned, hl.accepted, hl.finished⟩, h.unstranded,
    h.held.set_operation ho hv⟩

/-- The poll ends or moves on without having had the receiver. -/
theorem Requests.set_poll {s : ServeState} (h : Requests s) (hspare : ∀ q, s.spare q = 0)
    (hp : ∀ t q, s.poll ≠ some ⟨t, q, .locked⟩) {poll : Option Poll}
    (hp' : ∀ t q, poll ≠ some ⟨t, q, .locked⟩) : Requests { s with poll := poll } := by
  obtain ⟨place, hl⟩ := h.located
  exact ⟨⟨place, hl.queued, hl.returned, hl.accepted, hl.finished⟩,
    h.unstranded.set_poll hspare poll, h.held.set_poll hp hp'⟩

/-- A queue that keeps its requests and its lock. -/
theorem Requests.set_queue {s : ServeState} (h : Requests s) {q : ℕ} {v : ServeQueue}
    (hv : v.queue = (s.queues q).queue) (hlock : v.holder = (s.queues q).holder)
    (hq : (s.registry = some q → v.shutdown = true) → (s.queues q).queue.length ≤ s.spare q) :
    Requests (s.set_queue q v) := by
  obtain ⟨place, hl⟩ := h.located
  refine ⟨⟨place, hl.set_queue hv⟩, h.unstranded.set_queue fun hdead => ?_, h.held.set_queue hlock⟩
  rw [spare_set_queue hlock, hv]
  exact hq hdead

/-- The registry changes, and the queue it had is left with what the poll takes. -/
theorem Requests.set_registry {s : ServeState} (h : Requests s) {registry : Option ℕ}
    {next_queue : ℕ}
    (hq : ∀ q, s.registry = some q → (s.queues q).queue.length ≤ s.spare q) :
    Requests { s with registry := registry, next_queue := next_queue } := by
  obtain ⟨place, hl⟩ := h.located
  refine ⟨⟨place, hl.queued, hl.returned, hl.accepted, hl.finished⟩, fun q _ => ?_,
    ⟨h.held.poll, h.held.drain⟩⟩
  by_cases hreg : s.registry = some q
  · exact hq q hreg
  · exact h.unstranded q fun hlive => hreg hlive.1

/-- A poll of an empty queue moves no request. -/
theorem requests_empty {s : ServeState} (h : Requests s) {t q : ℕ}
    (hpoll : s.poll = some ⟨t, q, .locked⟩) (hq : (s.queues q).queue = []) :
    Requests ({ s with poll := none }.set_queue q { s.queues q with holder := none }) := by
  obtain ⟨place, hl⟩ := h.located
  have hl' : Located { s with poll := none } place :=
    ⟨hl.queued, hl.returned, hl.accepted, hl.finished⟩
  exact ⟨⟨place, hl'.set_queue rfl⟩, h.unstranded.take hpoll (by rw [hq]; rfl) rfl,
    h.held.release hpoll rfl⟩

/-- A request that fits goes from the queue to the loop. -/
theorem requests_received {len : ℕ → ℕ} {s : ServeState} (h : Requests s) {t q id : ℕ}
    {rest : List ℕ} (hpoll : s.poll = some ⟨t, q, .locked⟩) (hq : (s.queues q).queue = id :: rest)
    (hfit : 0 < len id ∧ len id ≤ (s.loops t).pollBuf ∧ len id ≤ i32.MAX) :
    Requests (({ s with poll := none }.set_queue q
      { s.queues q with queue := rest, holder := none }).on_result t id (len id)
        (poll_result (s.loops t).pollBuf (len id))) := by
  obtain ⟨place, hl⟩ := h.located
  -- the event fits, so the loop gets all of it and the request moves to `returned`
  have hfull := poll_result_eq_iff.mpr hfit
  obtain ⟨-, -, heq⟩ | ⟨hno, -⟩ := on_result_cases ({ s with poll := none }.set_queue q
    { s.queues q with queue := rest, holder := none }) t id (len id)
      (poll_result (s.loops t).pollBuf (len id))
  · rw [heq]
    have hl' : Located { s with poll := none } place :=
      ⟨hl.queued, hl.returned, hl.accepted, hl.finished⟩
    have htaken := hl'.take (v := { s.queues q with queue := rest, holder := none }) hq
    refine ⟨⟨_, htaken.queued, htaken.returned, htaken.accepted, htaken.finished⟩, ?_, ?_⟩
    · exact h.unstranded.take hpoll (by rw [hq]; rfl) rfl
    · obtain ⟨hp, ho⟩ := h.held.release hpoll
        (v := { s.queues q with queue := rest, holder := none }) rfl
      exact ⟨hp, ho⟩
  · exact absurd hfull hno

/-- The poll locks its queue. -/
theorem requests_locked {s : ServeState} (h : Requests s) {t q : ℕ}
    (hpoll : s.poll = some ⟨t, q, .checked⟩) (hfree : (s.queues q).holder = none) :
    Requests ({ s with poll := some ⟨t, q, .locked⟩ }.set_queue q
      { s.queues q with holder := some .poll }) := by
  obtain ⟨place, hl⟩ := h.located
  have hl' : Located { s with poll := some ⟨t, q, .locked⟩ } place :=
    ⟨hl.queued, hl.returned, hl.accepted, hl.finished⟩
  -- the lock changes neither the flag nor the registry
  have hdead' : ∀ q', ¬ live ({ s with poll := some ⟨t, q, .locked⟩ }.set_queue q
      { s.queues q with holder := some .poll }) q' → ¬ s.live q' := by
    intro q' hdead hlive
    refine hdead ⟨hlive.1, ?_⟩
    by_cases heq : q' = q
    · rw [heq, set_queue_self]
      exact heq ▸ hlive.2
    · rw [set_queue_of_ne _ _ heq]
      exact hlive.2
  refine ⟨⟨place, hl'.set_queue rfl⟩, fun q' hdead => ?_, h.held.lock hpoll hfree rfl⟩
  have hle := h.unstranded q' (hdead' q' hdead)
  by_cases heq : q' = q
  · have hone := spare_le_one s q'
    have hspare : spare ({ s with poll := some ⟨t, q, .locked⟩ }.set_queue q
        { s.queues q with holder := some .poll }) q = 1 := if_pos ⟨rfl, .inl rfl⟩
    rw [heq, hspare, set_queue_self]
    rw [heq] at hle hone
    exact Nat.le_trans hle hone
  · rw [spare_of_ne hpoll heq] at hle
    rw [set_queue_of_ne _ _ heq]
    exact Nat.le_trans hle (Nat.zero_le _)

/-- A drain locks the queue it finds, which is empty unless it is live. -/
theorem requests_drain_locked {s : ServeState} (h : Requests s) {o q : ℕ}
    (ho : s.operations o = .locking q) (hfree : (s.queues q).holder = none)
    (hempty : (s.registry = some q → (s.queues q).shutdown = true) → (s.queues q).queue = []) :
    Requests ((s.set_queue q { s.queues q with holder := some (.drain o) }).set_operation o
      (.draining q)) := by
  obtain ⟨place, hl⟩ := h.located
  have hl' := hl.set_queue (v := { s.queues q with holder := some (.drain o) }) rfl
  refine ⟨⟨place, hl'.queued, hl'.returned, hl'.accepted, hl'.finished⟩, ?_,
    h.held.drain_lock ho hfree rfl⟩
  refine h.unstranded.set_queue fun hdead => ?_
  show (s.queues q).queue.length ≤ _
  rw [hempty hdead]
  exact Nat.zero_le _

/-- A drain that finds its queue empty gives the receiver back. -/
theorem requests_drained {s : ServeState} (h : Requests s) {o q : ℕ}
    (ho : s.operations o = .draining q) (hq : (s.queues q).queue = []) :
    Requests ((s.set_queue q { s.queues q with holder := none }).set_operation o .done) := by
  obtain ⟨place, hl⟩ := h.located
  have hl' := hl.set_queue (v := { s.queues q with holder := none }) rfl
  refine ⟨⟨place, hl'.queued, hl'.returned, hl'.accepted, hl'.finished⟩, ?_,
    h.held.drain_release ho rfl⟩
  refine h.unstranded.set_queue fun _ => ?_
  show (s.queues q).queue.length ≤ _
  rw [hq]
  exact Nat.zero_le _

/-- Every step that is safe keeps the requests in their places. -/
theorem requests_step {len : ℕ → ℕ} {s s' : ServeState} {x : ServeStep} (h : Requests s)
    (hsafe : s.Safe len x) (hstep : s.step len x = some s') : Requests s' := by
  cases step_cases hstep with
  | refused x id hd =>
      obtain ⟨place, hl⟩ := h.located
      exact ⟨⟨place, hl.refuse hd⟩, h.unstranded, ⟨h.held.poll, h.held.drain⟩⟩
  | looked id q hd hreg => exact h.set_delivery (by rw [hd]; rfl) (by rw [hd]; nofun)
  | checked id q hd => exact h.set_delivery (by rw [hd]; rfl) (by rw [hd]; nofun)
  | sent id q hd hroom =>
      obtain ⟨place, hl⟩ := h.located
      refine ⟨⟨_, hl.send hd⟩, ?_, ?_⟩
      swap
      · obtain ⟨hp, ho⟩ := h.held.set_queue (q := q)
          (v := { s.queues q with queue := (s.queues q).queue ++ [id] }) rfl
        exact ⟨hp, ho⟩
      refine h.unstranded.set_queue fun hdead => ?_
      -- either the queue is live, or the poll still has room for this one
      have hspare : (s.set_queue q { s.queues q with queue := (s.queues q).queue ++ [id] }).spare q =
          s.spare q := spare_set_queue rfl
      rw [hspare]
      show ((s.queues q).queue ++ [id]).length ≤ s.spare q
      rw [List.length_append, List.length_singleton]
      rcases hsafe q hd hroom with hlive | hlt
      · have hshut := hdead hlive.1
        rw [hlive.2] at hshut
        cases hshut
      · exact hlt
  | woke id q hd =>
      exact (h.set_loops s.loops _).set_delivery (by rw [hd]; rfl) (by rw [hd]; nofun)
  | called t hp => exact h.set_loops _ _
  | gone t hp => exact h.set_loops _ _
  | registered t hp =>
      exact (h.set_registry (hsafe hp rfl)).set_loops _ _
  | removed x t hreg hpoll hp => exact h.set_loops _ _
  | unfound t hreg hp => exact h.set_loops _ _
  | found t q hp hreg => exact h.set_loops _ _
  | waked t q hp =>
      -- a waker says nothing about requests: the queue has as many as before
      have hq : Requests (s.set_queue q { s.queues q with waker := some t }) := by
        refine h.set_queue rfl rfl fun hdead => h.unstranded q fun hlive => ?_
        have hshut := hdead hlive.1
        rw [hlive.2] at hshut
        cases hshut
      exact hq.set_loops _ _
  | seen t q waiting hp => exact h.set_loops _ _
  | ready t q waiting posted hp => exact h.set_loops _ _
  | polled t q hpoll hp hreg =>
      exact h.set_poll (spare_of_none hpoll) (fun t q => by rw [hpoll]; nofun) nofun
  | stopped t q hpoll hshut =>
      have hended : Requests { s with poll := none } :=
        h.set_poll (spare_of_looked hpoll) (fun t q => by rw [hpoll]; nofun) nofun
      exact hended.set_loops _ _
  | unstopped t q hpoll hshut =>
      exact h.set_poll (spare_of_looked hpoll) (fun t q => by rw [hpoll]; nofun) nofun
  | contended t q hpoll hlock =>
      have hended : Requests { s with poll := none } :=
        h.set_poll (spare_of_contended hpoll hlock) (fun t q => by rw [hpoll]; nofun) nofun
      exact hended.set_loops _ _
  | locked t q hpoll hlock =>
      exact requests_locked h hpoll hlock
  | empty t q hpoll hq => exact (requests_empty h hpoll hq).set_loops _ _
  | received t q id rest hpoll hq =>
      exact requests_received h hpoll hq (hsafe t q id rest hpoll hq)
  | woken i t hi => exact (h.set_loops s.loops _).wake_signal t
  | cancelled t => exact h.wake_signal t
  | stopping o q ho hreg => exact h.set_operation (fun q => by rw [ho]; nofun) nofun
  | closing o q ho hreg =>
      exact (h.set_registry (hsafe ho)).set_operation (fun q => by rw [ho]; nofun) nofun
  | signalled o q stop ho =>
      have hq : Requests (s.set_queue q { s.queues q with shutdown := true }) :=
        h.set_queue rfl rfl fun _ => hsafe q stop ho
      exact hq.set_operation (fun q' heq => nomatch ho.symm.trans heq) nofun
  | signal_woke o q stop ho =>
      refine (h.set_loops s.loops _).set_operation (fun q => by rw [ho]; nofun) fun q => ?_
      split <;> nofun
  | skipped x o v ho hv =>
      refine h.set_operation ho fun q heq => ?_
      rw [heq] at hv
      cases hv
  | drain_found o q ho hreg => exact h.set_operation (fun q' => by rw [ho]; nofun) nofun
  | drain_locked o q ho hlock =>
      refine requests_drain_locked h ho hlock fun hdead => ?_
      rcases hsafe q ho rfl hlock with hlive | hempty
      · have hshut := hdead hlive.1
        rw [hlive.2] at hshut
        cases hshut
      · exact hempty
  | drained o q ho hq => exact requests_drained h ho hq
  | rejected o q id rest ho hq =>
      rw [hsafe q ho] at hq
      cases hq

/-! ## Wake-ups

A request in the live queue is on its way to a poll: its delivery is about to
wake the loop, the wake-up is under way, or the loop has yet to wait. -/

end ServeState

/-- The loop is about to poll. -/
def LoopPhase.polls : LoopPhase → Bool
  | .ready => true
  | .retrying => true
  | _ => false

/-- The waker is set and the loop has not ended. -/
def LoopPhase.serving : LoopPhase → Bool
  | .checking _ => true
  | .seen _ _ => true
  | .ready => true
  | .retrying => true
  | .waiting => true
  | _ => false

/-- The waker has been set on the queue, and the loop has yet to begin. -/
def LoopPhase.begins (phase : LoopPhase) (q : ℕ) : Prop :=
  phase = .checking q ∨ ∃ waiting, phase = .seen q waiting

/-- The loop will poll before it waits for good. -/
def ServeCall.roused (l : ServeCall) (q : ℕ) : Prop :=
  l.phase.begins q ∨ l.phase.polls = true ∨ l.pending = true

namespace ServeState

/-- Something will poll queue `q` for the loop `t`: a delivery about to wake it, a drain, a post
that is due, or the loop itself. -/
def Roused (s : ServeState) (q t : ℕ) : Prop :=
  (∃ id, s.deliveries id = .sent q) ∨ (∃ o, s.operations o = .draining q) ∨ t ∈ s.posted ∨
    (s.loops t).roused q

/-- The call that is to set the waker on the queue. -/
def Unset (q : ℕ) (l : ServeCall) : Prop := l.phase = .registered ∨ l.phase = .found q

/-- The invariant of the wakers: a live queue's loop is there, and is roused whenever the queue is
not empty. -/
structure Wakes (s : ServeState) : Prop where
  unset : ∀ q, s.registry = some q → (s.queues q).waker = none → ∃ t, Unset q (s.loops t)
  serving : ∀ q t, s.live q → (s.queues q).waker = some t → (s.loops t).phase.serving = true
  polling : ∀ p, s.poll = some p → (s.loops p.token).phase.polls = true
  own : ∀ p q, s.poll = some p → s.registry = some q → (s.queues q).waker = some p.token →
    p.queue = q
  unmarked : ∀ t, (s.loops t).phase = .waiting → (s.loops t).pending = false
  roused : ∀ q t, s.live q → (s.queues q).queue ≠ [] → (s.queues q).waker = some t → s.Roused q t

theorem wakes_new : Wakes new where
  unset := nofun
  serving _ _ h := nomatch h.1
  polling := nofun
  own := nofun
  unmarked _ := nofun
  roused _ _ h := nomatch h.1

theorem not_unset {l : ServeCall} {phase : LoopPhase} {q : ℕ} (hphase : l.phase = phase)
    (hreg : phase ≠ .registered) (hfound : phase ≠ .found q) : ¬ Unset q l := by
  rintro (hunset | hunset)
  · exact hreg (hphase.symm.trans hunset)
  · exact hfound (hphase.symm.trans hunset)

theorem not_unset_of_polls {l : ServeCall} {q : ℕ} (hpolls : l.phase.polls = true) :
    ¬ Unset q l := by
  rintro (hunset | hunset)
  · rw [hunset] at hpolls
    cases hpolls
  · rw [hunset] at hpolls
    cases hpolls

/-- A delivery moves on that owes no wake-up. -/
theorem Wakes.set_delivery {s : ServeState} (h : Wakes s) {id : ℕ}
    (hd : ∀ q, s.deliveries id ≠ .sent q) (d : Delivery) : Wakes (s.set_delivery id d) := by
  refine ⟨h.unset, h.serving, h.polling, h.own, h.unmarked, fun q t hlive hq hw => ?_⟩
  rcases h.roused q t hlive hq hw with ⟨id', hsent⟩ | hrest
  · have hne : id' ≠ id := by
      rintro rfl
      exact hd q hsent
    exact .inl ⟨id', (set_delivery_of_ne s d hne).trans hsent⟩
  · exact .inr hrest

theorem Wakes.refuse {s : ServeState} (h : Wakes s) {id : ℕ}
    (hd : (s.deliveries id).accepted = false) : Wakes (s.refuse id) := by
  have hsent : ∀ q, s.deliveries id ≠ .sent q := by
    intro q heq
    rw [heq] at hd
    cases hd
  obtain ⟨hu, hs, hp, ho, hm, hr⟩ := h.set_delivery hsent .refused
  exact ⟨hu, hs, hp, ho, hm, hr⟩

/-- An operation moves on that is not draining. -/
theorem Wakes.set_operation {s : ServeState} (h : Wakes s) {o : ℕ}
    (ho : ∀ q, s.operations o = .draining q → (s.queues q).queue = []) (v : Operation) :
    Wakes (s.set_operation o v) := by
  refine ⟨h.unset, h.serving, h.polling, h.own, h.unmarked, fun q t hlive hq hw => ?_⟩
  rcases h.roused q t hlive hq hw with hsent | ⟨o', hdrain⟩ | hrest
  · exact .inl hsent
  · have hne : o' ≠ o := by
      rintro rfl
      exact hq (ho q hdrain)
    exact .inr (.inl ⟨o', (Function.update_of_ne hne _ _).trans hdrain⟩)
  · exact .inr (.inr hrest)

/-- A queue changes that keeps its waker, is not opened and gets nothing. -/
theorem Wakes.set_queue {s : ServeState} (h : Wakes s) {q : ℕ} {v : ServeQueue}
    (hw : v.waker = (s.queues q).waker) (hs : v.shutdown = false → (s.queues q).shutdown = false)
    (hq : v.queue ≠ [] → (s.queues q).queue ≠ []) : Wakes (s.set_queue q v) := by
  have hwaker : ∀ q', ((s.set_queue q v).queues q').waker = (s.queues q').waker := by
    intro q'
    by_cases heq : q' = q
    · rw [heq, set_queue_self, hw]
    · rw [set_queue_of_ne s v heq]
  have hlive : ∀ q', (s.set_queue q v).live q' → s.live q' := by
    rintro q' ⟨hreg, hopen⟩
    by_cases heq : q' = q
    · rw [heq, set_queue_self] at hopen
      exact ⟨hreg, heq ▸ hs hopen⟩
    · rw [set_queue_of_ne s v heq] at hopen
      exact ⟨hreg, hopen⟩
  have hqueue : ∀ q', ((s.set_queue q v).queues q').queue ≠ [] → (s.queues q').queue ≠ [] := by
    intro q' hne
    by_cases heq : q' = q
    · rw [heq, set_queue_self] at hne
      exact heq ▸ hq hne
    · rw [set_queue_of_ne s v heq] at hne
      exact hne
  refine ⟨fun q' hreg hnone => ?_, fun q' t hl hsome => ?_, h.polling, fun p q' hp hreg hsome => ?_,
    h.unmarked, fun q' t hl hne hsome => ?_⟩
  · exact h.unset q' hreg ((hwaker q').symm.trans hnone)
  · exact h.serving q' t (hlive q' hl) ((hwaker q').symm.trans hsome)
  · exact h.own p q' hp hreg ((hwaker q').symm.trans hsome)
  · exact h.roused q' t (hlive q' hl) (hqueue q' hne) ((hwaker q').symm.trans hsome)

theorem Wakes.end_poll {s : ServeState} (h : Wakes s) : Wakes { s with poll := none } :=
  ⟨h.unset, h.serving, nofun, nofun, h.unmarked, h.roused⟩

/-- A poll moves on with its queue. -/
theorem Wakes.set_poll {s : ServeState} (h : Wakes s) {t q : ℕ} {phase : PollPhase}
    (hpoll : s.poll = some ⟨t, q, phase⟩) (phase' : PollPhase) :
    Wakes { s with poll := some ⟨t, q, phase'⟩ } := by
  refine ⟨h.unset, h.serving, fun p hp => ?_, fun p q' hp hreg hw => ?_, h.unmarked, h.roused⟩
  · cases hp
    exact h.polling ⟨t, q, phase⟩ hpoll
  · cases hp
    exact h.own ⟨t, q, phase⟩ q' hpoll hreg hw

/-- A call of `rawServe` moves on, and a wake-up for it may have been used up. -/
theorem Wakes.set_call {s : ServeState} (h : Wakes s) {t : ℕ} {l : ServeCall} {posted : List ℕ}
    (hposted : ∀ t' ∈ s.posted, t' ≠ t → t' ∈ posted)
    (hreg : ∀ q, s.registry = some q → (s.queues q).waker = none → Unset q (s.loops t) → Unset q l)
    (hserv : ∀ q, s.live q → (s.queues q).waker = some t → l.phase.serving = true)
    (hpoll : ∀ p, s.poll = some p → p.token = t → l.phase.polls = true)
    (hunmarked : l.phase = .waiting → l.pending = false)
    (hroused : ∀ q, s.live q → (s.queues q).queue ≠ [] → (s.queues q).waker = some t →
      l.roused q ∨ ∃ o, s.operations o = .draining q) :
    Wakes ({ s with posted := posted }.set_call t l) := by
  -- the clauses in turn, each for the call that changes and for the others
  refine ⟨fun q hq hnone => ?_, fun q t' hl hw => ?_, fun p hp => ?_, h.own, fun t' => ?_,
    fun q t' hl hne hw => ?_⟩
  · obtain ⟨t', ht'⟩ := h.unset q hq hnone
    by_cases heq : t' = t
    · subst heq
      exact ⟨t', by rw [set_call_self]; exact hreg q hq hnone ht'⟩
    · exact ⟨t', by rw [set_call_of_ne _ l heq]; exact ht'⟩
  · by_cases heq : t' = t
    · subst heq
      rw [set_call_self]
      exact hserv q hl hw
    · rw [set_call_of_ne _ l heq]
      exact h.serving q t' hl hw
  · by_cases heq : p.token = t
    · rw [heq, set_call_self]
      exact hpoll p hp heq
    · rw [set_call_of_ne _ l heq]
      exact h.polling p hp
  · by_cases heq : t' = t
    · subst heq
      rw [set_call_self]
      exact hunmarked
    · rw [set_call_of_ne _ l heq]
      exact h.unmarked t'
  · by_cases heq : t' = t
    · subst heq
      rcases hroused q hl hne hw with hloop | hdrain
      · exact .inr (.inr (.inr (by rw [set_call_self]; exact hloop)))
      · exact .inr (.inl hdrain)
    · rcases h.roused q t' hl hne hw with hsent | hdrain | hmem | hloop
      · exact .inl hsent
      · exact .inr (.inl hdrain)
      · exact .inr (.inr (.inl (hposted t' hmem heq)))
      · exact .inr (.inr (.inr (by rw [set_call_of_ne _ l heq]; exact hloop)))

/-- A call that no waker belongs to moves on. -/
theorem Wakes.set_call_outside {s : ServeState} (h : Wakes s) {t : ℕ} {l : ServeCall}
    (hout : (s.loops t).phase.serving = false)
    (hreg : ∀ q, s.registry = some q → (s.queues q).waker = none → Unset q (s.loops t) → Unset q l)
    (hunmarked : l.phase ≠ .waiting) : Wakes (s.set_call t l) := by
  have hnot : ∀ q, s.live q → (s.queues q).waker ≠ some t := by
    intro q hlive hw
    have hin := h.serving q t hlive hw
    rw [hout] at hin
    cases hin
  refine h.set_call (fun _ hmem _ => hmem) hreg (fun q hl hw => absurd hw (hnot q hl))
    (fun p hp heq => ?_) (fun hwait => absurd hwait hunmarked) fun q hl _ hw => absurd hw (hnot q hl)
  have hpolls := h.polling p hp
  rw [heq] at hpolls
  revert hpolls hout
  cases (s.loops t).phase <;> nofun

/-- A delivery that has put its request into the queue owes a wake-up. -/
theorem Wakes.send {s : ServeState} (h : Wakes s) {id q : ℕ} (hd : s.deliveries id = .checked q) :
    Wakes ((s.set_queue q { s.queues q with queue := (s.queues q).queue ++ [id] }).set_delivery id
      (.sent q)) := by
  have hwaker : ∀ q', ((s.set_queue q { s.queues q with
      queue := (s.queues q).queue ++ [id] }).queues q').waker = (s.queues q').waker := by
    intro q'
    by_cases heq : q' = q
    · rw [heq, set_queue_self]
    · rw [set_queue_of_ne s _ heq]
  have hlive : ∀ q', live ((s.set_queue q { s.queues q with
      queue := (s.queues q).queue ++ [id] }).set_delivery id (.sent q)) q' → s.live q' := by
    rintro q' ⟨hreg, hopen⟩
    refine ⟨hreg, ?_⟩
    by_cases heq : q' = q
    · rw [heq, ServeState.set_delivery, set_queue_self] at hopen
      exact heq ▸ hopen
    · rw [ServeState.set_delivery, set_queue_of_ne s _ heq] at hopen
      exact hopen
  refine ⟨fun q' hreg hnone => ?_, fun q' t hl hsome => ?_, h.polling, fun p q' hp hreg hsome => ?_,
    h.unmarked, fun q' t hl hne hsome => ?_⟩
  · exact h.unset q' hreg ((hwaker q').symm.trans hnone)
  · exact h.serving q' t (hlive q' hl) ((hwaker q').symm.trans hsome)
  · exact h.own p q' hp hreg ((hwaker q').symm.trans hsome)
  · by_cases heq : q' = q
    -- the queue is not empty now, but the delivery is still to wake the loop
    · exact .inl ⟨id, by rw [set_delivery_self, heq]⟩
    · have hne' : (s.queues q').queue ≠ [] := by
        rw [ServeState.set_delivery, set_queue_of_ne s _ heq] at hne
        exact hne
      rcases h.roused q' t (hlive q' hl) hne' ((hwaker q').symm.trans hsome) with ⟨id', hsent⟩ | hrest
      · have hid : id' ≠ id := by
          rintro rfl
          rw [hd] at hsent
          cases hsent
        exact .inl ⟨id', (set_delivery_of_ne _ _ hid).trans hsent⟩
      · exact .inr hrest

theorem Wakes.post {s : ServeState} (h : Wakes s) (posted : List ℕ) :
    Wakes { s with posted := s.posted ++ posted } := by
  refine ⟨h.unset, h.serving, h.polling, h.own, h.unmarked, fun q t hl hne hw => ?_⟩
  rcases h.roused q t hl hne hw with hsent | hdrain | hposted | hloop
  · exact .inl hsent
  · exact .inr (.inl hdrain)
  · exact .inr (.inr (.inl (List.mem_append_left _ hposted)))
  · exact .inr (.inr (.inr hloop))

/-- The wake-up that a delivery owes. -/
theorem Wakes.woke {s : ServeState} (h : Wakes s) {id q : ℕ} (hd : s.deliveries id = .sent q) :
    Wakes ((s.wake_request_loop q).set_delivery id .returned) := by
  have hposted := h.post (s.queues q).waker.toList
  refine ⟨h.unset, h.serving, h.polling, h.own, h.unmarked, fun q' t hl hne hw => ?_⟩
  rcases hposted.roused q' t hl hne hw with ⟨id', hsent⟩ | hrest
  · by_cases hid : id' = id
    · -- it was this delivery's turn to wake the loop, and it has
      subst hid
      have hq : q' = q := by
        rw [hd] at hsent
        exact (Delivery.sent.inj hsent).symm
      refine .inr (.inr (.inl (List.mem_append_right _ ?_)))
      have hwaker : (s.queues q').waker = some t := hw
      rw [← hq, hwaker]
      exact List.mem_singleton_self t
    · exact .inl ⟨id', (set_delivery_of_ne _ _ hid).trans hsent⟩
  · exact .inr hrest

/-- A wake-up reaches its signal. -/
theorem Wakes.wake {s : ServeState} (h : Wakes s) (t : ℕ) {posted : List ℕ}
    (hposted : ∀ t' ∈ s.posted, t' ≠ t → t' ∈ posted) :
    Wakes ({ s with posted := posted }.wake_signal t) := by
  obtain ⟨heq, hout⟩ | ⟨heq, hwait⟩ | ⟨heq, hwait⟩ :=
    wake_signal_cases { s with posted := posted } t
  · -- no waker belongs to a signal that is gone
    have hself : { s with posted := posted } =
        { s with posted := posted }.set_call t (s.loops t) := by
      rw [ServeState.set_call, Function.update_eq_self]
    rw [heq, hself]
    have hserving : (s.loops t).phase.serving = false := by
      rcases hout with hphase | hphase
      · exact congrArg LoopPhase.serving hphase
      · exact congrArg LoopPhase.serving hphase
    refine h.set_call hposted (fun _ _ _ hunset => hunset) (h.serving · t) (fun p hp heq => heq ▸ h.polling p hp)
      (h.unmarked t) fun q hl _ hw => ?_
    rw [h.serving q t hl hw] at hserving
    cases hserving
  · rw [heq]
    refine h.set_call hposted (fun q _ _ hunset => ?_) (fun _ _ _ => rfl) (fun _ _ _ => rfl) nofun
      fun _ _ _ _ => .inl (.inr (.inl rfl))
    exact absurd hunset (not_unset hwait nofun nofun)
  · rw [heq]
    exact h.set_call hposted (fun _ _ _ hunset => hunset) (h.serving · t) (fun p hp heq => heq ▸ h.polling p hp)
      (fun hphase => absurd hphase hwait) fun _ _ _ _ => .inl (.inr (.inr rfl))

/-- A poll has found nothing: the loop waits, unless a wake-up came meanwhile. -/
theorem Wakes.wait {s : ServeState} (h : Wakes s) {t : ℕ} (hpoll : s.poll = none)
    (hphase : (s.loops t).phase.polls = true)
    (hroused : ∀ q, s.live q → (s.queues q).queue ≠ [] → (s.queues q).waker = some t →
      ∃ o, s.operations o = .draining q) : Wakes (s.wait t) := by
  unfold ServeState.wait
  dsimp only
  refine h.set_call (fun _ hmem _ => hmem) (fun q _ _ hunset => ?_) (fun q _ _ => ?_) (fun p hp => ?_)
    (fun hwait => ?_) fun q hl hne hw => .inr (hroused q hl hne hw)
  · exact absurd hunset (not_unset_of_polls hphase)
  · split <;> rfl
  · exact nomatch hpoll.symm.trans hp
  · split at hwait
    · cases hwait
    · next hpending =>
      rw [if_neg hpending]
      exact Bool.eq_false_iff.mpr hpending

/-- A loop ends where its queue is closed, or none is registered. -/
theorem Wakes.exit {s : ServeState} (h : Wakes s) {t : ℕ} (hpoll : s.poll = none)
    (hphase : (s.loops t).phase.polls = true)
    (hnot : ∀ q, s.live q → (s.queues q).waker ≠ some t) : Wakes (s.set_loop t .exited) := by
  refine h.set_call (fun _ hmem _ => hmem) (fun q _ _ hunset => ?_) (fun q hl hw => absurd hw (hnot q hl))
    (fun p hp => ?_) nofun fun q hl _ hw => absurd hw (hnot q hl)
  · exact absurd hunset (not_unset_of_polls hphase)
  · exact nomatch hpoll.symm.trans hp

theorem polls_of_or {phase : LoopPhase} (h : phase = .ready ∨ phase = .retrying) :
    phase.polls = true := by
  rcases h with rfl | rfl <;> rfl

/-- A new queue is registered. No waker is set on it, and its call will set one. -/
theorem wakes_registered {s : ServeState} (h : Wakes s) (hb : Bounded s) {t : ℕ}
    (hp : (s.loops t).phase = .starting) :
    Wakes ({ s with registry := some s.next_queue, next_queue := s.next_queue + 1 }.set_loop t
      .registered) := by
  have hnone : (s.queues s.next_queue).waker = none := by
    rw [hb.fresh s.next_queue (Nat.le_refl _)]
    rfl
  refine ⟨fun q _ _ => ⟨t, .inl ?_⟩, fun q t' hl hw => ?_, fun p hpoll => ?_, fun p q _ hreg hw => ?_,
    fun t' => ?_, fun q t' hl _ hw => ?_⟩
  · rw [ServeState.set_loop, set_call_self]
  · cases hl.1
    exact nomatch hnone.symm.trans hw
  · have hne : p.token ≠ t := by
      intro heq
      have hpolls := h.polling p hpoll
      rw [heq, hp] at hpolls
      cases hpolls
    rw [ServeState.set_loop, set_call_of_ne _ _ hne]
    exact h.polling p hpoll
  · cases hreg
    exact nomatch hnone.symm.trans hw
  · by_cases heq : t' = t
    · rw [heq, ServeState.set_loop, set_call_self]
      nofun
    · rw [ServeState.set_loop, set_call_of_ne _ _ heq]
      exact h.unmarked t'
  · cases hl.1
    exact nomatch hnone.symm.trans hw

/-- The queue is looked up, and the waker is still to be set. -/
theorem wakes_found {s : ServeState} (h : Wakes s) {t q : ℕ} (hp : (s.loops t).phase = .registered)
    (hreg : s.registry = some q) : Wakes (s.set_loop t (.found q)) := by
  refine h.set_call_outside (by rw [hp]; rfl) (fun q' hq' _ _ => .inr ?_) nofun
  rw [hreg, Option.some.injEq] at hq'
  rw [hq']

/-- The waker is set, on the queue that was found: it may have been replaced by now. -/
theorem wakes_waked {s : ServeState} (h : Wakes s) {t q : ℕ} (hp : (s.loops t).phase = .found q) :
    Wakes ((s.set_queue q { s.queues q with waker := some t }).set_loop t (.checking q)) := by
  have hself : ((s.set_queue q { s.queues q with waker := some t }).queues q).waker = some t := by
    rw [set_queue_self]
  have hother : ∀ q', q' ≠ q → ((s.set_queue q { s.queues q with waker := some t }).queues q') =
      s.queues q' := fun q' hne => set_queue_of_ne s _ hne
  -- a call that is to set its waker polls nothing, and no waker belongs to it
  have hne : ∀ p, s.poll = some p → p.token ≠ t := by
    intro p hpoll heq
    have hpolls := h.polling p hpoll
    rw [heq, hp] at hpolls
    cases hpolls
  have hnone : ∀ q' t', s.live q' → (s.queues q').waker = some t' → t' ≠ t := by
    rintro q' t' hl hw rfl
    have hserving := h.serving q' t' hl hw
    rw [hp] at hserving
    cases hserving
  have hlive : ∀ q', q' ≠ q → live ((s.set_queue q { s.queues q with waker := some t }).set_loop t
      (.checking q)) q' → s.live q' := by
    rintro q' hq' ⟨hreg, hopen⟩
    refine ⟨hreg, ?_⟩
    rw [← hother q' hq']
    exact hopen
  refine ⟨fun q' hq' hunset => ?_, fun q' t' hl hw => ?_, fun p hpoll => ?_, fun p q' hpoll hq' hw => ?_,
    fun t' => ?_, fun q' t' hl hq' hw => ?_⟩
  · have hne' : q' ≠ q := by
      rintro rfl
      exact nomatch hself.symm.trans hunset
    have hunset' : (s.queues q').waker = none := by
      rw [← hother q' hne']
      exact hunset
    obtain ⟨t', ht'⟩ := h.unset q' hq' hunset'
    have ht : t' ≠ t := by
      rintro rfl
      exact not_unset hp nofun (fun heq => hne' (LoopPhase.found.inj heq).symm) ht'
    refine ⟨t', ?_⟩
    rw [ServeState.set_loop, set_call_of_ne _ _ ht]
    exact ht'
  · by_cases heq : q' = q
    · subst heq
      have ht : t' = t := (Option.some.inj (hself.symm.trans hw)).symm
      rw [ht, ServeState.set_loop, set_call_self]
      rfl
    · have hw' : (s.queues q').waker = some t' := by
        rw [← hother q' heq]
        exact hw
      have hl' := hlive q' heq hl
      rw [ServeState.set_loop, set_call_of_ne _ _ (hnone q' t' hl' hw')]
      exact h.serving q' t' hl' hw'
  · rw [ServeState.set_loop, set_call_of_ne _ _ (hne p hpoll)]
    exact h.polling p hpoll
  · by_cases heq : q' = q
    · subst heq
      exact absurd (Option.some.inj (hself.symm.trans hw)).symm (hne p hpoll)
    · refine h.own p q' hpoll hq' ?_
      rw [← hother q' heq]
      exact hw
  · by_cases heq : t' = t
    · rw [heq, ServeState.set_loop, set_call_self]
      nofun
    · rw [ServeState.set_loop, set_call_of_ne _ _ heq]
      exact h.unmarked t'
  · by_cases heq : q' = q
    · subst heq
      have ht : t' = t := (Option.some.inj (hself.symm.trans hw)).symm
      refine .inr (.inr (.inr (.inl (.inl ?_))))
      rw [ht, ServeState.set_loop, set_call_self]
    · have hw' : (s.queues q').waker = some t' := by
        rw [← hother q' heq]
        exact hw
      have hqueue : (s.queues q').queue ≠ [] := by
        rw [← hother q' heq]
        exact hq'
      have hl' := hlive q' heq hl
      rcases h.roused q' t' hl' hqueue hw' with hsent | hdrain | hposted | hloop
      · exact .inl hsent
      · exact .inr (.inl hdrain)
      · exact .inr (.inr (.inl hposted))
      · refine .inr (.inr (.inr ?_))
        rw [ServeState.set_loop, set_call_of_ne _ _ (hnone q' t' hl' hw')]
        exact hloop

/-- What the call has seen of the queue does not matter: it begins either way. -/
theorem wakes_seen {s : ServeState} (h : Wakes s) {t q : ℕ} (hp : (s.loops t).phase = .checking q)
    (waiting : Bool) : Wakes (s.set_loop t (.seen q waiting)) := by
  -- the loop goes on at the same queue, so what rouses it does
  have hkeep : ∀ q', (s.loops t).roused q' →
      ServeCall.roused { s.loops t with phase := .seen q waiting } q' := by
    rintro q' ((hbegins | ⟨_, hbegins⟩) | hpolls | hpending)
    · have heq : q = q' := LoopPhase.checking.inj (hp.symm.trans hbegins)
      rw [heq]
      exact .inl (.inr ⟨waiting, rfl⟩)
    · exact nomatch hp.symm.trans hbegins
    · rw [hp] at hpolls
      cases hpolls
    · exact .inr (.inr hpending)
  have hloops : ∀ t', t' ≠ t → (s.set_loop t (.seen q waiting)).loops t' = s.loops t' :=
    fun t' hne => set_call_of_ne s _ hne
  have hself : (s.set_loop t (.seen q waiting)).loops t = { s.loops t with phase := .seen q waiting } :=
    set_call_self s t _
  refine ⟨fun q' hq' hunset => ?_, fun q' t' hl hw => ?_, fun p hpoll => ?_, h.own, fun t' => ?_,
    fun q' t' hl hq' hw => ?_⟩
  · obtain ⟨t', ht'⟩ := h.unset q' hq' hunset
    have hne : t' ≠ t := by
      rintro rfl
      exact not_unset hp nofun nofun ht'
    exact ⟨t', by rw [hloops t' hne]; exact ht'⟩
  · by_cases heq : t' = t
    · rw [heq, hself]
      rfl
    · rw [hloops t' heq]
      exact h.serving q' t' hl hw
  · have hne : p.token ≠ t := by
      intro heq
      have hpolls := h.polling p hpoll
      rw [heq, hp] at hpolls
      cases hpolls
    rw [hloops _ hne]
    exact h.polling p hpoll
  · by_cases heq : t' = t
    · rw [heq, hself]
      nofun
    · rw [hloops t' heq]
      exact h.unmarked t'
  · rcases h.roused q' t' hl hq' hw with hsent | hdrain | hposted | hloop
    · exact .inl hsent
    · exact .inr (.inl hdrain)
    · exact .inr (.inr (.inl hposted))
    · refine .inr (.inr (.inr ?_))
      by_cases heq : t' = t
      · rw [heq, hself]
        rw [heq] at hloop
        exact hkeep q' hloop
      · rw [hloops t' heq]
        exact hloop

/-- A poll's queue is the live one when its loop is the one that gets woken. -/
theorem Wakes.poll_queue {s : ServeState} (h : Wakes s) {p : Poll} (hpoll : s.poll = some p) {q : ℕ}
    (hlive : s.live q) (hw : (s.queues q).waker = some p.token) : p.queue = q :=
  h.own p q hpoll hlive.1 hw

/-- A loop that received a request polls again. -/
theorem wakes_received {len : ℕ → ℕ} {s : ServeState} (h : Wakes s) {t q id : ℕ} {rest : List ℕ}
    (hpoll : s.poll = some ⟨t, q, .locked⟩) (hq : (s.queues q).queue = id :: rest)
    (hfit : 0 < len id ∧ len id ≤ (s.loops t).pollBuf ∧ len id ≤ i32.MAX) :
    Wakes (({ s with poll := none }.set_queue q
      { s.queues q with queue := rest, holder := none }).on_result t id (len id)
        (poll_result (s.loops t).pollBuf (len id))) := by
  have htaken : Wakes ({ s with poll := none }.set_queue q
      { s.queues q with queue := rest, holder := none }) :=
    h.end_poll.set_queue rfl (fun hopen => hopen) fun _ => by rw [hq]; nofun
  obtain ⟨-, -, heq⟩ | ⟨hno, -⟩ := on_result_cases ({ s with poll := none }.set_queue q
    { s.queues q with queue := rest, holder := none }) t id (len id)
      (poll_result (s.loops t).pollBuf (len id))
  · rw [heq]
    have hpolls := h.polling _ hpoll
    have hready := htaken.set_call (t := t) (l := { s.loops t with phase := .ready })
      (fun _ hmem _ => hmem) (fun _ _ _ hunset => absurd hunset (not_unset_of_polls hpolls))
      (fun _ _ _ => rfl) (fun _ _ _ => rfl) nofun fun _ _ _ _ => .inl (.inr (.inl rfl))
    exact ⟨hready.unset, hready.serving, hready.polling, hready.own, hready.unmarked, hready.roused⟩
  · exact absurd (poll_result_eq_iff.mpr hfit) hno

/-- Every safe step keeps the wake-ups coming. -/
theorem wakes_step {len : ℕ → ℕ} {s s' : ServeState} {x : ServeStep} (h : Wakes s) (hr : Requests s)
    (hb : Bounded s) (hsafe : s.Safe len x) (hstep : s.step len x = some s') : Wakes s' := by
  cases step_cases hstep with
  | refused x id hd => exact h.refuse hd
  | looked id q hd hreg => exact h.set_delivery (by rw [hd]; nofun) _
  | checked id q hd => exact h.set_delivery (by rw [hd]; nofun) _
  | sent id q hd hroom => exact h.send hd
  | woke id q hd => exact h.woke hd
  | called t hp =>
      exact h.set_call_outside (by rw [hp]; rfl)
        (fun _ _ _ hunset => absurd hunset (not_unset hp nofun nofun)) nofun
  | gone t hp =>
      exact h.set_call_outside (by rw [hp]; rfl)
        (fun _ _ _ hunset => absurd hunset (not_unset hp nofun nofun)) nofun
  | registered t hp => exact wakes_registered h hb hp
  | removed x t hreg hpoll hp =>
      exact h.exit hpoll (polls_of_or hp) fun q hl => nomatch hreg.symm.trans hl.1
  | unfound t hreg hp =>
      exact h.set_call_outside (by rw [hp]; rfl) (fun _ hq => nomatch hreg.symm.trans hq) nofun
  | found t q hp hreg => exact wakes_found h hp hreg
  | waked t q hp => exact wakes_waked h hp
  | seen t q waiting hp => exact wakes_seen h hp waiting
  | ready t q waiting posted hp =>
      refine (h.post posted).set_call (fun _ hmem _ => hmem) (fun _ _ _ hunset => ?_) (fun _ _ _ => rfl)
        (fun _ _ _ => rfl) nofun fun _ _ _ _ => .inl (.inr (.inl rfl))
      exact absurd hunset (not_unset hp nofun nofun)
  | polled t q hpoll hp hreg =>
      refine ⟨h.unset, h.serving, fun p heq => ?_, fun p q' heq hq' hw => ?_, h.unmarked, h.roused⟩
      · cases heq
        exact polls_of_or hp
      · cases heq
        rw [hreg, Option.some.injEq] at hq'
        exact hq'
  | stopped t q hpoll hshut =>
      refine h.end_poll.exit rfl (h.polling _ hpoll) fun q' hl hw => ?_
      -- the loop's queue is closed, so it is not the live one
      have heq : q = q' := h.poll_queue hpoll hl hw
      have hopen : (s.queues q').shutdown = false := hl.2
      rw [← heq, hshut] at hopen
      cases hopen
  | unstopped t q hpoll hshut => exact h.set_poll hpoll _
  | contended t q hpoll hlock =>
      refine h.end_poll.wait rfl (h.polling _ hpoll) fun q' hl _ hw => ?_
      -- one poll runs at a time, so a drain has the lock
      have heq : q = q' := h.poll_queue hpoll hl hw
      obtain ⟨holder, hholder⟩ := Option.ne_none_iff_exists'.mp hlock
      cases holder with
      | poll =>
          obtain ⟨t', hpoll'⟩ := (hr.held.poll q).mp hholder
          exact nomatch hpoll.symm.trans hpoll'
      | drain o => exact ⟨o, heq ▸ (hr.held.drain q o).mp hholder⟩
  | locked t q hpoll hlock =>
      exact (h.set_poll hpoll .locked).set_queue rfl (fun hopen => hopen) fun hne => hne
  | empty t q hpoll hq =>
      -- the queue was empty under the lock: what comes after that owes a wake-up
      have hreleased : Wakes ({ s with poll := none }.set_queue q
          { s.queues q with holder := none }) :=
        h.end_poll.set_queue rfl (fun hopen => hopen) fun hne => hne
      refine hreleased.wait rfl (h.polling _ hpoll) fun q' hl hne hw => ?_
      by_cases heq : q' = q
      · rw [heq, set_queue_self] at hne
        exact absurd hq hne
      · rw [set_queue_of_ne _ _ heq] at hw
        exact absurd (h.own _ q' hpoll hl.1 hw).symm heq
  | received t q id rest hpoll hq => exact wakes_received h hpoll hq (hsafe t q id rest hpoll hq)
  | woken i t hi =>
      refine h.wake t fun t' hmem hne => List.mem_eraseIdx_iff_getElem?.mpr ?_
      obtain ⟨j, hj⟩ := List.mem_iff_getElem?.mp hmem
      refine ⟨j, ?_, hj⟩
      rintro rfl
      rw [hi, Option.some.injEq] at hj
      exact hne hj.symm
  | cancelled t => exact h.wake t fun _ hmem _ => hmem
  | stopping o q ho hreg => exact h.set_operation (by rw [ho]; nofun) _
  | closing o q ho hreg =>
      -- nothing is live without a registered queue
      have hremoved : Wakes { s with registry := none } :=
        ⟨nofun, fun _ _ hl _ => (nomatch hl.1), h.polling, fun _ _ _ => nofun, h.unmarked,
          fun _ _ hl _ _ => (nomatch hl.1)⟩
      exact hremoved.set_operation (fun q' heq => nomatch ho.symm.trans heq) _
  | signalled o q stop ho =>
      have hq : Wakes (s.set_queue q { s.queues q with shutdown := true }) :=
        h.set_queue rfl nofun fun hne => hne
      exact hq.set_operation (fun q' heq => nomatch ho.symm.trans heq) _
  | signal_woke o q stop ho => exact (h.post _).set_operation (by rw [ho]; nofun) _
  | skipped x o v ho hv =>
      exact h.set_operation (fun q heq => absurd heq (ho q)) v
  | drain_found o q ho hreg => exact h.set_operation (fun q' heq => nomatch ho.symm.trans heq) _
  | drain_locked o q ho hlock =>
      have hq : Wakes (s.set_queue q { s.queues q with holder := some (.drain o) }) :=
        h.set_queue rfl (fun hopen => hopen) fun hne => hne
      exact hq.set_operation (fun q' heq => nomatch ho.symm.trans heq) _
  | drained o q ho hq =>
      have hreleased : Wakes (s.set_queue q { s.queues q with holder := none }) :=
        h.set_queue rfl (fun hopen => hopen) fun hne => hne
      refine hreleased.set_operation (fun q' heq => ?_) _
      have hq' : q' = q := by
        rw [show (s.set_queue q _).operations o = .draining q from ho] at heq
        exact (Operation.draining.inj heq).symm
      rw [hq', set_queue_self]
      exact hq
  | rejected o q id rest ho hq =>
      rw [hsafe q ho] at hq
      cases hq

/-! ## No request is lost -/

/-- The invariant of a run. -/
structure Inv (s : ServeState) : Prop where
  bounded : Bounded s
  requests : Requests s
  wakes : Wakes s

theorem inv_new : Inv new := ⟨bounded_new, requests_new, wakes_new⟩

/-- What one step keeps. -/
theorem inv_step (len : ℕ → ℕ) (s : ServeState) (x : ServeStep) (s' : ServeState) (h : Inv s)
    (hsafe : s.Safe len x) (hstep : s.step len x = some s') : Inv s' :=
  ⟨bounded_step h.bounded hstep, requests_step h.requests hsafe hstep,
    wakes_step h.wakes h.requests h.bounded hsafe hstep⟩

/-- Each request is in one place, so each is accounted for. -/
theorem Requests.accounted {s : ServeState} (h : Requests s) : Accounted s := by
  obtain ⟨place, hl⟩ := h.located
  refine ⟨fun id hacc => ?_, h.unstranded⟩
  have hplace := (hl.accepted id).mp hacc
  cases hid : place id with
  | nowhere => exact absurd hid hplace
  | queued q =>
      refine .inl ⟨q, List.count_pos_iff.mp ?_⟩
      rw [hl.queued q id, if_pos hid]
      exact Nat.one_pos
  | returned =>
      refine .inr (.inl ?_)
      rw [hl.returned id, if_pos hid]

/-- No step is in progress, and every loop waits or has exited. -/
structure Quiescent (s : ServeState) : Prop where
  deliveries : ∀ id, (s.deliveries id).in_progress = false
  operations : ∀ o, (s.operations o).in_progress = false
  poll : s.poll = none
  posted : s.posted = []
  loops : ∀ t, (s.loops t).phase = .idle ∨ (s.loops t).phase = .waiting ∨
    (s.loops t).phase = .exited

/-- Nobody is woken when nothing moves. -/
theorem Wakes.not_roused {s : ServeState} (h : Wakes s) (hq : Quiescent s) {q t : ℕ}
    (hserving : (s.loops t).phase.serving = true) : ¬ s.Roused q t := by
  have hwaiting : (s.loops t).phase = .waiting := by
    rcases hq.loops t with hphase | hphase | hphase
    · rw [hphase] at hserving
      cases hserving
    · exact hphase
    · rw [hphase] at hserving
      cases hserving
  rintro (⟨id, hsent⟩ | ⟨o, hdrain⟩ | hposted | hphase | hphase | hpending)
  · have hidle := hq.deliveries id
    rw [hsent] at hidle
    cases hidle
  · have hidle := hq.operations o
    rw [hdrain] at hidle
    cases hidle
  · rw [hq.posted] at hposted
    cases hposted
  · rcases hphase with hbegins | ⟨_, hbegins⟩
    · exact nomatch hwaiting.symm.trans hbegins
    · exact nomatch hwaiting.symm.trans hbegins
  · rw [hwaiting] at hphase
    cases hphase
  · rw [h.unmarked t hwaiting] at hpending
    cases hpending

/-- When nothing moves, the queues are empty. -/
theorem Inv.drained {s : ServeState} (h : Inv s) (hq : Quiescent s) (q : ℕ) :
    (s.queues q).queue = [] := by
  by_cases hlive : s.live q
  · by_contra hne
    cases hw : (s.queues q).waker with
    | none =>
        obtain ⟨t, ht⟩ := h.wakes.unset q hlive.1 hw
        rcases hq.loops t with hphase | hphase | hphase
        · exact not_unset hphase nofun nofun ht
        · exact not_unset hphase nofun nofun ht
        · exact not_unset hphase nofun nofun ht
    | some t =>
        exact h.wakes.not_roused hq (h.wakes.serving q t hlive hw) (h.wakes.roused q t hlive hne hw)
  · -- without a poll in progress a queue that is not live has nothing to spare
    have hle := h.requests.unstranded q hlive
    rw [spare_of_none hq.poll] at hle
    exact List.length_eq_zero_iff.mp (Nat.le_zero.mp hle)

/-! ### Steps that lose a request -/

/-- A request that has left its queue without being returned or rejected in full. -/
theorem not_accounted_of_lost {s s' : ServeState} {place : ℕ → Place} (hl : Located s place)
    {q id : ℕ} {v : ServeQueue} (hq : (s.queues q).queue = id :: v.queue)
    (hqueues : s'.queues = (s.set_queue q v).queues) (hd : s'.deliveries = s.deliveries)
    (hreturned : s'.returned = s.returned) (hfinished : s'.finished = s.finished) :
    ¬ Accounted s' := by
  intro hgood
  obtain ⟨hplace, -⟩ := hl.head hq
  have hacc : (s.deliveries id).accepted = true := (hl.accepted id).mpr (by rw [hplace]; nofun)
  rcases hgood.each id (by rw [hd]; exact hacc) with ⟨q', hmem⟩ | hcount | ⟨-, hfin⟩
  · rw [hqueues] at hmem
    exact hl.not_mem_of_take hq q' hmem
  · rw [hreturned, hl.returned id, hplace] at hcount
    cases hcount
  · rw [hfinished] at hfin
    rw [hl.finished id hfin] at hacc
    cases hacc

/-- A queue changes and keeps more requests than the poll will take, and is not
live any more. -/
theorem not_unstranded_set_queue {s : ServeState} {q : ℕ} {v : ServeQueue}
    (hdead : s.registry = some q → v.shutdown = true)
    (hlength : (s.set_queue q v).spare q < v.queue.length) : ¬ (s.set_queue q v).Unstranded := by
  intro hgood
  have hle := hgood q fun hlive => ?_
  · rw [set_queue_self] at hle
    exact absurd hle (Nat.not_le.mpr hlength)
  · have hopen := hlive.2
    rw [set_queue_self, hdead hlive.1] at hopen
    cases hopen

/-- An event that does not fit is lost. -/
theorem lost_of_unfit {len : ℕ → ℕ} {s : ServeState} (h : Inv s) {t q id : ℕ} {rest : List ℕ}
    (hpoll : s.poll = some ⟨t, q, .locked⟩) (hq : (s.queues q).queue = id :: rest)
    (hunfit : ¬ (0 < len id ∧ len id ≤ (s.loops t).pollBuf ∧ len id ≤ i32.MAX)) :
    ∃ s', s.step len .poll_recv = some s' ∧ ¬ Accounted s' := by
  obtain ⟨place, hl⟩ := h.requests.located
  refine ⟨_, by simp only [step, poll_recv, hpoll, hq]; rfl, ?_⟩
  obtain ⟨hpos, hlen, -⟩ | ⟨-, l, -, heq⟩ := on_result_cases ({ s with poll := none }.set_queue q
    { s.queues q with queue := rest, holder := none }) t id (len id)
      (poll_result (s.loops t).pollBuf (len id))
  · exact absurd (poll_result_eq_iff.mp ⟨hpos, hlen⟩) hunfit
  · rw [heq]
    exact not_accounted_of_lost (v := { s.queues q with queue := rest, holder := none }) hl hq rfl rfl
      rfl rfl

/-- **Every step that is not safe loses a request.** -/
theorem not_accounted_of_unsafe {len : ℕ → ℕ} {s : ServeState} {x : ServeStep} (h : Inv s)
    (hx : ¬ s.Safe len x) : ∃ s', s.step len x = some s' ∧ ¬ Accounted s' := by
  cases x with
  | try_send id =>
      simp only [Safe] at hx
      push Not at hx
      obtain ⟨q, hd, hroom, hdead, hle⟩ := hx
      refine ⟨_, by simp only [step, try_send, hd, if_pos hroom]; rfl, fun hgood => ?_⟩
      let v : ServeQueue := { s.queues q with queue := (s.queues q).queue ++ [id] }
      refine not_unstranded_set_queue (s := s) (q := q) (v := v) (fun hreg => ?_) ?_ hgood.unstranded
      · by_contra hopen
        exact hdead ⟨hreg, Bool.eq_false_iff.mpr hopen⟩
      · have hlength : v.queue.length = (s.queues q).queue.length + 1 := List.length_append
        rw [spare_set_queue (v := v) rfl, hlength]
        omega
  | serve_start t gone =>
      simp only [Safe] at hx
      push Not at hx
      obtain ⟨hp, rfl, q, hreg, hlt⟩ := hx
      refine ⟨_, by simp only [step, serve_start, if_pos hp]; rfl, fun hgood => ?_⟩
      -- the new queue's number is new, so the old one is not registered any more
      have hle : (s.queues q).queue.length ≤ s.spare q := by
        refine hgood.unstranded q ?_
        rintro ⟨hnext, -⟩
        have hq := h.bounded.registry q hreg
        rw [← Option.some.inj hnext] at hq
        exact absurd hq (Nat.lt_irrefl _)
      omega
  | close_endpoint o =>
      simp only [Safe] at hx
      push Not at hx
      obtain ⟨ho, q, hreg, hlt⟩ := hx
      refine ⟨_, by simp only [step, close_endpoint, ho, hreg]; rfl, fun hgood => ?_⟩
      have hle : (s.queues q).queue.length ≤ s.spare q :=
        hgood.unstranded q fun hlive => nomatch hlive.1
      omega
  | signal o =>
      simp only [Safe] at hx
      push Not at hx
      obtain ⟨q, stop, ho, hlt⟩ := hx
      refine ⟨_, by simp only [step, signal, ho]; rfl, fun hgood => ?_⟩
      let v : ServeQueue := { s.queues q with shutdown := true }
      refine not_unstranded_set_queue (s := s) (q := q) (v := v) (fun _ => rfl) ?_ hgood.unstranded
      rw [spare_set_queue (v := v) rfl]
      show s.spare q < (s.queues q).queue.length
      omega
  | drain_lock o busy =>
      simp only [Safe] at hx
      push Not at hx
      obtain ⟨q, ho, rfl, hfree, hdead, hne⟩ := hx
      refine ⟨_, by simp only [step, drain_lock, ho, hfree]; rfl, fun hgood => ?_⟩
      let v : ServeQueue := { s.queues q with holder := some (.drain o) }
      refine not_unstranded_set_queue (s := s) (q := q) (v := v) (fun hreg => ?_) ?_ hgood.unstranded
      · by_contra hopen
        exact hdead ⟨hreg, Bool.eq_false_iff.mpr hopen⟩
      · rw [h.requests.held.spare_drain_lock hfree rfl]
        exact List.length_pos_iff.mpr hne
  | drain_recv o =>
      simp only [Safe] at hx
      push Not at hx
      obtain ⟨q, ho, hne⟩ := hx
      obtain ⟨id, rest, hq⟩ := List.exists_cons_of_ne_nil hne
      obtain ⟨place, hl⟩ := h.requests.located
      refine ⟨_, by simp only [step, drain_recv, ho, hq]; rfl, ?_⟩
      exact not_accounted_of_lost (v := { s.queues q with queue := rest }) hl hq rfl rfl rfl rfl
  | poll_recv =>
      simp only [Safe] at hx
      push Not at hx
      obtain ⟨t, q, id, rest, hpoll, hq, hunfit⟩ := hx
      refine lost_of_unfit h hpoll hq fun hfit => ?_
      have hlong := hunfit hfit.1 hfit.2.1
      have hshort := hfit.2.2
      omega
  | lookup id => exact absurd trivial hx
  | check id => exact absurd trivial hx
  | wake id => exact absurd trivial hx
  | raw_serve t => exact absurd trivial hx
  | find_queue t => exact absurd trivial hx
  | set_waker t => exact absurd trivial hx
  | check_waiting t => exact absurd trivial hx
  | check_flag t => exact absurd trivial hx
  | drain_get o => exact absurd trivial hx
  | poll t => exact absurd trivial hx
  | poll_check => exact absurd trivial hx
  | poll_lock => exact absurd trivial hx
  | run_wake i => exact absurd trivial hx
  | cancel t => exact absurd trivial hx
  | stop_serve o => exact absurd trivial hx
  | signal_wake o => exact absurd trivial hx

/-- **The serve queue loses no request exactly when every step is safe.** And then,
when nothing moves, every queue is empty, and each request that `deliver` returned
`Ok` for was returned by one poll, or rejected with its response body finished. -/
theorem serve_queue_lossless_iff (len : ℕ → ℕ) (l : List ServeStep) :
    (Along (step len) (Safe len) new l ↔
      ∀ n s, run (step len) new (l.take n) = some s → Accounted s) ∧
    (Along (step len) (Safe len) new l → ∀ s, run (step len) new l = some s → s.Quiescent →
      (∀ q, (s.queues q).queue = []) ∧
      ∀ id, s.deliveries id = .returned →
        s.returned.count id = 1 ∨ id ∈ s.rejected ∧ id ∈ s.finished) := by
  constructor
  · exact along_iff_forall_prefix (inv_step len) (fun s h => h.requests.accounted)
      (fun s x h hx => not_accounted_of_unsafe h hx) inv_new l
  · intro hal s hrun hquiet
    have hinv := along_invariant (inv_step len) inv_new hal hrun
    have hempty := hinv.drained hquiet
    refine ⟨hempty, fun id hd => ?_⟩
    rcases hinv.requests.accounted.each id (by rw [hd]; rfl) with ⟨q, hmem⟩ | hdone
    · rw [hempty q] at hmem
      cases hmem
    · exact hdone

/-- A request whose event is longer than the first poll buffer: the poll takes it
out of the queue and asks for a longer buffer, and the next one finds nothing. -/
theorem long_request_lost :
    ¬ ∀ (l : List ServeStep) (s : ServeState), run (step fun _ => 5000) new l = some s →
      s.Quiescent → ∀ id, s.deliveries id = .returned →
        s.returned.count id = 1 ∨ id ∈ s.rejected ∧ id ∈ s.finished := by
  intro hall
  obtain ⟨s, hrun, hquiet, hd, hreturned, hfinished⟩ :
      ∃ s, run (step fun _ => 5000) new
        [.raw_serve 0, .serve_start 0 false, .find_queue 0, .set_waker 0, .check_waiting 0, .check_flag 0,
          .poll 0, .poll_check, .poll_lock, .poll_recv, .lookup 0, .check 0, .try_send 0, .wake 0, .run_wake 0, .poll 0,
          .poll_check, .poll_lock, .poll_recv, .poll 0, .poll_check, .poll_lock, .poll_recv] = some s ∧
        s.Quiescent ∧ s.deliveries 0 = .returned ∧ s.returned = [] ∧ s.finished = [] := by
    refine ⟨_, rfl, ⟨fun id => ?_, fun o => rfl, rfl, rfl, fun t => ?_⟩, rfl, rfl, rfl⟩
    · cases id <;> rfl
    · cases t with
      | zero => exact .inr (.inl rfl)
      | succ t => exact .inl rfl
  rcases hall _ s hrun hquiet 0 hd with hcount | ⟨-, hmem⟩
  · rw [hreturned] at hcount
    cases hcount
  · rw [hfinished] at hmem
    cases hmem

end ServeState

end IrohHttp.Deno
