/-
The scoped DNS proxy of `scoped_dns_compat.rs`: a loop that takes datagrams from a listener and
spawns a forward for each, at most 32 at a time.

The capacity is a counter of its own beside the set of tasks. The loop raises it with the guard
that it moves into a forward; the guard lowers it when the forward is dropped, whether it has
returned, panicked or been aborted, before its first poll too. The set tells of a forward
only after that. `shutdown` waits for the loop, and the loop for the forwards it has aborted.
-/
import IrohHttp.Machine
import IrohHttp.Parties
import Mathlib.Algebra.Group.Nat.Defs
import Mathlib.Data.List.Nodup

set_option autoImplicit false

namespace IrohHttp.ScopedDns

open IrohHttp.Parties

/-- `MAX_SCOPED_DNS_IN_FLIGHT`. -/
def MAX_SCOPED_DNS_IN_FLIGHT : ℕ := 32

/-- `MAX_SCOPED_DNS_UDP_PAYLOAD`. -/
def MAX_SCOPED_DNS_UDP_PAYLOAD : ℕ := 4096

/-- The largest `usize`, at which the counters wrap. -/
def USIZE_MAX : ℕ := 2 ^ 64 - 1

/-- `fetch_add(1)` on an `AtomicUsize`. -/
def fetch_add (n : ℕ) : ℕ := if n = USIZE_MAX then 0 else n + 1

/-- `fetch_sub(1)` on an `AtomicUsize`. -/
def fetch_sub (n : ℕ) : ℕ := if n = 0 then USIZE_MAX else n - 1

variable {A : Type}

/-- A datagram from a client. -/
structure Datagram (A : Type) where
  client : A
  bytes : List UInt8

/-- What a socket reads into a buffer of one byte more than the payload cap. -/
def read (bytes : List UInt8) : List UInt8 := bytes.take (MAX_SCOPED_DNS_UDP_PAYLOAD + 1)

/-! ## The parties -/

/-- Where a forward is: its guard is created, it waits at an operation of a socket, or it is
dropped and the guard with it. -/
inductive Stage
  | begun
  | bind
  | connect
  | send
  | recv
  | reply (response : List UInt8)
  | dropped
  deriving DecidableEq

/-- `reaped`: the set has told the loop of it. -/
structure Forward (A : Type) where
  client : A
  query : List UInt8
  stage : Stage
  aborted : Bool
  reaped : Bool

/-- The datagram a forward was spawned for. -/
def Forward.datagram (f : Forward A) : Datagram A := ⟨f.client, f.query⟩

/-- The forward's future has not been dropped. -/
def Forward.live (f : Forward A) : Bool := f.stage ≠ .dropped

/-- Where the loop is: in `select!`, with a datagram it has received, behind the check of its
length, behind the check of the capacity, in front of `spawn`, or behind the loop. -/
inductive Loop (A : Type)
  | select
  | received (client : A) (query : List UInt8)
  | reaping (client : A) (query : List UInt8)
  | admitted (client : A) (query : List UInt8)
  | spawning (i : ℕ)
  | draining
  | finished
  | cancelled

/-- A call of `shutdown`. -/
inductive ShutdownCall
  | locking
  | awaiting
  | returned
  | cancelled
  deriving DecidableEq

/-- The proxy: its loop, its counters, the forwards it spawned, its shutdown channel, and the calls
of `shutdown`. -/
structure Proxy (A : Type) where
  loop : Loop A
  in_flight : ℕ
  dropped_queries : ℕ
  forwards : List (Forward A)
  shutdown_tx : Bool
  /-- The handle of the loop's task is there to be awaited. -/
  task : Bool
  task_lock : Option ℕ
  task_aborted : Bool
  shutdowns : List ShutdownCall
  /-- The proxy itself is dropped. -/
  dropped : Bool
  /-- The datagrams taken from the listener. -/
  taken : List (Datagram A)
  /-- What forwards have sent upstream, received from there, and sent to clients. -/
  queries : List (ℕ × List UInt8)
  answers : List (ℕ × List UInt8)
  replies : List (ℕ × Datagram A)

/-- A proxy that has just been started. -/
def init : Proxy A :=
  ⟨.select, 0, 0, [], false, true, none, false, [], false, [], [], [], []⟩

/-- How an operation of a socket ends for a forward. A timeout is an error, and a panic as well. -/
inductive Io
  | ok
  | received (bytes : List UInt8)
  | error

/-- The steps of the loop, of a forward, of an aborted forward, and of the calls of `shutdown`. -/
inductive Label (A : Type)
  | receive (datagram : Datagram A)
  | receive_error
  | changed
  | join (i : ℕ)
  | examine
  | check
  | begin
  | spawn
  | drained
  | cancel_loop
  | forward (i : ℕ) (io : Io)
  | abort (i : ℕ)
  | shutdown
  | lock (j : ℕ)
  | joined (j : ℕ)
  | cancel (j : ℕ)
  | drop

namespace Proxy

/-- Forward `i` becomes `f`. -/
def set (s : Proxy A) (i : ℕ) (f : Forward A) : Proxy A := { s with forwards := s.forwards.set i f }

/-- The guard goes with the forward. -/
def drop_forward (s : Proxy A) (i : ℕ) (f : Forward A) : Proxy A :=
  { s.set i { f with stage := .dropped } with in_flight := fetch_sub s.in_flight }

/-- `forwards.abort_all()`; a forward that is being polled comes to its next `await` first. -/
def abort_all (s : Proxy A) : Proxy A :=
  { s with forwards := s.forwards.map fun f => { f with aborted := true } }

/-- `break` -/
def stop (s : Proxy A) : Proxy A := { s.abort_all with loop := .draining }

/-- The set gives the loop a forward that has completed. -/
def join (s : Proxy A) (i : ℕ) : Option (Proxy A) :=
  (s.forwards[i]?).bind fun f =>
    if f.stage = .dropped ∧ f.reaped = false then some (s.set i { f with reaped := true }) else none

/-- Behind `recv_from`. -/
def examine (s : Proxy A) (client : A) (query : List UInt8) : Proxy A :=
  if MAX_SCOPED_DNS_UDP_PAYLOAD < query.length then
    { s with loop := .select, dropped_queries := fetch_add s.dropped_queries }
  else { s with loop := .reaping client query }

/-- Behind the loop of `try_join_next`. -/
def check (s : Proxy A) (client : A) (query : List UInt8) : Proxy A :=
  if MAX_SCOPED_DNS_IN_FLIGHT ≤ s.in_flight then
    { s with loop := .select, dropped_queries := fetch_add s.dropped_queries }
  else { s with loop := .admitted client query }

/-- `InFlightDnsQuery::begin` -/
def begin (s : Proxy A) (client : A) (query : List UInt8) : Proxy A :=
  { s with
    loop := .spawning s.forwards.length
    in_flight := fetch_add s.in_flight
    forwards := s.forwards ++ [⟨client, query, .begun, false, false⟩] }

/-- A step of `run_scoped_dns_proxy`. -/
def loop_step (s : Proxy A) : Label A → Option (Proxy A)
  | .receive datagram =>
    match s.loop with
    | .select =>
      some { s with
        loop := .received datagram.client (read datagram.bytes)
        taken := s.taken ++ [datagram] }
    | _ => none
  | .receive_error =>
    match s.loop with
    | .select => some s.stop
    | _ => none
  | .changed =>
    match s.loop with
    | .select => if s.shutdown_tx then some s.stop else none
    | _ => none
  | .join i =>
    match s.loop with
    | .select => s.join i
    | .reaping _ _ => s.join i
    | .draining => s.join i
    | _ => none
  | .examine =>
    match s.loop with
    | .received client query => some (s.examine client query)
    | _ => none
  | .check =>
    match s.loop with
    | .reaping client query => some (s.check client query)
    | _ => none
  | .begin =>
    match s.loop with
    | .admitted client query => some (s.begin client query)
    | _ => none
  | .spawn =>
    match s.loop with
    | .spawning i =>
      (s.forwards[i]?).bind fun f => some { s.set i { f with stage := .bind } with loop := .select }
    | _ => none
  | .drained =>
    match s.loop with
    | .draining => if s.forwards.all (·.reaped) then some { s with loop := .finished } else none
    | _ => none
  | .cancel_loop =>
    -- the set aborts what it has when it is dropped with the loop
    match s.loop with
    | .select => if s.task_aborted then some { s.abort_all with loop := .cancelled } else none
    | .draining => if s.task_aborted then some { s.abort_all with loop := .cancelled } else none
    | _ => none
  | _ => none

/-- A step of `forward_dns_datagram`. -/
def forward_dns_datagram (s : Proxy A) (i : ℕ) (f : Forward A) : Stage → Io → Option (Proxy A)
  | .begun, _ => none
  | .dropped, _ => none
  | _, .error => some (s.drop_forward i f)
  | .bind, .ok => some (s.set i { f with stage := .connect })
  | .connect, .ok => some (s.set i { f with stage := .send })
  | .send, .ok =>
    some { s.set i { f with stage := .recv } with queries := s.queries ++ [(i, f.query)] }
  | .recv, .received bytes =>
    let s := { s with answers := s.answers ++ [(i, bytes)] }
    let response := read bytes
    if MAX_SCOPED_DNS_UDP_PAYLOAD < response.length then some (s.drop_forward i f)
    else some (s.set i { f with stage := .reply response })
  | .reply response, .ok =>
    some { s.drop_forward i f with replies := s.replies ++ [(i, ⟨f.client, response⟩)] }
  | _, _ => none

/-- The runtime drops an aborted forward instead of polling it, for the first time or again. -/
def abort (s : Proxy A) (i : ℕ) (f : Forward A) : Option (Proxy A) :=
  if f.aborted ∧ f.stage ≠ .begun ∧ f.stage ≠ .dropped then some (s.drop_forward i f) else none

/-- A step of `ScopedDnsProxy::shutdown`. -/
def shutdown_step (s : Proxy A) (j : ℕ) : ShutdownCall → Label A → Option (Proxy A)
  | .locking, .lock _ =>
    match s.task_lock with
    | some _ => none
    | none =>
      if s.task then some { s with shutdowns := s.shutdowns.set j .awaiting, task_lock := some j }
      else some { s with shutdowns := s.shutdowns.set j .returned }
  | .awaiting, .joined _ =>
    match s.loop with
    | .finished =>
      some { s with shutdowns := s.shutdowns.set j .returned, task := false, task_lock := none }
    | .cancelled =>
      some { s with shutdowns := s.shutdowns.set j .returned, task := false, task_lock := none }
    | _ => none
  | .locking, .cancel _ => some { s with shutdowns := s.shutdowns.set j .cancelled }
  | .awaiting, .cancel _ =>
    some { s with shutdowns := s.shutdowns.set j .cancelled, task_lock := none }
  | _, _ => none

/-- `drop` of the proxy, which no call of `shutdown` borrows any more. -/
def drop (s : Proxy A) : Option (Proxy A) :=
  if s.dropped = false ∧ ∀ call ∈ s.shutdowns, call = .returned ∨ call = .cancelled then
    some { s with shutdown_tx := true, task := false, task_aborted := s.task, dropped := true }
  else none

/-- One step of the proxy. -/
def step (s : Proxy A) : Label A → Option (Proxy A)
  | .forward i io => (s.forwards[i]?).bind fun f => s.forward_dns_datagram i f f.stage io
  | .abort i => (s.forwards[i]?).bind fun f => s.abort i f
  | .shutdown =>
    if s.dropped then none
    else some { s with shutdown_tx := true, shutdowns := s.shutdowns ++ [.locking] }
  | .lock j => (s.shutdowns[j]?).bind fun call => s.shutdown_step j call (.lock j)
  | .joined j => (s.shutdowns[j]?).bind fun call => s.shutdown_step j call (.joined j)
  | .cancel j => (s.shutdowns[j]?).bind fun call => s.shutdown_step j call (.cancel j)
  | .drop => s.drop
  | label => s.loop_step label

end Proxy

/-! ## What is asked of it -/

/-- The forwards that are not yet dropped. -/
def live (s : Proxy A) : ℕ := s.forwards.countP Forward.live

/-- The datagram that the loop is deciding on. -/
def Pending : Loop A → List (Datagram A) → Prop
  | .received client query, pending => ∃ bytes, pending = [⟨client, bytes⟩] ∧ query = read bytes
  | .reaping client query, pending =>
    pending = [⟨client, query⟩] ∧ query.length ≤ MAX_SCOPED_DNS_UDP_PAYLOAD
  | .admitted client query, pending =>
    pending = [⟨client, query⟩] ∧ query.length ≤ MAX_SCOPED_DNS_UDP_PAYLOAD
  | _, pending => pending = []

/-- The counter counts what is live, within the capacity; a datagram is counted as dropped or
has a forward with its bytes, but for the one that the loop is deciding on; a reply is a response
within the cap to the query of the client it goes to. -/
structure Accounted (s : Proxy A) : Prop where
  in_flight : s.in_flight = live s
  capacity : s.in_flight ≤ MAX_SCOPED_DNS_IN_FLIGHT
  fates : ∃ (fates : List (Datagram A × Bool)) (pending : List (Datagram A)),
    Pending s.loop pending ∧ s.taken = fates.map Prod.fst ++ pending ∧
    s.forwards.map Forward.datagram = (fates.filter fun fate => fate.2).map Prod.fst ∧
    s.dropped_queries = (fates.countP fun fate => !fate.2) % (USIZE_MAX + 1)
  queries : ∀ query ∈ s.queries, ∃ f, s.forwards[query.1]? = some f ∧ query.2 = f.query
  replies : ∀ reply ∈ s.replies, ∃ f, s.forwards[reply.1]? = some f ∧ reply.2.client = f.client ∧
    reply.2.bytes.length ≤ MAX_SCOPED_DNS_UDP_PAYLOAD ∧ (reply.1, reply.2.bytes) ∈ s.answers
  once : (s.replies.map Prod.fst).Nodup

/-! ## The invariant -/

/-- A place that the loop has reserved with its look at the counter. -/
def Loop.reserved : Loop A → ℕ
  | .admitted _ _ => 1
  | _ => 0

/-- What holds of the forwards, wherever the loop is. -/
structure Forwards (s : Proxy A) : Prop where
  in_flight : s.in_flight = live s
  reaped : ∀ f ∈ s.forwards, f.reaped = true → f.stage = .dropped
  reply : ∀ (i : ℕ) (f : Forward A) response, s.forwards[i]? = some f → f.stage = .reply response →
    response.length ≤ MAX_SCOPED_DNS_UDP_PAYLOAD ∧ (i, response) ∈ s.answers
  queries : ∀ query ∈ s.queries, ∃ f, s.forwards[query.1]? = some f ∧ query.2 = f.query
  /-- A forward that has replied is dropped. -/
  replies : ∀ reply ∈ s.replies, ∃ f, s.forwards[reply.1]? = some f ∧ f.stage = .dropped ∧
    reply.2.client = f.client ∧ reply.2.bytes.length ≤ MAX_SCOPED_DNS_UDP_PAYLOAD ∧
    (reply.1, reply.2.bytes) ∈ s.answers
  once : (s.replies.map Prod.fst).Nodup

/-- What the loop knows of them where it is. -/
structure LoopOk (s : Proxy A) : Prop where
  capacity : live s + s.loop.reserved ≤ MAX_SCOPED_DNS_IN_FLIGHT
  begun : ∀ (i : ℕ) (f : Forward A), s.forwards[i]? = some f →
    (f.stage = .begun ↔ s.loop = .spawning i)
  spawning : ∀ i, s.loop = .spawning i → i < s.forwards.length
  finished : s.loop = .finished → live s = 0

/-- Every datagram taken was forwarded or dropped, in the order they came, but for the one the loop
still holds; the drops are counted. -/
def Fates (s : Proxy A) : Prop :=
  ∃ (fates : List (Datagram A × Bool)) (pending : List (Datagram A)),
    Pending s.loop pending ∧ s.taken = fates.map Prod.fst ++ pending ∧
    s.forwards.map Forward.datagram = (fates.filter fun fate => fate.2).map Prod.fst ∧
    s.dropped_queries = (fates.countP fun fate => !fate.2) % (USIZE_MAX + 1)

/-- A call of `shutdown` has returned, or there is no handle to wait for, only if the loop has
finished; a loop that has been cancelled has no such calls. -/
structure Closing (s : Proxy A) : Prop where
  task : s.task = false → s.dropped = false → s.loop = .finished
  returned : .returned ∈ s.shutdowns → s.loop = .finished
  cancelled : s.loop = .cancelled → s.dropped = true
  aborted : s.task_aborted = true → s.dropped = true
  idle : s.dropped = true → ∀ call ∈ s.shutdowns, call = .returned ∨ call = .cancelled

/-- The invariant of a run: of the forwards, the loop, the datagrams and the shutdown. -/
structure Inv (s : Proxy A) : Prop where
  forwards : Forwards s
  loop : LoopOk s
  fates : Fates s
  closing : Closing s

theorem inv_init : Inv (init : Proxy A) where
  forwards := by
    refine ⟨rfl, ?_, ?_, ?_, ?_, List.nodup_nil⟩
    · exact fun f hf => absurd hf List.not_mem_nil
    · intro i f response hi
      cases hi
    · exact fun query hq => absurd hq List.not_mem_nil
    · exact fun reply hr => absurd hr List.not_mem_nil
  loop := by
    refine ⟨Nat.zero_le _, ?_, ?_, fun _ => rfl⟩
    · intro i f hi
      cases hi
    · intro i hi
      cases hi
  fates := ⟨[], [], rfl, rfl, rfl, rfl⟩
  closing := by
    refine ⟨?_, ?_, ?_, ?_, ?_⟩
    · intro h
      cases h
    · exact fun h => absurd h List.not_mem_nil
    · intro h
      cases h
    · intro h
      cases h
    · exact fun _ call hc => absurd hc List.not_mem_nil

/-- The invariant accounts for every forward and every datagram. -/
theorem Inv.accounted {s : Proxy A} (h : Inv s) : Accounted s where
  in_flight := h.forwards.in_flight
  capacity := by
    rw [h.forwards.in_flight]
    exact Nat.le_trans (Nat.le_add_right _ _) h.loop.capacity
  fates := h.fates
  queries := h.forwards.queries
  replies := by
    intro reply hr
    obtain ⟨f, hf, -, hreply⟩ := h.forwards.replies reply hr
    exact ⟨f, hf, hreply⟩
  once := h.forwards.once

variable {s s' : Proxy A} {i : ℕ} {f f' : Forward A}

/-! ## Steps of a forward -/

/-- Replacing a forward changes the live ones by that forward alone. -/
theorem live_set (hi : s.forwards[i]? = some f) (f' : Forward A) :
    live (s.set i f') + (if f.live then 1 else 0) = live s + (if f'.live then 1 else 0) :=
  countP_set Forward.live hi f'

theorem datagrams_set (hi : s.forwards[i]? = some f) (f' : Forward A) (h : f'.datagram = f.datagram) :
    (s.set i f').forwards.map Forward.datagram = s.forwards.map Forward.datagram := by
  obtain ⟨l₁, l₂, heq, -, hset⟩ := set_split hi
  have hforwards : (s.set i f').forwards = l₁ ++ f' :: l₂ := hset f'
  rw [hforwards, heq, List.map_append, List.map_append, List.map_cons, List.map_cons, h]

/-- What is said of a forward by its number stays, if its client and query do. -/
theorem exists_set {P : Forward A → Prop} {j : ℕ} (hi : s.forwards[i]? = some f)
    (hj : ∃ g, s.forwards[j]? = some g ∧ P g) (hkeep : P f → P f') :
    ∃ g, (s.set i f').forwards[j]? = some g ∧ P g := by
  obtain ⟨g, hg, hp⟩ := hj
  by_cases hij : i = j
  · subst hij
    rw [hi, Option.some.injEq] at hg
    exact ⟨f', getElem?_set_self hi, hkeep (hg ▸ hp)⟩
  · exact ⟨g, (List.getElem?_set_ne hij).trans hg, hp⟩

/-- A forward that is spawned goes on: it stays live, or it is dropped. -/
theorem Inv.set (h : Inv s) (hi : s.forwards[i]? = some f) (f' : Forward A) (in_flight : ℕ)
    (hdatagram : f'.datagram = f.datagram) (hbegun : f.stage ≠ .begun) (hbegun' : f'.stage ≠ .begun)
    (hdropped : f.stage = .dropped → f'.stage = .dropped)
    (hreaped : f'.reaped = true → f'.stage = .dropped)
    (hreply : ∀ response, f'.stage = .reply response →
      response.length ≤ MAX_SCOPED_DNS_UDP_PAYLOAD ∧ (i, response) ∈ s.answers)
    (hcount : in_flight = live (s.set i f')) :
    Inv { s.set i f' with in_flight := in_flight } := by
  have hlive := live_set hi f'
  have hle : live (s.set i f') ≤ live s := by
    by_cases hf : f.live = true
    · rw [if_pos hf] at hlive
      split at hlive
      · omega
      · omega
    · have hf' : ¬ f'.live = true := by
        simp only [Forward.live, decide_eq_true_eq, not_not] at hf ⊢
        exact hdropped hf
      rw [if_neg hf, if_neg hf'] at hlive
      omega
  have hclient : f'.client = f.client := congrArg Datagram.client hdatagram
  have hquery : f'.query = f.query := congrArg Datagram.bytes hdatagram
  refine ⟨⟨hcount, ?_, ?_, ?_, ?_, h.forwards.once⟩, ⟨?_, ?_, ?_, ?_⟩, ?_, ?_⟩
  · intro g hg
    obtain ⟨j, hj⟩ := List.mem_iff_getElem?.mp hg
    rcases getElem?_set_cases hj with ⟨-, rfl⟩ | ⟨-, hj⟩
    · exact hreaped
    · exact h.forwards.reaped g (List.mem_of_getElem? hj)
  · intro j g response hj hstage
    rcases getElem?_set_cases hj with ⟨rfl, rfl⟩ | ⟨-, hj⟩
    · exact hreply response hstage
    · exact h.forwards.reply j g response hj hstage
  · intro query hq
    exact exists_set hi (h.forwards.queries query hq) fun heq => heq.trans hquery.symm
  · intro reply hr
    apply exists_set hi (h.forwards.replies reply hr)
    rintro ⟨hstage, heq, hrest⟩
    exact ⟨hdropped hstage, heq.trans hclient.symm, hrest⟩
  · exact Nat.le_trans (Nat.add_le_add_right hle _) h.loop.capacity
  · intro j g hj
    rcases getElem?_set_cases hj with ⟨rfl, rfl⟩ | ⟨-, hj⟩
    · have hno : s.loop ≠ .spawning j := fun heq => hbegun ((h.loop.begun j f hi).mpr heq)
      exact ⟨fun heq => absurd heq hbegun', fun heq => absurd heq hno⟩
    · exact h.loop.begun j g hj
  · intro j hj
    exact Nat.lt_of_lt_of_eq (h.loop.spawning j hj) List.length_set.symm
  · intro hfinished
    exact Nat.le_zero.mp (Nat.le_trans hle (Nat.le_of_eq (h.loop.finished hfinished)))
  · obtain ⟨fates, pending, hpending, htaken, hforwards, hdrops⟩ := h.fates
    exact ⟨fates, pending, hpending, htaken, (datagrams_set hi f' hdatagram).trans hforwards, hdrops⟩
  · exact ⟨h.closing.task, h.closing.returned, h.closing.cancelled, h.closing.aborted, h.closing.idle⟩

/-- A forward that is spawned and not yet dropped. -/
structure Runs (f : Forward A) : Prop where
  spawned : f.stage ≠ .begun
  live : f.stage ≠ .dropped

theorem Inv.unreaped (h : Inv s) (hi : s.forwards[i]? = some f) (hruns : Runs f) :
    f.reaped = false := by
  by_contra hreaped
  exact hruns.live (h.forwards.reaped f (List.mem_of_getElem? hi) (Bool.not_eq_false _ ▸ hreaped))

/-- A forward that runs goes on. -/
theorem Inv.move (h : Inv s) (hi : s.forwards[i]? = some f) (hruns : Runs f) {stage : Stage}
    (hstage : stage ≠ .begun ∧ stage ≠ .dropped)
    (hreply : ∀ response, stage = .reply response →
      response.length ≤ MAX_SCOPED_DNS_UDP_PAYLOAD ∧ (i, response) ∈ s.answers) :
    Inv (s.set i { f with stage := stage }) := by
  have hlive := live_set hi { f with stage := stage }
  have hf : f.live = true := decide_eq_true hruns.live
  have hf' : Forward.live { f with stage := stage } = true := decide_eq_true hstage.2
  rw [if_pos hf, if_pos hf'] at hlive
  have hunreaped := h.unreaped hi hruns
  refine h.set hi { f with stage := stage } s.in_flight rfl hruns.spawned hstage.1 ?_ ?_ ?_ ?_
  · exact fun hdropped => absurd hdropped hruns.live
  · intro hreaped
    exact absurd hreaped (by rw [hunreaped]; exact Bool.false_ne_true)
  · exact hreply
  · rw [h.forwards.in_flight]
    omega

/-- The counter comes down by the one that the forward's guard had put on it. -/
theorem Inv.drop_forward (h : Inv s) (hi : s.forwards[i]? = some f) (hruns : Runs f) :
    Inv (s.drop_forward i f) := by
  have hlive := live_set hi { f with stage := .dropped }
  have hf : f.live = true := decide_eq_true hruns.live
  have hf' : ¬ Forward.live { f with stage := .dropped } = true := Bool.false_ne_true
  rw [if_pos hf, if_neg hf'] at hlive
  refine h.set hi { f with stage := .dropped } (fetch_sub s.in_flight) rfl hruns.spawned
    Stage.noConfusion ?_ ?_ ?_ ?_
  · exact fun _ => rfl
  · exact fun _ => rfl
  · intro response hresponse
    cases hresponse
  · have hsucc : live s = live (s.set i { f with stage := .dropped }) + 1 := by omega
    rw [h.forwards.in_flight, hsucc, fetch_sub, if_neg (Nat.succ_ne_zero _), Nat.add_sub_cancel]

theorem Inv.answered (h : Inv s) (answer : ℕ × List UInt8) :
    Inv { s with answers := s.answers ++ [answer] } := by
  refine ⟨⟨h.forwards.in_flight, h.forwards.reaped, ?_, h.forwards.queries, ?_, h.forwards.once⟩,
    ⟨h.loop.capacity, h.loop.begun, h.loop.spawning, h.loop.finished⟩, h.fates,
    ⟨h.closing.task, h.closing.returned, h.closing.cancelled, h.closing.aborted, h.closing.idle⟩⟩
  · intro i f response hi hstage
    have hreply := h.forwards.reply i f response hi hstage
    exact ⟨hreply.1, List.mem_append_left _ hreply.2⟩
  · intro reply hr
    obtain ⟨f, hf, hstage, hclient, hle, hmem⟩ := h.forwards.replies reply hr
    exact ⟨f, hf, hstage, hclient, hle, List.mem_append_left _ hmem⟩

theorem Inv.queried (h : Inv s) (hi : s.forwards[i]? = some f) :
    Inv { s with queries := s.queries ++ [(i, f.query)] } := by
  refine ⟨⟨h.forwards.in_flight, h.forwards.reaped, h.forwards.reply, ?_, h.forwards.replies,
    h.forwards.once⟩, ⟨h.loop.capacity, h.loop.begun, h.loop.spawning, h.loop.finished⟩, h.fates,
    ⟨h.closing.task, h.closing.returned, h.closing.cancelled, h.closing.aborted, h.closing.idle⟩⟩
  intro query hq
  rcases mem_concat_cases hq with hq | rfl
  · exact h.forwards.queries query hq
  · exact ⟨f, hi, rfl⟩

/-- A forward that is dropped has replied. -/
theorem Inv.replied (h : Inv s) (hi : s.forwards[i]? = some f) (hstage : f.stage = .dropped)
    (hnew : i ∉ s.replies.map Prod.fst) {response : List UInt8}
    (hreply : response.length ≤ MAX_SCOPED_DNS_UDP_PAYLOAD ∧ (i, response) ∈ s.answers) :
    Inv { s with replies := s.replies ++ [(i, ⟨f.client, response⟩)] } := by
  refine ⟨⟨h.forwards.in_flight, h.forwards.reaped, h.forwards.reply, h.forwards.queries, ?_, ?_⟩,
    ⟨h.loop.capacity, h.loop.begun, h.loop.spawning, h.loop.finished⟩, h.fates,
    ⟨h.closing.task, h.closing.returned, h.closing.cancelled, h.closing.aborted, h.closing.idle⟩⟩
  · intro reply hr
    rcases mem_concat_cases hr with hr | rfl
    · exact h.forwards.replies reply hr
    · exact ⟨f, hi, hstage, rfl, hreply.1, hreply.2⟩
  · rw [List.map_append, List.map_singleton, ← List.concat_eq_append]
    exact List.Nodup.concat hnew h.forwards.once

/-- A forward that has not been dropped has not replied. -/
theorem Inv.unreplied (h : Inv s) (hi : s.forwards[i]? = some f) (hruns : Runs f) :
    i ∉ s.replies.map Prod.fst := by
  intro hmem
  obtain ⟨reply, hr, hkey⟩ := List.mem_map.mp hmem
  obtain ⟨g, hg, hdropped, -⟩ := h.forwards.replies reply hr
  rw [hkey, hi, Option.some.injEq] at hg
  exact hruns.live (hg ▸ hdropped)

theorem read_of_fits {bytes : List UInt8} (h : ¬ MAX_SCOPED_DNS_UDP_PAYLOAD < (read bytes).length) :
    read bytes = bytes := by
  apply List.take_of_length_le
  rw [read, List.length_take] at h
  omega

/-- A step of a forward. -/
theorem inv_forward (h : Inv s) (hi : s.forwards[i]? = some f) {io : Io}
    (hs : s.forward_dns_datagram i f f.stage io = some s') : Inv s' := by
  generalize hstage : f.stage = stage at hs
  have hruns : stage ≠ .begun → stage ≠ .dropped → Runs f := fun h₁ h₂ => ⟨hstage ▸ h₁, hstage ▸ h₂⟩
  cases stage with
  -- a forward that has not been spawned, or is gone, has no step
  | begun => cases io <;> cases hs
  | dropped => cases io <;> cases hs
  | bind =>
      have hf := hruns Stage.noConfusion Stage.noConfusion
      cases io with
      | ok =>
          obtain rfl := Option.some.inj hs
          exact h.move hi hf ⟨Stage.noConfusion, Stage.noConfusion⟩ fun _ => Stage.noConfusion
      | received bytes => cases hs
      | error =>
          obtain rfl := Option.some.inj hs
          exact h.drop_forward hi hf
  | connect =>
      have hf := hruns Stage.noConfusion Stage.noConfusion
      cases io with
      | ok =>
          obtain rfl := Option.some.inj hs
          exact h.move hi hf ⟨Stage.noConfusion, Stage.noConfusion⟩ fun _ => Stage.noConfusion
      | received bytes => cases hs
      | error =>
          obtain rfl := Option.some.inj hs
          exact h.drop_forward hi hf
  | send =>
      have hf := hruns Stage.noConfusion Stage.noConfusion
      cases io with
      | ok =>
          obtain rfl := Option.some.inj hs
          exact (h.queried hi).move hi hf ⟨Stage.noConfusion, Stage.noConfusion⟩ fun _ => Stage.noConfusion
      | received bytes => cases hs
      | error =>
          obtain rfl := Option.some.inj hs
          exact h.drop_forward hi hf
  | recv =>
      have hf := hruns Stage.noConfusion Stage.noConfusion
      cases io with
      | ok => cases hs
      | received bytes =>
          rw [Proxy.forward_dns_datagram] at hs
          -- an answer that fills the buffer of one byte more is too large, and is not sent on
          by_cases hlarge : MAX_SCOPED_DNS_UDP_PAYLOAD < (read bytes).length
          · rw [if_pos hlarge] at hs
            obtain rfl := Option.some.inj hs
            exact (h.answered (i, bytes)).drop_forward hi hf
          · rw [if_neg hlarge] at hs
            obtain rfl := Option.some.inj hs
            apply (h.answered (i, bytes)).move hi hf ⟨Stage.noConfusion, Stage.noConfusion⟩
            rintro response hresponse
            obtain rfl := Stage.reply.inj hresponse
            refine ⟨Nat.not_lt.mp hlarge, ?_⟩
            rw [read_of_fits hlarge]
            exact List.mem_append_right _ (List.mem_singleton_self _)
      | error =>
          obtain rfl := Option.some.inj hs
          exact h.drop_forward hi hf
  | reply response =>
      have hf := hruns Stage.noConfusion Stage.noConfusion
      cases io with
      | ok =>
          obtain rfl := Option.some.inj hs
          have hreply := h.forwards.reply i f response hi hstage
          exact (h.drop_forward hi hf).replied (getElem?_set_self hi) rfl (h.unreplied hi hf) hreply
      | received bytes => cases hs
      | error =>
          obtain rfl := Option.some.inj hs
          exact h.drop_forward hi hf

/-- A forward is aborted. -/
theorem inv_abort (h : Inv s) (hi : s.forwards[i]? = some f) (hs : s.abort i f = some s') :
    Inv s' := by
  rw [Proxy.abort] at hs
  split_ifs at hs with hguard
  obtain rfl := Option.some.inj hs
  exact h.drop_forward hi ⟨hguard.2.1, hguard.2.2⟩

/-! ## Steps of the loop -/

theorem join_eq_some (h : s.join i = some s') :
    ∃ f, s.forwards[i]? = some f ∧ f.stage = .dropped ∧ s' = s.set i { f with reaped := true } := by
  obtain ⟨f, hi, h⟩ := Option.bind_eq_some_iff.mp h
  split_ifs at h with hguard
  exact ⟨f, hi, hguard.1, (Option.some.inj h).symm⟩

/-- The loop reaps a forward that ended. -/
theorem inv_join (h : Inv s) (hs : s.join i = some s') : Inv s' := by
  obtain ⟨f, hi, hstage, rfl⟩ := join_eq_some hs
  have hlive := live_set hi { f with reaped := true }
  have hsame : Forward.live { f with reaped := true } = f.live := rfl
  rw [hsame] at hlive
  have hbegun : f.stage ≠ .begun := by
    rw [hstage]
    exact Stage.noConfusion
  refine h.set hi { f with reaped := true } s.in_flight rfl hbegun hbegun (fun h => h) (fun _ => hstage) ?_ ?_
  · intro response hresponse
    have hno : f.stage = .reply response := hresponse
    rw [hstage] at hno
    cases hno
  · rw [h.forwards.in_flight]
    omega

theorem live_abort_all (s : Proxy A) : live s.abort_all = live s := by
  rw [live, Proxy.abort_all, List.countP_map]
  rfl

/-- To be aborted is no step of a forward. -/
theorem Inv.abort_all (h : Inv s) : Inv s.abort_all := by
  have hget : ∀ {j : ℕ} {g : Forward A}, s.abort_all.forwards[j]? = some g →
      ∃ f, s.forwards[j]? = some f ∧ g = { f with aborted := true } := by
    intro j g hj
    rw [Proxy.abort_all, List.getElem?_map] at hj
    obtain ⟨f, hf, hg⟩ := Option.map_eq_some_iff.mp hj
    exact ⟨f, hf, hg.symm⟩
  have hset : ∀ {j : ℕ} {f : Forward A}, s.forwards[j]? = some f →
      s.abort_all.forwards[j]? = some { f with aborted := true } := by
    intro j f hj
    rw [Proxy.abort_all, List.getElem?_map, hj, Option.map_some]
  refine ⟨⟨?_, ?_, ?_, ?_, ?_, h.forwards.once⟩, ⟨?_, ?_, ?_, ?_⟩, ?_, ?_⟩
  · rw [live_abort_all]
    exact h.forwards.in_flight
  · intro g hg hreaped
    obtain ⟨f, hf, rfl⟩ := List.mem_map.mp hg
    exact h.forwards.reaped f hf hreaped
  · intro j g response hj hstage
    obtain ⟨f, hf, rfl⟩ := hget hj
    exact h.forwards.reply j f response hf hstage
  · intro query hq
    obtain ⟨f, hf, hquery⟩ := h.forwards.queries query hq
    exact ⟨_, hset hf, hquery⟩
  · intro reply hr
    obtain ⟨f, hf, hreply⟩ := h.forwards.replies reply hr
    exact ⟨_, hset hf, hreply⟩
  · rw [live_abort_all]
    exact h.loop.capacity
  · intro j g hj
    obtain ⟨f, hf, rfl⟩ := hget hj
    exact h.loop.begun j f hf
  · intro j hj
    have hlength : s.abort_all.forwards.length = s.forwards.length := List.length_map _
    rw [hlength]
    exact h.loop.spawning j hj
  · rw [live_abort_all]
    exact h.loop.finished
  · obtain ⟨fates, pending, hpending, htaken, hforwards, hdrops⟩ := h.fates
    refine ⟨fates, pending, hpending, htaken, ?_, hdrops⟩
    rw [← hforwards, Proxy.abort_all, List.map_map]
    rfl
  · exact ⟨h.closing.task, h.closing.returned, h.closing.cancelled, h.closing.aborted, h.closing.idle⟩

/-- The loop runs, and has no forward in its hands. -/
def Loop.runs : Loop A → Bool
  | .select => true
  | .received _ _ => true
  | .reaping _ _ => true
  | .admitted _ _ => true
  | .draining => true
  | _ => false

theorem Loop.ne_of_runs {loop loop' : Loop A} (h : loop.runs = true) (h' : loop'.runs = false) :
    loop ≠ loop' := by
  rintro rfl
  rw [h] at h'
  cases h'

/-- The loop leaves a place where it has no forward in its hands for another. -/
theorem Inv.goto (h : Inv s) (loop : Loop A) (dropped_queries : ℕ) (taken : List (Datagram A))
    (hfrom : s.loop.runs = true) (hto : ∀ i, loop ≠ .spawning i)
    (hcapacity : live s + loop.reserved ≤ MAX_SCOPED_DNS_IN_FLIGHT)
    (hfinished : loop = .finished → live s = 0) (hcancelled : loop = .cancelled → s.dropped = true)
    (hfates : Fates { s with loop := loop, dropped_queries := dropped_queries, taken := taken }) :
    Inv { s with loop := loop, dropped_queries := dropped_queries, taken := taken } := by
  refine ⟨⟨h.forwards.in_flight, h.forwards.reaped, h.forwards.reply, h.forwards.queries,
    h.forwards.replies, h.forwards.once⟩, ⟨hcapacity, ?_, ?_, hfinished⟩, hfates, ?_⟩
  · intro j g hj
    have hno : g.stage ≠ .begun :=
      fun hbegun => Loop.ne_of_runs hfrom rfl ((h.loop.begun j g hj).mp hbegun)
    exact ⟨fun hbegun => absurd hbegun hno, fun hspawning => absurd hspawning (hto j)⟩
  · exact fun j hspawning => absurd hspawning (hto j)
  · refine ⟨?_, ?_, hcancelled, h.closing.aborted, h.closing.idle⟩
    · exact fun htask halive => absurd (h.closing.task htask halive) (Loop.ne_of_runs hfrom rfl)
    · exact fun hreturned => absurd (h.closing.returned hreturned) (Loop.ne_of_runs hfrom rfl)

/-- It stays in the loop. -/
theorem Inv.go (h : Inv s) (loop : Loop A) (dropped_queries : ℕ) (taken : List (Datagram A))
    (hfrom : s.loop.runs = true) (hto : loop.runs = true)
    (hcapacity : live s + loop.reserved ≤ MAX_SCOPED_DNS_IN_FLIGHT)
    (hfates : Fates { s with loop := loop, dropped_queries := dropped_queries, taken := taken }) :
    Inv { s with loop := loop, dropped_queries := dropped_queries, taken := taken } := by
  apply h.goto loop dropped_queries taken hfrom
  · exact fun i => Loop.ne_of_runs hto rfl
  · exact hcapacity
  · exact fun hfinished => absurd hfinished (Loop.ne_of_runs hto rfl)
  · exact fun hcancelled => absurd hcancelled (Loop.ne_of_runs hto rfl)
  · exact hfates

theorem fetch_add_mod (n : ℕ) : fetch_add (n % (USIZE_MAX + 1)) = (n + 1) % (USIZE_MAX + 1) := by
  have hvalue : USIZE_MAX = 18446744073709551615 := rfl
  rw [fetch_add]
  by_cases hmax : n % (USIZE_MAX + 1) = USIZE_MAX
  · rw [if_pos hmax]
    rw [hvalue] at hmax ⊢
    omega
  · rw [if_neg hmax]
    rw [hvalue] at hmax ⊢
    omega

/-- The datagram that the loop is deciding on is counted. -/
theorem Fates.count (h : Fates s) (loop : Loop A)
    (hpending : ∀ pending, Pending s.loop pending → ∃ d, pending = [d]) (hto : Pending loop []) :
    Fates { s with loop := loop, dropped_queries := fetch_add s.dropped_queries } := by
  obtain ⟨fates, pending, hp, htaken, hforwards, hdrops⟩ := h
  obtain ⟨d, rfl⟩ := hpending pending hp
  have hcount : (fates ++ [(d, false)]).countP (fun fate => !fate.2)
      = fates.countP (fun fate => !fate.2) + 1 := by
    rw [List.countP_append]
    rfl
  refine ⟨fates ++ [(d, false)], [], hto, ?_, ?_, ?_⟩
  · rw [List.map_append, List.map_singleton, List.append_nil]
    exact htaken
  · rw [List.filter_append, List.map_append, ← hforwards]
    exact (List.append_nil _).symm
  · rw [hcount, ← fetch_add_mod, ← hdrops]

/-- The loop takes a datagram. -/
theorem inv_receive (h : Inv s) (hloop : s.loop = .select) (datagram : Datagram A) :
    Inv { s with
      loop := .received datagram.client (read datagram.bytes)
      taken := s.taken ++ [datagram] } := by
  have hcapacity := Nat.le_trans (Nat.le_add_right _ _) h.loop.capacity
  refine h.go _ s.dropped_queries _ (hloop ▸ rfl) rfl hcapacity ?_
  obtain ⟨fates, pending, hp, htaken, hforwards, hdrops⟩ := h.fates
  rw [hloop] at hp
  have hnil : pending = [] := hp
  refine ⟨fates, [datagram], ⟨datagram.bytes, rfl, rfl⟩, ?_, hforwards, hdrops⟩
  rw [htaken, hnil, List.append_nil]

/-- It drops one that is too large. -/
theorem inv_examine (h : Inv s) {client : A} {query : List UInt8}
    (hloop : s.loop = .received client query) : Inv (s.examine client query) := by
  have hfrom : s.loop.runs = true := hloop ▸ rfl
  have hcapacity := Nat.le_trans (Nat.le_add_right _ _) h.loop.capacity
  rw [Proxy.examine]
  by_cases hlarge : MAX_SCOPED_DNS_UDP_PAYLOAD < query.length
  · rw [if_pos hlarge]
    refine h.go .select (fetch_add s.dropped_queries) s.taken hfrom rfl hcapacity ?_
    apply h.fates.count
    · intro pending hp
      rw [hloop] at hp
      obtain ⟨bytes, rfl, -⟩ := hp
      exact ⟨_, rfl⟩
    · rfl
  · rw [if_neg hlarge]
    refine h.go (.reaping client query) s.dropped_queries s.taken hfrom rfl hcapacity ?_
    -- the buffer has room for more than the cap, so nothing has been cut off
    obtain ⟨fates, pending, hp, htaken, hforwards, hdrops⟩ := h.fates
    rw [hloop] at hp
    obtain ⟨bytes, rfl, rfl⟩ := hp
    have hself := read_of_fits hlarge
    exact ⟨fates, [⟨client, bytes⟩], ⟨by rw [hself], Nat.not_lt.mp hlarge⟩, htaken, hforwards, hdrops⟩

/-- It drops one when too many are in flight. -/
theorem inv_check (h : Inv s) {client : A} {query : List UInt8}
    (hloop : s.loop = .reaping client query) : Inv (s.check client query) := by
  have hfrom : s.loop.runs = true := hloop ▸ rfl
  rw [Proxy.check]
  by_cases hfull : MAX_SCOPED_DNS_IN_FLIGHT ≤ s.in_flight
  · rw [if_pos hfull]
    have hcapacity := Nat.le_trans (Nat.le_add_right _ _) h.loop.capacity
    refine h.go .select (fetch_add s.dropped_queries) s.taken hfrom rfl hcapacity ?_
    apply h.fates.count
    · intro pending hp
      rw [hloop] at hp
      exact ⟨_, hp.1⟩
    · rfl
  · rw [if_neg hfull]
    -- only the loop raises the counter, so the place is still there when it begins
    have hcapacity : live s + 1 ≤ MAX_SCOPED_DNS_IN_FLIGHT := by
      rw [← h.forwards.in_flight]
      omega
    refine h.go (.admitted client query) s.dropped_queries s.taken hfrom rfl hcapacity ?_
    obtain ⟨fates, pending, hp, htaken, hforwards, hdrops⟩ := h.fates
    rw [hloop] at hp
    exact ⟨fates, pending, hp, htaken, hforwards, hdrops⟩

/-- It counts the forward before it spawns it. -/
theorem inv_begin (h : Inv s) {client : A} {query : List UInt8}
    (hloop : s.loop = .admitted client query) : Inv (s.begin client query) := by
  have hcapacity := h.loop.capacity
  rw [hloop, Loop.reserved] at hcapacity
  have hlive : live (s.begin client query) = live s + 1 := by
    rw [live, Proxy.begin, List.countP_append]
    rfl
  -- below the limit the counter cannot wrap
  have hcount : fetch_add (live s) = live s + 1 := by
    have hne : live s ≠ USIZE_MAX := by
      have hmax : MAX_SCOPED_DNS_IN_FLIGHT < USIZE_MAX := by decide
      omega
    rw [fetch_add, if_neg hne]
  -- a forward is the one just pushed, or one that was there
  have hlast : ∀ {j : ℕ} {g : Forward A}, (s.begin client query).forwards[j]? = some g →
      j = s.forwards.length ∧ g = ⟨client, query, .begun, false, false⟩ ∨ s.forwards[j]? = some g :=
    fun hj => getElem?_concat_cases hj
  have hkeep : ∀ {j : ℕ} {g : Forward A}, s.forwards[j]? = some g →
      (s.begin client query).forwards[j]? = some g :=
    fun hj => (List.getElem?_append_left (lt_of_getElem? hj)).trans hj
  refine ⟨⟨?_, ?_, ?_, ?_, ?_, h.forwards.once⟩, ⟨?_, ?_, ?_, ?_⟩, ?_, ⟨?_, ?_, ?_, h.closing.aborted, h.closing.idle⟩⟩
  · rw [hlive, Proxy.begin, h.forwards.in_flight]
    exact hcount
  · intro g hg hreaped
    obtain ⟨j, hj⟩ := List.mem_iff_getElem?.mp hg
    rcases hlast hj with ⟨-, rfl⟩ | hj
    · cases hreaped
    · exact h.forwards.reaped g (List.mem_of_getElem? hj) hreaped
  · intro j g response hj hstage
    rcases hlast hj with ⟨-, rfl⟩ | hj
    · cases hstage
    · exact h.forwards.reply j g response hj hstage
  · intro query' hq
    obtain ⟨g, hg, hquery⟩ := h.forwards.queries query' hq
    exact ⟨g, hkeep hg, hquery⟩
  · intro reply hr
    obtain ⟨g, hg, hreply⟩ := h.forwards.replies reply hr
    exact ⟨g, hkeep hg, hreply⟩
  · rw [hlive]
    exact hcapacity
  · intro j g hj
    have hspawning : (s.begin client query).loop = .spawning j ↔ s.forwards.length = j :=
      Loop.spawning.injEq _ _ ▸ Iff.rfl
    rw [hspawning]
    rcases hlast hj with ⟨rfl, rfl⟩ | hj
    · exact ⟨fun _ => rfl, fun _ => rfl⟩
    · have hno : g.stage ≠ .begun := by
        intro hbegun
        have hloop' := (h.loop.begun j g hj).mp hbegun
        rw [hloop] at hloop'
        cases hloop'
      have hlt := lt_of_getElem? hj
      exact ⟨fun hbegun => absurd hbegun hno, fun heq => absurd heq (Nat.ne_of_gt hlt)⟩
  · intro j hj
    obtain rfl := Loop.spawning.inj hj
    rw [Proxy.begin, List.length_append]
    exact Nat.lt_succ_self _
  · intro hfinished
    cases hfinished
  · obtain ⟨fates, pending, hp, htaken, hforwards, hdrops⟩ := h.fates
    rw [hloop] at hp
    obtain ⟨rfl, -⟩ := hp
    refine ⟨fates ++ [(⟨client, query⟩, true)], [], rfl, ?_, ?_, ?_⟩
    · rw [List.map_append, List.map_singleton, List.append_nil]
      exact htaken
    · rw [List.filter_append, List.map_append, ← hforwards, Proxy.begin, List.map_append]
      rfl
    · rw [List.countP_append]
      exact hdrops
  · intro htask halive
    have hfinished := h.closing.task htask halive
    rw [hloop] at hfinished
    cases hfinished
  · intro hreturned
    have hfinished := h.closing.returned hreturned
    rw [hloop] at hfinished
    cases hfinished
  · intro hcancelled
    cases hcancelled

/-- The forward that the loop has in its hands goes into the set. -/
theorem inv_spawn (h : Inv s) (hloop : s.loop = .spawning i) (hi : s.forwards[i]? = some f) :
    Inv { s.set i { f with stage := .bind } with loop := .select } := by
  -- the forward was counted when it began; spawning it changes no count
  have hbegun := (h.loop.begun i f hi).mpr hloop
  have hcapacity := Nat.le_trans (Nat.le_add_right _ _) h.loop.capacity
  have hcount := live_set hi { f with stage := .bind }
  have hf : f.live = true := by
    rw [Forward.live, hbegun]
    rfl
  have hf' : Forward.live { f with stage := .bind } = true := rfl
  rw [if_pos hf, if_pos hf'] at hcount
  have hlive : live (s.set i { f with stage := .bind }) = live s := by omega
  refine ⟨⟨?_, ?_, ?_, ?_, ?_, h.forwards.once⟩, ⟨?_, ?_, ?_, ?_⟩, ?_,
    ⟨?_, ?_, ?_, h.closing.aborted, h.closing.idle⟩⟩
  · exact h.forwards.in_flight.trans hlive.symm
  · intro g hg hreaped
    obtain ⟨j, hj⟩ := List.mem_iff_getElem?.mp hg
    rcases getElem?_set_cases hj with ⟨-, rfl⟩ | ⟨-, hj⟩
    · have hdropped := h.forwards.reaped f (List.mem_of_getElem? hi) hreaped
      rw [hbegun] at hdropped
      cases hdropped
    · exact h.forwards.reaped g (List.mem_of_getElem? hj) hreaped
  · intro j g response hj hstage
    rcases getElem?_set_cases hj with ⟨-, rfl⟩ | ⟨-, hj⟩
    · cases hstage
    · exact h.forwards.reply j g response hj hstage
  · intro query hq
    exact exists_set hi (h.forwards.queries query hq) fun heq => heq
  · intro reply hr
    apply exists_set hi (h.forwards.replies reply hr)
    rintro ⟨hdropped, -⟩
    rw [hbegun] at hdropped
    cases hdropped
  · exact Nat.le_trans (Nat.le_of_eq hlive) hcapacity
  -- it was the one forward that had only begun, so now there is none
  · intro j g hj
    have hno : g.stage ≠ .begun := by
      rcases getElem?_set_cases hj with ⟨-, rfl⟩ | ⟨hne, hj⟩
      · exact Stage.noConfusion
      · intro hstage
        have hspawning := (h.loop.begun j g hj).mp hstage
        rw [hloop] at hspawning
        exact hne (Loop.spawning.inj hspawning).symm
    refine ⟨fun hstage => absurd hstage hno, fun hspawning => ?_⟩
    cases hspawning
  · intro j hspawning
    cases hspawning
  · intro hfinished
    cases hfinished
  · obtain ⟨fates, pending, hp, htaken, hforwards, hdrops⟩ := h.fates
    rw [hloop] at hp
    exact ⟨fates, pending, hp, htaken, (datagrams_set hi { f with stage := .bind } rfl).trans hforwards, hdrops⟩
  · intro htask halive
    have hfinished := h.closing.task htask halive
    rw [hloop] at hfinished
    cases hfinished
  · intro hreturned
    have hfinished := h.closing.returned hreturned
    rw [hloop] at hfinished
    cases hfinished
  · intro hcancelled
    cases hcancelled

/-- At rest there is no datagram to decide on. -/
theorem Fates.rest (h : Fates s) (loop : Loop A)
    (hpending : ∀ pending, Pending s.loop pending → Pending loop pending) :
    Fates { s with loop := loop } := by
  obtain ⟨fates, pending, hp, hrest⟩ := h
  exact ⟨fates, pending, hpending pending hp, hrest⟩

/-- It is told to stop. -/
theorem inv_stop (h : Inv s) (hloop : s.loop = .select) : Inv s.stop := by
  have habort := h.abort_all
  have hcapacity := Nat.le_trans (Nat.le_add_right _ _) habort.loop.capacity
  refine habort.go .draining s.dropped_queries s.taken (hloop ▸ rfl) rfl hcapacity ?_
  apply habort.fates.rest
  intro pending hp
  have hselect : Pending s.loop pending := hp
  rwa [hloop] at hselect

/-- It has reaped every forward. -/
theorem inv_drained (h : Inv s) (hloop : s.loop = .draining) (hall : s.forwards.all (·.reaped) = true) :
    Inv { s with loop := .finished } := by
  have hlive : live s = 0 := by
    apply List.countP_eq_zero.mpr
    intro f hf
    have hdropped := h.forwards.reaped f hf (List.all_eq_true.mp hall f hf)
    rw [Forward.live, hdropped]
    exact Bool.false_ne_true
  have hcapacity := Nat.le_trans (Nat.le_add_right _ _) h.loop.capacity
  refine h.goto .finished s.dropped_queries s.taken (hloop ▸ rfl) ?_ hcapacity (fun _ => hlive) ?_ ?_
  · intro i heq
    cases heq
  · intro heq
    cases heq
  · apply h.fates.rest
    intro pending hp
    rwa [hloop] at hp

/-- Its task is cancelled, and the forwards with it. -/
theorem inv_cancel_loop (h : Inv s) (hloop : s.loop = .select ∨ s.loop = .draining)
    (haborted : s.task_aborted = true) : Inv { s.abort_all with loop := .cancelled } := by
  have habort := h.abort_all
  have hcapacity := Nat.le_trans (Nat.le_add_right _ _) habort.loop.capacity
  have hruns : s.loop.runs = true := by
    rcases hloop with hloop | hloop
    · rw [hloop]
      rfl
    · rw [hloop]
      rfl
  refine habort.goto .cancelled s.dropped_queries s.taken hruns ?_ hcapacity ?_ ?_ ?_
  · intro i heq
    cases heq
  · intro heq
    cases heq
  · exact fun _ => h.closing.aborted haborted
  · apply habort.fates.rest
    intro pending hp
    have hbefore : Pending s.loop pending := hp
    rcases hloop with hloop | hloop
    · rwa [hloop] at hbefore
    · rwa [hloop] at hbefore

/-- A step of the loop. -/
theorem inv_loop_step (h : Inv s) {a : Label A} (hs : s.loop_step a = some s') : Inv s' := by
  cases a with
  | receive datagram =>
      simp only [Proxy.loop_step] at hs
      split at hs
      next hloop =>
        obtain rfl := Option.some.inj hs
        exact inv_receive h hloop datagram
      next => cases hs
  | receive_error =>
      simp only [Proxy.loop_step] at hs
      split at hs
      next hloop =>
        obtain rfl := Option.some.inj hs
        exact inv_stop h hloop
      next => cases hs
  | changed =>
      simp only [Proxy.loop_step] at hs
      split at hs
      next hloop =>
        split_ifs at hs
        obtain rfl := Option.some.inj hs
        exact inv_stop h hloop
      next => cases hs
  | join i =>
      simp only [Proxy.loop_step] at hs
      split at hs
      next => exact inv_join h hs
      next => exact inv_join h hs
      next => exact inv_join h hs
      next => cases hs
  | examine =>
      simp only [Proxy.loop_step] at hs
      split at hs
      next hloop =>
        obtain rfl := Option.some.inj hs
        exact inv_examine h hloop
      next => cases hs
  | check =>
      simp only [Proxy.loop_step] at hs
      split at hs
      next hloop =>
        obtain rfl := Option.some.inj hs
        exact inv_check h hloop
      next => cases hs
  | begin =>
      simp only [Proxy.loop_step] at hs
      split at hs
      next hloop =>
        obtain rfl := Option.some.inj hs
        exact inv_begin h hloop
      next => cases hs
  | spawn =>
      simp only [Proxy.loop_step] at hs
      split at hs
      next hloop =>
        obtain ⟨f, hi, hs⟩ := Option.bind_eq_some_iff.mp hs
        obtain rfl := Option.some.inj hs
        exact inv_spawn h hloop hi
      next => cases hs
  | drained =>
      simp only [Proxy.loop_step] at hs
      split at hs
      next hloop =>
        split_ifs at hs with hall
        obtain rfl := Option.some.inj hs
        exact inv_drained h hloop hall
      next => cases hs
  | cancel_loop =>
      simp only [Proxy.loop_step] at hs
      split at hs
      next hloop =>
        split_ifs at hs with haborted
        obtain rfl := Option.some.inj hs
        exact inv_cancel_loop h (.inl hloop) haborted
      next hloop =>
        split_ifs at hs with haborted
        obtain rfl := Option.some.inj hs
        exact inv_cancel_loop h (.inr hloop) haborted
      next => cases hs
  -- the other labels are of the forwards and of shutdown
  | forward => cases hs
  | abort => cases hs
  | shutdown => cases hs
  | lock => cases hs
  | joined => cases hs
  | cancel => cases hs
  | drop => cases hs

/-! ## Shutdown -/

/-- Shutdown does nothing to the loop and its forwards but ask. -/
theorem Inv.close (h : Inv s) (tx task : Bool) (lock : Option ℕ) (aborted : Bool)
    (shutdowns : List ShutdownCall) (dropped : Bool)
    (hclosing : Closing { s with
      shutdown_tx := tx, task := task, task_lock := lock, task_aborted := aborted
      shutdowns := shutdowns, dropped := dropped }) :
    Inv { s with
      shutdown_tx := tx, task := task, task_lock := lock, task_aborted := aborted
      shutdowns := shutdowns, dropped := dropped } :=
  ⟨⟨h.forwards.in_flight, h.forwards.reaped, h.forwards.reply, h.forwards.queries, h.forwards.replies,
    h.forwards.once⟩, ⟨h.loop.capacity, h.loop.begun, h.loop.spawning, h.loop.finished⟩, h.fates, hclosing⟩

/-- A call that is not over borrows the proxy. -/
theorem Closing.alive (h : Closing s) {j : ℕ} {call : ShutdownCall} (hj : s.shutdowns[j]? = some call)
    (hactive : call ≠ .returned ∧ call ≠ .cancelled) : s.dropped = false := by
  by_contra hdropped
  rw [Bool.not_eq_false] at hdropped
  rcases h.idle hdropped call (List.mem_of_getElem? hj) with hcall | hcall
  · exact hactive.1 hcall
  · exact hactive.2 hcall

/-- A call goes on without returning. -/
theorem Closing.step (h : Closing s) {j : ℕ} {call call' : ShutdownCall} (hj : s.shutdowns[j]? = some call)
    (hactive : call ≠ .returned ∧ call ≠ .cancelled) (hcall' : call' ≠ .returned)
    (lock : Option ℕ) :
    Closing { s with shutdowns := s.shutdowns.set j call', task_lock := lock } := by
  refine ⟨h.task, ?_, h.cancelled, h.aborted, ?_⟩
  · intro hmem
    rcases List.mem_or_eq_of_mem_set hmem with hmem | heq
    · exact h.returned hmem
    · exact absurd heq.symm hcall'
  · intro hdropped
    have halive := h.alive hj hactive
    rw [halive] at hdropped
    cases hdropped

/-- A call returns, where the loop has finished. -/
theorem Closing.return (h : Closing s) {j : ℕ} {call : ShutdownCall} (hj : s.shutdowns[j]? = some call)
    (hactive : call ≠ .returned ∧ call ≠ .cancelled) (hloop : s.loop = .finished) (task : Bool)
    (lock : Option ℕ) :
    Closing { s with shutdowns := s.shutdowns.set j .returned, task := task, task_lock := lock } := by
  refine ⟨fun _ _ => hloop, fun _ => hloop, h.cancelled, h.aborted, ?_⟩
  intro hdropped
  have halive := h.alive hj hactive
  rw [halive] at hdropped
  cases hdropped

/-- A step of a `shutdown`. -/
theorem inv_shutdown_step (h : Inv s) {j : ℕ} {call : ShutdownCall} (hj : s.shutdowns[j]? = some call)
    {a : Label A} (hs : s.shutdown_step j call a = some s') : Inv s' := by
  have hlocking : ShutdownCall.locking ≠ .returned ∧ ShutdownCall.locking ≠ .cancelled :=
    ⟨ShutdownCall.noConfusion, ShutdownCall.noConfusion⟩
  have hawaiting : ShutdownCall.awaiting ≠ .returned ∧ ShutdownCall.awaiting ≠ .cancelled :=
    ⟨ShutdownCall.noConfusion, ShutdownCall.noConfusion⟩
  rw [Proxy.shutdown_step.eq_def] at hs
  split at hs
  next =>
    -- `lock`
    split at hs
    next => cases hs
    next hlock =>
      by_cases htask : s.task = true
      · rw [if_pos htask] at hs
        obtain rfl := Option.some.inj hs
        exact h.close _ _ _ _ _ _ (h.closing.step hj hlocking ShutdownCall.noConfusion (some j))
      · rw [if_neg htask] at hs
        obtain rfl := Option.some.inj hs
        rw [Bool.not_eq_true] at htask
        have hloop := h.closing.task htask (h.closing.alive hj hlocking)
        exact h.close _ _ _ _ _ _ (h.closing.return hj hlocking hloop s.task s.task_lock)
  next =>
    -- `joined`
    split at hs
    next hloop =>
      obtain rfl := Option.some.inj hs
      exact h.close _ _ _ _ _ _ (h.closing.return hj hawaiting hloop false none)
    next hloop =>
      -- the loop is cancelled only when nobody can wait for it
      have hdropped := h.closing.cancelled hloop
      rw [h.closing.alive hj hawaiting] at hdropped
      cases hdropped
    next => cases hs
  next =>
    obtain rfl := Option.some.inj hs
    exact h.close _ _ _ _ _ _ (h.closing.step hj hlocking ShutdownCall.noConfusion s.task_lock)
  next =>
    obtain rfl := Option.some.inj hs
    exact h.close _ _ _ _ _ _ (h.closing.step hj hawaiting ShutdownCall.noConfusion none)
  next => cases hs

theorem inv_drop (h : Inv s) (hs : s.drop = some s') : Inv s' := by
  rw [Proxy.drop] at hs
  split_ifs at hs with hguard
  obtain rfl := Option.some.inj hs
  apply h.close
  refine ⟨?_, h.closing.returned, fun _ => rfl, fun _ => rfl, fun _ => hguard.2⟩
  exact fun _ halive => absurd halive Bool.noConfusion

/-- Who makes a step: the loop, a forward, the runtime that drops one, a call of `shutdown`, a
new one, or the owner of the proxy. -/
theorem step_cases {a : Label A} (h : s.step a = some s') :
    s.loop_step a = some s' ∨
    (∃ i f io, s.forwards[i]? = some f ∧ s.forward_dns_datagram i f f.stage io = some s') ∨
    (∃ i f, s.forwards[i]? = some f ∧ s.abort i f = some s') ∨
    (∃ j call a, s.shutdowns[j]? = some call ∧ s.shutdown_step j call a = some s') ∨
    (s.dropped = false ∧ s' = { s with shutdown_tx := true, shutdowns := s.shutdowns ++ [.locking] }) ∨
    s.drop = some s' := by
  cases a with
  | forward i io =>
      obtain ⟨f, hi, hs⟩ := Option.bind_eq_some_iff.mp h
      exact .inr (.inl ⟨i, f, io, hi, hs⟩)
  | abort i =>
      obtain ⟨f, hi, hs⟩ := Option.bind_eq_some_iff.mp h
      exact .inr (.inr (.inl ⟨i, f, hi, hs⟩))
  | lock j =>
      obtain ⟨call, hj, hs⟩ := Option.bind_eq_some_iff.mp h
      exact .inr (.inr (.inr (.inl ⟨j, call, _, hj, hs⟩)))
  | joined j =>
      obtain ⟨call, hj, hs⟩ := Option.bind_eq_some_iff.mp h
      exact .inr (.inr (.inr (.inl ⟨j, call, _, hj, hs⟩)))
  | cancel j =>
      obtain ⟨call, hj, hs⟩ := Option.bind_eq_some_iff.mp h
      exact .inr (.inr (.inr (.inl ⟨j, call, _, hj, hs⟩)))
  | shutdown =>
      simp only [Proxy.step] at h
      split_ifs at h with hdropped
      exact .inr (.inr (.inr (.inr (.inl ⟨Bool.not_eq_true _ ▸ hdropped, (Option.some.inj h).symm⟩))))
  | drop => exact .inr (.inr (.inr (.inr (.inr h))))
  | receive => exact .inl h
  | receive_error => exact .inl h
  | changed => exact .inl h
  | join => exact .inl h
  | examine => exact .inl h
  | check => exact .inl h
  | begin => exact .inl h
  | spawn => exact .inl h
  | drained => exact .inl h
  | cancel_loop => exact .inl h

/-- What one step keeps. -/
theorem inv_step (s : Proxy A) (a : Label A) (s' : Proxy A) (h : Inv s) (hs : s.step a = some s') :
    Inv s' := by
  rcases step_cases hs with hs | ⟨i, f, io, hi, hs⟩ | ⟨i, f, hi, hs⟩ | ⟨j, call, _, hj, hs⟩ | ⟨halive, rfl⟩ | hs
  · exact inv_loop_step h hs
  · exact inv_forward h hi hs
  · exact inv_abort h hi hs
  · exact inv_shutdown_step h hj hs
  · apply h.close _ _ _ _ _ s.dropped
    refine ⟨h.closing.task, ?_, h.closing.cancelled, h.closing.aborted, ?_⟩
    · intro hmem
      rcases mem_concat_cases hmem with hmem | heq
      · exact h.closing.returned hmem
      · cases heq
    · intro hdropped
      rw [halive] at hdropped
      cases hdropped
  · exact inv_drop h hs

/-! ## Behind the loop -/

/-- Where the loop is, and how many forwards have begun, is its own doing. -/
structure Untouched (s s' : Proxy A) : Prop where
  loop : s'.loop = s.loop
  length : s'.forwards.length = s.forwards.length

theorem untouched_forward {io : Io} (hs : s.forward_dns_datagram i f f.stage io = some s') :
    Untouched s s' := by
  rw [Proxy.forward_dns_datagram.eq_def] at hs
  split at hs
  next => cases hs
  next => cases hs
  next =>
    obtain rfl := Option.some.inj hs
    exact ⟨rfl, List.length_set⟩
  next =>
    obtain rfl := Option.some.inj hs
    exact ⟨rfl, List.length_set⟩
  next =>
    obtain rfl := Option.some.inj hs
    exact ⟨rfl, List.length_set⟩
  next =>
    obtain rfl := Option.some.inj hs
    exact ⟨rfl, List.length_set⟩
  next =>
    dsimp only at hs
    split_ifs at hs
    · obtain rfl := Option.some.inj hs
      exact ⟨rfl, List.length_set⟩
    · obtain rfl := Option.some.inj hs
      exact ⟨rfl, List.length_set⟩
  next =>
    obtain rfl := Option.some.inj hs
    exact ⟨rfl, List.length_set⟩
  next => cases hs

theorem untouched_shutdown {j : ℕ} {call : ShutdownCall} {a : Label A}
    (hs : s.shutdown_step j call a = some s') : Untouched s s' := by
  rw [Proxy.shutdown_step.eq_def] at hs
  split at hs
  next =>
    split at hs
    next => cases hs
    next =>
      split_ifs at hs
      · obtain rfl := Option.some.inj hs
        exact ⟨rfl, rfl⟩
      · obtain rfl := Option.some.inj hs
        exact ⟨rfl, rfl⟩
  next =>
    split at hs
    next =>
      obtain rfl := Option.some.inj hs
      exact ⟨rfl, rfl⟩
    next =>
      obtain rfl := Option.some.inj hs
      exact ⟨rfl, rfl⟩
    next => cases hs
  next =>
    obtain rfl := Option.some.inj hs
    exact ⟨rfl, rfl⟩
  next =>
    obtain rfl := Option.some.inj hs
    exact ⟨rfl, rfl⟩
  next => cases hs

/-- A loop that has finished begins no forward. -/
theorem finished_step {a : Label A} (hloop : s.loop = .finished) (hs : s.step a = some s') :
    Untouched s s' := by
  have hnone : s.loop_step a = none := by
    cases a <;> simp [Proxy.loop_step, hloop]
  rcases step_cases hs with hs | ⟨i, f, io, hi, hs⟩ | ⟨i, f, hi, hs⟩ | ⟨j, call, _, hj, hs⟩ | ⟨-, rfl⟩ | hs
  · rw [hnone] at hs
    cases hs
  · exact untouched_forward hs
  · rw [Proxy.abort] at hs
    split_ifs at hs
    obtain rfl := Option.some.inj hs
    exact ⟨rfl, List.length_set⟩
  · exact untouched_shutdown hs
  · exact ⟨rfl, rfl⟩
  · rw [Proxy.drop] at hs
    split_ifs at hs
    obtain rfl := Option.some.inj hs
    exact ⟨rfl, rfl⟩

/-- **The proxy keeps its accounts**, and when a call of `shutdown` has returned, no forward is
live and none begins. -/
theorem proxy_accounted {l : List (Label A)} (hrun : Machine.run Proxy.step init l = some s) :
    Accounted s ∧ (.returned ∈ s.shutdowns → ∀ l' t, Machine.run Proxy.step s l' = some t →
      live t = 0 ∧ t.forwards.length = s.forwards.length) := by
  have hinv : Inv s := Machine.run_invariant inv_step inv_init hrun
  refine ⟨hinv.accounted, fun hreturned l' t hrun' => ?_⟩
  have hkeep : ∀ (u : Proxy A) (a : Label A) (u' : Proxy A), (Inv u ∧ u.loop = .finished ∧ u.forwards.length = s.forwards.length) →
      Proxy.step u a = some u' →
      Inv u' ∧ u'.loop = .finished ∧ u'.forwards.length = s.forwards.length := by
    intro u a u' h hu
    have huntouched := finished_step h.2.1 hu
    exact ⟨inv_step u a u' h.1 hu, huntouched.loop.trans h.2.1, huntouched.length.trans h.2.2⟩
  obtain ⟨ht, hloop, hlength⟩ :=
    Machine.run_invariant hkeep ⟨hinv, hinv.closing.returned hreturned, rfl⟩ hrun'
  exact ⟨ht.loop.finished hloop, hlength⟩

/-- A query is answered, another is aborted before its first poll, and `shutdown` returns. -/
def answered_and_aborted : List (Label ℕ) :=
  [.receive ⟨7, [1, 2]⟩, .examine, .check, .begin, .spawn, .receive ⟨8, [3]⟩, .examine, .check, .begin,
    .spawn, .forward 0 .ok, .forward 0 .ok, .forward 0 .ok, .forward 0 (.received [9]), .forward 0 .ok,
    .shutdown, .lock 0, .changed, .abort 1, .join 0, .join 1, .drained, .joined 0]

theorem answered_and_aborted_accounted :
    ∃ s, Machine.run Proxy.step init answered_and_aborted = some s ∧
      s.replies = [(0, ⟨7, [9]⟩)] ∧ s.shutdowns = [.returned] ∧
      (Accounted s ∧ (.returned ∈ s.shutdowns → ∀ l' t, Machine.run Proxy.step s l' = some t →
        live t = 0 ∧ t.forwards.length = s.forwards.length)) := by
  have hrun : ∃ s, Machine.run Proxy.step init answered_and_aborted = some s ∧
      s.replies = [(0, ⟨7, [9]⟩)] ∧ s.shutdowns = [.returned] := ⟨_, rfl, rfl, rfl⟩
  obtain ⟨s, hs, hreplies, hshutdowns⟩ := hrun
  exact ⟨s, hs, hreplies, hshutdowns, proxy_accounted hs⟩

end IrohHttp.ScopedDns
