/-
A request body on its way from `allocBodyWriter` to the transport.

`alloc_body_writer` registers the writer and hands the reader to its adapter,
which stashes it under the writer's handle; `raw_fetch` claims it from there and
makes it the body of the request. Nothing but the handle connects the three: a
claim that finds nothing is `None`, and a fetch without a reader is a fetch
without a body.

The store is the one of `Handles.lean`, with channels for values: a writer, a
stashed reader and a request body are each the number of a channel. A channel
logs what its sender has put in, a request what its body has yielded.
-/
import IrohHttp.HandleRuns
import IrohHttp.InsertGuard
import Mathlib.Data.List.Basic
import Mathlib.Data.List.Duplicate
import Mathlib.Data.List.NodupEquivFin

set_option autoImplicit false

namespace IrohHttp.RequestBody

open SlotMap Handles Machine

/-! ## State -/

/-- A body channel, by the handle its writer was registered under. -/
structure Channel where
  writer_handle : ℕ
  sent : List Bytes
  buffer : List Bytes

/-- A chunk enters the channel. -/
def Channel.push (ch : Channel) (data : Bytes) : Channel :=
  { ch with sent := ch.sent ++ [data], buffer := ch.buffer ++ [data] }

/-- A call of `send_chunk` that found its writer: the pieces that have not entered
the channel, and whether the call still holds its clone of the sender. -/
structure SendChunk where
  channel : ℕ
  pieces : List Bytes
  live : Bool
  deriving DecidableEq

/-- A request's body: none, or the reader of a channel. -/
inductive Body
  | empty
  | reader (channel : ℕ)
  deriving DecidableEq, Repr

/-- A request handed to the transport or to the local service. `frames` is what
`poll_frame` has yielded, `ended` that it has returned `Ready(None)`, and `held`
that the body has not been dropped yet. -/
structure Request where
  req_body_handle : Option ℕ
  body : Body
  frames : List Bytes
  ended : Bool
  held : Bool
  deriving DecidableEq

/-- What the registries store here: the number of a channel. -/
abbrev Ends : Registry → Type := fun _ => ℕ

/-- `stashing` are the adapter calls between `alloc_body_writer` and
`store_pending_reader`: the handle and the channel of the reader they hold. -/
structure State (M : Type → Type) where
  store : HandleStore M Ends
  channels : ℕ → Channel
  next_channel : ℕ
  stashing : List (ℕ × ℕ)
  sends : List SendChunk
  requests : List Request

/-- Where the checks of the adapter and of `fetch` stop a call: before the reader
is claimed (endpoint, options), after it (addresses, scheme, method, headers,
node id, the local service), or nowhere. -/
inductive Checks
  | fail_before_claim
  | fail_after_claim
  | pass
  deriving DecidableEq, Repr

/-- The calls of the interface, the progress of a suspended `send_chunk`, the sweeps, and what the
transport does with a body. -/
inductive Label
  | alloc_body_writer (now : Instant)
  | store_pending_reader (writer_handle channel : ℕ) (now : Instant)
  | send_chunk (h : ℕ) (chunk : Bytes) (now : Instant)
  | push (call : ℕ)
  | send_returns (call : ℕ)
  | finish_body (h : ℕ)
  | sweep (i : Registry) (ttl : Duration) (now : Instant)
  | sweep_pending_readers (ttl : Duration) (now : Instant)
  | raw_fetch (req_body_handle : Option ℕ) (checks : Checks)
  | poll_frame (request : ℕ)
  | drop_body (request : ℕ)
  deriving DecidableEq

namespace State

variable {K : Type} {M : Type → Type} [SlotMap K M]

/-- No channel is open, no call is made. -/
def start (config : StoreConfig) : State M where
  store := HandleStore.new config
  channels := fun _ => ⟨0, [], []⟩
  next_channel := 0
  stashing := []
  sends := []
  requests := []

/-- A sender of the channel exists: the registered writer or the clone of a
`send_chunk`. -/
def tx_alive (s : State M) (c : ℕ) : Bool :=
  (iter (s.store.registry .writers)).any (fun e => e.2.value == c)
    || s.sends.any fun x => x.live && x.channel == c

/-- The receiver of the channel exists: stashed, about to be, or in a body. -/
def rx_alive (s : State M) (c : ℕ) : Bool :=
  s.stashing.any (fun p => p.2 == c) || s.store.pending_readers.any (fun p => p.2.reader == c)
    || s.requests.any fun q => q.held && q.body == .reader c

/-! ## The handle store's side -/

/-- The next channel, whose writer `store` has under `handle` and whose reader an
adapter call holds. -/
def open_channel (s : State M) (store : HandleStore M Ends) (handle : ℕ) : State M :=
  { s with
    store := store
    channels := Function.update s.channels s.next_channel ⟨handle, [], []⟩
    next_channel := s.next_channel + 1
    stashing := (handle, s.next_channel) :: s.stashing }

/-- `alloc_body_writer` opens a channel and registers its writer. The reader is to be stashed in a
second step. -/
def alloc_body_writer (s : State M) (now : Instant) : Except CoreError ℕ × State M :=
  match s.store.insert_writer s.next_channel now with
  | (.error e, store) => (.error e, { s with store := store })
  | (.ok handle, store) => (.ok handle, s.open_channel store handle)

/-- The reader leaves the adapter call for the stash. -/
def stash (s : State M) (writer_handle channel : ℕ) (now : Instant) : State M :=
  { s with
    store := s.store.store_pending_reader writer_handle channel now
    stashing := s.stashing.erase (writer_handle, channel) }

/-- `store_pending_reader`: the reader of a channel just opened goes to the stash, under the
writer's handle. -/
def store_pending_reader (s : State M) (writer_handle channel : ℕ) (now : Instant) :
    Option (State M) :=
  if (writer_handle, channel) ∈ s.stashing then some (s.stash writer_handle channel now) else none

/-- The pieces `send_chunk` sends a chunk in. -/
def pieces (max_chunk_size : ℕ) (chunk : Bytes) : List Bytes :=
  if chunk.length ≤ max_chunk_size then [chunk] else chunk.toChunks max_chunk_size

/-- Look the writer up and clone its sender out. -/
def send_chunk (s : State M) (h : ℕ) (chunk : Bytes) (now : Instant) : State M :=
  match s.store.send_chunk h now with
  | (.error _, store) => { s with store := store }
  | (.ok c, store) =>
    { s with
      store := store
      sends := s.sends ++ [⟨c, pieces s.store.config.max_chunk_size chunk, true⟩] }

/-- Channel `c` takes `piece` of a call and leaves it with `rest`. -/
def enter (s : State M) (call c : ℕ) (piece : Bytes) (rest : List Bytes) : State M :=
  { s with
    channels := Function.update s.channels c ((s.channels c).push piece)
    sends := s.sends.set call ⟨c, rest, true⟩ }

/-- A suspended `send_chunk` puts its next piece into the channel, once there is room. -/
def push (s : State M) (call : ℕ) : Option (State M) :=
  match s.sends[call]? with
  | some ⟨c, piece :: rest, true⟩ =>
    if s.rx_alive c && decide ((s.channels c).buffer.length < s.store.config.channel_capacity) then
      some (s.enter call c piece rest)
    else none
  | _ => none

/-- A call returns and drops its sender: all of its pieces are in, or the reader
is gone, or the channel stayed full for the drain timeout. -/
def send_returns (s : State M) (call : ℕ) : Option (State M) :=
  match s.sends[call]? with
  | some ⟨c, rest, true⟩ =>
    if rest = [] ∨ s.rx_alive c = false
        ∨ s.store.config.channel_capacity ≤ (s.channels c).buffer.length then
      some { s with sends := s.sends.set call ⟨c, rest, false⟩ }
    else none
  | _ => none

/-- `finish_body` removes the writer. -/
def finish_body (s : State M) (h : ℕ) : State M := { s with store := (s.store.finish_body h).2 }

/-! ## The fetch's side -/

/-- `req_body_handle.and_then(|h| claim_pending_reader(h))`. -/
def claim (s : State M) : Option ℕ → Option ℕ × State M
  | none => (none, s)
  | some h =>
    let r := s.store.claim_pending_reader h
    (r.1, { s with store := r.2 })

/-- `Body::new(reader)` for a reader, `Body::empty()` without one. -/
def req_body : Option ℕ → Body
  | some reader => .reader reader
  | none => .empty

/-- `raw_fetch` up to the point where the request is handed over. -/
def raw_fetch (s : State M) (req_body_handle : Option ℕ) : Checks → State M
  | .fail_before_claim => s
  -- a claimed reader is dropped with the call
  | .fail_after_claim => (s.claim req_body_handle).2
  | .pass =>
    let r := s.claim req_body_handle
    { r.2 with requests := r.2.requests ++ [⟨req_body_handle, req_body r.1, [], false, true⟩] }

/-- The body of a request yields the head of its channel's buffer. -/
def frame (s : State M) (request : ℕ) (q : Request) (c : ℕ) (data : Bytes) (rest : List Bytes) :
    State M :=
  { s with
    channels := Function.update s.channels c { s.channels c with buffer := rest }
    requests := s.requests.set request { q with frames := q.frames ++ [data] } }

/-- `Body::poll_frame`; an empty channel with a live sender is `Pending`. -/
def poll_frame (s : State M) (request : ℕ) : Option (State M) :=
  match s.requests[request]? with
  | none => none
  | some q =>
    if q.held then
      match q.body with
      | .empty => some { s with requests := s.requests.set request { q with ended := true } }
      | .reader c =>
        match (s.channels c).buffer with
        | data :: rest => some (s.frame request q c data rest)
        | [] =>
          if s.tx_alive c then none
          else some { s with requests := s.requests.set request { q with ended := true } }
    else none

/-- The transport drops the request: sent, reset, cancelled or timed out. -/
def drop_body (s : State M) (request : ℕ) : Option (State M) :=
  (s.requests[request]?).map fun q =>
    { s with requests := s.requests.set request { q with held := false } }

/-- One step of the interface, a sweep, or the transport. -/
def step (s : State M) : Label → Option (State M)
  | .alloc_body_writer now => some (s.alloc_body_writer now).2
  | .store_pending_reader h c now => s.store_pending_reader h c now
  | .send_chunk h chunk now => some (s.send_chunk h chunk now)
  | .push call => s.push call
  | .send_returns call => s.send_returns call
  | .finish_body h => some (s.finish_body h)
  | .sweep i ttl now => some { s with store := s.store.sweep_one i ttl now }
  | .sweep_pending_readers ttl now => some { s with store := s.store.sweep_pending_readers ttl now }
  | .raw_fetch h checks => some (s.raw_fetch h checks)
  | .poll_frame request => s.poll_frame request
  | .drop_body request => s.drop_body request

/-! ## A request carries its own body

A request made with a handle has the reader of that handle for its body, and what
its body yields are the chunks that went into the channel. -/

/-- The body of the request is the reader of its handle. -/
def HasBody (s : State M) (q : Request) : Prop :=
  ∀ h, q.req_body_handle = some h → ∃ c, q.body = .reader c ∧ (s.channels c).writer_handle = h

/-- What a reader has yielded: in the order sent, with the rest still in the
channel, and everything once it has ended. -/
structure Reads (s : State M) (q : Request) : Prop where
  in_order : ∀ c, q.body = .reader c → q.frames <+: (s.channels c).sent
  unread : ∀ c, q.body = .reader c → q.held = true →
    (s.channels c).sent = q.frames ++ (s.channels c).buffer
  complete : ∀ c, q.body = .reader c → q.ended = true → q.frames = (s.channels c).sent

/-- Every request handed over carries the body of its handle. -/
def Carried (s : State M) : Prop := ∀ q ∈ s.requests, s.HasBody q ∧ s.Reads q

/-- A fetch that passes its checks finds the reader of its handle stashed. -/
def Claimable (s : State M) : Label → Prop
  | .raw_fetch (some h) .pass => ∃ p ∈ s.store.pending_readers, p.1 = h
  | _ => True

/-! ## The invariant -/

variable {claimed : Prop}

/-- A sender of channel `c` exists. -/
def Sender (s : State M) (c : ℕ) : Prop :=
  (∃ k e, get (s.store.registry .writers) k = some e ∧ e.value = c) ∨
    ∃ x ∈ s.sends, x.live = true ∧ x.channel = c

theorem tx_alive_iff {s : State M} {c : ℕ} : s.tx_alive c = true ↔ s.Sender c := by
  simp only [tx_alive, Sender, Bool.or_eq_true, List.any_eq_true, Prod.exists, mem_iter,
    Bool.and_eq_true, beq_iff_eq]

/-- How many hold the receiver of channel `c`, or held it until they dropped it. -/
def holders (s : State M) (c : ℕ) : ℕ :=
  s.stashing.countP (fun p => p.2 == c) + s.store.pending_readers.countP (fun p => p.2.reader == c)
    + (s.requests.map Request.body).count (.reader c)

/-- The reader waits for a claim under `h`, and nothing has been read from it. -/
def Waiting (s : State M) (h c : ℕ) : Prop :=
  (s.channels c).writer_handle = h ∧ (s.channels c).sent = (s.channels c).buffer

/-- `claimed` says that the claims so far have hit; only the last field needs it. -/
structure Inv (claimed : Prop) (s : State M) : Prop where
  sender_lt : ∀ c, s.Sender c → c < s.next_channel
  holder_lt : ∀ c, 0 < s.holders c → c < s.next_channel
  holders_le : ∀ c, s.holders c ≤ 1
  stashing : ∀ p ∈ s.stashing, s.Waiting p.1 p.2
  pending : ∀ p ∈ s.store.pending_readers, s.Waiting p.1 p.2.reader
  reads : ∀ q ∈ s.requests, s.Reads q
  -- the end is seen only once the last sender is gone, and none comes back
  ended : ∀ q ∈ s.requests, ∀ c, q.body = .reader c → q.ended = true → ¬ s.Sender c
  bodies : claimed → ∀ q ∈ s.requests, s.HasBody q

theorem inv_start (config : StoreConfig) : Inv claimed (start config : State M) where
  sender_lt c hc := by
    rcases hc with ⟨k, e, hget, -⟩ | ⟨x, hx, -⟩
    · rw [start, HandleStore.new, get_with_key] at hget
      cases hget
    · cases hx
  holder_lt c hc := absurd hc (Nat.lt_irrefl 0)
  holders_le c := Nat.zero_le 1
  stashing p hp := by cases hp
  pending p hp := by cases hp
  reads q hq := by cases hq
  ended q hq := by cases hq
  bodies _ q hq := by cases hq

/-- A reader that is on its way to the stash holds its channel. -/
theorem holders_pos_of_stashing {s : State M} {p : ℕ × ℕ} (hp : p ∈ s.stashing) :
    0 < s.holders p.2 := by
  have : 0 < s.stashing.countP fun x => x.2 == p.2 :=
    List.countP_pos_iff.mpr ⟨p, hp, beq_self_eq_true _⟩
  simp only [holders]
  omega

/-- So does a stashed one. -/
theorem holders_pos_of_pending {s : State M} {p : ℕ × PendingReaderEntry (Ends .readers)}
    (hp : p ∈ s.store.pending_readers) : 0 < s.holders p.2.reader := by
  have : 0 < s.store.pending_readers.countP fun x => x.2.reader == p.2.reader :=
    List.countP_pos_iff.mpr ⟨p, hp, beq_self_eq_true _⟩
  simp only [holders]
  omega

/-- So does the body of a request. -/
theorem holders_pos_of_body {s : State M} {q : Request} {c : ℕ} (hq : q ∈ s.requests)
    (hbody : q.body = .reader c) : 0 < s.holders c := by
  have : 0 < (s.requests.map Request.body).count (.reader c) :=
    List.count_pos_iff.mpr (List.mem_map.mpr ⟨q, hq, hbody⟩)
  simp only [holders]
  omega

theorem Waiting.congr {s s' : State M} {h c : ℕ} (hw : s.Waiting h c)
    (hch : s'.channels c = s.channels c) : s'.Waiting h c := by
  rw [Waiting, hch]
  exact hw

theorem HasBody.congr {s s' : State M} {q : Request} (h : s.HasBody q)
    (hch : ∀ c, q.body = .reader c → s'.channels c = s.channels c) : s'.HasBody q := by
  intro handle hh
  obtain ⟨c, hc, hw⟩ := h handle hh
  exact ⟨c, hc, by rw [hch c hc]; exact hw⟩

/-- What a request reads depends on the channel of its body alone. -/
theorem Reads.congr {s s' : State M} {q : Request} (h : s.Reads q)
    (hch : ∀ c, q.body = .reader c → s'.channels c = s.channels c) : s'.Reads q := by
  refine ⟨?_, ?_, ?_⟩
  · intro c hc
    rw [hch c hc]
    exact h.in_order c hc
  · intro c hc
    rw [hch c hc]
    exact h.unread c hc
  · intro c hc
    rw [hch c hc]
    exact h.complete c hc

/-- **The frame rule.** What drops senders and waiting readers keeps the
invariant, whatever it does to the registries. -/
theorem Inv.frame {s s' : State M} (h : Inv claimed s) (hch : s'.channels = s.channels)
    (hnext : s'.next_channel = s.next_channel) (hreq : s'.requests = s.requests)
    (hstash : s'.stashing.Sublist s.stashing)
    (hpend : s'.store.pending_readers.Sublist s.store.pending_readers)
    (hsend : ∀ c, s'.Sender c → s.Sender c) : Inv claimed s' := by
  have hholders : ∀ c, s'.holders c ≤ s.holders c := by
    intro c
    have h₁ := hstash.countP_le (p := fun p => p.2 == c)
    have h₂ := hpend.countP_le (p := fun p => p.2.reader == c)
    simp only [holders, hreq]
    omega
  refine ⟨?_, ?_, ?_, ?_, ?_, ?_, ?_, ?_⟩
  · intro c hc
    rw [hnext]
    exact h.sender_lt c (hsend c hc)
  · intro c hc
    rw [hnext]
    exact h.holder_lt c (Nat.lt_of_lt_of_le hc (hholders c))
  · intro c
    exact (hholders c).trans (h.holders_le c)
  · intro p hp
    exact (h.stashing p (hstash.subset hp)).congr (congrFun hch p.2)
  · intro p hp
    exact (h.pending p (hpend.subset hp)).congr (congrFun hch p.2.reader)
  · intro q hq
    rw [hreq] at hq
    exact (h.reads q hq).congr fun c _ => congrFun hch c
  · intro q hq c hbody hended hc
    rw [hreq] at hq
    exact h.ended q hq c hbody hended (hsend c hc)
  · intro hclaimed q hq
    rw [hreq] at hq
    exact (h.bodies hclaimed q hq).congr fun c _ => congrFun hch c

/-! ### What the store's operations do to the writers -/

/-- Every value in `reg'` was there in `reg`, under the same key. -/
def ValuesFrom (reg reg' : M (Timed ℕ)) : Prop :=
  ∀ k e, get reg' k = some e → ∃ e₀, get reg k = some e₀ ∧ e₀.value = e.value

theorem ValuesFrom.refl (reg : M (Timed ℕ)) : ValuesFrom reg reg := fun _ e h => ⟨e, h, rfl⟩

theorem ValuesFrom.remove (reg : M (Timed ℕ)) (k : K) : ValuesFrom reg (remove reg k) := by
  intro j e hj
  by_cases h : j = k
  · rw [h, get_remove_self] at hj
    cases hj
  · rw [get_remove_of_ne h] at hj
    exact ⟨e, hj, rfl⟩

theorem ValuesFrom.touch (reg : M (Timed ℕ)) (k : K) (now : Instant) :
    ValuesFrom reg (modify reg k fun e => e.touch now) := by
  intro j e hj
  by_cases h : j = k
  · rw [h, get_modify_self, Option.map_eq_some_iff] at hj
    obtain ⟨e₀, he₀, rfl⟩ := hj
    exact ⟨e₀, h ▸ he₀, rfl⟩
  · rw [get_modify_of_ne h] at hj
    exact ⟨e, hj, rfl⟩

theorem ValuesFrom.sweep (reg : M (Timed ℕ)) (ttl : Duration) (now : Instant) :
    ValuesFrom reg (sweep_registry reg ttl now) := by
  intro j e hj
  rw [get_sweep_registry, Option.filter_eq_some_iff] at hj
  exact ⟨e, hj.1, rfl⟩

theorem valuesFrom_set {store : HandleStore M Ends} {i : Registry} {reg : M (Timed ℕ)}
    (h : ValuesFrom (store.registry i) reg) (j : Registry) :
    ValuesFrom (store.registry j) ((store.set i reg).registry j) := by
  by_cases hj : j = i
  · subst hj
    rw [HandleStore.set_registry_self]
    exact h
  · rw [HandleStore.set_registry_of_ne store reg hj]
    exact ValuesFrom.refl _

/-- A store that only lost or touched writers adds no sender. -/
theorem Sender.of_store {s : State M} {store : HandleStore M Ends} {c : ℕ}
    (h : ValuesFrom (s.store.registry .writers) (store.registry .writers))
    (hc : ({ s with store := store } : State M).Sender c) : s.Sender c := by
  rcases hc with ⟨k, e, hget, hval⟩ | hsend
  · obtain ⟨e₀, hget₀, hval₀⟩ := h k e hget
    exact .inl ⟨k, e₀, hget₀, hval₀.trans hval⟩
  · exact .inr hsend

theorem claim_pending_readers (s : State M) (handle : Option ℕ) :
    (s.claim handle).2.store.pending_readers.Sublist s.store.pending_readers := by
  cases handle with
  | none => exact List.Sublist.refl _
  | some h => exact List.filter_sublist

/-- `claim` changes nothing but the stash. -/
theorem claim_frame (s : State M) (handle : Option ℕ) :
    (s.claim handle).2 = { s with store := (s.claim handle).2.store } ∧
      (s.claim handle).2.store.registry = s.store.registry := by
  cases handle with
  | none => exact ⟨rfl, rfl⟩
  | some h => exact ⟨rfl, rfl⟩

/-! ### Steps that add no sender -/

/-- A step of the store that stashes nothing, and registers no writer. -/
theorem Inv.store {s : State M} (h : Inv claimed s) {store : HandleStore M Ends}
    (hpend : store.pending_readers.Sublist s.store.pending_readers)
    (hval : ValuesFrom (s.store.registry .writers) (store.registry .writers)) :
    Inv claimed { s with store := store } :=
  h.frame rfl rfl rfl (List.Sublist.refl _) hpend fun _ => Sender.of_store hval

/-- A writer is removed. -/
theorem Inv.finish_body {s : State M} (h : Inv claimed s) (handle : ℕ) :
    Inv claimed (s.finish_body handle) := by
  rw [State.finish_body, HandleStore.finish_body_snd]
  refine h.store (List.Sublist.refl _) ?_
  exact valuesFrom_set (ValuesFrom.remove _ _) .writers

/-- Writers expire. -/
theorem Inv.sweep {s : State M} (h : Inv claimed s) (i : Registry) (ttl : Duration) (now : Instant) :
    Inv claimed { s with store := s.store.sweep_one i ttl now } := by
  rw [HandleStore.sweep_one_eq]
  refine h.store (List.Sublist.refl _) ?_
  exact valuesFrom_set (ValuesFrom.sweep _ ttl now) .writers

/-- Stashed readers expire. -/
theorem Inv.sweep_pending_readers {s : State M} (h : Inv claimed s) (ttl : Duration) (now : Instant) :
    Inv claimed { s with store := s.store.sweep_pending_readers ttl now } :=
  h.store List.filter_sublist (ValuesFrom.refl _)

/-- A reader is claimed. -/
theorem Inv.claim {s : State M} (h : Inv claimed s) (handle : Option ℕ) :
    Inv claimed (s.claim handle).2 := by
  obtain ⟨heq, hreg⟩ := s.claim_frame handle
  have hpend := s.claim_pending_readers handle
  rw [heq]
  refine h.store hpend ?_
  rw [hreg]
  exact ValuesFrom.refl _

/-- The lookup of `send_chunk`: the sender it clones is a registered one. -/
theorem Inv.send_chunk {s : State M} (h : Inv claimed s) (handle : ℕ) (chunk : Bytes) (now : Instant) :
    Inv claimed (s.send_chunk handle chunk now) := by
  rw [State.send_chunk, HandleStore.send_chunk, HandleStore.access]
  cases hent : s.store.entry .writers handle with
  | none => exact h.store (List.Sublist.refl _) (ValuesFrom.refl _)
  | some e =>
      have hval : ValuesFrom (s.store.registry .writers)
          ((s.store.set .writers (modify (s.store.registry .writers) (handle_to_key M handle)
            fun e => e.touch now)).registry .writers) :=
        valuesFrom_set (ValuesFrom.touch _ _ now) .writers
      refine h.frame rfl rfl rfl (List.Sublist.refl _) (List.Sublist.refl _) ?_
      rintro c (⟨k, e', hget, hc⟩ | ⟨x, hx, hlive, hc⟩)
      · obtain ⟨e₀, hget₀, hval₀⟩ := hval k e' hget
        exact .inl ⟨k, e₀, hget₀, hval₀.trans hc⟩
      · rcases List.mem_append.mp hx with hx | hx
        · exact .inr ⟨x, hx, hlive, hc⟩
        · rw [List.mem_singleton.mp hx] at hc
          exact .inl ⟨_, e, hent, hc⟩

theorem send_returns_cases {s s' : State M} {call : ℕ} (hstep : s.send_returns call = some s') :
    ∃ c rest, s.sends[call]? = some ⟨c, rest, true⟩ ∧
      s' = { s with sends := s.sends.set call ⟨c, rest, false⟩ } := by
  unfold send_returns at hstep
  split at hstep
  · next c rest hx =>
    split at hstep
    · exact ⟨c, rest, hx, (Option.some.inj hstep).symm⟩
    · cases hstep
  · cases hstep

/-- A `send_chunk` returns. -/
theorem Inv.send_returns {s s' : State M} (h : Inv claimed s) {call : ℕ}
    (hstep : s.send_returns call = some s') : Inv claimed s' := by
  obtain ⟨c, rest, -, rfl⟩ := send_returns_cases hstep
  refine h.frame rfl rfl rfl (List.Sublist.refl _) (List.Sublist.refl _) ?_
  rintro c' (hw | ⟨x, hx', hlive, hc⟩)
  · exact .inl hw
  · rcases List.mem_or_eq_of_mem_set hx' with hx' | rfl
    · exact .inr ⟨x, hx', hlive, hc⟩
    · cases hlive

/-! ### A channel opens -/

/-- An insertion adds one entry, under the handle it returns. -/
theorem get_insert_into {store : HandleStore M Ends} {i j : Registry} {value : ℕ}
    {now : Instant} {k : K} {e : Timed ℕ}
    (h : get ((store.insert_into i value now).2.registry j) k = some e) :
    get (store.registry j) k = some e ∨
      (j = i ∧ e.value = value ∧
        ∃ handle, (store.insert_into i value now).1 = .ok handle ∧ k = handle_to_key M handle) := by
  rcases insert_into_cases store i value now with ⟨-, heq⟩ | ⟨-, heq⟩
  · rw [heq] at h
    exact .inl h
  · rw [heq] at h ⊢
    by_cases hj : j = i
    · subst hj
      rw [HandleStore.set_registry_self] at h
      by_cases hk : k = (insert (store.registry j) (Timed.new value now)).1
      · refine .inr ⟨rfl, ?_, _, rfl, ?_⟩
        · rw [hk, get_insert_self, Option.some.injEq] at h
          rw [← h]
          rfl
        · rw [hk, handle_to_key_insert]
      · rw [get_insert_of_ne hk] at h
        exact .inl h
    · rw [HandleStore.set_registry_of_ne _ _ hj] at h
      exact .inl h

/-- And keeps what was there. -/
theorem get_insert_into_of_some {store : HandleStore M Ends} {i j : Registry} {k : K}
    {e : Timed ℕ} (h : get (store.registry j) k = some e) (value : ℕ) (now : Instant) :
    get ((store.insert_into i value now).2.registry j) k = some e := by
  rcases insert_into_cases store i value now with ⟨-, heq⟩ | ⟨-, heq⟩
  · rw [heq]
    exact h
  · rw [heq]
    by_cases hj : j = i
    · subst hj
      rw [HandleStore.set_registry_self, get_insert_of_ne]
      · exact h
      · rintro rfl
        rw [get_insert_key] at h
        cases h
    · rw [HandleStore.set_registry_of_ne _ _ hj]
      exact h

theorem entry_insert_into {store : HandleStore M Ends} {i : Registry} {value : ℕ} {now : Instant}
    {handle : ℕ} (h : (store.insert_into i value now).1 = .ok handle) :
    ∃ e, (store.insert_into i value now).2.entry i handle = some e ∧ e.value = value := by
  rcases insert_into_cases store i value now with ⟨-, heq⟩ | ⟨-, heq⟩
  · rw [heq] at h
    cases h
  · rw [heq] at h ⊢
    cases h
    refine ⟨Timed.new value now, ?_, rfl⟩
    rw [HandleStore.entry, HandleStore.set_registry_self, handle_to_key_insert, get_insert_self]

/-- What a successful `alloc_body_writer` leaves. -/
theorem alloc_body_writer_ok {s s' : State M} {now : Instant} {handle : ℕ}
    (h : s.alloc_body_writer now = (.ok handle, s')) :
    (s.store.insert_into .writers s.next_channel now).1 = .ok handle ∧
      s' = s.open_channel (s.store.insert_into .writers s.next_channel now).2 handle := by
  unfold alloc_body_writer HandleStore.insert_writer at h
  split at h
  · cases h
  · next heq =>
    cases h
    rw [heq]
    exact ⟨rfl, rfl⟩

/-- What a failed one leaves: nothing. -/
theorem alloc_body_writer_error {s s' : State M} {now : Instant} {e : CoreError}
    (h : s.alloc_body_writer now = (.error e, s')) : s' = s := by
  unfold alloc_body_writer HandleStore.insert_writer at h
  rcases insert_into_cases s.store .writers s.next_channel now with ⟨-, heq⟩ | ⟨-, heq⟩
  · rw [heq] at h
    cases h
    rfl
  · rw [heq] at h
    cases h

/-- A channel is opened under a number that nobody holds. -/
theorem Inv.open_channel {s : State M} (h : Inv claimed s) {store : HandleStore M Ends} (handle : ℕ)
    (hpend : store.pending_readers = s.store.pending_readers)
    (hget : ∀ k e, get (store.registry .writers) k = some e →
      e.value = s.next_channel ∨ get (s.store.registry .writers) k = some e) :
    Inv claimed (s.open_channel store handle) := by
  have hsender : ∀ c, (s.open_channel store handle).Sender c → c = s.next_channel ∨ s.Sender c := by
    rintro c (⟨k, e, hk, hc⟩ | hsend)
    · rcases hget k e hk with hnew | hold
      · exact .inl (hc.symm.trans hnew)
      · exact .inr (.inl ⟨k, e, hold, hc⟩)
    · exact .inr (.inr hsend)
  have hholders : ∀ c, (s.open_channel store handle).holders c
      = s.holders c + if s.next_channel = c then 1 else 0 := by
    intro c
    simp only [holders, State.open_channel, hpend, List.countP_cons, beq_iff_eq]
    omega
  -- no one holds the new channel's number yet, so the held channels are as before
  have hold : ∀ c, 0 < s.holders c → (s.open_channel store handle).channels c = s.channels c :=
    fun c hc => Function.update_of_ne (Nat.ne_of_lt (h.holder_lt c hc)) _ _
  refine ⟨?_, ?_, ?_, ?_, ?_, ?_, ?_, ?_⟩
  · intro c hc
    rcases hsender c hc with rfl | hc
    · exact Nat.lt_succ_self _
    · exact Nat.lt_succ_of_lt (h.sender_lt c hc)
  · intro c hc
    rw [hholders] at hc
    by_cases heq : s.next_channel = c
    · exact heq ▸ Nat.lt_succ_self _
    · rw [if_neg heq] at hc
      exact Nat.lt_succ_of_lt (h.holder_lt c hc)
  · intro c
    rw [hholders]
    by_cases heq : s.next_channel = c
    · have hfresh : ¬ 0 < s.holders c := fun hc => absurd (h.holder_lt c hc) (by omega)
      rw [if_pos heq]
      omega
    · rw [if_neg heq]
      exact h.holders_le c
  · intro p hp
    rcases List.mem_cons.mp hp with rfl | hp
    · simp only [Waiting, State.open_channel, Function.update_self, and_self]
    · exact (h.stashing p hp).congr (hold p.2 (holders_pos_of_stashing hp))
  · intro p hp
    rw [show (s.open_channel store handle).store = store from rfl, hpend] at hp
    exact (h.pending p hp).congr (hold p.2.reader (holders_pos_of_pending hp))
  · intro q hq
    exact (h.reads q hq).congr fun c hc => hold c (holders_pos_of_body hq hc)
  · intro q hq c hc hended hsend
    rcases hsender c hsend with rfl | hsend
    · exact Nat.lt_irrefl _ (h.holder_lt _ (holders_pos_of_body hq hc))
    · exact h.ended q hq c hc hended hsend
  · intro hclaimed q hq
    exact (h.bodies hclaimed q hq).congr fun c hc => hold c (holders_pos_of_body hq hc)

/-- `alloc_body_writer` opens a channel, or fails and changes nothing. -/
theorem Inv.alloc_body_writer {s : State M} (h : Inv claimed s) (now : Instant) :
    Inv claimed (s.alloc_body_writer now).2 := by
  rcases halloc : s.alloc_body_writer now with ⟨_ | handle, s'⟩
  · obtain rfl := alloc_body_writer_error halloc
    exact h
  · obtain ⟨-, rfl⟩ := alloc_body_writer_ok halloc
    refine h.open_channel handle rfl fun k e hget => ?_
    rcases get_insert_into hget with hold | ⟨-, hval, -⟩
    · exact .inr hold
    · exact .inl hval

/-! ### A reader is stashed -/

theorem holders_stash_le {s : State M} {handle channel : ℕ} (hmem : (handle, channel) ∈ s.stashing)
    (now : Instant) (c : ℕ) : (s.stash handle channel now).holders c ≤ s.holders c := by
  have hstash := (List.perm_cons_erase hmem).countP_eq fun p => p.2 == c
  -- a stash that the new one replaces is dropped
  have hpend := (List.filter_sublist (p := fun p => p.1 != handle)
    (l := s.store.pending_readers)).countP_le (p := fun p => p.2.reader == c)
  simp only [List.countP_cons] at hstash
  simp only [holders, stash, HandleStore.store_pending_reader, List.countP_cons]
  omega

/-- A reader is stashed. -/
theorem Inv.stash {s : State M} (h : Inv claimed s) {handle channel : ℕ}
    (hmem : (handle, channel) ∈ s.stashing) (now : Instant) :
    Inv claimed (s.stash handle channel now) := by
  have hholders := holders_stash_le hmem now
  refine ⟨h.sender_lt, ?_, ?_, ?_, ?_, ?_, h.ended, ?_⟩
  · exact fun c hc => h.holder_lt c (Nat.lt_of_lt_of_le hc (hholders c))
  · exact fun c => (hholders c).trans (h.holders_le c)
  · exact fun p hp => h.stashing p (List.mem_of_mem_erase hp)
  · intro p hp
    rcases List.mem_cons.mp hp with rfl | hp
    · exact h.stashing _ hmem
    · exact h.pending p (List.mem_of_mem_filter hp)
  · exact fun q hq => (h.reads q hq).congr fun _ _ => rfl
  · exact fun hclaimed q hq => (h.bodies hclaimed q hq).congr fun _ _ => rfl

theorem Inv.store_pending_reader {s s' : State M} (h : Inv claimed s) {handle channel : ℕ} {now : Instant}
    (hstep : s.store_pending_reader handle channel now = some s') : Inv claimed s' := by
  unfold State.store_pending_reader at hstep
  split at hstep
  · next hmem =>
    rw [Option.some.injEq] at hstep
    exact hstep ▸ h.stash hmem now
  · cases hstep

/-! ### A piece enters a channel -/

/-- A push moves the first piece of a live call. -/
theorem push_cases {s s' : State M} {call : ℕ} (hstep : s.push call = some s') :
    ∃ c piece rest, s.sends[call]? = some ⟨c, piece :: rest, true⟩ ∧ s.rx_alive c = true ∧
      s' = s.enter call c piece rest := by
  unfold push at hstep
  split at hstep
  · next c piece rest hx =>
    split at hstep
    · next hguard =>
      rw [Bool.and_eq_true] at hguard
      rw [Option.some.injEq] at hstep
      exact ⟨c, piece, rest, hx, hguard.1, hstep.symm⟩
    · cases hstep
  · cases hstep

theorem enter_channels (s : State M) (call c : ℕ) (piece : Bytes) (rest : List Bytes) (d : ℕ) :
    (s.enter call c piece rest).channels d = s.channels d ∨
      d = c ∧ (s.enter call c piece rest).channels d = (s.channels d).push piece := by
  by_cases hd : d = c
  · subst hd
    exact .inr ⟨rfl, Function.update_self _ _ _⟩
  · exact .inl (Function.update_of_ne hd _ _)

theorem Waiting.enter {s : State M} {h c : ℕ} (hw : s.Waiting h c) (call d : ℕ) (piece : Bytes)
    (rest : List Bytes) : (s.enter call d piece rest).Waiting h c := by
  rcases s.enter_channels call d piece rest c with hc | ⟨-, hc⟩
  · rw [Waiting, hc]
    exact hw
  · rw [Waiting, hc]
    exact ⟨hw.1, congrArg (· ++ [piece]) hw.2⟩

theorem HasBody.enter {s : State M} {q : Request} (h : s.HasBody q) (call c : ℕ) (piece : Bytes)
    (rest : List Bytes) : (s.enter call c piece rest).HasBody q := by
  intro handle hh
  obtain ⟨d, hd, hw⟩ := h handle hh
  refine ⟨d, hd, ?_⟩
  rcases s.enter_channels call c piece rest d with hc | ⟨-, hc⟩
  · rw [hc]
    exact hw
  · rw [hc]
    exact hw

/-- A piece that comes in while its request has not ended is one more to read. -/
theorem Reads.enter {s : State M} {q : Request} (h : s.Reads q) (call c : ℕ) (piece : Bytes)
    (rest : List Bytes) (hopen : q.body = .reader c → q.ended = false) :
    (s.enter call c piece rest).Reads q := by
  refine ⟨?_, ?_, ?_⟩
  · intro d hd
    have hle := h.in_order d hd
    rcases s.enter_channels call c piece rest d with hc | ⟨-, hc⟩
    · rw [hc]
      exact hle
    · rw [hc]
      exact hle.trans (List.prefix_append _ _)
  · intro d hd hheld
    have hun := h.unread d hd hheld
    rcases s.enter_channels call c piece rest d with hc | ⟨-, hc⟩
    · rw [hc]
      exact hun
    · rw [hc]
      simp only [Channel.push, hun, List.append_assoc]
  · intro d hd hended
    rcases s.enter_channels call c piece rest d with hc | ⟨rfl, -⟩
    · rw [hc]
      exact h.complete d hd hended
    · rw [hopen hd] at hended
      cases hended

/-- A piece enters its channel. -/
theorem Inv.push {s s' : State M} (h : Inv claimed s) {call : ℕ} (hstep : s.push call = some s') :
    Inv claimed s' := by
  obtain ⟨c, piece, rest, hx, -, rfl⟩ := push_cases hstep
  have hlive : s.Sender c := .inr ⟨_, List.mem_of_getElem? hx, rfl, rfl⟩
  have hsender : ∀ d, (s.enter call c piece rest).Sender d → s.Sender d := by
    rintro d (hw | ⟨x, hx', hxl, hd⟩)
    · exact .inl hw
    · rcases List.mem_or_eq_of_mem_set hx' with hx' | rfl
      · exact .inr ⟨x, hx', hxl, hd⟩
      · exact (show c = d from hd) ▸ hlive
  refine ⟨?_, h.holder_lt, h.holders_le, ?_, ?_, ?_, ?_, ?_⟩
  · exact fun d hd => h.sender_lt d (hsender d hd)
  · exact fun p hp => (h.stashing p hp).enter call c piece rest
  · exact fun p hp => (h.pending p hp).enter call c piece rest
  · intro q hq
    refine (h.reads q hq).enter call c piece rest fun hbody => ?_
    -- the sender that pushes is one that the end would have excluded
    by_contra hended
    exact h.ended q hq c hbody (by simpa using hended) hlive
  · exact fun q hq d hbody hended hd => h.ended q hq d hbody hended (hsender d hd)
  · exact fun hclaimed q hq => (h.bodies hclaimed q hq).enter call c piece rest

/-! ### A request is handed over -/

theorem Inv.append_request {s : State M} (h : Inv claimed s) {q : Request}
    (hlt : ∀ c, q.body = .reader c → c < s.next_channel ∧ s.holders c = 0) (hq : s.Reads q)
    (hopen : q.ended = false) (hbody : claimed → s.HasBody q) :
    Inv claimed { s with requests := s.requests ++ [q] } := by
  have hholders : ∀ c, ({ s with requests := s.requests ++ [q] } : State M).holders c
      = s.holders c + if q.body = .reader c then 1 else 0 := by
    intro c
    simp only [holders, List.map_append, List.map_cons, List.map_nil, List.count_append,
      List.count_singleton, beq_iff_eq]
    omega
  refine ⟨h.sender_lt, ?_, ?_, h.stashing, h.pending, ?_, ?_, ?_⟩
  · intro c hc
    rw [hholders] at hc
    by_cases hbody : q.body = .reader c
    · exact (hlt c hbody).1
    · rw [if_neg hbody] at hc
      exact h.holder_lt c hc
  · intro c
    rw [hholders]
    by_cases hbody : q.body = .reader c
    · rw [if_pos hbody, (hlt c hbody).2]
    · rw [if_neg hbody]
      exact h.holders_le c
  · intro q' hq'
    rcases List.mem_append.mp hq' with hq' | hq'
    · exact (h.reads q' hq').congr fun _ _ => rfl
    · rw [List.mem_singleton.mp hq']
      exact hq.congr fun _ _ => rfl
  · intro q' hq' c hbody hended
    rcases List.mem_append.mp hq' with hq' | hq'
    · exact h.ended q' hq' c hbody hended
    · rw [List.mem_singleton.mp hq', hopen] at hended
      cases hended
  · intro hclaimed q' hq'
    rcases List.mem_append.mp hq' with hq' | hq'
    · exact (h.bodies hclaimed q' hq').congr fun _ _ => rfl
    · rw [List.mem_singleton.mp hq']
      exact (hbody hclaimed).congr fun _ _ => rfl

/-- A claim hits where the handle has a reader stashed. -/
theorem claim_isSome {s : State M} {handle : ℕ}
    (hstash : ∃ p ∈ s.store.pending_readers, p.1 = handle) :
    ∃ c, (s.claim (some handle)).1 = some c := by
  obtain ⟨p₀, hp₀, hkey₀⟩ := hstash
  cases hfind : s.store.pending_readers.find? fun p => p.1 == handle with
  | none =>
      have := List.find?_eq_none.mp hfind p₀ hp₀
      exact absurd (beq_iff_eq.mpr hkey₀) this
  | some p =>
      refine ⟨p.2.reader, ?_⟩
      simp only [claim, HandleStore.claim_pending_reader, hfind, Option.map_some]

/-- A claim takes the reader out of the stash. -/
theorem claim_eq_some {s : State M} (h : Inv claimed s) {req_body_handle : Option ℕ} {c : ℕ}
    (hc : (s.claim req_body_handle).1 = some c) :
    ∃ handle, req_body_handle = some handle ∧ s.Waiting handle c ∧ 0 < s.holders c ∧
      (s.claim req_body_handle).2.holders c = 0 := by
  cases req_body_handle with
  | none => cases hc
  | some handle =>
  refine ⟨handle, rfl, ?_⟩
  simp only [claim, HandleStore.claim_pending_reader, Option.map_eq_some_iff] at hc
  obtain ⟨p, hfind, rfl⟩ := hc
  have hmem := List.mem_of_find?_eq_some hfind
  have hkey : p.1 = handle := by simpa using List.find?_some hfind
  refine ⟨hkey ▸ h.pending p hmem, holders_pos_of_pending hmem, ?_⟩
  -- one holder less than at most one
  obtain ⟨l₁, l₂, hl⟩ := List.append_of_mem hmem
  have hle := h.holders_le p.2.reader
  have h₁ := (List.filter_sublist (p := fun x => x.1 != handle) (l := l₁)).countP_le
    (p := fun x => x.2.reader == p.2.reader)
  have h₂ := (List.filter_sublist (p := fun x => x.1 != handle) (l := l₂)).countP_le
    (p := fun x => x.2.reader == p.2.reader)
  have hdrop : (p :: l₂).filter (fun x => x.1 != handle) = l₂.filter fun x => x.1 != handle :=
    List.filter_cons_of_neg (by simp [hkey])
  simp only [holders, hl, List.countP_append, List.countP_cons, beq_self_eq_true, if_true] at hle
  simp only [holders, claim, HandleStore.claim_pending_reader, hl, List.filter_append, hdrop,
    List.countP_append]
  omega

theorem Inv.hand_over {s : State M} (h : Inv claimed s) {handle : Option ℕ}
    (hclaim : claimed → s.Claimable (.raw_fetch handle .pass)) :
    Inv claimed (s.raw_fetch handle .pass) := by
  have hinv := h.claim handle
  cases hc : (s.claim handle).1 with
  | none =>
      have hbody : req_body (s.claim handle).1 = .empty := by rw [hc]; rfl
      refine hinv.append_request (fun c hc => ?_) ⟨?_, ?_, ?_⟩ rfl ?_
      · cases hbody.symm.trans hc
      · exact fun _ hd => by cases hbody.symm.trans hd
      · exact fun _ hd => by cases hbody.symm.trans hd
      · exact fun _ hd => by cases hbody.symm.trans hd
      · -- a claim that has to hit and misses
        intro hclaimed handle' hh
        obtain rfl : handle = some handle' := hh
        obtain ⟨c, hhit⟩ := claim_isSome (hclaim hclaimed)
        cases hc.symm.trans hhit
  | some c =>
      obtain ⟨handle', rfl, hw, hpos, hzero⟩ := claim_eq_some h hc
      have hbody : req_body (s.claim (some handle')).1 = .reader c := by rw [hc]; rfl
      refine hinv.append_request ?_ ⟨?_, ?_, ?_⟩ rfl ?_
      · intro d hd
        obtain rfl := Body.reader.inj (hbody.symm.trans hd)
        exact ⟨h.holder_lt c hpos, hzero⟩
      · exact fun _ _ => List.nil_prefix
      · intro d hd _
        obtain rfl := Body.reader.inj (hbody.symm.trans hd)
        exact hw.2
      · exact fun _ _ hended => by cases hended
      · intro _ handle hh
        obtain rfl := Option.some.inj hh
        exact ⟨c, hbody, hw.1⟩

theorem Inv.raw_fetch {s : State M} (h : Inv claimed s) {handle : Option ℕ} {checks : Checks}
    (hclaim : claimed → s.Claimable (.raw_fetch handle checks)) :
    Inv claimed (s.raw_fetch handle checks) := by
  cases checks with
  | fail_before_claim => exact h
  | fail_after_claim => exact h.claim handle
  | pass => exact h.hand_over hclaim

/-! ### The transport reads and drops -/

/-- Two requests do not share a channel. -/
theorem Inv.body_ne {s : State M} (h : Inv claimed s) {i j : ℕ} {q q' : Request} {c : ℕ}
    (hi : s.requests[i]? = some q) (hj : s.requests[j]? = some q') (hij : i ≠ j)
    (hbody : q.body = .reader c) : q'.body ≠ .reader c := by
  intro hbody'
  have hle : (s.requests.map Request.body).count (.reader c) ≤ 1 := by
    have := h.holders_le c
    simp only [holders] at this
    omega
  have hdup : List.Duplicate (.reader c) (s.requests.map Request.body) := by
    have hi' : (s.requests.map Request.body)[i]? = some (.reader c) := by
      rw [List.getElem?_map, hi, Option.map_some, hbody]
    have hj' : (s.requests.map Request.body)[j]? = some (.reader c) := by
      rw [List.getElem?_map, hj, Option.map_some, hbody']
    obtain ⟨hilt, hi'⟩ := List.getElem?_eq_some_iff.mp hi'
    obtain ⟨hjlt, hj'⟩ := List.getElem?_eq_some_iff.mp hj'
    rw [List.duplicate_iff_exists_distinct_get]
    rcases Nat.lt_or_gt_of_ne hij with hlt | hlt
    · exact ⟨⟨i, hilt⟩, ⟨j, hjlt⟩, hlt, hi'.symm, hj'.symm⟩
    · exact ⟨⟨j, hjlt⟩, ⟨i, hilt⟩, hlt, hj'.symm, hi'.symm⟩
  have := List.duplicate_iff_two_le_count.mp hdup
  omega

/-- **One request changes.** It keeps its body, and of the channels only its own
may change. -/
theorem Inv.set_request {s : State M} (h : Inv claimed s) {request : ℕ} {q : Request}
    (hq : s.requests[request]? = some q) (q' : Request) (hbody : q'.body = q.body)
    (channels : ℕ → Channel)
    (hch : ∀ c, q.body ≠ .reader c → channels c = s.channels c)
    (hreads : ({ s with channels := channels } : State M).Reads q')
    (hhandle : q'.req_body_handle = q.req_body_handle)
    (hsame : ∀ c, (channels c).writer_handle = (s.channels c).writer_handle)
    (hended : ∀ c, q.body = .reader c → q'.ended = true → ¬ s.Sender c) :
    Inv claimed { s with channels := channels, requests := s.requests.set request q' } := by
  have hlt := (List.getElem?_eq_some_iff.mp hq).1
  have hmap : (s.requests.set request q').map Request.body = s.requests.map Request.body := by
    apply List.ext_getElem?
    intro j
    rw [List.getElem?_map, List.getElem?_map]
    by_cases hj : request = j
    · subst hj
      rw [List.getElem?_set_self hlt, hq, Option.map_some, Option.map_some, hbody]
    · rw [List.getElem?_set_ne hj]
  have hholders : ∀ c, ({ s with
      channels := channels, requests := s.requests.set request q' } : State M).holders c
        = s.holders c := by
    intro c
    simp only [holders, hmap]
  -- whoever else holds a receiver holds that of another channel
  have hother : ∀ c, 0 < s.stashing.countP (fun p => p.2 == c)
      + s.store.pending_readers.countP (fun p => p.2.reader == c) → channels c = s.channels c := by
    intro c hc
    apply hch c
    intro hbody
    have hpos : 0 < (s.requests.map Request.body).count (.reader c) :=
      List.count_pos_iff.mpr (List.mem_map.mpr ⟨q, List.mem_of_getElem? hq, hbody⟩)
    have hle := h.holders_le c
    simp only [holders] at hle
    omega
  refine ⟨h.sender_lt, ?_, ?_, ?_, ?_, ?_, ?_, ?_⟩
  · intro c hc
    rw [hholders] at hc
    exact h.holder_lt c hc
  · intro c
    rw [hholders]
    exact h.holders_le c
  · intro p hp
    have hpos : 0 < s.stashing.countP fun x => x.2 == p.2 :=
      List.countP_pos_iff.mpr ⟨p, hp, beq_self_eq_true _⟩
    exact (h.stashing p hp).congr (hother p.2 (by omega))
  · intro p hp
    have hpos : 0 < s.store.pending_readers.countP fun x => x.2.reader == p.2.reader :=
      List.countP_pos_iff.mpr ⟨p, hp, beq_self_eq_true _⟩
    exact (h.pending p hp).congr (hother p.2.reader (by omega))
  · intro x hx
    obtain ⟨j, hj⟩ := List.mem_iff_getElem?.mp hx
    by_cases hij : request = j
    · subst hij
      rw [List.getElem?_set_self hlt, Option.some.injEq] at hj
      subst hj
      exact hreads.congr fun _ _ => rfl
    · rw [List.getElem?_set_ne hij] at hj
      refine (h.reads x (List.mem_of_getElem? hj)).congr fun c hc => ?_
      exact hch c fun hbody => h.body_ne hq hj hij hbody hc
  · intro x hx c hc hx'
    rcases List.mem_or_eq_of_mem_set hx with hx | rfl
    · exact h.ended x hx c hc hx'
    · exact hended c (hbody ▸ hc) hx'
  · intro hclaimed x hx handle hh
    have hold : ∃ x₀ ∈ s.requests, x.req_body_handle = x₀.req_body_handle ∧ x.body = x₀.body := by
      rcases List.mem_or_eq_of_mem_set hx with hx | rfl
      · exact ⟨x, hx, rfl, rfl⟩
      · exact ⟨q, List.mem_of_getElem? hq, hhandle, hbody⟩
    obtain ⟨x₀, hx₀, hhandle₀, hbody₀⟩ := hold
    obtain ⟨c, hc, hw⟩ := h.bodies hclaimed x₀ hx₀ handle (hhandle₀ ▸ hh)
    exact ⟨c, hbody₀.trans hc, (hsame c).trans hw⟩

/-- What a poll does: it ends a body with nothing left, or takes a frame. -/
theorem poll_frame_cases {s s' : State M} {request : ℕ} (hstep : s.poll_frame request = some s') :
    ∃ q, s.requests[request]? = some q ∧ q.held = true ∧
      ((s' = { s with requests := s.requests.set request { q with ended := true } } ∧
          ∀ c, q.body = .reader c → (s.channels c).buffer = [] ∧ s.tx_alive c = false) ∨
        ∃ c data rest, q.body = .reader c ∧ (s.channels c).buffer = data :: rest ∧
          s' = s.frame request q c data rest) := by
  unfold poll_frame at hstep
  split at hstep
  · cases hstep
  next q hq =>
  split at hstep
  · next hheld =>
    refine ⟨q, hq, hheld, ?_⟩
    split at hstep
    · next hbody =>
      exact .inl ⟨(Option.some.inj hstep).symm, fun c hc => by cases hbody.symm.trans hc⟩
    · next c hbody =>
      split at hstep
      · next data rest hbuf =>
        exact .inr ⟨c, data, rest, hbody, hbuf, (Option.some.inj hstep).symm⟩
      · next hbuf =>
        split at hstep
        · cases hstep
        · next htx =>
          refine .inl ⟨(Option.some.inj hstep).symm, fun d hd => ?_⟩
          obtain rfl := Body.reader.inj (hbody.symm.trans hd)
          exact ⟨hbuf, Bool.eq_false_iff.mpr htx⟩
  · cases hstep

theorem Inv.poll_frame {s s' : State M} (h : Inv claimed s) {request : ℕ}
    (hstep : s.poll_frame request = some s') : Inv claimed s' := by
  obtain ⟨q, hq, hheld, hcases⟩ := poll_frame_cases hstep
  have hmem := List.mem_of_getElem? hq
  have hreads := h.reads q hmem
  rcases hcases with ⟨rfl, hend⟩ | ⟨c, data, rest, hbody, hbuf, rfl⟩
  · refine h.set_request hq { q with ended := true } rfl s.channels (fun _ _ => rfl)
      ⟨hreads.in_order, hreads.unread, ?_⟩ rfl (fun _ => rfl) ?_
    · intro c hc _
      have hun := hreads.unread c hc hheld
      rw [(hend c hc).1, List.append_nil] at hun
      exact hun.symm
    · intro c hc _ hsender
      rw [← tx_alive_iff, (hend c hc).2] at hsender
      cases hsender
  · have hun := hreads.unread c hbody hheld
    refine h.set_request hq { q with frames := q.frames ++ [data] } rfl
      (Function.update s.channels c { s.channels c with buffer := rest }) ?_ ⟨?_, ?_, ?_⟩ rfl ?_ ?_
    · intro d hd
      have hne : d ≠ c := by
        rintro rfl
        exact hd hbody
      exact Function.update_of_ne hne _ _
    · intro d hd
      obtain rfl := Body.reader.inj (hbody.symm.trans hd)
      simp only [Function.update_self, hun, hbuf]
      exact ⟨rest, by simp⟩
    · intro d hd _
      obtain rfl := Body.reader.inj (hbody.symm.trans hd)
      simp only [Function.update_self, hun, hbuf, List.append_assoc, List.singleton_append]
    · intro d hd hended
      obtain rfl := Body.reader.inj (hbody.symm.trans hd)
      -- an ended body has nothing left in its channel
      have hall := hreads.complete c hbody hended
      rw [hun, hbuf] at hall
      simp at hall
    · intro d
      by_cases hd : d = c
      · rw [hd, Function.update_self]
      · rw [Function.update_of_ne hd]
    · exact fun d hd hended => h.ended q hmem d hd hended

theorem Inv.drop_body {s s' : State M} (h : Inv claimed s) {request : ℕ}
    (hstep : s.drop_body request = some s') : Inv claimed s' := by
  unfold State.drop_body at hstep
  rw [Option.map_eq_some_iff] at hstep
  obtain ⟨q, hq, rfl⟩ := hstep
  have hreads := h.reads q (List.mem_of_getElem? hq)
  refine h.set_request hq { q with held := false } rfl s.channels (fun _ _ => rfl)
    ⟨hreads.in_order, ?_, hreads.complete⟩ rfl (fun _ => rfl) ?_
  · exact fun _ _ hheld => by cases hheld
  · exact fun c hc hended => h.ended q (List.mem_of_getElem? hq) c hc hended

/-! ## Runs -/

theorem Inv.step {s s' : State M} (h : Inv claimed s) {a : Label} (hclaim : claimed → s.Claimable a)
    (hstep : s.step a = some s') : Inv claimed s' := by
  cases a with
  | alloc_body_writer now => exact Option.some.inj hstep ▸ h.alloc_body_writer now
  | store_pending_reader handle channel now => exact h.store_pending_reader hstep
  | send_chunk handle chunk now => exact Option.some.inj hstep ▸ h.send_chunk handle chunk now
  | push call => exact h.push hstep
  | send_returns call => exact h.send_returns hstep
  | finish_body handle => exact Option.some.inj hstep ▸ h.finish_body handle
  | sweep i ttl now => exact Option.some.inj hstep ▸ h.sweep i ttl now
  | sweep_pending_readers ttl now =>
      exact Option.some.inj hstep ▸ h.sweep_pending_readers ttl now
  | raw_fetch handle checks => exact Option.some.inj hstep ▸ h.raw_fetch hclaim
  | poll_frame request => exact h.poll_frame hstep
  | drop_body request => exact h.drop_body hstep

/-- A fetch whose claim misses hands over a request without a body. -/
theorem not_carried_of_missed {s : State M} {a : Label} (hmiss : ¬ s.Claimable a) :
    ∃ s', s.step a = some s' ∧ ¬ s'.Carried := by
  unfold Claimable at hmiss
  split at hmiss
  · next h =>
    push Not at hmiss
    have hnone : (s.claim (some h)).1 = none := by
      have hfind : s.store.pending_readers.find? (fun p => p.1 == h) = none :=
        List.find?_eq_none.mpr fun p hp => by simpa using hmiss p hp
      simp only [claim, HandleStore.claim_pending_reader, hfind, Option.map_none]
    refine ⟨_, rfl, fun hcarried => ?_⟩
    have hcar := hcarried ⟨some h, req_body (s.claim (some h)).1, [], false, true⟩
      (List.mem_append_right _ (List.mem_singleton_self _))
    obtain ⟨c, hc, -⟩ := hcar.1 h rfl
    rw [hnone] at hc
    cases hc
  · exact absurd trivial hmiss

end State

open State

/-- **A request body is the body of its handle exactly as long as claims hit.**
Over all schedules of allocations, sends, finishes, sweeps, fetches and reads:
every request handed over carries the chunks sent to the writer of its handle, in
order and all of them by the time it ends, in every state of the run, if and only
if each fetch that passed its checks found the reader of its handle stashed. -/
theorem requests_carry_their_bodies_iff {K : Type} {M : Type → Type} [SlotMap K M]
    (config : StoreConfig) (l : List Label) :
    Along State.step Claimable (start config : State M) l ↔
      ∀ n t, run State.step (start config : State M) (l.take n) = some t → t.Carried :=
  along_iff_forall_prefix (P := Inv True) (fun _ _ _ h hC hstep => h.step (fun _ => hC) hstep)
    (fun _ h q hq => ⟨h.bodies trivial q hq, h.reads q hq⟩)
    (fun _ _ _ hC => not_carried_of_missed hC) (inv_start config) l

/-- A fetch that comes a TTL after its writer was allocated: the stash has been
swept, and the request goes out without a body. -/
theorem swept_reader_sends_empty_body :
    ∃ t, run State.step (start {} : State Slots)
        [.alloc_body_writer 0, .store_pending_reader 4294967297 0 0,
          .sweep_pending_readers 300000000000 300000000000,
          .raw_fetch (some 4294967297) .pass] = some t ∧
      t.requests = [⟨some 4294967297, .empty, [], false, true⟩] ∧ ¬ t.Carried := by
  refine ⟨_, rfl, rfl, fun hcarried => ?_⟩
  have hcar := hcarried ⟨some 4294967297, .empty, [], false, true⟩ (List.mem_singleton_self _)
  obtain ⟨c, hc, -⟩ := hcar.1 4294967297 rfl
  cases hc

end IrohHttp.RequestBody
