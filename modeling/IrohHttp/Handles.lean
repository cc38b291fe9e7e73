/-
`iroh-http-core/src/ffi/handles.rs`: the per-endpoint handle store.

Every resource the JS side can name -- a body reader or writer, a session, a
request head, a fetch token -- sits in one of five registries, each a slot map
of timestamped values behind its own lock, and the `u64` handle is the integer
form of the slot map's key. The five registries are one indexed family here,
`HandleStore.registry`, because the source's `insert_checked` and
`sweep_registry` are generic in exactly that way; each public method keeps its
own definition under the source's name.

An operation is what one lock acquisition does, with the clock reading it makes
as an argument. `next_chunk` and `send_chunk` await in between, so each is a
pair: the lookup that touches the entry and clones it out, and the completion.

The slot map is the interface of `SlotMap.lean`. What the values are does not
matter to the store, so they are a family `R` of types.
-/
import IrohHttp.CoreError
import IrohHttp.SlotMap
import Mathlib.Logic.Function.Basic

set_option autoImplicit false

namespace IrohHttp.Handles

open SlotMap

/-! ## Constants and configuration -/

/-- The chunks that a body channel holds. -/
def DEFAULT_CHANNEL_CAPACITY : ℕ := 32

/-- The largest chunk, 64 KiB. -/
def DEFAULT_MAX_CHUNK_SIZE : ℕ := 64 * 1024

/-- How long a writer waits for its reader, half a minute. -/
def DEFAULT_DRAIN_TIMEOUT_MS : ℕ := 30000

/-- How long an entry lives without use, five minutes. -/
def DEFAULT_SLAB_TTL_MS : ℕ := 300000

/-- The entries that a registry holds. -/
def DEFAULT_MAX_HANDLES : ℕ := 65536

/-- Configuration of a store, set once when the endpoint is bound. -/
structure StoreConfig where
  channel_capacity : ℕ := DEFAULT_CHANNEL_CAPACITY
  max_chunk_size : ℕ := DEFAULT_MAX_CHUNK_SIZE
  drain_timeout : Duration := Duration.from_millis DEFAULT_DRAIN_TIMEOUT_MS
  max_handles : ℕ := DEFAULT_MAX_HANDLES
  ttl : Duration := Duration.from_millis DEFAULT_SLAB_TTL_MS

/-! ## Timed entries -/

/-- A registry entry with the time of its last access. -/
structure Timed (T : Type) where
  value : T
  last_accessed : Instant

namespace Timed

variable {T : Type}

/-- `Timed::new` -/
def new (value : T) (now : Instant) : Timed T := ⟨value, now⟩

/-- `Timed::touch` -/
def touch (e : Timed T) (now : Instant) : Timed T := { e with last_accessed := now }

/-- `Timed::is_expired` -/
def is_expired (e : Timed T) (ttl : Duration) (now : Instant) : Bool :=
  ttl < now - e.last_accessed

end Timed

/-! ## One registry -/

section Registry

variable {K : Type} {M : Type → Type} [SlotMap K M] {T : Type}

/-- `key_to_handle` -/
def key_to_handle (M : Type → Type) [SlotMap K M] (k : K) : ℕ := as_ffi (M := M) k

/-- `handle_to_key` -/
def handle_to_key (M : Type → Type) [SlotMap K M] (h : ℕ) : K := from_ffi (M := M) h

/-- Insert unless the registry already holds `max` entries. -/
def insert_checked (reg : M (Timed T)) (value : T) (max : ℕ) (now : Instant) :
    Except CoreError ℕ × M (Timed T) :=
  if max ≤ len reg then (.error (CoreError.internal "handle registry at capacity"), reg)
  else
    let r := insert reg (Timed.new value now)
    (.ok (key_to_handle M r.1), r.2)

/-- The keys of the expired entries, in iteration order. -/
def expired (reg : M (Timed T)) (ttl : Duration) (now : Instant) : List K :=
  ((iter reg).filter fun e => e.2.is_expired ttl now).map Prod.fst

/-- Replace an emptied slot map by a fresh one when it has grown past 128. -/
def compact (reg : M (Timed T)) : M (Timed T) :=
  if is_empty reg && decide (128 < capacity reg) then with_key else reg

/-- Remove the expired entries, then compact. -/
def sweep_registry (reg : M (Timed T)) (ttl : Duration) (now : Instant) : M (Timed T) :=
  let keys := expired reg ttl now
  -- nothing expired: the map is not even looked at for compaction
  if keys.isEmpty then reg else compact (removeAll reg keys)

/-- The removal loop of `sweep_readers`: each entry it removes is also handed
to `notify_waiters`, in order. -/
def remove_and_cancel : M (Timed T) → List K → M (Timed T) × List T
  | reg, [] => (reg, [])
  | reg, key :: rest =>
    let r := remove_and_cancel (remove reg key) rest
    match get reg key with
    | some entry => (r.1, entry.value :: r.2)
    | none => r

/-- `sweep_registry` for readers: the swept readers' cancel signals fire. -/
def sweep_readers (reg : M (Timed T)) (ttl : Duration) (now : Instant) :
    M (Timed T) × List T :=
  let keys := expired reg ttl now
  if keys.isEmpty then (reg, [])
  else
    let r := remove_and_cancel reg keys
    (compact r.1, r.2)

/-- Whether this sweep replaces the slot map. -/
def compacts (reg : M (Timed T)) (ttl : Duration) (now : Instant) : Bool :=
  let keys := expired reg ttl now
  !keys.isEmpty && is_empty (removeAll reg keys) && decide (128 < capacity (removeAll reg keys))

/-! ### What the sweep does -/

/-- What a sweep takes out has expired. -/
theorem mem_expired {reg : M (Timed T)} {ttl : Duration} {now : Instant} {k : K} :
    k ∈ expired reg ttl now ↔ ∃ e, get reg k = some e ∧ e.is_expired ttl now = true := by
  simp only [expired, List.mem_map, List.mem_filter, Prod.exists, exists_and_right,
    exists_eq_right, mem_iter]

/-- The waiters that are woken make no difference to the registry. -/
theorem remove_and_cancel_fst (reg : M (Timed T)) (keys : List K) :
    (remove_and_cancel reg keys).1 = removeAll reg keys := by
  induction keys generalizing reg with
  | nil => rfl
  | cons key rest ih =>
      unfold remove_and_cancel
      -- whether or not the entry was still there, the map is the recursive one
      cases get reg key with
      | none => exact ih (remove reg key)
      | some entry => exact ih (remove reg key)

/-- Readers are swept like every other registry; only the signals are extra. -/
theorem sweep_readers_fst (reg : M (Timed T)) (ttl : Duration) (now : Instant) :
    (sweep_readers reg ttl now).1 = sweep_registry reg ttl now := by
  unfold sweep_readers sweep_registry
  by_cases h : (expired reg ttl now).isEmpty = true
  · rw [if_pos h, if_pos h]
  · rw [if_neg h, if_neg h]
    exact congrArg compact (remove_and_cancel_fst reg (expired reg ttl now))

/-- A sweep either replaces the slot map or removes the expired entries. -/
theorem sweep_registry_eq (reg : M (Timed T)) (ttl : Duration) (now : Instant) :
    sweep_registry reg ttl now
      = if compacts reg ttl now = true then with_key else removeAll reg (expired reg ttl now) := by
  unfold sweep_registry compacts compact
  cases hk : expired reg ttl now with
  | nil => simp only [List.isEmpty_nil, Bool.not_true, Bool.false_and, Bool.false_eq_true,
      if_true, if_false, removeAll_nil]
  | cons k ks => simp only [List.isEmpty_cons, Bool.not_false, Bool.true_and, Bool.false_eq_true,
      if_false]

/-- Nothing expires in an empty registry. -/
theorem expired_with_key (ttl : Duration) (now : Instant) :
    expired (with_key : M (Timed T)) ttl now = [] := by
  refine List.eq_nil_iff_forall_not_mem.mpr fun k hk => ?_
  obtain ⟨e, he, -⟩ := mem_expired.mp hk
  rw [get_with_key] at he
  cases he

/-- An empty registry stays as it is. -/
theorem sweep_with_key (ttl : Duration) (now : Instant) :
    sweep_registry (with_key : M (Timed T)) ttl now = with_key := by
  rw [sweep_registry, expired_with_key]
  rfl

/-- **What a sweep keeps.** An entry survives exactly when it has not expired:
a compacted map had no entry left. -/
theorem get_sweep_registry (reg : M (Timed T)) (ttl : Duration) (now : Instant) (k : K) :
    get (sweep_registry reg ttl now) k
      = (get reg k).filter fun e => !e.is_expired ttl now := by
  -- the removals alone already leave exactly the live entries
  have hremoved : get (removeAll reg (expired reg ttl now)) k
      = (get reg k).filter fun e => !e.is_expired ttl now := by
    by_cases hk : k ∈ expired reg ttl now
    · rw [get_removeAll_of_mem hk]
      obtain ⟨e, he, hexp⟩ := mem_expired.mp hk
      rw [he, Option.filter_some, hexp]
      rfl
    · rw [get_removeAll_of_not_mem hk]
      cases he : get reg k with
      | none => rfl
      | some e =>
          have hlive : ¬ e.is_expired ttl now = true := fun h => hk (mem_expired.mpr ⟨e, he, h⟩)
          rw [Option.filter_some, Bool.eq_false_iff.mpr hlive]
          rfl
  rw [sweep_registry_eq]
  split
  · next hc =>
    -- compaction only happens once the removals have emptied the map
    unfold compacts at hc
    simp only [Bool.and_eq_true] at hc
    rw [get_with_key, ← hremoved, (is_empty_iff _).mp hc.1.2 k]
  · exact hremoved

end Registry

/-! ## The store -/

/-- The five registries, by the field that holds them. -/
inductive Registry
  | readers
  | writers
  | sessions
  | request_heads
  | fetch_cancels
  deriving DecidableEq, Repr

/-- A reader stashed under its writer's handle until a fetch claims it. -/
structure PendingReaderEntry (Reader : Type) where
  reader : Reader
  created : Instant

/-- The registries of one endpoint. `R i` is what registry `i` stores. -/
structure HandleStore (M : Type → Type) (R : Registry → Type) where
  registry : (i : Registry) → M (Timed (R i))
  pending_readers : List (ℕ × PendingReaderEntry (R .readers))
  config : StoreConfig

namespace HandleStore

variable {K : Type} {M : Type → Type} [SlotMap K M] {R : Registry → Type}

/-- `HandleStore::new` -/
def new (config : StoreConfig) : HandleStore M R where
  registry := fun _ => with_key
  pending_readers := []
  config := config

/-- Replace one registry. -/
def set (s : HandleStore M R) (i : Registry) (reg : M (Timed (R i))) : HandleStore M R :=
  { s with registry := Function.update s.registry i reg }

@[simp] theorem set_registry_self (s : HandleStore M R) (i : Registry) (reg : M (Timed (R i))) :
    (s.set i reg).registry i = reg := by
  simp only [set, Function.update_self]

/-- The other registries stay. -/
theorem set_registry_of_ne (s : HandleStore M R) {i j : Registry} (reg : M (Timed (R i)))
    (h : j ≠ i) : (s.set i reg).registry j = s.registry j := by
  simp only [set, ne_eq, h, not_false_eq_true, Function.update_of_ne]

/-- The entry a handle of registry `i` names. -/
def entry (s : HandleStore M R) (i : Registry) (h : ℕ) : Option (Timed (R i)) :=
  get (s.registry i) (handle_to_key M h)

/-! ### The three shapes of a registry operation -/

/-- `insert_checked` on registry `i`. -/
def insert_into (s : HandleStore M R) (i : Registry) (value : R i) (now : Instant) :
    Except CoreError ℕ × HandleStore M R :=
  let r := insert_checked (s.registry i) value s.config.max_handles now
  (r.1, s.set i r.2)

/-- Remove a handle of registry `i`, returning what it named. -/
def remove_from (s : HandleStore M R) (i : Registry) (h : ℕ) :
    Option (R i) × HandleStore M R :=
  ((s.entry i h).map Timed.value, s.set i (remove (s.registry i) (handle_to_key M h)))

/-- Look a handle of registry `i` up, touch its entry, and clone the value out. -/
def access (s : HandleStore M R) (i : Registry) (h : ℕ) (now : Instant) :
    Except CoreError (R i) × HandleStore M R :=
  match s.entry i h with
  | none => (.error (CoreError.invalid_handle h), s)
  | some e =>
    (.ok e.value, s.set i (modify (s.registry i) (handle_to_key M h) fun e => e.touch now))

theorem remove_from_entry_self (s : HandleStore M R) (i : Registry) (h : ℕ) :
    (s.remove_from i h).2.entry i h = none := by
  simp only [remove_from, entry, set_registry_self, get_remove_self]

/-- Removing a handle never makes another one resolve. -/
theorem remove_from_entry_none (s : HandleStore M R) (i : Registry) (h : ℕ) (j : Registry)
    (g : ℕ) (hg : s.entry j g = none) : (s.remove_from i h).2.entry j g = none := by
  by_cases hj : j = i
  · subst hj
    by_cases hk : handle_to_key M g = handle_to_key M h
    · simp only [remove_from, entry, set_registry_self, hk, get_remove_self]
    · rw [entry] at hg
      simp only [remove_from, entry, set_registry_self, get_remove_of_ne hk, hg]
  · rw [entry] at hg
    simp only [remove_from, entry, set_registry_of_ne s _ hj, hg]

/-! ### The public methods -/

/-- `insert_reader` -/
def insert_reader (s : HandleStore M R) (reader : R .readers) (now : Instant) :=
  s.insert_into .readers reader now

/-- `insert_writer` -/
def insert_writer (s : HandleStore M R) (writer : R .writers) (now : Instant) :=
  s.insert_into .writers writer now

/-- `insert_session` -/
def insert_session (s : HandleStore M R) (session : R .sessions) (now : Instant) :=
  s.insert_into .sessions session now

/-- `allocate_req_handle` -/
def allocate_req_handle (s : HandleStore M R) (sender : R .request_heads) (now : Instant) :=
  s.insert_into .request_heads sender now

/-- `alloc_fetch_token` -/
def alloc_fetch_token (s : HandleStore M R) (notify : R .fetch_cancels) (now : Instant) :=
  s.insert_into .fetch_cancels notify now

/-- Stash the reader of a freshly allocated writer; a second stash under the
same handle replaces the first. -/
def store_pending_reader (s : HandleStore M R) (writer_handle : ℕ) (reader : R .readers)
    (now : Instant) : HandleStore M R :=
  { s with pending_readers := (writer_handle, ⟨reader, now⟩)
      :: s.pending_readers.filter fun p => p.1 != writer_handle }

/-- `claim_pending_reader` -/
def claim_pending_reader (s : HandleStore M R) (writer_handle : ℕ) :
    Option (R .readers) × HandleStore M R :=
  (((s.pending_readers.find? fun p => p.1 == writer_handle).map fun p => p.2.reader),
    { s with pending_readers := s.pending_readers.filter fun p => p.1 != writer_handle })

/-- The first half of `next_chunk`, up to its await. -/
def next_chunk (s : HandleStore M R) (h : ℕ) (now : Instant) := s.access .readers h now

/-- The second half of `next_chunk`: the slot is released on end of body. -/
def next_chunk_done (s : HandleStore M R) (h : ℕ) (eof : Bool) : HandleStore M R :=
  if eof then (s.remove_from .readers h).2 else s

/-- The lookup of `try_next_chunk`; its completion is `next_chunk_done` too. -/
def try_next_chunk (s : HandleStore M R) (h : ℕ) (now : Instant) := s.access .readers h now

/-- The lookup of `send_chunk`; what follows no longer uses the store. -/
def send_chunk (s : HandleStore M R) (h : ℕ) (now : Instant) := s.access .writers h now

/-- Drop the writer, which is what signals end of body. -/
def finish_body (s : HandleStore M R) (h : ℕ) : Except CoreError Unit × HandleStore M R :=
  let r := s.remove_from .writers h
  match r.1 with
  | some _ => (.ok (), r.2)
  -- a second `finish_body` finds the slot gone
  | none => (.error (CoreError.invalid_handle h), r.2)

theorem finish_body_snd (s : HandleStore M R) (h : ℕ) :
    (s.finish_body h).2 = (s.remove_from .writers h).2 := by
  simp only [finish_body]
  split <;> rfl

/-- Drop the reader; the value returned is the one whose waiters are woken. -/
def cancel_reader (s : HandleStore M R) (h : ℕ) := s.remove_from .readers h

/-- Unlike the body accessors, this one leaves the timestamp alone. -/
def lookup_session (s : HandleStore M R) (h : ℕ) : Option (R .sessions) :=
  (s.entry .sessions h).map Timed.value

/-- `remove_session` -/
def remove_session (s : HandleStore M R) (h : ℕ) := s.remove_from .sessions h

/-- `take_req_sender` -/
def take_req_sender (s : HandleStore M R) (h : ℕ) := s.remove_from .request_heads h

/-- The token whose `notify_one` fires, if it is known; no timestamp moves. -/
def cancel_in_flight (s : HandleStore M R) (token : ℕ) : Option (R .fetch_cancels) :=
  (s.entry .fetch_cancels token).map Timed.value

/-- `get_fetch_cancel_notify` -/
def get_fetch_cancel_notify (s : HandleStore M R) (token : ℕ) : Option (R .fetch_cancels) :=
  (s.entry .fetch_cancels token).map Timed.value

/-- `remove_fetch_token` -/
def remove_fetch_token (s : HandleStore M R) (token : ℕ) : HandleStore M R :=
  (s.remove_from .fetch_cancels token).2

/-- One registry's share of `sweep`, which visits them one after the other, each under its own
lock, and then the pending readers. -/
def sweep_one (s : HandleStore M R) (i : Registry) (ttl : Duration) (now : Instant) :
    HandleStore M R :=
  match i with
  | .readers => s.set .readers (sweep_readers (s.registry .readers) ttl now).1
  | .writers => s.set .writers (sweep_registry (s.registry .writers) ttl now)
  | .request_heads => s.set .request_heads (sweep_registry (s.registry .request_heads) ttl now)
  | .sessions => s.set .sessions (sweep_registry (s.registry .sessions) ttl now)
  | .fetch_cancels => s.set .fetch_cancels (sweep_registry (s.registry .fetch_cancels) ttl now)

/-- The pending readers' share of `sweep`. -/
def sweep_pending_readers (s : HandleStore M R) (ttl : Duration) (now : Instant) :
    HandleStore M R :=
  { s with pending_readers := s.pending_readers.filter fun p => now - p.2.created < ttl }

/-- Each registry is swept alike. -/
theorem sweep_one_eq (s : HandleStore M R) (i : Registry) (ttl : Duration) (now : Instant) :
    s.sweep_one i ttl now = s.set i (sweep_registry (s.registry i) ttl now) := by
  cases i
  case readers => rw [sweep_one, sweep_readers_fst]
  all_goals rfl

end HandleStore

end IrohHttp.Handles
