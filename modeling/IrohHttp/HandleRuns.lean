/-
Whole runs of the handle store, and when no handle is issued twice in one.

A run is a list of operations with the clock reading each one makes. `History`
is the store together with what the run has shown to the outside so far -- the
handles issued, the handles whose entry went away, and the registries a sweep
has compacted. `registry_step` says once what any operation can do to any
registry, and everything below goes through it.
-/
import IrohHttp.Handles
import IrohHttp.Machine

set_option autoImplicit false

namespace IrohHttp.Handles

open SlotMap

/-! ## Operations -/

/-- One operation on the store. `call` numbers a `next_chunk`, `try_next_chunk`
or `send_chunk` call, so that its completion can name it. -/
inductive StoreOp (R : Registry → Type)
  | insert_reader (reader : R .readers)
  | insert_writer (writer : R .writers)
  | insert_session (session : R .sessions)
  | allocate_req_handle (sender : R .request_heads)
  | alloc_fetch_token (notify : R .fetch_cancels)
  | store_pending_reader (writer_handle : ℕ) (reader : R .readers)
  | claim_pending_reader (writer_handle : ℕ)
  | next_chunk (call h : ℕ)
  | try_next_chunk (call h : ℕ)
  | next_chunk_done (call h : ℕ) (eof : Bool)
  | send_chunk (call h : ℕ)
  | send_chunk_done (call h : ℕ)
  | finish_body (h : ℕ)
  | cancel_reader (h : ℕ)
  | lookup_session (h : ℕ)
  | remove_session (h : ℕ)
  | take_req_sender (h : ℕ)
  | cancel_in_flight (token : ℕ)
  | get_fetch_cancel_notify (token : ℕ)
  | remove_fetch_token (token : ℕ)
  | sweep (i : Registry) (ttl : Duration)
  | sweep_pending_readers (ttl : Duration)

section Runs

variable {K : Type} {M : Type → Type} [SlotMap K M] {R : Registry → Type}

/-- Tag the handle a successful insertion returns with its registry. -/
def issue (i : Registry) (r : Except CoreError ℕ × HandleStore M R) :
    Option (Registry × ℕ) × HandleStore M R :=
  (r.1.toOption.map fun h => (i, h), r.2)

/-- What an operation does, and the handle it issues. -/
def perform (s : HandleStore M R) (op : StoreOp R) (now : Instant) :
    Option (Registry × ℕ) × HandleStore M R :=
  match op with
  | .insert_reader v => issue .readers (s.insert_reader v now)
  | .insert_writer v => issue .writers (s.insert_writer v now)
  | .insert_session v => issue .sessions (s.insert_session v now)
  | .allocate_req_handle v => issue .request_heads (s.allocate_req_handle v now)
  | .alloc_fetch_token v => issue .fetch_cancels (s.alloc_fetch_token v now)
  | .store_pending_reader h r => (none, s.store_pending_reader h r now)
  | .claim_pending_reader h => (none, (s.claim_pending_reader h).2)
  | .next_chunk _ h => (none, (s.next_chunk h now).2)
  | .try_next_chunk _ h => (none, (s.try_next_chunk h now).2)
  | .next_chunk_done _ h eof => (none, s.next_chunk_done h eof)
  | .send_chunk _ h => (none, (s.send_chunk h now).2)
  | .send_chunk_done _ _ => (none, s)
  | .finish_body h => (none, (s.finish_body h).2)
  | .cancel_reader h => (none, (s.cancel_reader h).2)
  | .lookup_session _ => (none, s)
  | .remove_session h => (none, (s.remove_session h).2)
  | .take_req_sender h => (none, (s.take_req_sender h).2)
  | .cancel_in_flight _ => (none, s)
  | .get_fetch_cancel_notify _ => (none, s)
  | .remove_fetch_token h => (none, s.remove_fetch_token h)
  | .sweep i ttl => (none, s.sweep_one i ttl now)
  | .sweep_pending_readers ttl => (none, s.sweep_pending_readers ttl now)

/-- The registry an operation inserts into. -/
def StoreOp.inserts : StoreOp R → Option Registry
  | .insert_reader _ => some .readers
  | .insert_writer _ => some .writers
  | .insert_session _ => some .sessions
  | .allocate_req_handle _ => some .request_heads
  | .alloc_fetch_token _ => some .fetch_cancels
  | _ => none

/-- Whether an operation replaces the slot map of registry `j`. -/
def compacted_by (s : HandleStore M R) (op : StoreOp R) (now : Instant) (j : Registry) : Bool :=
  match op with
  | .sweep i ttl => decide (i = j) && compacts (s.registry j) ttl now
  | _ => false

/-! ## What one operation can do -/

/-- `reg'` is `reg` with some entries removed or touched: the same keys have
been issued, and nothing resolves that did not resolve before. -/
structure Shrinks {T : Type} (reg reg' : M T) : Prop where
  issued : ∀ k, Issued reg' k ↔ Issued reg k
  absent : ∀ k, get reg k = none → get reg' k = none
  empty : reg = with_key → reg' = with_key

theorem Shrinks.refl {T : Type} (reg : M T) : Shrinks reg reg where
  issued _ := Iff.rfl
  absent _ h := h
  empty h := h

/-- A removal shrinks. -/
theorem Shrinks.remove {T : Type} (reg : M T) (k : K) : Shrinks reg (remove reg k) where
  issued := issued_remove reg k
  absent j hj := by
    by_cases h : j = k
    · rw [h, get_remove_self]
    · rw [get_remove_of_ne h, hj]
  empty h := by rw [h, remove_absent _ _ (get_with_key k)]

/-- A touch shrinks. -/
theorem Shrinks.modify {T : Type} (reg : M T) (k : K) (f : T → T) :
    Shrinks reg (modify reg k f) where
  issued := issued_modify reg k f
  absent j hj := by
    by_cases h : j = k
    · rw [← h, get_modify_self, hj, Option.map_none]
    · rw [get_modify_of_ne h, hj]
  empty h := by rw [h, modify_absent _ _ _ (get_with_key k)]

/-- A sweep that does not compact shrinks. -/
theorem Shrinks.sweep {T : Type} (reg : M (Timed T)) (ttl : Duration) (now : Instant)
    (hc : ¬ compacts reg ttl now = true) : Shrinks reg (sweep_registry reg ttl now) where
  issued k := by rw [sweep_registry_eq, if_neg hc, issued_removeAll]
  absent k hk := by rw [get_sweep_registry, hk, Option.filter_none]
  empty h := by rw [h, sweep_with_key]

/-- Replacing registry `i` by a shrunk one shrinks every registry. -/
theorem set_shrinks (s : HandleStore M R) (i : Registry) (reg : M (Timed (R i)))
    (h : Shrinks (s.registry i) reg) (j : Registry) :
    Shrinks (s.registry j) ((s.set i reg).registry j) := by
  by_cases hj : j = i
  · subst hj
    rw [HandleStore.set_registry_self]
    exact h
  · rw [HandleStore.set_registry_of_ne s reg hj]
    exact Shrinks.refl _

theorem remove_from_shrinks (s : HandleStore M R) (i : Registry) (h : ℕ) (j : Registry) :
    Shrinks (s.registry j) ((s.remove_from i h).2.registry j) :=
  set_shrinks s i _ (Shrinks.remove _ _) j

/-- An access shrinks. -/
theorem access_shrinks (s : HandleStore M R) (i : Registry) (h : ℕ) (now : Instant)
    (j : Registry) : Shrinks (s.registry j) ((s.access i h now).2.registry j) := by
  unfold HandleStore.access
  split
  · exact Shrinks.refl _
  · exact set_shrinks s i _ (Shrinks.modify _ _ _) j

/-- What an operation did to registry `j`: it issued a handle there, or it
removed and touched entries, or it replaced the slot map. -/
inductive RegistryStep (s : HandleStore M R) (op : StoreOp R) (now : Instant) (j : Registry) : Prop
  | inserted (e : Timed (R j))
      (hop : op.inserts = some j) (hroom : len (s.registry j) < s.config.max_handles)
      (hout : (perform s op now).1 = some (j, key_to_handle M (insert (s.registry j) e).1))
      (hreg : (perform s op now).2.registry j = (insert (s.registry j) e).2)
      (hc : compacted_by s op now j = false)
  | shrunk (hfull : op.inserts = some j → s.config.max_handles ≤ len (s.registry j))
      (hout : ∀ h, (perform s op now).1 ≠ some (j, h))
      (hreg : Shrinks (s.registry j) ((perform s op now).2.registry j))
      (hc : compacted_by s op now j = false)
  | replaced (hout : ∀ h, (perform s op now).1 ≠ some (j, h))
      (hreg : (perform s op now).2.registry j = with_key)
      (hused : s.registry j ≠ with_key)
      (hc : compacted_by s op now j = true)

/-- What an insertion does to each registry. -/
theorem insert_step (s : HandleStore M R) (op : StoreOp R) (now : Instant) (i : Registry)
    (v : R i) (hop : op.inserts = some i) (hc : ∀ j, compacted_by s op now j = false)
    (hperf : perform s op now = issue i (s.insert_into i v now)) (j : Registry) :
    RegistryStep s op now j := by
  have hset : (perform s op now).2.registry j = ((s.insert_into i v now).2).registry j := by
    rw [hperf]; rfl
  unfold HandleStore.insert_into insert_checked at hperf hset
  by_cases hroom : s.config.max_handles ≤ len (s.registry i)
  · -- at capacity: an error and the store as it was
    rw [if_pos hroom] at hperf hset
    refine .shrunk ?_ ?_ ?_ (hc j)
    · intro hj
      rw [hop, Option.some.injEq] at hj
      exact hj ▸ hroom
    · intro h
      rw [hperf]
      simp [issue, Except.toOption]
    · rw [hset]
      exact set_shrinks s i _ (Shrinks.refl _) j
  · rw [if_neg hroom] at hperf hset
    by_cases hj : j = i
    · subst hj
      refine .inserted (Timed.new v now) hop (Nat.lt_of_not_le hroom) ?_ ?_ (hc j)
      · rw [hperf]
        simp [issue, Except.toOption]
      · rw [hset]
        exact HandleStore.set_registry_self s j _
    · refine .shrunk ?_ ?_ ?_ (hc j)
      · intro h
        rw [hop, Option.some.injEq] at h
        exact absurd h.symm hj
      · intro h
        rw [hperf]
        simp [issue, Except.toOption, Ne.symm hj]
      · rw [hset]
        dsimp only
        rw [HandleStore.set_registry_of_ne s _ hj]
        exact Shrinks.refl _

/-- What a sweep does to each registry. -/
theorem sweep_step (s : HandleStore M R) (i : Registry) (ttl : Duration) (now : Instant)
    (j : Registry) : RegistryStep s (.sweep i ttl) now j := by
  have hreg : (perform s (.sweep i ttl) now).2
      = s.set i (sweep_registry (s.registry i) ttl now) := HandleStore.sweep_one_eq s i ttl now
  by_cases hj : i = j
  · subst hj
    by_cases hc : compacts (s.registry i) ttl now = true
    · refine .replaced (fun h => by simp [perform]) ?_ ?_ (by simp [compacted_by, hc])
      · rw [hreg, HandleStore.set_registry_self, sweep_registry_eq, if_pos hc]
      · -- an untouched slot map has nothing to expire, so it is never replaced
        intro hfresh
        simp [compacts, hfresh, expired_with_key] at hc
    · refine .shrunk (fun h => by cases h) (fun h => by simp [perform]) ?_
        (by simp [compacted_by, hc])
      rw [hreg]
      exact set_shrinks s i _ (Shrinks.sweep _ ttl now hc) i
  · refine .shrunk (fun h => by cases h) (fun h => by simp [perform]) ?_ (by simp [compacted_by, hj])
    rw [hreg, HandleStore.set_registry_of_ne s _ (Ne.symm hj)]
    exact Shrinks.refl _

/-- **What one operation can do to one registry.** -/
theorem registry_step (s : HandleStore M R) (op : StoreOp R) (now : Instant) (j : Registry) :
    RegistryStep s op now j := by
  -- the operations that issue no handle and replace no slot map
  have hnone : ∀ {s' : HandleStore M R}, perform s op now = (none, s') →
      Shrinks (s.registry j) (s'.registry j) →
      op.inserts = none ∧ compacted_by s op now j = false → RegistryStep s op now j := by
    intro s' hp hs hc
    refine .shrunk (fun h => by rw [hc.1] at h; cases h) (fun h => by rw [hp]; simp) ?_ hc.2
    rw [hp]
    exact hs
  cases op with
  | insert_reader v => exact insert_step s _ now .readers v rfl (fun _ => rfl) rfl j
  | insert_writer v => exact insert_step s _ now .writers v rfl (fun _ => rfl) rfl j
  | insert_session v => exact insert_step s _ now .sessions v rfl (fun _ => rfl) rfl j
  | allocate_req_handle v => exact insert_step s _ now .request_heads v rfl (fun _ => rfl) rfl j
  | alloc_fetch_token v => exact insert_step s _ now .fetch_cancels v rfl (fun _ => rfl) rfl j
  | next_chunk c h => exact hnone rfl (access_shrinks s .readers h now j) ⟨rfl, rfl⟩
  | try_next_chunk c h => exact hnone rfl (access_shrinks s .readers h now j) ⟨rfl, rfl⟩
  | next_chunk_done c h eof =>
      refine hnone rfl ?_ ⟨rfl, rfl⟩
      unfold HandleStore.next_chunk_done
      split
      · exact remove_from_shrinks s .readers h j
      · exact Shrinks.refl _
  | send_chunk c h => exact hnone rfl (access_shrinks s .writers h now j) ⟨rfl, rfl⟩
  | finish_body h =>
      refine hnone rfl ?_ ⟨rfl, rfl⟩
      rw [HandleStore.finish_body_snd]
      exact remove_from_shrinks s .writers h j
  | cancel_reader h => exact hnone rfl (remove_from_shrinks s .readers h j) ⟨rfl, rfl⟩
  | remove_session h => exact hnone rfl (remove_from_shrinks s .sessions h j) ⟨rfl, rfl⟩
  | take_req_sender h => exact hnone rfl (remove_from_shrinks s .request_heads h j) ⟨rfl, rfl⟩
  | remove_fetch_token h => exact hnone rfl (remove_from_shrinks s .fetch_cancels h j) ⟨rfl, rfl⟩
  | sweep i ttl => exact sweep_step s i ttl now j
  | store_pending_reader h r => exact hnone rfl (Shrinks.refl _) ⟨rfl, rfl⟩
  | claim_pending_reader h => exact hnone rfl (Shrinks.refl _) ⟨rfl, rfl⟩
  | send_chunk_done c h => exact hnone rfl (Shrinks.refl _) ⟨rfl, rfl⟩
  | lookup_session h => exact hnone rfl (Shrinks.refl _) ⟨rfl, rfl⟩
  | cancel_in_flight t => exact hnone rfl (Shrinks.refl _) ⟨rfl, rfl⟩
  | get_fetch_cancel_notify t => exact hnone rfl (Shrinks.refl _) ⟨rfl, rfl⟩
  | sweep_pending_readers ttl => exact hnone rfl (Shrinks.refl _) ⟨rfl, rfl⟩

/-- A reader that finds room is inserted. -/
theorem perform_insert_reader {s : HandleStore M R} (v : R .readers) (now : Instant)
    (hroom : len (s.registry .readers) < s.config.max_handles) :
    perform s (.insert_reader v) now =
      (some (.readers, key_to_handle M (insert (s.registry .readers) (Timed.new v now)).1),
        s.set .readers (insert (s.registry .readers) (Timed.new v now)).2) := by
  show issue .readers (s.insert_into .readers v now) = _
  rw [HandleStore.insert_into, insert_checked, if_neg (Nat.not_le.mpr hroom)]
  rfl

/-! ## Histories -/

/-- The registries, for enumerating a store. -/
def registries : List Registry := [.readers, .writers, .sessions, .request_heads, .fetch_cancels]

/-- The handles of `i` that resolved in `s` and no longer do in `s'`. -/
def lost_from (s s' : HandleStore M R) (i : Registry) : List (Registry × ℕ) :=
  ((iter (s.registry i)).filter fun e => (get (s'.registry i) e.1).isNone).map
    fun e => (i, key_to_handle M e.1)

/-- A store with what its run has shown so far: the handles issued and the
handles lost, in order, and the registries whose slot map was replaced. -/
structure History (M : Type → Type) (R : Registry → Type) where
  store : HandleStore M R
  issued : List (Registry × ℕ)
  retired : List (Registry × ℕ)
  compacted : Registry → Bool

namespace History

/-- An empty store. -/
def start (config : StoreConfig) : History M R :=
  ⟨HandleStore.new config, [], [], fun _ => false⟩

/-- One operation, with what it issues, retires and compacts written down. -/
def step (t : History M R) (a : Instant × StoreOp R) : History M R :=
  let r := perform t.store a.2 a.1
  { store := r.2
    issued := t.issued ++ r.1.toList
    retired := t.retired ++ registries.flatMap (lost_from t.store r.2)
    compacted := fun i => t.compacted i || compacted_by t.store a.2 a.1 i }

/-- The run of a list of timed operations on a new store. -/
def run (config : StoreConfig) (ops : List (Instant × StoreOp R)) : History M R :=
  ops.foldl step (start config)

/-- No handle was issued twice, and no handle whose entry went away resolves. -/
def Unique (t : History M R) : Prop :=
  t.issued.Nodup ∧ ∀ p ∈ t.retired, t.store.entry p.1 p.2 = none

/-- The operation does not insert into a registry that an earlier sweep
compacted. -/
def InsertsUncompacted (t : History M R) (a : Instant × StoreOp R) : Prop :=
  ∀ i, a.2.inserts = some i → len (t.store.registry i) < t.store.config.max_handles →
    t.compacted i = false

/-- What a run all of whose steps are `InsertsUncompacted` keeps. Until its slot map is
replaced, a registry's handles are the keys the map has issued; after that, the
map is the fresh one. -/
structure Inv (t : History M R) : Prop where
  issued_iff : ∀ i, t.compacted i = false → ∀ h,
    (i, h) ∈ t.issued ↔ ∃ k, Issued (t.store.registry i) k ∧ key_to_handle M k = h
  replaced : ∀ i, t.compacted i = true → t.store.registry i = with_key
  first : ∀ i, (t.compacted i = false ∧ t.store.registry i = with_key) ∨
    ∃ v : Timed (R i), (i, key_to_handle M (insert (with_key : M (Timed (R i))) v).1) ∈ t.issued
  nodup : t.issued.Nodup
  gone : ∀ i h, (i, h) ∈ t.retired → t.compacted i = false →
    ∃ k, Issued (t.store.registry i) k ∧ key_to_handle M k = h ∧ get (t.store.registry i) k = none

theorem inv_start (config : StoreConfig) : Inv (start config : History M R) where
  issued_iff i _ h := by
    constructor
    · intro hmem
      exact absurd hmem List.not_mem_nil
    · rintro ⟨k, hk, -⟩
      exact absurd hk (issued_with_key k)
  replaced i hi := by cases hi
  first i := .inl ⟨rfl, rfl⟩
  nodup := List.nodup_nil
  gone i h hmem := absurd hmem List.not_mem_nil

/-- The handles issued after a step, in one registry. -/
theorem mem_issued_step {t : History M R} {a : Instant × StoreOp R} {p : Registry × ℕ} :
    p ∈ (t.step a).issued ↔ p ∈ t.issued ∨ (perform t.store a.2 a.1).1 = some p := by
  simp only [step, List.mem_append, Option.mem_toList]

/-- What one operation retires. -/
theorem mem_retired_step {t : History M R} {a : Instant × StoreOp R} {i : Registry} {h : ℕ} :
    (i, h) ∈ (t.step a).retired ↔ (i, h) ∈ t.retired ∨
      ∃ k, key_to_handle M k = h ∧ get ((t.step a).store.registry i) k = none
        ∧ ∃ e, get (t.store.registry i) k = some e := by
  simp only [step, List.mem_append, List.mem_flatMap, lost_from, List.mem_map, List.mem_filter,
    Prod.exists, Prod.mk.injEq, mem_iter, Option.isNone_iff_eq_none]
  constructor
  · rintro (hm | ⟨j, -, k, e, ⟨he, hn⟩, rfl, rfl⟩)
    · exact .inl hm
    · exact .inr ⟨k, rfl, hn, e, he⟩
  · rintro (hm | ⟨k, rfl, hn, e, he⟩)
    · exact .inl hm
    · exact .inr ⟨i, by cases i <;> decide, k, e, ⟨he, hn⟩, rfl, rfl⟩

/-- A key that was issued stays issued, and one that stopped resolving stays
that way, as long as the slot map is not replaced. -/
theorem step_keeps_issued (t : History M R) (a : Instant × StoreOp R) (j : Registry)
    (hc : compacted_by t.store a.2 a.1 j = false) (k : K) (hk : Issued (t.store.registry j) k) :
    Issued ((t.step a).store.registry j) k ∧
      (get (t.store.registry j) k = none → get ((t.step a).store.registry j) k = none) := by
  rcases registry_step t.store a.2 a.1 j with
    ⟨e, -, -, -, hreg, -⟩ | ⟨-, -, hreg, -⟩ | ⟨-, -, -, htrue⟩
  · have hne : k ≠ (insert (t.store.registry j) e).1 := by
      rintro rfl
      exact insert_fresh _ _ hk
    dsimp only [step]
    rw [hreg]
    exact ⟨(issued_insert _ _ _).mpr (.inr hk), fun h => by rw [get_insert_of_ne hne, h]⟩
  · exact ⟨(hreg.issued k).mpr hk, hreg.absent k⟩
  · rw [hc] at htrue
    cases htrue

/-- Without a compaction now there was none before. -/
theorem compacted_step {t : History M R} {a : Instant × StoreOp R} {j : Registry}
    (h : (t.step a).compacted j = false) :
    t.compacted j = false ∧ compacted_by t.store a.2 a.1 j = false := by
  simpa only [step, Bool.or_eq_false_iff] using h

/-- The handle an operation issues is new to its registry. -/
theorem issue_fresh {t : History M R} (hinv : Inv t) {a : Instant × StoreOp R}
    (hok : InsertsUncompacted t a) {j : Registry} {h : ℕ}
    (hout : (perform t.store a.2 a.1).1 = some (j, h)) : (j, h) ∉ t.issued := by
  rcases registry_step t.store a.2 a.1 j with
    ⟨e, hop, hroom, hout', -, -⟩ | ⟨-, hno, -, -⟩ | ⟨hno, -, -, -⟩
  · rw [hout, Option.some.injEq, Prod.mk.injEq] at hout'
    obtain ⟨-, rfl⟩ := hout'
    intro hmem
    obtain ⟨k, hk, heq⟩ := (hinv.issued_iff j (hok j hop hroom) _).mp hmem
    -- both keys decode from the same integer, so the map would issue `k` again
    have hnew : Issued (insert (t.store.registry j) e).2 (insert (t.store.registry j) e).1 :=
      (issued_insert _ _ _).mpr (.inl rfl)
    have hkk : k = (insert (t.store.registry j) e).1 := by
      rw [← from_as_ffi _ k hk, ← from_as_ffi _ _ hnew]
      exact congrArg (from_ffi M) heq
    exact insert_fresh _ _ (hkk ▸ hk)
  · exact absurd hout (hno h)
  · exact absurd hout (hno h)

/-- **One operation** keeps the invariant where it does not insert into a compacted registry. -/
theorem inv_step {t : History M R} (hinv : Inv t) {a : Instant × StoreOp R}
    (hok : InsertsUncompacted t a) : Inv (t.step a) where
  issued_iff j hc h := by
    obtain ⟨hc₀, hc₁⟩ := compacted_step hc
    rw [mem_issued_step, hinv.issued_iff j hc₀]
    rcases registry_step t.store a.2 a.1 j with
      ⟨e, -, -, hout, hreg, -⟩ | ⟨-, hno, hreg, -⟩ | ⟨-, -, -, htrue⟩
    · dsimp only [step]
      rw [hout, hreg, Option.some.injEq, Prod.mk.injEq]
      simp only [issued_insert, or_and_right, exists_or, exists_eq_left, true_and]
      exact Or.comm
    · dsimp only [step]
      simp only [hno h, or_false, hreg.issued]
    · rw [hc₁] at htrue
      cases htrue
  replaced j hj := by
    rcases registry_step t.store a.2 a.1 j with
      ⟨e, hop, hroom, -, -, hc⟩ | ⟨-, -, hreg, hc⟩ | ⟨-, hreg, -, -⟩
    · simp only [step, hc, Bool.or_false, hok j hop hroom, Bool.false_eq_true] at hj
    · simp only [step, hc, Bool.or_false] at hj
      exact hreg.empty (hinv.replaced j hj)
    · exact hreg
  first j := by
    -- the first insertion into a registry records the key a fresh map issues
    rcases registry_step t.store a.2 a.1 j with
      ⟨e, hop, hroom, hout, -, -⟩ | ⟨-, -, hreg, hc⟩ | ⟨-, -, hused, -⟩
    · rcases hinv.first j with ⟨-, hfresh⟩ | ⟨v, hv⟩
      · exact .inr ⟨e, mem_issued_step.mpr (.inr (by rw [hout, hfresh]))⟩
      · exact .inr ⟨v, mem_issued_step.mpr (.inl hv)⟩
    · rcases hinv.first j with ⟨hf, hfresh⟩ | ⟨v, hv⟩
      · exact .inl ⟨by simp only [step, hf, hc, Bool.or_false], hreg.empty hfresh⟩
      · exact .inr ⟨v, mem_issued_step.mpr (.inl hv)⟩
    · rcases hinv.first j with ⟨-, hfresh⟩ | ⟨v, hv⟩
      · exact absurd hfresh hused
      · exact .inr ⟨v, mem_issued_step.mpr (.inl hv)⟩
  nodup := by
    cases hout : (perform t.store a.2 a.1).1 with
    | none => simpa only [step, hout, Option.toList_none, List.append_nil] using hinv.nodup
    | some p =>
        obtain ⟨j, h⟩ := p
        simp only [step, hout, Option.toList_some, List.nodup_append, List.nodup_singleton,
          true_and, List.mem_singleton, forall_eq]
        refine ⟨hinv.nodup, ?_⟩
        rintro q hq rfl
        exact issue_fresh hinv hok hout hq
  gone i h hmem hc := by
    obtain ⟨hc₀, hc₁⟩ := compacted_step hc
    rcases mem_retired_step.mp hmem with hold | ⟨k, hk, hnone, e, he⟩
    · obtain ⟨k, hiss, hkh, hnone⟩ := hinv.gone i h hold hc₀
      obtain ⟨hiss', hkeep⟩ := step_keeps_issued t a i hc₁ k hiss
      exact ⟨k, hiss', hkh, hkeep hnone⟩
    · exact ⟨k, (step_keeps_issued t a i hc₁ k (issued_of_get _ _ _ he)).1, hk, hnone⟩

/-- The invariant makes handles unique. -/
theorem unique_of_inv {t : History M R} (hinv : Inv t) : Unique t := by
  refine ⟨hinv.nodup, ?_⟩
  rintro ⟨i, h⟩ hmem
  unfold HandleStore.entry
  cases hc : t.compacted i with
  | true => rw [hinv.replaced i hc, get_with_key]
  | false =>
      obtain ⟨k, hiss, rfl, hnone⟩ := hinv.gone i h hmem hc
      rw [handle_to_key, key_to_handle, from_as_ffi _ k hiss, hnone]

/-- An insertion into a compacted registry issues its first handle again. -/
theorem reissue_of_inv {t : History M R} (hinv : Inv t) {a : Instant × StoreOp R}
    (hbad : ¬ InsertsUncompacted t a) : ¬ (t.step a).issued.Nodup := by
  simp only [InsertsUncompacted, not_forall, Bool.not_eq_false] at hbad
  obtain ⟨i, hop, hroom, hc⟩ := hbad
  have hfresh := hinv.replaced i hc
  rcases hinv.first i with ⟨hf, -⟩ | ⟨v, hv⟩
  · rw [hc] at hf
    cases hf
  · rcases registry_step t.store a.2 a.1 i with
      ⟨e, -, -, hout, -, -⟩ | ⟨hfull, -, -, -⟩ | ⟨-, -, hused, -⟩
    · -- the fresh map issues its first key, which is among the handles issued
      rw [hfresh, insert_with_key e v] at hout
      simp only [step, hout, Option.toList_some]
      intro hnd
      exact (List.nodup_append.mp hnd).2.2 _ hv _ (List.mem_singleton_self _) rfl
    · exact absurd (hfull hop) (Nat.not_le.mpr hroom)
    · exact absurd hfresh hused

/-- What was issued stays issued. -/
theorem issued_sublist_run (ops : List (Instant × StoreOp R)) (t : History M R) :
    t.issued.Sublist (ops.foldl step t).issued := by
  induction ops generalizing t with
  | nil => exact List.Sublist.refl _
  | cons a ops ih => exact (List.sublist_append_left _ _).trans (ih (t.step a))

/-- A run along which every insertion meets the condition keeps the invariant. -/
theorem inv_run (config : StoreConfig) (ops : List (Instant × StoreOp R))
    (h : Machine.Along (fun t a => some (step t a)) InsertsUncompacted
      (start config : History M R) ops) : Inv (run config ops : History M R) := by
  refine Machine.along_invariant ?_ (inv_start config) h (Machine.run_total step _ ops)
  intro t a t' hinv hok ht
  rw [Option.some.injEq] at ht
  exact ht ▸ inv_step hinv hok

/-- **When handles are unique.** In a run, no handle is issued twice and no lost
handle resolves again exactly when no operation inserts into a registry that an
earlier sweep of the run compacted. -/
theorem unique_iff_inserts_uncompacted (config : StoreConfig)
    (ops : List (Instant × StoreOp R)) :
    Unique (run config ops : History M R) ↔
      Machine.Along (fun t a => some (step t a)) InsertsUncompacted
        (start config : History M R) ops := by
  constructor
  · intro hu
    by_contra hbad
    -- the first insertion that breaks the condition repeats a handle, and the
    -- list of handles issued only grows from there
    obtain ⟨l₁, a, l₂, t, rfl, hal, hrun, hno⟩ := Machine.exists_first_violation hbad
    rw [Machine.run_total, Option.some.injEq] at hrun
    have hinv : Inv t := hrun ▸ inv_run config l₁ hal
    refine reissue_of_inv hinv hno (hu.1.sublist ?_)
    rw [run, List.foldl_append, hrun, List.foldl_cons]
    exact issued_sublist_run l₂ (t.step a)
  · intro h
    exact unique_of_inv (inv_run config ops h)

/-! ## A handle that is issued twice -/

/-- The allocated length of the vector after `n` insertions in a row. -/
def allocated_after : ℕ → ℕ
  | 0 => 1
  | n + 1 => Slots.grow (allocated_after n) (n + 1)

/-- A map into which `v` has been inserted `n` times, and nothing else done. -/
structure Filled {V : Type} (n : ℕ) (v : V) (m : Slots V) : Prop where
  len : m.len = n
  free : m.free = []
  allocated : m.allocated = allocated_after n
  value : ∀ i < n, (m.slot i).value = some v

/-- One entry more. -/
theorem Filled.insert {V : Type} {n : ℕ} {v : V} {m : Slots V} (h : Filled n v m) :
    Filled (n + 1) v (m.insert v).2 where
  len := by simp only [Slots.insert, h.free, h.len, if_true]
  free := by simp only [Slots.insert, h.free, List.tail_nil]
  allocated := by simp only [Slots.insert, h.free, h.len, h.allocated, if_true, allocated_after]
  value i hi := by
    have hvac : m.vacancy = n := by rw [Slots.vacancy, h.free, h.len]; rfl
    simp only [Slots.insert, hvac]
    by_cases heq : i = n
    · rw [if_pos heq]
    · rw [if_neg heq]
      exact h.value i (by omega)

theorem Filled.len_le {V : Type} {n : ℕ} {v : V} {m : Slots V} (h : Filled n v m) :
    SlotMap.len m ≤ n := by
  have hle : m.iter.length ≤ (List.range m.len).length := List.length_filterMap_le ..
  rw [List.length_range, h.len] at hle
  exact hle

theorem Filled.eq_of_get {V : Type} {n : ℕ} {v e : V} {m : Slots V} (h : Filled n v m)
    {k : SlotKey} (hk : get m k = some e) : e = v := by
  obtain ⟨-, -, hval⟩ := Slots.get_eq_some hk
  have hlt := (Slots.occupied_of_get hk).2
  rw [h.len] at hlt
  rw [h.value _ hlt, Option.some.injEq] at hval
  exact hval.symm

/-- A removal keeps the capacity. -/
theorem capacity_removeAll {V : Type} (m : Slots V) (ks : List SlotKey) :
    capacity (removeAll m ks) = capacity m := by
  induction ks generalizing m with
  | nil => rfl
  | cons k ks ih =>
      rw [removeAll_cons, ih]
      show (m.remove k).allocated - 1 = m.allocated - 1
      unfold Slots.remove
      split <;> rfl

/-- A sweep by which every entry has expired replaces a map that has grown. -/
theorem Filled.compacts {n : ℕ} {e : Timed Unit} {m : Slots (Timed Unit)} (h : Filled n e m)
    (hpos : 0 < n) (hgrown : 128 < allocated_after n - 1) {ttl : Duration} {now : Instant}
    (hexp : e.is_expired ttl now = true) : compacts m ttl now = true := by
  have hempty : is_empty (removeAll m (expired m ttl now)) = true := by
    refine (is_empty_iff _).mpr fun k => ?_
    by_cases hk : k ∈ expired m ttl now
    · exact get_removeAll_of_mem hk
    · rw [get_removeAll_of_not_mem hk]
      cases hget : get m k with
      | none => rfl
      | some e' =>
          refine absurd (mem_expired.mpr ⟨e', hget, ?_⟩) hk
          rw [h.eq_of_get hget]
          exact hexp
  have hsome : expired m ttl now ≠ [] := by
    have hget : get m ⟨1, (m.slot 0).version⟩ = some e := by
      show Slots.get m _ = _
      simp only [Slots.get, if_true, h.value 0 hpos]
    exact List.ne_nil_of_mem (mem_expired.mpr ⟨e, hget, hexp⟩)
  have hcap : 128 < capacity (removeAll m (expired m ttl now)) := by
    rw [capacity_removeAll]
    show 128 < m.allocated - 1
    rw [h.allocated]
    exact hgrown
  unfold Handles.compacts
  simp only [List.isEmpty_eq_false_iff.mpr hsome, hempty, decide_eq_true hcap, Bool.not_false,
    Bool.and_self]

/-- The run that inserts `n` readers. -/
def insert_readers (n : ℕ) : History Slots fun _ => Unit :=
  run {} (List.replicate n (0, .insert_reader ()))

/-- So many readers fill their registry. -/
theorem filled_insert_readers {n : ℕ} (hn : n ≤ DEFAULT_MAX_HANDLES) :
    Filled n (Timed.new () 0) ((insert_readers n).store.registry .readers) ∧
      (insert_readers n).store.config = {} := by
  induction n with
  | zero => exact ⟨⟨rfl, rfl, rfl, nofun⟩, rfl⟩
  | succ n ih =>
      obtain ⟨hfilled, hconfig⟩ := ih (by omega)
      have hroom : len ((insert_readers n).store.registry .readers)
          < (insert_readers n).store.config.max_handles := by
        rw [hconfig]
        exact Nat.lt_of_le_of_lt hfilled.len_le hn
      have hstore : (insert_readers (n + 1)).store
          = (perform (insert_readers n).store (.insert_reader ()) 0).2 := by
        rw [insert_readers, run, List.replicate_succ', List.foldl_append]
        rfl
      rw [hstore, perform_insert_reader () 0 hroom]
      refine ⟨?_, hconfig⟩
      rw [HandleStore.set_registry_self]
      exact hfilled.insert

/-- The handle that a fresh map issues first. -/
def first_handle : ℕ :=
  key_to_handle Slots (insert (with_key : Slots (Timed Unit)) (Timed.new () 0)).1

/-- A reader inserted into a fresh map has it. -/
theorem perform_insert_first {s : HandleStore Slots fun _ => Unit} {now : Instant}
    (hfresh : s.registry .readers = with_key) (hconfig : s.config = {}) :
    (perform s (.insert_reader ()) now).1 = some (.readers, first_handle) := by
  have hroom : len (s.registry .readers) < s.config.max_handles := by
    rw [hfresh, hconfig]
    decide
  rw [perform_insert_reader () now hroom, hfresh, insert_with_key _ (Timed.new () 0)]
  rfl

/-- The first of them has the first handle. -/
theorem first_handle_issued (n : ℕ) :
    (.readers, first_handle) ∈ (insert_readers (n + 1)).issued := by
  rw [insert_readers, run, List.replicate_succ, List.foldl_cons]
  refine (issued_sublist_run _ _).subset (mem_issued_step.mpr (.inr ?_))
  exact perform_insert_first rfl rfl

/-- Once all readers of a map that has grown have expired, the sweep replaces it
and the next insertion repeats the first handle. -/
theorem not_unique_of_grown {n : ℕ} (hn : n + 1 ≤ DEFAULT_MAX_HANDLES)
    (hgrown : 128 < allocated_after (n + 1) - 1) :
    ¬ Unique (run {} (List.replicate (n + 1) (0, .insert_reader ())
      ++ [(10, .sweep .readers 5), (10, .insert_reader ())]) : History Slots fun _ => Unit) := by
  obtain ⟨hfilled, hconfig⟩ := filled_insert_readers hn
  obtain ⟨t, ht⟩ : ∃ t, (insert_readers (n + 1)).step (10, .sweep .readers 5) = t := ⟨_, rfl⟩
  have hrun : (run {} (List.replicate (n + 1) (0, .insert_reader ())
      ++ [(10, .sweep .readers 5), (10, .insert_reader ())]) : History Slots fun _ => Unit)
      = t.step (10, .insert_reader ()) := by
    rw [run, List.foldl_append, ← ht]
    rfl
  have hfresh : t.store.registry .readers = with_key := by
    rw [← ht]
    show ((insert_readers (n + 1)).store.sweep_one .readers 5 10).registry .readers = _
    rw [HandleStore.sweep_one_eq, HandleStore.set_registry_self, sweep_registry_eq,
      if_pos (hfilled.compacts (Nat.succ_pos n) hgrown rfl)]
  have hmem : (.readers, first_handle) ∈ t.issued := by
    rw [← ht]
    exact mem_issued_step.mpr (.inl (first_handle_issued n))
  have hagain : (perform t.store (.insert_reader ()) 10).1 = some (.readers, first_handle) := by
    refine perform_insert_first hfresh ?_
    rw [← ht]
    exact hconfig
  rw [hrun]
  rintro ⟨hnodup, -⟩
  simp only [step, hagain, Option.toList_some, List.nodup_append] at hnodup
  exact hnodup.2.2 _ hmem _ (List.mem_singleton_self _) rfl

/-- 128 readers grow the slot map to a capacity of 255. -/
theorem reader_handle_issued_twice :
    ¬ ∀ (config : StoreConfig) (ops : List (Instant × StoreOp fun _ => Unit)),
      Unique (run config ops : History Slots fun _ => Unit) := by
  intro h
  exact not_unique_of_grown (n := 127) (by decide) (by decide +kernel) (h _ _)

end History

end Runs

end IrohHttp.Handles
