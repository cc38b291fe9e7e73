/-
The connection pool of `iroh-http-core/src/http/transport/pool.rs`, for one key.

A connection is its `dial_seq`: the process-wide counter hands each dial its own
number, so under one key the cached `Arc<PooledConnection>` and its number say
the same. `ConnectionPool` is any number of `get_or_connect`, `evict_and_close` and
`evict_only` calls between their atomic steps, which are moka's per-key
operations (`get`, `and_compute_with`, and the entry and the resolution of
`try_get_with`) and the `close_reason` reads between them. Connections close at
any moment, other keys draw from the same counter, and a call's future may be
dropped wherever it stands. The cache loses entries to `compare_and_remove`
only: its capacity and idle limits are taken not to fire.
-/
import IrohHttp.Machine
import Mathlib.Logic.Function.Basic

set_option autoImplicit false

namespace IrohHttp.Pool

/-! ## Calls -/

/-- The call and its arguments. The key is fixed, and `evict_and_close` hands its
`reason` to the connection unread. -/
inductive Op
  | get_or_connect
  | evict_and_close (expected_dial_seq : Option ℕ)
  | evict_only (expected_dial_seq : Option ℕ)
  deriving DecidableEq, Repr

/-- The identity an eviction was given. -/
def Op.given : Op → Option ℕ
  | .get_or_connect => none
  | .evict_and_close expected_dial_seq => expected_dial_seq
  | .evict_only expected_dial_seq => expected_dial_seq

/-- Where a call stands; the numbers are the connections it has in hand.

`getting` to `stale` is the loop of phase 1, `missed` to `waiting` is inside
`try_get_with`, and `connected` to `replacement` is the match on its result. -/
inductive Phase
  | idle
  | getting
  | hit (pooled : ℕ)
  | stale (pooled : ℕ)
  | missed
  | dialing
  | waiting
  | connected (pooled : ℕ)
  | closed_immediately (pooled : ℕ)
  | replaced
  | replacement (pooled : ℕ)
  | evicting (seq : ℕ)
  | closing (pooled : ℕ)
  | returned (result : Except String (ℕ × Bool))
  | finished
  deriving DecidableEq, Repr

/-- A call. `since` is the dial counter at its start, and `checks` is what it
read from `close_reason` so far, the latest first: the connection and whether it
was live. -/
structure Call where
  op : Op
  since : ℕ
  checks : List (ℕ × Bool)
  phase : Phase

/-- A call that has not begun. -/
def Call.idle : Call := ⟨.get_or_connect, 0, [], .idle⟩

/-- The error of a new connection that is closed at once. -/
def closed_immediately_error : String := "pooled connection closed immediately after connect"

/-- The first step of a call. An eviction without an identity returns at once. -/
def Call.start (dial_seq : ℕ) (op : Op) : Call :=
  match op with
  | .get_or_connect => ⟨op, dial_seq, [], .getting⟩
  | .evict_and_close none => ⟨op, dial_seq, [], .finished⟩
  | .evict_and_close (some seq) => ⟨op, dial_seq, [], .evicting seq⟩
  | .evict_only none => ⟨op, dial_seq, [], .finished⟩
  | .evict_only (some seq) => ⟨op, dial_seq, [], .evicting seq⟩

/-- `cache.get`. -/
def Call.get (cache : Option ℕ) (k : Call) : Option Call :=
  match k.phase, cache with
  | .getting, some pooled => some { k with phase := .hit pooled }
  | .getting, none => some { k with phase := .missed }
  | .replaced, some pooled => some { k with phase := .replacement pooled }
  | .replaced, none => some { k with phase := .returned (.error closed_immediately_error) }
  | _, _ => none

/-- `close_reason().is_none()` of the connection in hand. -/
def Call.check (closed : ℕ → Bool) (k : Call) : Option Call :=
  match k.phase with
  | .hit pooled =>
    some { k with
      checks := (pooled, !closed pooled) :: k.checks
      phase := if closed pooled then .stale pooled else .returned (.ok (pooled, true)) }
  | .connected pooled =>
    some { k with
      checks := (pooled, !closed pooled) :: k.checks
      phase :=
        if closed pooled then .closed_immediately pooled else .returned (.ok (pooled, false)) }
  | .replacement pooled =>
    some { k with
      checks := (pooled, !closed pooled) :: k.checks
      phase :=
        if closed pooled then .returned (.error closed_immediately_error)
        else .returned (.ok (pooled, true)) }
  | _ => none

/-- The atomic `and_compute_with`: what was removed, and the entry after it. -/
def compare_and_remove (cache : Option ℕ) (expected_dial_seq : ℕ) : Option ℕ × Option ℕ :=
  match cache with
  | some entry => if entry = expected_dial_seq then (some entry, none) else (none, cache)
  | none => (none, cache)

/-- A call's `compare_and_remove`, and where its result takes the call. -/
def Call.remove (cache : Option ℕ) (k : Call) : Option (Call × Option ℕ) :=
  match k.phase with
  | .stale pooled =>
    match compare_and_remove cache pooled with
    | (some _, cache) => some ({ k with phase := .missed }, cache)
    -- someone else took or replaced the entry: look again
    | (none, cache) => some ({ k with phase := .getting }, cache)
  | .closed_immediately pooled =>
    match compare_and_remove cache pooled with
    | (some _, cache) =>
      some ({ k with phase := .returned (.error closed_immediately_error) }, cache)
    | (none, cache) => some ({ k with phase := .replaced }, cache)
  | .evicting seq =>
    match compare_and_remove cache seq, k.op with
    | (some pooled, cache), .evict_and_close _ => some ({ k with phase := .closing pooled }, cache)
    | (_, cache), _ => some ({ k with phase := .finished }, cache)
  | _ => none

/-! ## The pool -/

/-- `flight` is the call whose `connect_fn` is running. -/
structure ConnectionPool where
  cache : Option ℕ
  flight : Option ℕ
  dial_seq : ℕ
  closed : ℕ → Bool
  calls : ℕ → Call

/-- The steps. `conn_closed` is a close from outside the pool, and `other_dial`
a dial under another key. -/
inductive Label
  | start (c : ℕ) (op : Op)
  | get (c : ℕ)
  | check (c : ℕ)
  | remove (c : ℕ)
  | close (c : ℕ)
  | try_get_with (c : ℕ)
  | connect_ok (c : ℕ)
  | connect_err (c : ℕ) (error : String)
  | drop (c : ℕ)
  | conn_closed (conn : ℕ)
  | other_dial
  deriving DecidableEq, Repr

namespace ConnectionPool

/-- `ConnectionPool::new` -/
def new : ConnectionPool where
  cache := none
  flight := none
  dial_seq := 0
  closed := fun _ => false
  calls := fun _ => Call.idle

/-- A call goes on. -/
def set (s : ConnectionPool) (c : ℕ) (k : Call) : ConnectionPool :=
  { s with calls := Function.update s.calls c k }

/-- The flight ends, and every call waiting on it moves to `phase`. -/
def land (s : ConnectionPool) (phase : Phase) : ConnectionPool :=
  { s with
    flight := none
    calls := fun c =>
      if (s.calls c).phase = .waiting then { s.calls c with phase := phase } else s.calls c }

/-- `try_get_with`: a cached value, the leadership of a new flight, or a place
in the one under way. -/
def try_get_with_step (s : ConnectionPool) (c : ℕ) : Option ConnectionPool :=
  let k := s.calls c
  match k.phase, s.cache, s.flight with
  | .missed, some pooled, _ => some (s.set c { k with phase := .connected pooled })
  | .missed, none, none => some ({ s with flight := some c }.set c { k with phase := .dialing })
  | .missed, none, some _ => some (s.set c { k with phase := .waiting })
  | _, _, _ => none

/-- The leader's `connect_fn` succeeds: `PooledConnection::new` draws the number,
and the leader and the waiting calls get the cached value. -/
def connect_ok_step (s : ConnectionPool) (c : ℕ) : Option ConnectionPool :=
  let k := s.calls c
  match k.phase with
  | .dialing =>
    -- the calls that waited on the flight get the same connection
    let s := s.land (.connected s.dial_seq)
    some ({ s with cache := some s.dial_seq, dial_seq := s.dial_seq + 1 }.set c
      { k with phase := .connected s.dial_seq })
  | _ => none

/-- It fails, and everyone gets the error. -/
def connect_err_step (s : ConnectionPool) (c : ℕ) (error : String) : Option ConnectionPool :=
  let k := s.calls c
  match k.phase with
  | .dialing =>
    some ((s.land (.returned (.error error))).set c { k with phase := .returned (.error error) })
  | _ => none

/-- The call's future is dropped. Without its leader a flight starts over: the
waiting calls enter `try_get_with` again. -/
def drop_step (s : ConnectionPool) (c : ℕ) : Option ConnectionPool :=
  let k := s.calls c
  match k.phase with
  | .idle => none
  | .returned _ => none
  | .finished => none
  | .dialing => some ((s.land .missed).set c { k with phase := .finished })
  | _ => some (s.set c { k with phase := .finished })

/-- The close of the connection that a call has evicted. -/
def close_step (s : ConnectionPool) (c : ℕ) : Option ConnectionPool :=
  let k := s.calls c
  match k.phase with
  | .closing pooled =>
    some ({ s with closed := Function.update s.closed pooled true }.set c
      { k with phase := .finished })
  | _ => none

/-- A call begins. -/
def start_step (s : ConnectionPool) (c : ℕ) (op : Op) : Option ConnectionPool :=
  match (s.calls c).phase with
  | .idle => some (s.set c (Call.start s.dial_seq op))
  | _ => none

/-- One step, `none` where the label is not enabled. -/
def step (s : ConnectionPool) : Label → Option ConnectionPool
  | .start c op => s.start_step c op
  | .get c => ((s.calls c).get s.cache).map (s.set c)
  | .check c => ((s.calls c).check s.closed).map (s.set c)
  | .remove c => ((s.calls c).remove s.cache).map fun r => { s with cache := r.2 }.set c r.1
  | .close c => s.close_step c
  | .try_get_with c => s.try_get_with_step c
  | .connect_ok c => s.connect_ok_step c
  | .connect_err c error => s.connect_err_step c error
  | .drop c => s.drop_step c
  | .conn_closed conn =>
    if conn < s.dial_seq then some { s with closed := Function.update s.closed conn true } else none
  | .other_dial => some { s with dial_seq := s.dial_seq + 1 }

/-! ## What the calls promise

The first three are about a step of the pool, the last about a state. -/

/-- The cached `q` goes only by the `compare_and_remove` of a call that has read
`q` as closed or was given it. -/
def RemovedByIdentity (s : ConnectionPool) (a : Label) (s' : ConnectionPool) : Prop :=
  ∀ q, s.cache = some q → s'.cache ≠ some q →
    ∃ c, a = .remove c ∧ s'.cache = none ∧
      ((q, false) ∈ (s.calls c).checks ∨ (s.calls c).op.given = some q)

/-- A connection is closed from outside, or by an `evict_and_close` that was
given it. -/
def ClosedByIdentity (s : ConnectionPool) (a : Label) (s' : ConnectionPool) : Prop :=
  ∀ q, s'.closed q ≠ s.closed q →
    a = .conn_closed q ∨
      ∃ c, a = .close c ∧ (s.calls c).op = .evict_and_close (some q)

/-- What a call has read of connections grows by what is so when it reads it. -/
def CheckedTruly (s : ConnectionPool) (a : Label) (s' : ConnectionPool) : Prop :=
  ∀ c, (s'.calls c).checks = (s.calls c).checks ∨
    ∃ q, a = .check c ∧ (s'.calls c).checks = (q, !s.closed q) :: (s.calls c).checks

/-- A returned connection was live when the call last looked, and one that was
not reused was dialed since the call started. -/
def ReturnedLive (s : ConnectionPool) : Prop :=
  ∀ c q reused, (s.calls c).phase = .returned (.ok (q, reused)) →
    (s.calls c).op = .get_or_connect ∧ (s.calls c).checks.head? = some (q, true) ∧
      (reused = false → (s.calls c).since ≤ q)

/-! ## The invariant -/

/-- What a call's place says of what it did before. Between its miss and the
result of `try_get_with`, anything cached was dialed since the call started. -/
def Justified (cache : Option ℕ) (k : Call) : Prop :=
  match k.phase with
  | .idle => k.checks = []
  | .getting => k.op = .get_or_connect
  | .hit _ => k.op = .get_or_connect
  | .stale pooled => k.op = .get_or_connect ∧ (pooled, false) ∈ k.checks
  | .missed => k.op = .get_or_connect ∧ ∀ q, cache = some q → k.since ≤ q
  | .dialing => k.op = .get_or_connect ∧ ∀ q, cache = some q → k.since ≤ q
  | .waiting => k.op = .get_or_connect ∧ ∀ q, cache = some q → k.since ≤ q
  | .connected pooled => k.op = .get_or_connect ∧ k.since ≤ pooled
  | .closed_immediately pooled => k.op = .get_or_connect ∧ (pooled, false) ∈ k.checks
  | .replaced => k.op = .get_or_connect
  | .replacement _ => k.op = .get_or_connect
  | .evicting seq => k.op = .evict_and_close (some seq) ∨ k.op = .evict_only (some seq)
  | .closing pooled => k.op = .evict_and_close (some pooled)
  | .returned (.ok (pooled, reused)) =>
    k.op = .get_or_connect ∧ k.checks.head? = some (pooled, true) ∧
      (reused = false → k.since ≤ pooled)
  | .returned (.error _) => True
  | .finished => True

/-- One flight at a time, led by the one call that is dialing, and only while
nothing is cached. -/
structure Inv (s : ConnectionPool) : Prop where
  flight : ∀ c, s.flight = some c → s.cache = none
  leader : ∀ c, (s.calls c).phase = .dialing → s.flight = some c
  since : ∀ c, (s.calls c).since ≤ s.dial_seq
  justified : ∀ c, Justified s.cache (s.calls c)

variable {s s' : ConnectionPool}

theorem inv_new : Inv new where
  flight _ h := by cases h
  leader _ h := by cases h
  since _ := Nat.le_refl 0
  justified _ := rfl

/-- A call keeps its justification when the entry goes, or is a new dial. -/
theorem justified_cache {cache cache' : Option ℕ} {k : Call} (h : Justified cache k)
    (hc : ∀ q, cache' = some q → cache = some q ∨ k.since ≤ q) : Justified cache' k := by
  -- the one clause that mentions the cache
  have hmiss : (∀ q, cache = some q → k.since ≤ q) → ∀ q, cache' = some q → k.since ≤ q := by
    intro hold q hq
    rcases hc q hq with h | h
    · exact hold q h
    · exact h
  unfold Justified at h ⊢
  split at h <;> first | exact h | exact ⟨h.1, hmiss h.2⟩

/-! ## The steps of a call -/

variable {cache cache' : Option ℕ} {closed : ℕ → Bool} {k k' : Call}

/-- `compare_and_remove` takes the entry with the expected number, or nothing. -/
theorem compare_and_remove_cases (cache : Option ℕ) (seq : ℕ) :
    cache = some seq ∧ compare_and_remove cache seq = (some seq, none) ∨
      compare_and_remove cache seq = (none, cache) := by
  cases cache with
  | none => exact .inr rfl
  | some entry =>
      by_cases h : entry = seq
      · refine .inl ⟨congrArg some h, ?_⟩
        rw [h, compare_and_remove, if_pos rfl]
      · exact .inr (by simp only [compare_and_remove, if_neg h])

/-- A call in a place that it can justify, and that does not lead a flight. -/
structure Placed (dial_seq : ℕ) (cache : Option ℕ) (k : Call) : Prop where
  since : k.since ≤ dial_seq
  phase : k.phase ≠ .dialing
  justified : Justified cache k

variable {dial_seq : ℕ}

theorem placed_start (dial_seq : ℕ) (cache : Option ℕ) (op : Op) :
    Placed dial_seq cache (Call.start dial_seq op) := by
  rcases op with _ | (_ | seq) | (_ | seq)
  · exact ⟨Nat.le_refl _, by simp [Call.start], rfl⟩
  · exact ⟨Nat.le_refl _, by simp [Call.start], trivial⟩
  · exact ⟨Nat.le_refl _, by simp [Call.start], .inl rfl⟩
  · exact ⟨Nat.le_refl _, by simp [Call.start], trivial⟩
  · exact ⟨Nat.le_refl _, by simp [Call.start], .inr rfl⟩

/-- The cache read by a call is one it may rely on. -/
theorem placed_get (hs : k.since ≤ dial_seq) (hk : Justified cache k)
    (h : k.get cache = some k') :
    Placed dial_seq cache k' ∧ k'.checks = k.checks := by
  unfold Call.get at h
  unfold Justified at hk
  split at h
  all_goals simp only [Option.some.injEq, reduceCtorEq] at h
  all_goals subst h
  · rename_i hphase
    simp only [hphase] at hk
    exact ⟨⟨hs, by simp, hk⟩, rfl⟩
  · rename_i hphase
    simp only [hphase] at hk
    -- the miss: nothing is cached, so nothing older than the call is
    exact ⟨⟨hs, by simp, hk, fun q hq => by cases hq⟩, rfl⟩
  · rename_i hphase
    simp only [hphase] at hk
    exact ⟨⟨hs, by simp, hk⟩, rfl⟩
  · exact ⟨⟨hs, by simp, trivial⟩, rfl⟩

/-- A liveness check records what it saw. -/
theorem placed_check (hs : k.since ≤ dial_seq) (hk : Justified cache k)
    (h : k.check closed = some k') :
    Placed dial_seq cache k' ∧ ∃ q, k'.checks = (q, !closed q) :: k.checks := by
  unfold Call.check at h
  unfold Justified at hk
  split at h
  all_goals simp only [Option.some.injEq, reduceCtorEq] at h
  all_goals subst h
  all_goals rename_i pooled hphase
  all_goals simp only [hphase] at hk
  all_goals refine ⟨?_, pooled, rfl⟩
  all_goals cases hclosed : closed pooled
  · exact ⟨hs, by simp, hk, by simp, fun h => by cases h⟩
  · exact ⟨hs, by simp, hk, by simp⟩
  · exact ⟨hs, by simp, hk.1, by simp, fun _ => hk.2⟩
  · exact ⟨hs, by simp, hk.1, by simp⟩
  · exact ⟨hs, by simp, hk, by simp, fun h => by cases h⟩
  · exact ⟨hs, by simp, trivial⟩

/-- What a call's `compare_and_remove` takes is what the call has read as closed
or was given. -/
theorem placed_remove (hs : k.since ≤ dial_seq) (hk : Justified cache k)
    (h : k.remove cache = some (k', cache')) :
    Placed dial_seq cache' k' ∧ k'.checks = k.checks ∧
      (cache' = cache ∨ ∃ q, cache = some q ∧ cache' = none ∧
        ((q, false) ∈ k.checks ∨ k.op.given = some q)) := by
  unfold Call.remove at h
  unfold Justified at hk
  split at h
  · rename_i pooled hphase
    simp only [hphase] at hk
    rcases compare_and_remove_cases cache pooled with ⟨hc, hr⟩ | hr
    · -- the entry is the very connection the call has read as closed
      rw [hr] at h
      cases h
      exact ⟨⟨hs, by simp, hk.1, fun q hq => by cases hq⟩, rfl,
        .inr ⟨pooled, hc, rfl, .inl hk.2⟩⟩
    · rw [hr] at h
      cases h
      exact ⟨⟨hs, by simp, hk.1⟩, rfl, .inl rfl⟩
  · rename_i pooled hphase
    simp only [hphase] at hk
    rcases compare_and_remove_cases cache pooled with ⟨hc, hr⟩ | hr
    · rw [hr] at h
      cases h
      exact ⟨⟨hs, by simp, trivial⟩, rfl, .inr ⟨pooled, hc, rfl, .inl hk.2⟩⟩
    · rw [hr] at h
      cases h
      exact ⟨⟨hs, by simp, hk.1⟩, rfl, .inl rfl⟩
  · rename_i seq hphase
    simp only [hphase] at hk
    have hgiven : k.op.given = some seq := by
      rcases hk with hk | hk <;> rw [hk] <;> rfl
    rcases compare_and_remove_cases cache seq with ⟨hc, hr⟩ | hr
    · rw [hr] at h
      refine ⟨?_, ?_⟩
      · rcases hk with hk | hk
        · rw [hk] at h
          cases h
          exact ⟨hs, by simp, rfl⟩
        · rw [hk] at h
          cases h
          exact ⟨hs, by simp, trivial⟩
      · rcases hk with hk | hk
        all_goals rw [hk] at h
        all_goals cases h
        all_goals exact ⟨rfl, .inr ⟨seq, hc, rfl, .inr hgiven⟩⟩
    · rw [hr] at h
      cases h
      exact ⟨⟨hs, by simp, trivial⟩, rfl, .inl rfl⟩
  · cases h

/-! ## Every step keeps the invariant -/

theorem calls_set (s : ConnectionPool) (c : ℕ) (k : Call) (c' : ℕ) :
    (s.set c k).calls c' = if c' = c then k else s.calls c' :=
  Function.update_apply s.calls c k c'

/-- One call moves on, and the cache keeps its entry or loses it. -/
theorem Inv.move (hinv : Inv s) (c : ℕ) (k : Call) (hcache : cache = s.cache ∨ cache = none)
    (hk : Placed s.dial_seq cache k) (closed : ℕ → Bool) :
    Inv ({ s with cache := cache, closed := closed }.set c k) := by
  refine ⟨?_, ?_, ?_, ?_⟩
  · intro c' hc'
    rcases hcache with h | h
    · exact h.trans (hinv.flight c' hc')
    · exact h
  · intro c' hc'
    rw [calls_set] at hc'
    split at hc'
    · exact absurd hc' hk.phase
    · exact hinv.leader c' hc'
  · intro c'
    rw [calls_set]
    split
    · exact hk.since
    · exact hinv.since c'
  · intro c'
    rw [calls_set]
    split
    · exact hk.justified
    · refine justified_cache (hinv.justified c') fun q hq => .inl ?_
      rcases hcache with h | h
      · exact h ▸ hq
      · rw [h] at hq
        cases hq

/-- The leader's flight ends: the leader and the waiting calls move on, and the
cache may have gained the connection just dialed. -/
theorem Inv.settle (hinv : Inv s) {c : ℕ} (hc : (s.calls c).phase = .dialing)
    {phase : Phase} {dial_seq : ℕ} (hcache : cache = none ∨ cache = some s.dial_seq)
    (hseq : s.dial_seq ≤ dial_seq) (hk : Placed dial_seq cache k)
    (hwait : ∀ k : Call, k.since ≤ s.dial_seq → k.op = .get_or_connect →
      Placed dial_seq cache { k with phase := phase }) :
    Inv ({ s.land phase with cache := cache, dial_seq := dial_seq }.set c k) := by
  have hcalls : ∀ c', c' ≠ c → Placed dial_seq cache ((s.land phase).calls c') := by
    intro c' hne
    have hj := hinv.justified c'
    by_cases hw : (s.calls c').phase = .waiting
    · have hop : (s.calls c').op = .get_or_connect := by
        simp only [Justified, hw] at hj
        exact hj.1
      simp only [land, if_pos hw]
      exact hwait (s.calls c') (hinv.since c') hop
    · simp only [land, if_neg hw]
      refine ⟨Nat.le_trans (hinv.since c') hseq, ?_, justified_cache hj fun q hq => .inr ?_⟩
      · -- only the leader is dialing
        intro hd
        have := (hinv.leader c' hd).symm.trans (hinv.leader c hc)
        exact hne (Option.some.inj this)
      · rcases hcache with h | h
        · rw [h] at hq
          cases hq
        · rw [h, Option.some.injEq] at hq
          exact hq ▸ hinv.since c'
  have hplaced : ∀ c', Placed dial_seq cache
      (({ s.land phase with cache := cache, dial_seq := dial_seq }.set c k).calls c') := by
    intro c'
    rw [calls_set]
    split
    · exact hk
    · rename_i h
      exact hcalls c' h
  refine ⟨?_, ?_, fun c' => (hplaced c').since, fun c' => (hplaced c').justified⟩
  · intro c' hc'
    cases hc'
  · intro c' hc'
    exact absurd hc' (hplaced c').phase

/-- A call starts. -/
theorem inv_start (hinv : Inv s) {c : ℕ} {op : Op} (h : s.start_step c op = some s') : Inv s' := by
  unfold start_step at h
  split at h
  · cases h
    exact hinv.move c _ (.inl rfl) (placed_start s.dial_seq s.cache op) s.closed
  · cases h

/-- A call joins the dial, or leads it. -/
theorem inv_try_get_with (hinv : Inv s) {c : ℕ} (h : s.try_get_with_step c = some s') :
    Inv s' := by
  have hj := hinv.justified c
  have hs := hinv.since c
  unfold try_get_with_step at h
  simp only at h
  split at h
  · rename_i pooled hphase hcache
    cases h
    simp only [Justified, hphase] at hj
    -- whatever is cached now came after the miss
    refine hinv.move c { s.calls c with phase := .connected pooled } (.inl rfl) ?_ s.closed
    exact ⟨hs, by simp, hj.1, hj.2 pooled hcache⟩
  · rename_i hphase hcache hflight
    cases h
    simp only [Justified, hphase] at hj
    refine ⟨fun _ _ => hcache, ?_, ?_, ?_⟩
    · intro c' hc'
      rw [calls_set] at hc'
      split at hc'
      · rename_i hcc
        exact congrArg some hcc.symm
      · have hled : s.flight = some c' := hinv.leader c' hc'
        rw [hflight] at hled
        cases hled
    · intro c'
      rw [calls_set]
      split
      · exact hs
      · exact hinv.since c'
    · intro c'
      rw [calls_set]
      split
      · exact hj
      · exact hinv.justified c'
  · rename_i hphase hcache hflight
    cases h
    simp only [Justified, hphase] at hj
    exact hinv.move c { s.calls c with phase := .waiting } (.inl rfl) ⟨hs, by simp, hj⟩ s.closed
  · cases h

/-- The dial succeeds, and its connection is cached. -/
theorem inv_connect_ok (hinv : Inv s) {c : ℕ} (h : s.connect_ok_step c = some s') : Inv s' := by
  unfold connect_ok_step at h
  simp only at h
  split at h
  · rename_i hphase
    cases h
    have hj := hinv.justified c
    simp only [Justified, hphase] at hj
    -- the leader and the waiting calls started before this number was drawn
    have hplaced : ∀ k : Call, k.since ≤ s.dial_seq → k.op = .get_or_connect →
        Placed (s.dial_seq + 1) (some s.dial_seq) { k with phase := .connected s.dial_seq } :=
      fun k hk hop => ⟨Nat.le_succ_of_le hk, by simp, hop, hk⟩
    exact hinv.settle hphase (.inr rfl) (Nat.le_succ _) (hplaced _ (hinv.since c) hj.1) hplaced
  · cases h

/-- The dial fails, and nothing is cached. -/
theorem inv_connect_err (hinv : Inv s) {c : ℕ} {error : String}
    (h : s.connect_err_step c error = some s') : Inv s' := by
  unfold connect_err_step at h
  simp only at h
  split at h
  · rename_i hphase
    cases h
    have hnone : s.cache = none := hinv.flight c (hinv.leader c hphase)
    exact hinv.settle hphase (.inl hnone) (Nat.le_refl _) ⟨hinv.since c, by simp, trivial⟩
      fun k hk _ => ⟨hk, by simp, trivial⟩
  · cases h

/-- A caller is dropped. -/
theorem inv_drop (hinv : Inv s) {c : ℕ} (h : s.drop_step c = some s') : Inv s' := by
  unfold drop_step at h
  simp only at h
  split at h
  · cases h
  · cases h
  · cases h
  · rename_i hphase
    cases h
    have hnone : s.cache = none := hinv.flight c (hinv.leader c hphase)
    refine hinv.settle hphase (.inl hnone) (Nat.le_refl _) ⟨hinv.since c, by simp, trivial⟩ ?_
    -- the waiting calls are back before their miss, with nothing cached
    intro k hk hop
    refine ⟨hk, by simp, hop, fun q hq => ?_⟩
    change s.cache = some q at hq
    rw [hnone] at hq
    cases hq
  · cases h
    refine hinv.move c { s.calls c with phase := .finished } (.inl rfl) ?_ s.closed
    exact ⟨hinv.since c, by simp, trivial⟩

/-- A call closes the connection it names. -/
theorem inv_close (hinv : Inv s) {c : ℕ} (h : s.close_step c = some s') : Inv s' := by
  unfold close_step at h
  simp only at h
  split at h
  · cases h
    refine hinv.move c { s.calls c with phase := .finished } (.inl rfl) ?_ _
    exact ⟨hinv.since c, by simp, trivial⟩
  · cases h

/-- **Every step of the pool keeps the invariant.** -/
theorem inv_step (s : ConnectionPool) (a : Label) (s' : ConnectionPool) (hinv : Inv s)
    (h : s.step a = some s') : Inv s' := by
  cases a with
  | start c op => exact inv_start hinv h
  | get c =>
      obtain ⟨k, hk, rfl⟩ := Option.map_eq_some_iff.mp h
      exact hinv.move c k (.inl rfl) (placed_get (hinv.since c) (hinv.justified c) hk).1 s.closed
  | check c =>
      obtain ⟨k, hk, rfl⟩ := Option.map_eq_some_iff.mp h
      exact hinv.move c k (.inl rfl) (placed_check (hinv.since c) (hinv.justified c) hk).1 s.closed
  | remove c =>
      obtain ⟨⟨k, cache⟩, hk, rfl⟩ := Option.map_eq_some_iff.mp h
      obtain ⟨hplaced, -, hcache⟩ := placed_remove (hinv.since c) (hinv.justified c) hk
      refine hinv.move c k ?_ hplaced s.closed
      rcases hcache with hsame | ⟨q, -, hnone, -⟩
      · exact .inl hsame
      · exact .inr hnone
  | close c => exact inv_close hinv h
  | try_get_with c => exact inv_try_get_with hinv h
  | connect_ok c => exact inv_connect_ok hinv h
  | connect_err c error => exact inv_connect_err hinv h
  | drop c => exact inv_drop hinv h
  | conn_closed conn =>
      simp only [step] at h
      split at h
      · cases h
        exact ⟨hinv.flight, hinv.leader, hinv.since, hinv.justified⟩
      · cases h
  | other_dial =>
      cases h
      exact ⟨hinv.flight, hinv.leader, fun c => Nat.le_succ_of_le (hinv.since c), hinv.justified⟩

/-! ## Eviction is by identity -/

/-- What a step may do to the entry, to the connections and to what the calls
have read. -/
structure Scoped (s : ConnectionPool) (a : Label) (s' : ConnectionPool) : Prop where
  removed : RemovedByIdentity s a s'
  closed : ClosedByIdentity s a s'
  checked : CheckedTruly s a s'

/-- A step that keeps the cache removes nothing. -/
theorem removed_of_kept {a : Label} (h : ∀ q, s.cache = some q → s'.cache = some q) :
    RemovedByIdentity s a s' :=
  fun q hq hgone => absurd (h q hq) hgone

theorem closed_of_eq {a : Label} (h : s'.closed = s.closed) : ClosedByIdentity s a s' :=
  fun q hq => absurd (congrFun h q) hq

theorem checked_of_eq {a : Label} (h : ∀ c, (s'.calls c).checks = (s.calls c).checks) :
    CheckedTruly s a s' :=
  fun c => .inl (h c)

theorem checks_set {c : ℕ} (hk : k.checks = (s.calls c).checks) (c' : ℕ) :
    ((s.set c k).calls c').checks = (s.calls c').checks := by
  rw [calls_set]
  split
  · rename_i h
    rw [h, hk]
  · rfl

theorem checks_land (s : ConnectionPool) (phase : Phase) (c : ℕ) :
    ((s.land phase).calls c).checks = (s.calls c).checks := by
  simp only [land]
  split <;> rfl

/-- A step that moves one call, and reads and removes nothing. -/
theorem scoped_set {a : Label} {c : ℕ} (hk : k.checks = (s.calls c).checks) :
    Scoped s a (s.set c k) :=
  ⟨removed_of_kept fun _ hq => hq, closed_of_eq rfl, checked_of_eq (checks_set hk)⟩

/-- A flight lands while nothing is cached. -/
theorem scoped_settle {a : Label} {c : ℕ} {phase : Phase} (hnone : s.cache = none)
    (hk : k.checks = (s.calls c).checks) :
    Scoped s a ({ s.land phase with cache := cache, dial_seq := dial_seq }.set c k) := by
  refine ⟨removed_of_kept ?_, closed_of_eq rfl, checked_of_eq fun c' => ?_⟩
  · intro q hq
    rw [hnone] at hq
    cases hq
  · refine (checks_set ?_ c').trans (checks_land s phase c')
    exact hk.trans (checks_land s phase c).symm

theorem scoped_start (hinv : Inv s) {c : ℕ} {op : Op} (h : s.start_step c op = some s') :
    Scoped s (.start c op) s' := by
  have hj := hinv.justified c
  unfold start_step at h
  split at h
  · rename_i hphase
    cases h
    simp only [Justified, hphase] at hj
    refine scoped_set ?_
    rw [hj]
    rcases op with _ | (_ | seq) | (_ | seq) <;> rfl
  · cases h

theorem scoped_get (hinv : Inv s) {c : ℕ} (h : s.step (.get c) = some s') :
    Scoped s (.get c) s' := by
  obtain ⟨k, hk, rfl⟩ := Option.map_eq_some_iff.mp h
  exact scoped_set (placed_get (hinv.since c) (hinv.justified c) hk).2

theorem scoped_check (hinv : Inv s) {c : ℕ} (h : s.step (.check c) = some s') :
    Scoped s (.check c) s' := by
  obtain ⟨k, hk, rfl⟩ := Option.map_eq_some_iff.mp h
  obtain ⟨-, q, hq⟩ := placed_check (hinv.since c) (hinv.justified c) hk
  refine ⟨removed_of_kept fun _ hq => hq, closed_of_eq rfl, fun c' => ?_⟩
  rw [calls_set]
  split
  · rename_i hcc
    exact .inr ⟨q, by rw [hcc], by rw [hcc, hq]⟩
  · exact .inl rfl

/-- The removal names the connection that was found dead, and spares another. -/
theorem scoped_remove (hinv : Inv s) {c : ℕ} (h : s.step (.remove c) = some s') :
    Scoped s (.remove c) s' := by
  obtain ⟨⟨k, cache⟩, hk, rfl⟩ := Option.map_eq_some_iff.mp h
  obtain ⟨-, hchecks, hcache⟩ := placed_remove (hinv.since c) (hinv.justified c) hk
  refine ⟨?_, closed_of_eq rfl, checked_of_eq (checks_set hchecks)⟩
  intro q hq hgone
  rcases hcache with hsame | ⟨q', hq', hnone, hwhy⟩
  · exact absurd (hsame.trans hq) hgone
  · have hqq : q' = q := Option.some.inj (hq'.symm.trans hq)
    exact ⟨c, rfl, hnone, hqq ▸ hwhy⟩

/-- A close reaches the connection it names, and no other. -/
theorem scoped_close (hinv : Inv s) {c : ℕ} (h : s.close_step c = some s') :
    Scoped s (.close c) s' := by
  have hj := hinv.justified c
  unfold close_step at h
  simp only at h
  split at h
  · rename_i pooled hphase
    cases h
    simp only [Justified, hphase] at hj
    refine ⟨removed_of_kept fun _ hq => hq, ?_, checked_of_eq (checks_set rfl)⟩
    intro q hq
    -- the one connection that changes is the one in the call's hand
    have hqp : q = pooled := by
      by_contra hne
      refine hq ?_
      change Function.update s.closed pooled true q = s.closed q
      rw [Function.update_of_ne hne]
    exact .inr ⟨c, rfl, hqp ▸ hj⟩
  · cases h

/-- **A step keeps to the identities its call knows.** -/
theorem scoped_step (hinv : Inv s) {a : Label} (h : s.step a = some s') : Scoped s a s' := by
  cases a with
  | start c op => exact scoped_start hinv h
  | get c => exact scoped_get hinv h
  | check c => exact scoped_check hinv h
  | remove c => exact scoped_remove hinv h
  | close c => exact scoped_close hinv h
  | try_get_with c =>
      simp only [step, try_get_with_step] at h
      split at h <;> cases h
      · exact scoped_set rfl
      · exact ⟨removed_of_kept fun _ hq => hq, closed_of_eq rfl, checked_of_eq (checks_set rfl)⟩
      · exact scoped_set rfl
  | connect_ok c =>
      simp only [step, connect_ok_step] at h
      split at h <;> cases h
      rename_i hphase
      exact scoped_settle (hinv.flight c (hinv.leader c hphase)) rfl
  | connect_err c error =>
      simp only [step, connect_err_step] at h
      split at h <;> cases h
      rename_i hphase
      exact scoped_settle (hinv.flight c (hinv.leader c hphase)) rfl
  | drop c =>
      simp only [step, drop_step] at h
      split at h <;> cases h
      · rename_i hphase
        exact scoped_settle (hinv.flight c (hinv.leader c hphase)) rfl
      · exact scoped_set rfl
  | conn_closed conn =>
      simp only [step] at h
      split at h <;> cases h
      refine ⟨removed_of_kept fun _ hq => hq, ?_, checked_of_eq fun _ => rfl⟩
      intro q hq
      refine .inl ?_
      by_contra hne
      refine hq (Function.update_of_ne (fun hqc => hne ?_) true s.closed)
      rw [hqc]
  | other_dial =>
      cases h
      exact ⟨removed_of_kept fun _ hq => hq, closed_of_eq rfl, checked_of_eq fun _ => rfl⟩

/-- What a call returned was live when it looked. -/
theorem returned_live (hinv : Inv s) : ReturnedLive s := by
  intro c q reused hret
  have hj := hinv.justified c
  simp only [Justified, hret] at hj
  exact hj

/-- **Eviction is scoped to identities.** In every state the calls can reach and
for every next step: the cached connection goes only by a call that read it as
closed or was given it, a connection is closed by `evict_and_close` only if the
call was given it, and what the calls read is true when they read it; and every
connection a call has returned was live when the call last looked, and was
dialed since the call started unless it is reported as reused. -/
theorem eviction_is_by_identity (l : List Label) (s : ConnectionPool)
    (hrun : Machine.run step new l = some s) :
    (∀ a s', s.step a = some s' →
      RemovedByIdentity s a s' ∧ ClosedByIdentity s a s' ∧ CheckedTruly s a s') ∧
      ReturnedLive s := by
  have hinv : Inv s := Machine.run_invariant inv_step inv_new hrun
  refine ⟨fun a s' h => ?_, returned_live hinv⟩
  have hscoped := scoped_step hinv h
  exact ⟨hscoped.removed, hscoped.closed, hscoped.checked⟩

/-- Three calls on one key. The first dials 0, which closes behind the pool's
back; the second reads it as closed, and before it can remove it the third does,
and dials 1. The second removes nothing and reuses 1. -/
def replaced_behind_a_stale_read : List Label :=
  [.start 0 .get_or_connect, .get 0, .try_get_with 0, .connect_ok 0, .check 0, .conn_closed 0,
    .start 1 .get_or_connect, .get 1, .check 1,
    .start 2 .get_or_connect, .get 2, .check 2, .remove 2, .try_get_with 2, .connect_ok 2, .check 2,
    .remove 1, .get 1, .check 1]

theorem eviction_is_by_identity_replaced :
    ∃ s, Machine.run step new replaced_behind_a_stale_read = some s ∧
      (s.calls 1).phase = .returned (.ok (1, true)) ∧
      (s.calls 2).phase = .returned (.ok (1, false)) ∧ (s.calls 2).since = 1 ∧
      (s.calls 1).checks = [(1, true), (0, false)] ∧ s.cache = some 1 ∧
      ((∀ a s', s.step a = some s' →
        RemovedByIdentity s a s' ∧ ClosedByIdentity s a s' ∧ CheckedTruly s a s') ∧
        ReturnedLive s) :=
  ⟨_, rfl, by decide, by decide, by decide, by decide, by decide,
    eviction_is_by_identity replaced_behind_a_stale_read _ rfl⟩

end ConnectionPool

end IrohHttp.Pool
