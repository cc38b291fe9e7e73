/-
The overflow cache of the Deno adapter, `lib.rs`: a response that is too large for the caller's
buffer is kept under a token, with which the caller asks for it again.

`evict_overflow` brings the cache down to its limits before an entry is put in, which is then one
entry over them if there was no room. A retrieval that finds the buffer still too small means to
put its entry back. It never does: the scrutinee of its `if let` has the guard of the mutex, which
lives to the end of the block, so that `lock` in that block waits for the caller itself.
-/
import IrohHttp.FiniteMap
import IrohHttp.Machine
import IrohHttp.Parties
import Mathlib.Algebra.Order.BigOperators.Group.List
import Mathlib.Data.Nat.Digits.Lemmas

set_option autoImplicit false

namespace IrohHttp.Overflow

open IrohHttp.Parties

/-! ## Numbers -/

/-- The most entries that the cache should have. -/
def OVERFLOW_MAX_ENTRIES : ℕ := 256

/-- The most bytes that they should have, 64 MiB. -/
def OVERFLOW_MAX_BYTES : ℕ := 64 * 1024 * 1024

/-- In nanoseconds. -/
def OVERFLOW_TTL : ℕ := 30 * 10 ^ 9

/-- `token.to_le_bytes()` -/
def to_le_bytes (token : UInt64) : List UInt8 :=
  (Nat.digitsAppend 256 8 token.toNat).map UInt8.ofNat

/-- `u64::from_le_bytes` -/
def from_le_bytes (bytes : List UInt8) : UInt64 :=
  UInt64.ofNat (Nat.ofDigits 256 (bytes.map UInt8.toNat))

/-- A caller that reads its buffer has the token. -/
theorem from_le_bytes_to_le_bytes (token : UInt64) : from_le_bytes (to_le_bytes token) = token := by
  have hself : ∀ d ∈ Nat.digitsAppend 256 8 token.toNat, (UInt8.ofNat d).toNat = d := by
    intro d hd
    have hlt : d < 256 := Nat.lt_of_mem_digitsAppend (by omega) _ d hd
    exact UInt8.toNat_ofNat_of_lt' hlt
  have hmap : (to_le_bytes token).map UInt8.toNat = Nat.digitsAppend 256 8 token.toNat := by
    rw [to_le_bytes, List.map_map]
    exact (List.map_congr_left hself).trans (List.map_id _)
  have hnumber : Nat.ofDigits 256 (Nat.digitsAppend 256 8 token.toNat) = token.toNat :=
    (Nat.setInvOn_digitsAppend_ofDigits (by omega) 8).2 token.toNat_lt
  rw [from_le_bytes, hmap, hnumber, UInt64.ofNat_toNat]

/-- `i32::try_from(len).map(|n| 0i32.wrapping_sub(n)).unwrap_or(i32::MIN)` -/
def required_size (len : ℕ) : ℤ := if len < 2 ^ 31 then -len else -2 ^ 31

/-- `len as i32` -/
def as_i32 (len : ℕ) : ℤ := (len : ℤ).bmod (2 ^ 32)

/-! ## The cache -/

/-- A response, with the time of its insertion. -/
structure OverflowEntry where
  data : List UInt8
  created : ℕ
  deriving DecidableEq, Repr

/-- The map of the cache. -/
abbrev Cache := FiniteMap UInt64 OverflowEntry

/-- The bytes of all entries. -/
def total_bytes (cache : Cache) : ℕ := (cache.values.map fun e => e.data.length).sum

/-- The condition of the loop of `evict_overflow`. -/
def over_limits (cache : Cache) : Bool :=
  OVERFLOW_MAX_ENTRIES < cache.entries.length || OVERFLOW_MAX_BYTES < total_bytes cache

/-- `cache.iter().min_by_key(|(_, e)| e.created)`, the first of the oldest entries. -/
def oldest (cache : Cache) : Option (Σ _ : UInt64, OverflowEntry) :=
  cache.entries.head?.map fun first =>
    cache.entries.foldl (fun least e => if e.2.created < least.2.created then e else least) first

/-- The entries that have not expired. -/
def live (now : ℕ) (cache : Cache) : Cache := cache.retain fun _ e => now - e.created < OVERFLOW_TTL

/-- The loop of `evict_overflow`, for as many turns as there are entries. -/
def shrink : ℕ → Cache → Cache
  | 0, cache => cache
  | n + 1, cache =>
    if over_limits cache then
      match oldest cache with
      | some ⟨oldest_key, _⟩ => shrink n (cache.erase oldest_key)
      | none => cache
    else cache

/-- `evict_overflow` -/
def evict_overflow (now : ℕ) (cache : Cache) : Cache :=
  let cache := live now cache
  shrink cache.entries.length cache

/-! ## Calls -/

/-- The code that a call returns, and what it has written to its buffer. -/
structure Return where
  code : ℤ
  out : List UInt8
  deriving DecidableEq, Repr

/-- What becomes of bytes that are not kept. -/
def copy (bytes : List UInt8) (out_cap : ℕ) : Return :=
  if bytes.length ≤ out_cap then ⟨as_i32 bytes.length, bytes⟩ else ⟨required_size bytes.length, []⟩

/-- Where a call of `iroh_http_call` is. -/
inductive Call
  /-- It has taken a token and is in front of the mutex. -/
  | overflowing (token : UInt64) (encoded : List UInt8) (out_cap : ℕ)
  /-- It has taken the entry out, for which its buffer is too small. -/
  | putting_back (token : UInt64) (entry : OverflowEntry)
  | returned (ret : Return)
  deriving DecidableEq, Repr

/-- The cache, the mutex, the counter of the tokens and the calls. -/
structure State where
  now : ℕ
  counter : UInt64
  cache : Cache
  /-- The call whose guard the mutex waits for. -/
  lock : Option ℕ
  calls : List Call
  /-- The tokens given out, each with its response. -/
  issued : List (UInt64 × List UInt8)
  /-- What retrievals have returned. -/
  fetched : List (UInt64 × List UInt8)

/-- Nothing has been cached. -/
def init : State := ⟨0, 1, ∅, none, [], [], []⟩

/-- A map is iterated in any order of its entries. -/
inductive Label
  | elapse (d : ℕ)
  | dispatch (response : Option (List UInt8)) (out_cap : ℕ)
  | insert (i : ℕ) (order : Cache)
  | cached (payload : List UInt8) (out_cap : ℕ)
  | put_back (i : ℕ)

/-- The response without a runtime. -/
def RUNTIME_INIT_FAILED : List UInt8 :=
  "\x7b\"err\":\"RUNTIME_INIT_FAILED: OS refused to create threads for Tokio runtime\"\x7d".toUTF8.data.toList

namespace State

/-- A new call. -/
def add (s : State) (call : Call) : State := { s with calls := s.calls ++ [call] }

/-- A call with any other method, up to the cache; without a runtime there is no response. -/
def dispatch (s : State) (response : Option (List UInt8)) (out_cap : ℕ) : State :=
  match response with
  | none => s.add (.returned (copy RUNTIME_INIT_FAILED out_cap))
  | some encoded =>
    if out_cap < encoded.length then
      { s.add (.overflowing s.counter encoded out_cap) with
        counter := s.counter + 1
        issued := s.issued ++ [(s.counter, encoded)] }
    else s.add (.returned (copy encoded out_cap))

/-- Such a call under the mutex. -/
def insert (s : State) (i : ℕ) (order : Cache) : Option State :=
  match s.calls[i]? with
  | some (.overflowing token encoded out_cap) =>
    if s.lock = none ∧ order.entries.Perm s.cache.entries then
      some { s with
        cache := (evict_overflow s.now order).insert token ⟨encoded, s.now⟩
        calls := s.calls.set i (.returned
          ⟨required_size encoded.length, if 8 ≤ out_cap then to_le_bytes token else []⟩) }
    else none
  | _ => none

/-- A call with the method `__cached`, up to the second lock. -/
def cached (s : State) (payload : List UInt8) (out_cap : ℕ) : Option State :=
  if 8 ≤ payload.length then
    if s.lock = none then
      let token := from_le_bytes (payload.take 8)
      match s.cache.lookup token with
      | some entry =>
        if entry.data.length ≤ out_cap then
          some { s.add (.returned (copy entry.data out_cap)) with
            cache := s.cache.erase token
            fetched := s.fetched ++ [(token, entry.data)] }
        else
          some { s.add (.putting_back token entry) with
            cache := s.cache.erase token
            lock := some s.calls.length }
      | none => some (s.add (.returned ⟨-1, []⟩))
    else none
  else some (s.add (.returned ⟨-1, []⟩))

/-- The second lock, and what is behind it. -/
def put_back (s : State) (i : ℕ) : Option State :=
  match s.calls[i]? with
  | some (.putting_back token entry) =>
    if s.lock = none then
      some { s with
        cache := s.cache.insert token entry
        calls := s.calls.set i (.returned ⟨required_size entry.data.length, []⟩) }
    else none
  | _ => none

/-- One step, `none` where the label is not enabled. -/
def step (s : State) : Label → Option State
  | .elapse d => some { s with now := s.now + d }
  | .dispatch response out_cap => some (s.dispatch response out_cap)
  | .insert i order => s.insert i order
  | .cached payload out_cap => s.cached payload out_cap
  | .put_back i => s.put_back i

end State

/-! ## What is asked of it -/

/-- The tokens of a record. -/
def tokens (l : List (UInt64 × List UInt8)) : List UInt64 := l.map Prod.fst

/-- The cache is within its limits, and a token brings the one response it was given out for, once. -/
structure Sound (s : State) : Prop where
  entries : s.cache.entries.length ≤ OVERFLOW_MAX_ENTRIES
  bytes : total_bytes s.cache ≤ OVERFLOW_MAX_BYTES
  right : ∀ r ∈ s.fetched, ∀ encoded, (r.1, encoded) ∈ s.issued ↔ encoded = r.2
  once : (tokens s.fetched).Nodup

/-- The counter has not come round to a token that has been given out. -/
def Fresh (s : State) : Label → Prop
  | .dispatch (some encoded) out_cap => out_cap < encoded.length → s.counter ∉ tokens s.issued
  | _ => True

/-- What has not expired leaves room for the response that is put in. -/
def Room (s : State) : Label → Prop
  | .insert i _ => ∀ token encoded out_cap, s.calls[i]? = some (.overflowing token encoded out_cap) →
    (live s.now s.cache).entries.length < OVERFLOW_MAX_ENTRIES ∧
      total_bytes (live s.now s.cache) + encoded.length ≤ OVERFLOW_MAX_BYTES
  | _ => True

/-! ## What eviction leaves -/

theorem length_live_le (now : ℕ) (cache : Cache) :
    (live now cache).entries.length ≤ cache.entries.length :=
  List.length_filter_le _ _

theorem total_live_le (now : ℕ) (cache : Cache) :
    total_bytes (live now cache) ≤ total_bytes cache := by
  apply List.Sublist.sum_le_sum
  · exact (List.filter_sublist.map _).map _
  · exact fun n _ => Nat.zero_le n

theorem over_limits_eq_false {cache : Cache} :
    over_limits cache = false ↔
      cache.entries.length ≤ OVERFLOW_MAX_ENTRIES ∧ total_bytes cache ≤ OVERFLOW_MAX_BYTES := by
  rw [over_limits, Bool.or_eq_false_iff, decide_eq_false_iff_not, decide_eq_false_iff_not, Nat.not_lt,
    Nat.not_lt]

/-- Within the limits only time evicts. -/
theorem evict_of_within {now : ℕ} {cache : Cache} (h : over_limits (live now cache) = false) :
    evict_overflow now cache = live now cache := by
  have hshrink : ∀ n, shrink n (live now cache) = live now cache := by
    intro n
    cases n with
    | zero => rfl
    | succ n => rw [shrink, h, if_neg Bool.false_ne_true]
  exact hshrink _

/-- The order of the entries does not matter to the limits. -/
theorem live_perm {now : ℕ} {order cache : Cache} (h : order.entries.Perm cache.entries) :
    (live now order).entries.length = (live now cache).entries.length ∧
      total_bytes (live now order) = total_bytes (live now cache) := by
  have hperm : (live now order).entries.Perm (live now cache).entries := h.filter _
  exact ⟨hperm.length_eq, ((hperm.map _).map _).sum_eq⟩

theorem length_insert {cache : Cache} {token : UInt64} (h : token ∉ cache)
    (entry : OverflowEntry) :
    (cache.insert token entry).entries.length = cache.entries.length + 1 := by
  rw [AList.entries_insert_of_notMem h, List.length_cons]

theorem total_insert {cache : Cache} {token : UInt64} (h : token ∉ cache)
    (entry : OverflowEntry) :
    total_bytes (cache.insert token entry) = total_bytes cache + entry.data.length := by
  rw [total_bytes, AList.values, AList.entries_insert_of_notMem h, List.map_cons, List.map_cons,
    List.sum_cons, Nat.add_comm]
  rfl

/-! ## The invariant -/

/-- Call `i` is to put in the response `encoded`. -/
def Waits (s : State) (i : ℕ) (token : UInt64) (encoded : List UInt8) : Prop :=
  ∃ out_cap, s.calls[i]? = some (.overflowing token encoded out_cap)

/-- A token that has been given out is with one call, or in the cache, or has been returned. -/
structure Inv (s : State) : Prop where
  issued : (tokens s.issued).Nodup
  cached : ∀ e ∈ s.cache.entries, (e.1, e.2.data) ∈ s.issued ∧ e.1 ∉ tokens s.fetched
  waiting : ∀ i token encoded, Waits s i token encoded → (token, encoded) ∈ s.issued ∧
    token ∉ tokens s.fetched ∧ token ∉ s.cache
  apart : ∀ i j token encoded encoded', Waits s i token encoded → Waits s j token encoded' → i = j
  /-- A call in front of the second lock has the first guard. -/
  locked : ∀ (i : ℕ) (token : UInt64) (entry : OverflowEntry),
    s.calls[i]? = some (.putting_back token entry) → s.lock ≠ none
  fetched : ∀ r ∈ s.fetched, r ∈ s.issued
  once : (tokens s.fetched).Nodup

theorem inv_init : Inv init where
  issued := List.nodup_nil
  cached e he := absurd he List.not_mem_nil
  waiting i token encoded h := by
    obtain ⟨out_cap, hi⟩ := h
    cases hi
  apart i j token encoded encoded' h := by
    obtain ⟨out_cap, hi⟩ := h
    cases hi
  locked i token entry hi := by cases hi
  fetched r hr := absurd hr List.not_mem_nil
  once := List.nodup_nil

variable {s s' : State}

/-- A response goes with one token. -/
theorem Inv.right (h : Inv s) :
    ∀ r ∈ s.fetched, ∀ encoded, (r.1, encoded) ∈ s.issued ↔ encoded = r.2 := by
  intro r hr encoded
  constructor
  · intro hmem
    have heq := List.inj_on_of_nodup_map h.issued hmem (h.fetched r hr) rfl
    exact (Prod.ext_iff.mp heq).2
  · rintro rfl
    exact h.fetched r hr

theorem Waits.of_add {call : Call} {i : ℕ} {token : UInt64} {encoded : List UInt8}
    (hcall : ∀ t e c, call ≠ .overflowing t e c) (h : Waits (s.add call) i token encoded) :
    Waits s i token encoded := by
  obtain ⟨out_cap, hi⟩ := h
  rcases getElem?_concat_cases hi with ⟨-, heq⟩ | hi
  · exact absurd heq.symm (hcall token encoded out_cap)
  · exact ⟨out_cap, hi⟩

theorem Inv.add_returned (h : Inv s) (ret : Return) : Inv (s.add (.returned ret)) where
  issued := h.issued
  cached := h.cached
  waiting i token encoded hw := h.waiting i token encoded (hw.of_add fun _ _ _ => Call.noConfusion)
  apart i j token encoded encoded' hi hj :=
    h.apart i j token encoded encoded' (hi.of_add fun _ _ _ => Call.noConfusion)
      (hj.of_add fun _ _ _ => Call.noConfusion)
  locked i token entry hi := by
    rcases getElem?_concat_cases hi with ⟨-, heq⟩ | hi
    · cases heq
    · exact h.locked i token entry hi
  fetched := h.fetched
  once := h.once

theorem inv_dispatch (h : Inv s) {response : Option (List UInt8)} {out_cap : ℕ}
    (hfresh : Fresh s (.dispatch response out_cap)) : Inv (s.dispatch response out_cap) := by
  cases response with
  | none => exact h.add_returned _
  | some encoded =>
      rw [State.dispatch]
      split_ifs with hlarge
      · have hnew := hfresh hlarge
        -- what had a token before has another one
        have hold : ∀ {token data}, (token, data) ∈ s.issued → token ≠ s.counter := by
          rintro token data hmem rfl
          exact hnew (List.mem_map.mpr ⟨_, hmem, rfl⟩)
        have hcases : ∀ {i token data}, Waits (s.add (.overflowing s.counter encoded out_cap)) i token data →
            i = s.calls.length ∧ token = s.counter ∧ data = encoded ∨ Waits s i token data := by
          rintro i token data ⟨cap, hi⟩
          rcases getElem?_concat_cases hi with ⟨rfl, heq⟩ | hi
          · obtain ⟨rfl, rfl, -⟩ := Call.overflowing.inj heq
            exact .inl ⟨rfl, rfl, rfl⟩
          · exact .inr ⟨cap, hi⟩
        refine ⟨?_, ?_, ?_, ?_, ?_, ?_, h.once⟩
        · rw [tokens, List.map_append, List.map_singleton, ← List.concat_eq_append]
          exact List.Nodup.concat hnew h.issued
        · intro e he
          have hc := h.cached e he
          exact ⟨List.mem_append_left _ hc.1, hc.2⟩
        · intro i token data hw
          rcases hcases hw with ⟨-, rfl, rfl⟩ | hw
          · refine ⟨List.mem_append_right _ (List.mem_singleton_self _), ?_, ?_⟩
            · intro hmem
              obtain ⟨r, hr, hkey⟩ := List.mem_map.mp hmem
              exact hold (h.fetched r hr) hkey
            · intro hmem
              obtain ⟨e, he, hkey⟩ := List.mem_map.mp hmem
              exact hold (h.cached e he).1 hkey
          · have hc := h.waiting i token data hw
            exact ⟨List.mem_append_left _ hc.1, hc.2⟩
        · intro i j token data data' hi hj
          rcases hcases hi with ⟨rfl, rfl, -⟩ | hi
          · rcases hcases hj with ⟨rfl, -, -⟩ | hj
            · rfl
            · exact absurd rfl (hold (h.waiting _ _ _ hj).1)
          · rcases hcases hj with ⟨-, rfl, -⟩ | hj
            · exact absurd rfl (hold (h.waiting _ _ _ hi).1)
            · exact h.apart i j token data data' hi hj
        · intro i token entry hi
          rcases getElem?_concat_cases hi with ⟨-, heq⟩ | hi
          · cases heq
          · exact h.locked i token entry hi
        · exact fun r hr => List.mem_append_left _ (h.fetched r hr)
      · exact h.add_returned _

/-- What `insert` does: it has the mutex, and call `i` waits for it. -/
theorem insert_eq_some {i : ℕ} {order : Cache} (h : s.insert i order = some s') :
    ∃ token encoded out_cap, s.calls[i]? = some (.overflowing token encoded out_cap) ∧ s.lock = none ∧
      order.entries.Perm s.cache.entries ∧
      s' = { s with
        cache := (evict_overflow s.now order).insert token ⟨encoded, s.now⟩
        calls := s.calls.set i (.returned
          ⟨required_size encoded.length, if 8 ≤ out_cap then to_le_bytes token else []⟩) } := by
  rw [State.insert] at h
  split at h
  next token encoded out_cap hi =>
    by_cases hguard : s.lock = none ∧ order.entries.Perm s.cache.entries
    · rw [if_pos hguard] at h
      exact ⟨token, encoded, out_cap, hi, hguard.1, hguard.2, (Option.some.inj h).symm⟩
    · rw [if_neg hguard] at h
      cases h
  next => cases h

/-- A step of call `i` that ends it leaves the others as they are. -/
theorem waits_of_set {i j : ℕ} {ret : Return} {token : UInt64} {encoded : List UInt8}
    (h : Waits { s with calls := s.calls.set i (.returned ret) } j token encoded) :
    j ≠ i ∧ Waits s j token encoded := by
  obtain ⟨out_cap, hj⟩ := h
  rcases getElem?_set_cases hj with ⟨-, heq⟩ | ⟨hne, hj⟩
  · cases heq
  · exact ⟨hne, out_cap, hj⟩

/-- The cache that an insertion finds has no entries but those of the cache. -/
theorem mem_evict {now : ℕ} {order cache : Cache} (hperm : order.entries.Perm cache.entries)
    {e : Σ _ : UInt64, OverflowEntry} (he : e ∈ (evict_overflow now order).entries) :
    e ∈ cache.entries := by
  have hshrink : ∀ n (c : Cache), e ∈ (shrink n c).entries → e ∈ c.entries := by
    intro n
    induction n with
    | zero => exact fun c hc => hc
    | succ n ih =>
        intro c hc
        rw [shrink] at hc
        split_ifs at hc with hover
        · split at hc
          next key _ _ => exact (AList.mem_entries_erase.mp (ih _ hc)).1
          next => exact hc
        · exact hc
  have hlive := hshrink _ _ he
  exact hperm.mem_iff.mp (AList.mem_retain.mp hlive).1

/-- An insert takes what its call waits with, and drops only what eviction drops. -/
theorem inv_insert (h : Inv s) {i : ℕ} {order : Cache} (hs : s.insert i order = some s') :
    Inv s' := by
  obtain ⟨token, encoded, out_cap, hi, -, hperm, rfl⟩ := insert_eq_some hs
  have hself : Waits s i token encoded := ⟨out_cap, hi⟩
  have hw := h.waiting i token encoded hself
  have hcache : ∀ {e}, e ∈ ((evict_overflow s.now order).insert token ⟨encoded, s.now⟩).entries →
      e = ⟨token, encoded, s.now⟩ ∨ e ∈ s.cache.entries := by
    intro e he
    rcases AList.mem_entries_insert.mp he with heq | ⟨he, -⟩
    · exact .inl heq
    · exact .inr (mem_evict hperm he)
  refine ⟨h.issued, ?_, ?_, ?_, ?_, h.fetched, h.once⟩
  · intro e he
    rcases hcache he with rfl | he
    · exact ⟨hw.1, hw.2.1⟩
    · exact h.cached e he
  · intro j t data hj
    obtain ⟨hne, hj⟩ := waits_of_set hj
    have hc := h.waiting j t data hj
    refine ⟨hc.1, hc.2.1, ?_⟩
    intro hmem
    obtain ⟨e, he, hkey⟩ := List.mem_map.mp hmem
    rcases hcache he with rfl | he
    · -- no other call has the token of this one
      exact hne (h.apart j i t data encoded hj (hkey ▸ hself))
    · exact hc.2.2 (List.mem_map.mpr ⟨e, he, hkey⟩)
  · intro j k t data data' hj hk
    exact h.apart j k t data data' (waits_of_set hj).2 (waits_of_set hk).2
  · intro j t entry hj
    rcases getElem?_set_cases hj with ⟨-, heq⟩ | ⟨-, hj⟩
    · cases heq
    · exact h.locked j t entry hj

/-- The four ways of a retrieval. -/
theorem cached_eq_some {payload : List UInt8} {out_cap : ℕ} (h : s.cached payload out_cap = some s') :
    s' = s.add (.returned ⟨-1, []⟩) ∨
    ∃ token entry, s.cache.lookup token = some entry ∧ s.lock = none ∧
      ((entry.data.length ≤ out_cap ∧
        s' = { s.add (.returned (copy entry.data out_cap)) with
          cache := s.cache.erase token
          fetched := s.fetched ++ [(token, entry.data)] }) ∨
      (out_cap < entry.data.length ∧
        s' = { s.add (.putting_back token entry) with
          cache := s.cache.erase token
          lock := some s.calls.length })) := by
  rw [State.cached] at h
  split_ifs at h with hpayload hlock
  · simp only at h
    split at h
    next entry hget =>
      split_ifs at h with hfits
      · exact .inr ⟨_, entry, hget, hlock, .inl ⟨hfits, (Option.some.inj h).symm⟩⟩
      · exact .inr ⟨_, entry, hget, hlock, .inr ⟨Nat.not_le.mp hfits, (Option.some.inj h).symm⟩⟩
    next => exact .inl (Option.some.inj h).symm
  · exact .inl (Option.some.inj h).symm

/-- A `__cached` call keeps the invariant. -/
theorem inv_cached (h : Inv s) {payload : List UInt8} {out_cap : ℕ}
    (hs : s.cached payload out_cap = some s') : Inv s' := by
  rcases cached_eq_some hs with rfl | ⟨token, entry, hget, hlock, ⟨-, rfl⟩ | ⟨-, rfl⟩⟩
  · exact h.add_returned _
  -- the entry is handed out, and gone from the cache
  · have hmem := AList.lookup_eq_some_iff.mp hget
    have hentry := h.cached _ hmem
    have hadd := h.add_returned (copy entry.data out_cap)
    refine ⟨h.issued, ?_, ?_, hadd.apart, hadd.locked, ?_, ?_⟩
    · intro e he
      obtain ⟨he, hne⟩ := AList.mem_entries_erase.mp he
      refine ⟨(h.cached e he).1, ?_⟩
      rw [tokens, List.map_append, List.map_singleton, List.mem_append, List.mem_singleton]
      exact fun hor => hor.elim (h.cached e he).2 hne
    · intro j t data hj
      have hc := hadd.waiting j t data hj
      have hne : t ≠ token := by
        rintro rfl
        exact hc.2.2 (List.mem_map.mpr ⟨_, hmem, rfl⟩)
      refine ⟨hc.1, ?_, ?_⟩
      · rw [tokens, List.map_append, List.map_singleton, List.mem_append, List.mem_singleton]
        exact fun hor => hor.elim hc.2.1 hne
      · intro hkey
        obtain ⟨e, he, heq⟩ := List.mem_map.mp hkey
        exact hc.2.2 (List.mem_map.mpr ⟨e, (AList.mem_entries_erase.mp he).1, heq⟩)
    · intro r hr
      rcases List.mem_append.mp hr with hr | hr
      · exact h.fetched r hr
      · rw [List.mem_singleton.mp hr]
        exact hentry.1
    · rw [tokens, List.map_append, List.map_singleton, ← List.concat_eq_append]
      exact List.Nodup.concat hentry.2 h.once
  -- it is too large, and its call is to put it back: the lock stays taken
  · have hwaits : ∀ {j t data}, Waits (s.add (.putting_back token entry)) j t data → Waits s j t data :=
      fun hj => hj.of_add fun _ _ _ => Call.noConfusion
    refine ⟨h.issued, ?_, ?_, ?_, ?_, h.fetched, h.once⟩
    · intro e he
      exact h.cached e (AList.mem_entries_erase.mp he).1
    · intro j t data hj
      have hc := h.waiting j t data (hwaits hj)
      refine ⟨hc.1, hc.2.1, ?_⟩
      intro hkey
      obtain ⟨e, he, heq⟩ := List.mem_map.mp hkey
      exact hc.2.2 (List.mem_map.mpr ⟨e, (AList.mem_entries_erase.mp he).1, heq⟩)
    · exact fun j k t data data' hj hk => h.apart j k t data data' (hwaits hj) (hwaits hk)
    · exact fun _ _ _ _ => Option.some_ne_none _

/-- A call that is to put its entry back waits for its own guard. -/
theorem put_back_eq_none (h : Inv s) (i : ℕ) : s.put_back i = none := by
  rw [State.put_back]
  split
  next token entry hi => rw [if_neg (h.locked i token entry hi)]
  next => rfl

theorem inv_step (h : Inv s) {a : Label} (hfresh : Fresh s a) (hs : s.step a = some s') :
    Inv s' := by
  cases a with
  | elapse d =>
      obtain rfl := Option.some.inj hs
      exact ⟨h.issued, h.cached, h.waiting, h.apart, h.locked, h.fetched, h.once⟩
  | dispatch response out_cap =>
      obtain rfl := Option.some.inj hs
      exact inv_dispatch h hfresh
  | insert i order => exact inv_insert h hs
  | cached payload out_cap => exact inv_cached h hs
  | put_back i =>
      rw [State.step, put_back_eq_none h] at hs
      cases hs

/-! ## The limits -/

/-- The size of the cache behind an insertion, where the cache was within its limits before. -/
theorem insert_size (h : Inv s) (hwithin : over_limits s.cache = false) {i : ℕ} {order : Cache}
    (hs : s.insert i order = some s') :
    ∃ token encoded out_cap, s.calls[i]? = some (.overflowing token encoded out_cap) ∧
      s'.cache.entries.length = (live s.now s.cache).entries.length + 1 ∧
      total_bytes s'.cache = total_bytes (live s.now s.cache) + encoded.length := by
  obtain ⟨token, encoded, out_cap, hi, -, hperm, rfl⟩ := insert_eq_some hs
  obtain ⟨hlength, htotal⟩ : (live s.now order).entries.length = (live s.now s.cache).entries.length ∧
      total_bytes (live s.now order) = total_bytes (live s.now s.cache) := live_perm hperm
  have hbefore := over_limits_eq_false.mp hwithin
  have hlive : over_limits (live s.now order) = false := by
    rw [over_limits_eq_false, hlength, htotal]
    exact ⟨(length_live_le _ _).trans hbefore.1, (total_live_le _ _).trans hbefore.2⟩
  have hnew : token ∉ evict_overflow s.now order := by
    intro hmem
    obtain ⟨e, he, hkey⟩ := List.mem_map.mp hmem
    exact (h.waiting i token encoded ⟨out_cap, hi⟩).2.2 (List.mem_map.mpr ⟨e, mem_evict hperm he, hkey⟩)
  refine ⟨token, encoded, out_cap, hi, ?_, ?_⟩
  · rw [length_insert hnew, evict_of_within hlive, hlength]
  · rw [total_insert hnew, evict_of_within hlive, htotal]

/-- A step that finds room leaves the cache within its limits. -/
theorem within_step (h : Inv s) (hwithin : over_limits s.cache = false) {a : Label} (hroom : Room s a)
    (hs : s.step a = some s') : over_limits s'.cache = false := by
  cases a with
  | elapse d =>
      obtain rfl := Option.some.inj hs
      exact hwithin
  | dispatch response out_cap =>
      obtain rfl := Option.some.inj hs
      have hcache : (s.dispatch response out_cap).cache = s.cache := by
        rw [State.dispatch.eq_def]
        split
        · rfl
        · split_ifs
          · rfl
          · rfl
      rwa [hcache]
  | insert i order =>
      obtain ⟨token, encoded, out_cap, hi, hlength, htotal⟩ := insert_size h hwithin hs
      obtain ⟨hentries, hbytes⟩ := hroom token encoded out_cap hi
      rw [over_limits_eq_false, hlength, htotal]
      exact ⟨hentries, hbytes⟩
  | cached payload out_cap =>
      have hbefore := over_limits_eq_false.mp hwithin
      -- taking an entry out cannot push the cache over its limits
      have herase : ∀ token, over_limits (s.cache.erase token) = false := by
        intro token
        rw [over_limits_eq_false]
        have hsublist := List.kerase_sublist token s.cache.entries
        refine ⟨hsublist.length_le.trans hbefore.1, le_trans ?_ hbefore.2⟩
        apply List.Sublist.sum_le_sum
        · exact (hsublist.map _).map _
        · exact fun n _ => Nat.zero_le n
      rcases cached_eq_some hs with rfl | ⟨token, entry, -, -, ⟨-, rfl⟩ | ⟨-, rfl⟩⟩
      · exact hwithin
      · exact herase token
      · exact herase token
  | put_back i =>
      rw [State.step, put_back_eq_none h] at hs
      cases hs

/-- An insertion that stays within the limits had room. -/
theorem room_of_within (h : Inv s) (hwithin : over_limits s.cache = false) {a : Label}
    (hs : s.step a = some s') (hafter : over_limits s'.cache = false) : Room s a := by
  cases a with
  | insert i order =>
      obtain ⟨token, encoded, out_cap, hi, hlength, htotal⟩ := insert_size h hwithin hs
      rw [over_limits_eq_false, hlength, htotal] at hafter
      intro token' encoded' out_cap' hi'
      obtain ⟨-, rfl, -⟩ := Call.overflowing.inj (Option.some.inj (hi.symm.trans hi'))
      exact hafter
  | elapse => trivial
  | dispatch => trivial
  | cached => trivial
  | put_back => trivial

/-- Within its limits, a cache that keeps the invariant is sound. -/
theorem Inv.sound (h : Inv s) (hwithin : over_limits s.cache = false) : Sound s :=
  ⟨(over_limits_eq_false.mp hwithin).1, (over_limits_eq_false.mp hwithin).2, h.right, h.once⟩

/-- **The cache keeps its limits**, and serves each token its response once, in exactly the runs in
which every insertion finds room; as long as no token is given out a second time. -/
theorem sound_iff_room {l : List Label} {t : State} (hrun : Machine.run State.step init l = some t)
    (hfresh : Machine.Along State.step Fresh init l) :
    (∀ n u, Machine.run State.step init (l.take n) = some u → Sound u) ↔
      Machine.Along State.step Room init l := by
  have hinv_within : ∀ s a s', Inv s ∧ over_limits s.cache = false → Fresh s a ∧ Room s a →
      State.step s a = some s' → Inv s' ∧ over_limits s'.cache = false :=
    fun s a s' h hC hs => ⟨inv_step h.1 hC.1 hs, within_step h.1 h.2 hC.2 hs⟩
  have hinit : Inv init ∧ over_limits init.cache = false := ⟨inv_init, rfl⟩
  constructor
  · intro hall
    by_contra hno
    -- the first insertion without room leads out of the limits
    obtain ⟨l₁, a, l₂, s, rfl, hal, hs, hviol⟩ := Machine.exists_first_violation hno
    have hboth := Machine.along_and (Machine.along_append.mp hfresh).1 hal
    obtain ⟨hinv, hwithin⟩ := Machine.along_invariant hinv_within hinit hboth hs
    rw [Machine.run_append hs] at hrun
    obtain ⟨u, hu, -⟩ := Machine.run_cons_eq_some.mp hrun
    have hsound : Sound u := by
      apply hall (l₁.length + 1)
      rw [List.take_append, List.take_of_length_le (Nat.le_succ _), Nat.add_sub_cancel_left]
      exact Machine.run_append_singleton hs hu
    exact hviol (room_of_within hinv hwithin hu (over_limits_eq_false.mpr ⟨hsound.entries, hsound.bytes⟩))
  · intro hroom n u hu
    obtain ⟨hinv, hwithin⟩ :=
      Machine.along_invariant_take hinv_within hinit (Machine.along_and hfresh hroom) hu
    exact hinv.sound hwithin

/-- The response of `next_chunk` to a read of zero bytes, `n` characters of base64. -/
def chunk_response (n : ℕ) : List UInt8 :=
  "\x7b\"ok\":\x7b\"chunk\":\"".toUTF8.data.toList ++ List.replicate n 65 ++ "\"\x7d\x7d".toUTF8.data.toList

/-- A response is its chunk and nineteen bytes more. -/
theorem length_chunk_response (n : ℕ) : (chunk_response n).length = n + 19 := by
  have hbefore : "\x7b\"ok\":\x7b\"chunk\":\"".toUTF8.data.toList.length = 16 := by decide +kernel
  have hafter : "\"\x7d\x7d".toUTF8.data.toList.length = 3 := by decide +kernel
  rw [chunk_response, List.length_append, List.length_append, List.length_replicate, hbefore, hafter]
  omega

/-- Two chunks are kept, and the second one is asked for again. -/
def kept_chunks : List Label :=
  [.dispatch (some (chunk_response 4)) 16, .insert 0 ∅, .dispatch (some (chunk_response 8)) 16,
    .insert 1 (AList.singleton 1 ⟨chunk_response 4, 0⟩), .cached (to_le_bytes 2) 27]

theorem kept_chunks_sound : ∃ t, Machine.run State.step init kept_chunks = some t ∧
    t.fetched = [(2, chunk_response 8)] ∧ Sound t := by
  have hrun : ∃ t, Machine.run State.step init kept_chunks = some t ∧
      t.fetched = [(2, chunk_response 8)] := ⟨_, rfl, rfl⟩
  obtain ⟨t, ht, hfetched⟩ := hrun
  have hfresh : Machine.Along State.step Fresh init kept_chunks := by
    refine ⟨fun _ => List.not_mem_nil, fun s₁ h₁ => ⟨trivial, fun s₂ h₂ => ⟨fun _ => ?_, ?_⟩⟩⟩
    · obtain rfl := Option.some.inj h₁
      obtain rfl := Option.some.inj h₂
      decide
    · exact fun _ _ => ⟨trivial, fun _ _ => ⟨trivial, fun _ _ => trivial⟩⟩
  have hroom : Machine.Along State.step Room init kept_chunks := by
    refine ⟨trivial, fun s₁ h₁ => ⟨?_, fun s₂ h₂ => ⟨trivial, fun s₃ h₃ => ⟨?_, ?_⟩⟩⟩⟩
    · obtain rfl := Option.some.inj h₁
      intro token encoded out_cap hi
      cases hi
      decide +kernel
    · obtain rfl := Option.some.inj h₁
      obtain rfl := Option.some.inj h₂
      obtain rfl := Option.some.inj h₃
      intro token encoded out_cap hi
      cases hi
      decide +kernel
    · exact fun _ _ => ⟨trivial, fun _ _ => trivial⟩
  exact ⟨t, ht, hfetched, (sound_iff_room ht hfresh).mpr hroom 5 t ht⟩

/-- So many equal responses are in the cache. -/
structure Filled (response : List UInt8) (n : ℕ) (s : State) : Prop where
  inv : Inv s
  unlocked : s.lock = none
  now : s.now = 0
  entries : s.cache.entries.length = n
  bytes : total_bytes s.cache = n * response.length
  counter : s.counter.toNat = n + 1
  issued : ∀ token ∈ tokens s.issued, token.toNat ≤ n

/-- At the first instant nothing has expired. -/
theorem live_zero (cache : Cache) : (live 0 cache).entries = cache.entries := by
  apply List.filter_eq_self.mpr
  intro e _
  have hage : 0 - e.2.created < OVERFLOW_TTL := by
    rw [Nat.zero_sub]
    decide
  exact decide_eq_true hage

/-- One more call whose buffer is too small. -/
def overflowing_call (response : List UInt8) (out_cap : ℕ) (s : State) : List Label :=
  [.dispatch (some response) out_cap, .insert s.calls.length s.cache]

theorem filled_succ {response : List UInt8} {out_cap n : ℕ} (hcap : out_cap < response.length)
    (hlimit : OVERFLOW_MAX_ENTRIES * response.length ≤ OVERFLOW_MAX_BYTES)
    (hn : n ≤ OVERFLOW_MAX_ENTRIES) (h : Filled response n s) :
    ∃ t, Machine.run State.step s (overflowing_call response out_cap s) = some t ∧
      Machine.Along State.step Fresh s (overflowing_call response out_cap s) ∧
      Filled response (n + 1) t := by
  have hmax : OVERFLOW_MAX_ENTRIES = 256 := rfl
  -- tokens are issued in order, so the counter's is new
  have hnew : s.counter ∉ tokens s.issued := by
    intro hmem
    have hle := h.issued _ hmem
    rw [h.counter] at hle
    omega
  have hdispatch : s.dispatch (some response) out_cap =
      { s.add (.overflowing s.counter response out_cap) with
        counter := s.counter + 1
        issued := s.issued ++ [(s.counter, response)] } := if_pos hcap
  have hfresh : Fresh s (.dispatch (some response) out_cap) := fun _ => hnew
  have hinv := inv_dispatch h.inv hfresh
  obtain ⟨u, hu⟩ : ∃ u, s.dispatch (some response) out_cap = u := ⟨_, rfl⟩
  rw [hu] at hinv hdispatch
  have hcall : u.calls[s.calls.length]? = some (.overflowing s.counter response out_cap) := by
    rw [hdispatch]
    exact List.getElem?_concat_length
  have hcache : u.cache = s.cache := by rw [hdispatch]; rfl
  have hnow : u.now = 0 := by rw [hdispatch]; exact h.now
  have hunlocked : u.lock = none := by rw [hdispatch]; exact h.unlocked
  have hwithin : over_limits u.cache = false := by
    rw [hcache, over_limits_eq_false, h.bytes]
    exact ⟨h.entries.trans_le hn, (Nat.mul_le_mul_right _ hn).trans hlimit⟩
  -- the lock is free, so the insert goes on; there is room, so it evicts nothing
  have hsome : ∃ t, u.insert s.calls.length s.cache = some t := by
    rw [State.insert, hcall]
    exact ⟨_, if_pos ⟨hunlocked, hcache ▸ List.Perm.refl _⟩⟩
  obtain ⟨t, ht⟩ := hsome
  have hinv' := inv_insert hinv ht
  obtain ⟨token, encoded, out_cap', hi, hlength, htotal⟩ := insert_size hinv hwithin ht
  obtain ⟨-, rfl, -⟩ := Call.overflowing.inj (Option.some.inj (hcall.symm.trans hi))
  have hlive : (live u.now u.cache).entries = s.cache.entries := by
    rw [hnow, hcache]
    exact live_zero s.cache
  -- far below the wrap of the counter
  have hcounter : (s.counter + 1).toNat = n + 1 + 1 := by
    rw [UInt64.toNat_add, h.counter]
    exact Nat.mod_eq_of_lt (by rw [hmax] at hn; exact lt_of_le_of_lt (Nat.add_le_add_right hn 2) (by decide))
  have hrun : Machine.run State.step s (overflowing_call response out_cap s) = some t :=
    Machine.run_cons_eq_some.mpr ⟨u, congrArg some hu, Machine.run_cons_eq_some.mpr ⟨t, ht, rfl⟩⟩
  obtain ⟨_, _, _, -, -, -, rfl⟩ := insert_eq_some ht
  refine ⟨_, hrun, ⟨hfresh, fun _ _ => ⟨trivial, fun _ _ => trivial⟩⟩,
    hinv', hunlocked, hnow, ?_, ?_, ?_, ?_⟩
  · rw [hlength, hlive, h.entries]
  · rw [htotal, total_bytes, AList.values, hlive, Nat.succ_mul]
    exact congrArg (· + response.length) h.bytes
  · rw [hdispatch]
    exact hcounter
  · intro token hmem
    rw [hdispatch] at hmem
    have hsplit : token ∈ tokens (s.issued ++ [(s.counter, response)]) := hmem
    rw [tokens, List.map_append] at hsplit
    rcases List.mem_append.mp hsplit with hmem | hmem
    · exact (h.issued token hmem).trans (Nat.le_succ n)
    · rw [List.mem_singleton.mp hmem]
      exact h.counter.le

/-- **A cache of 256 entries takes one more**: the adapter's buffers have 128 KiB, and 257
chunks of 96 KiB, each of which is 131091 bytes as a response, are read at a time. -/
theorem cache_exceeds_limit :
    ¬ ∀ l t, Machine.run State.step init l = some t → Machine.Along State.step Fresh init l → Sound t := by
  have hlength : (chunk_response (128 * 1024)).length = 131091 := length_chunk_response _
  obtain ⟨response, hresponse⟩ : ∃ r, chunk_response (128 * 1024) = r := ⟨_, rfl⟩
  rw [hresponse] at hlength
  have hcap : 128 * 1024 < response.length := by rw [hlength]; decide
  have hlimit : OVERFLOW_MAX_ENTRIES * response.length ≤ OVERFLOW_MAX_BYTES := by
    rw [hlength]
    decide
  have hfill : ∀ n ≤ OVERFLOW_MAX_ENTRIES + 1, ∃ l t, Machine.run State.step init l = some t ∧
      Machine.Along State.step Fresh init l ∧ Filled response n t := by
    intro n
    induction n with
    | zero =>
        intro _
        refine ⟨[], init, rfl, trivial, inv_init, rfl, rfl, rfl, ?_, rfl, ?_⟩
        · exact (Nat.zero_mul _).symm
        · exact fun token hmem => absurd hmem List.not_mem_nil
    | succ n ih =>
        intro hle
        obtain ⟨l, s, hl, hfresh, hfilled⟩ := ih (Nat.le_of_succ_le hle)
        obtain ⟨t, ht, hnext, hfilled'⟩ :=
          filled_succ hcap hlimit (Nat.le_of_succ_le_succ hle) hfilled
        refine ⟨l ++ overflowing_call response (128 * 1024) s, t, ?_, ?_, hfilled'⟩
        · rw [Machine.run_append hl]
          exact ht
        · rw [Machine.along_append]
          refine ⟨hfresh, fun u hu => ?_⟩
          rw [hl, Option.some.injEq] at hu
          exact hu ▸ hnext
  intro hall
  obtain ⟨l, t, hl, hfresh, hfilled⟩ := hfill _ le_rfl
  have hentries := (hall l t hl hfresh).entries
  rw [hfilled.entries] at hentries
  omega

/-! ## A buffer that is too small -/

/-- Nothing gets at the cache once a retrieval waits for its own guard. -/
theorem locked_step {a : Label} (hlock : s.lock ≠ none) (hs : s.step a = some s') :
    s'.lock = s.lock ∧ s'.cache = s.cache ∧ s'.fetched = s.fetched := by
  cases a with
  | elapse d =>
      obtain rfl := Option.some.inj hs
      exact ⟨rfl, rfl, rfl⟩
  | dispatch response out_cap =>
      obtain rfl := Option.some.inj hs
      rw [State.dispatch.eq_def]
      split
      · exact ⟨rfl, rfl, rfl⟩
      · split_ifs
        · exact ⟨rfl, rfl, rfl⟩
        · exact ⟨rfl, rfl, rfl⟩
  | insert i order =>
      obtain ⟨_, _, _, -, hfree, -⟩ := insert_eq_some hs
      exact absurd hfree hlock
  | cached payload out_cap =>
      rcases cached_eq_some hs with rfl | ⟨_, _, -, hfree, -⟩
      · exact ⟨rfl, rfl, rfl⟩
      · exact absurd hfree hlock
  | put_back i =>
      rw [State.step, State.put_back] at hs
      split at hs
      next => rw [if_neg hlock] at hs; cases hs
      next => cases hs

/-- **A retrieval whose buffer is too small** takes the cache with it, for good. -/
theorem locked_run {l : List Label} {t : State} (hlock : s.lock ≠ none)
    (hrun : Machine.run State.step s l = some t) :
    t.lock = s.lock ∧ t.cache = s.cache ∧ t.fetched = s.fetched := by
  have hstep : ∀ u a u', (u.lock = s.lock ∧ u.cache = s.cache ∧ u.fetched = s.fetched) →
      State.step u a = some u' → u'.lock = s.lock ∧ u'.cache = s.cache ∧ u'.fetched = s.fetched := by
    intro u a u' h hu
    obtain ⟨h₁, h₂, h₃⟩ := locked_step (h.1 ▸ hlock) hu
    exact ⟨h₁.trans h.1, h₂.trans h.2.1, h₃.trans h.2.2⟩
  exact Machine.run_invariant hstep ⟨rfl, rfl, rfl⟩ hrun

end IrohHttp.Overflow
