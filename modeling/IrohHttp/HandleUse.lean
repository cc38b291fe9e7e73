/-
Which handles a TTL sweep spares: `Timed::last_accessed` in
`iroh-http-core/src/ffi/handles.rs`, followed over whole runs.

The store keeps one timestamp for each entry. `Usage` runs the store beside two
records the store does not have: when each key was last refreshed -- by its
insertion or by one of the three body accessors, which are the only operations
that touch -- and every use of a live handle, with the time at which the call
was answered once it has been. `current_step` says that the timestamp is the
first record. What a sweep does to a handle is then a comparison of the two.
-/
import IrohHttp.HandleRuns

set_option autoImplicit false

namespace IrohHttp.Handles

open SlotMap

/-! ## Uses and refreshes -/

section Operations

variable {R : Registry → Type}

/-- The handle an operation uses: its registry, the handle, and the number of
the call when the operation only starts one. -/
def StoreOp.use : StoreOp R → Option (Registry × ℕ × Option ℕ)
  | .next_chunk call h => some (.readers, h, some call)
  | .try_next_chunk call h => some (.readers, h, some call)
  | .send_chunk call h => some (.writers, h, some call)
  | .lookup_session h => some (.sessions, h, none)
  | .cancel_in_flight token => some (.fetch_cancels, token, none)
  | .get_fetch_cancel_notify token => some (.fetch_cancels, token, none)
  -- the request heads are not in the list: nothing looks one up without taking it
  | _ => none

/-- The call an operation answers. -/
def StoreOp.ends : StoreOp R → Option ℕ
  | .next_chunk_done call _ _ => some call
  | .send_chunk_done call _ => some call
  | _ => none

/-- The handle whose entry an operation touches. -/
def StoreOp.touches : StoreOp R → Option (Registry × ℕ)
  | .next_chunk _ h => some (.readers, h)
  | .try_next_chunk _ h => some (.readers, h)
  | .send_chunk _ h => some (.writers, h)
  | _ => none

end Operations

/-- One use of a live handle. `ended` is `none` while the call is in progress. -/
structure Use (K : Type) where
  registry : Registry
  key : K
  call : Option ℕ
  started : Instant
  ended : Option Instant
  deriving DecidableEq

namespace Use

variable {K : Type}

/-- The use happened, or was still in progress, at most `ttl` before `now`. -/
def Within (u : Use K) (ttl : Duration) (now : Instant) : Prop :=
  now - u.started ≤ ttl ∨ ∀ answered, u.ended = some answered → now - answered ≤ ttl

/-- Record the answer to call `c`. -/
def close (c : Option ℕ) (now : Instant) (u : Use K) : Use K :=
  if c.isSome && decide (u.call = c) && u.ended.isNone then { u with ended := some now } else u

end Use

/-! ## Runs with their uses -/

section Runs

variable {K : Type} {M : Type → Type} [SlotMap K M] [DecidableEq K] {R : Registry → Type}

/-- Whether an operation inserts key `k` of registry `i`, or touches it. -/
def refreshes (s : HandleStore M R) (op : StoreOp R) (now : Instant) (i : Registry) (k : K) :
    Bool :=
  ((perform s op now).1.toList ++ op.touches.toList).any fun p =>
    decide (p.1 = i ∧ handle_to_key M p.2 = k)

/-- A store with the last refresh of each key and the uses made so far. -/
structure Usage (M : Type → Type) (K : Type) (R : Registry → Type) where
  store : HandleStore M R
  refreshed : Registry → K → Option Instant
  uses : List (Use K)

namespace Usage

/-- An empty store. -/
def start (config : StoreConfig) : Usage M K R :=
  ⟨HandleStore.new config, fun _ _ => none, []⟩

/-- The use an operation makes, when the handle it names is live. -/
def use_of (s : HandleStore M R) (op : StoreOp R) (now : Instant) : Option (Use K) :=
  match op.use with
  | some (i, h, call) =>
    if (s.entry i h).isSome then
      some ⟨i, handle_to_key M h, call, now, if call.isSome then none else some now⟩
    else none
  | none => none

/-- One operation, with the uses that it begins, refreshes and ends written down. -/
def step (t : Usage M K R) (a : Instant × StoreOp R) : Usage M K R where
  store := (perform t.store a.2 a.1).2
  refreshed := fun i k =>
    if refreshes t.store a.2 a.1 i k then some a.1 else t.refreshed i k
  uses := t.uses.map (Use.close a.2.ends a.1) ++ (use_of t.store a.2 a.1).toList

/-- A use of this handle happened, or was in progress, within the TTL. -/
def InUse (t : Usage M K R) (i : Registry) (h : ℕ) (ttl : Duration) (now : Instant) : Prop :=
  ∃ u ∈ t.uses, u.registry = i ∧ u.key = handle_to_key M h ∧ u.Within ttl now

/-- The most recent insertion or touch of this handle was within the TTL. -/
def Refreshed (t : Usage M K R) (i : Registry) (h : ℕ) (ttl : Duration) (now : Instant) : Prop :=
  ∃ stamp, t.refreshed i (handle_to_key M h) = some stamp ∧ now - stamp ≤ ttl

/-- The sweeps among the steps leave every live handle in use where it is. -/
def Spares (t : Usage M K R) (a : Instant × StoreOp R) : Prop :=
  ∀ i ttl, a.2 = .sweep i ttl → ∀ h, (t.store.entry i h).isSome = true →
    t.InUse i h ttl a.1 → ((t.step a).store.entry i h).isSome = true

/-- At the sweeps among the steps, every live handle in use has been refreshed
within the TTL. -/
def UsesRefreshed (t : Usage M K R) (a : Instant × StoreOp R) : Prop :=
  ∀ i ttl, a.2 = .sweep i ttl → ∀ h, (t.store.entry i h).isSome = true →
    t.InUse i h ttl a.1 → t.Refreshed i h ttl a.1

/-! ## The timestamp is the last refresh -/

/-- What an operation leaves in a registry was there before, or carries the
time of the operation, which then refreshed it. -/
def Stamped (s : HandleStore M R) (op : StoreOp R) (now : Instant) (s' : HandleStore M R) : Prop :=
  ∀ j k e, get (s'.registry j) k = some e →
    (refreshes s op now j k = true ∧ e.last_accessed = now) ∨
    (refreshes s op now j k = false ∧ get (s.registry j) k = some e)

/-- Whether `(i, h)` is key `k` of registry `j`. -/
theorem refreshes_eq_true {s : HandleStore M R} {op : StoreOp R} {now : Instant} {j : Registry}
    {k : K} : refreshes s op now j k = true ↔ ∃ h, handle_to_key M h = k ∧
      ((perform s op now).1 = some (j, h) ∨ op.touches = some (j, h)) := by
  simp only [refreshes, List.any_eq_true, List.mem_append, Option.mem_toList, decide_eq_true_eq,
    Prod.exists]
  constructor
  · rintro ⟨i, h, hmem, rfl, rfl⟩
    exact ⟨h, rfl, hmem⟩
  · rintro ⟨h, rfl, hmem⟩
    exact ⟨j, h, hmem, rfl, rfl⟩

/-- An operation that issues nothing and touches nothing only has to leave what
was there. -/
theorem stamped_of_kept {s s' : HandleStore M R} {op : StoreOp R} {now : Instant}
    (hout : (perform s op now).1 = none) (htouch : op.touches = none)
    (hkeep : ∀ j k e, get (s'.registry j) k = some e → get (s.registry j) k = some e) :
    Stamped s op now s' := by
  intro j k e he
  refine .inr ⟨?_, hkeep j k e he⟩
  rw [Bool.eq_false_iff, ne_eq, refreshes_eq_true]
  rintro ⟨h, -, hmem⟩
  rw [hout, htouch] at hmem
  rcases hmem with hmem | hmem <;> cases hmem

omit [DecidableEq K] in
/-- A registry that only loses entries. -/
theorem kept_set {s : HandleStore M R} {i : Registry} {reg : M (Timed (R i))}
    (h : ∀ k e, get reg k = some e → get (s.registry i) k = some e) (j : Registry) (k : K)
    (e : Timed (R j)) (he : get ((s.set i reg).registry j) k = some e) :
    get (s.registry j) k = some e := by
  by_cases hj : j = i
  · subst hj
    rw [HandleStore.set_registry_self] at he
    exact h k e he
  · rwa [HandleStore.set_registry_of_ne s reg hj] at he

omit [DecidableEq K] in
theorem kept_remove_from (s : HandleStore M R) (i : Registry) (h : ℕ) (j : Registry) (k : K)
    (e : Timed (R j)) (he : get ((s.remove_from i h).2.registry j) k = some e) :
    get (s.registry j) k = some e := by
  refine kept_set (fun k e he => ?_) j k e he
  by_cases hk : k = handle_to_key M h
  · rw [hk, get_remove_self] at he
    cases he
  · rwa [get_remove_of_ne hk] at he

/-- A sweep stamps nothing. -/
theorem stamped_sweep (s : HandleStore M R) (i : Registry) (ttl : Duration) (now : Instant) :
    Stamped s (.sweep i ttl) now (s.sweep_one i ttl now) := by
  rw [HandleStore.sweep_one_eq]
  refine stamped_of_kept rfl rfl (kept_set fun k e he => ?_)
  rw [get_sweep_registry, Option.filter_eq_some_iff] at he
  exact he.1

/-- An access stamps its entry. -/
theorem stamped_access (s : HandleStore M R) (op : StoreOp R) (i : Registry) (h : ℕ)
    (now : Instant) (hout : (perform s op now).1 = none) (htouch : op.touches = some (i, h)) :
    Stamped s op now (s.access i h now).2 := by
  intro j k e he
  have hiff : refreshes s op now j k = true ↔ i = j ∧ handle_to_key M h = k := by
    simp only [refreshes_eq_true, hout, htouch, reduceCtorEq, false_or, Option.some.injEq,
      Prod.mk.injEq]
    constructor
    · rintro ⟨g, rfl, rfl, rfl⟩
      exact ⟨rfl, rfl⟩
    · rintro ⟨rfl, rfl⟩
      exact ⟨h, rfl, rfl, rfl⟩
  unfold HandleStore.access at he
  by_cases hhit : i = j ∧ handle_to_key M h = k
  · refine .inl ⟨hiff.mpr hhit, ?_⟩
    obtain ⟨rfl, rfl⟩ := hhit
    cases hentry : s.entry i h with
    | none =>
        -- a handle that does not resolve is not touched, so nothing is there
        rw [hentry] at he
        exact absurd (hentry.symm.trans he) (by simp)
    | some e₀ =>
        rw [hentry] at he
        dsimp only at he
        rw [HandleStore.set_registry_self, get_modify_self, Option.map_eq_some_iff] at he
        obtain ⟨e₁, -, rfl⟩ := he
        rfl
  · refine .inr ⟨Bool.eq_false_iff.mpr fun ht => hhit (hiff.mp ht), ?_⟩
    cases hentry : s.entry i h with
    | none => rwa [hentry] at he
    | some e₀ =>
        rw [hentry] at he
        dsimp only at he
        by_cases hj : j = i
        · subst hj
          rw [HandleStore.set_registry_self,
            get_modify_of_ne (fun hk => hhit ⟨rfl, hk.symm⟩)] at he
          exact he
        · rwa [HandleStore.set_registry_of_ne s _ hj] at he

/-- An insertion stamps the new entry. -/
theorem stamped_insert (s : HandleStore M R) (op : StoreOp R) (i : Registry) (v : R i)
    (now : Instant) (htouch : op.touches = none)
    (hperf : perform s op now = issue i (s.insert_into i v now)) :
    Stamped s op now (s.insert_into i v now).2 := by
  unfold HandleStore.insert_into insert_checked at hperf ⊢
  by_cases hroom : s.config.max_handles ≤ len (s.registry i)
  · rw [if_pos hroom] at hperf ⊢
    refine stamped_of_kept ?_ htouch (kept_set fun k e he => he)
    rw [hperf]
    rfl
  · rw [if_neg hroom] at hperf ⊢
    dsimp only at hperf ⊢
    intro j k e he
    have hnew : Issued (insert (s.registry i) (Timed.new v now)).2
        (insert (s.registry i) (Timed.new v now)).1 := (issued_insert _ _ _).mpr (.inl rfl)
    -- the handle returned decodes to the key just issued and to no other
    have hiff : refreshes s op now j k = true ↔
        i = j ∧ (insert (s.registry i) (Timed.new v now)).1 = k := by
      simp only [refreshes_eq_true, hperf, issue, Except.toOption, Option.map_some, htouch,
        reduceCtorEq, or_false, Option.some.injEq, Prod.mk.injEq]
      constructor
      · rintro ⟨g, rfl, rfl, rfl⟩
        exact ⟨rfl, (from_as_ffi _ _ hnew).symm⟩
      · rintro ⟨rfl, rfl⟩
        exact ⟨_, from_as_ffi _ _ hnew, rfl, rfl⟩
    by_cases hhit : i = j ∧ (insert (s.registry i) (Timed.new v now)).1 = k
    · refine .inl ⟨hiff.mpr hhit, ?_⟩
      obtain ⟨rfl, rfl⟩ := hhit
      rw [HandleStore.set_registry_self, get_insert_self, Option.some.injEq] at he
      rw [← he]
      rfl
    · refine .inr ⟨Bool.eq_false_iff.mpr fun ht => hhit (hiff.mp ht), ?_⟩
      by_cases hj : j = i
      · subst hj
        rwa [HandleStore.set_registry_self,
          get_insert_of_ne (fun hk => hhit ⟨rfl, hk.symm⟩)] at he
      · rwa [HandleStore.set_registry_of_ne s _ hj] at he

/-- **Every operation stamps what it refreshes and nothing else.** -/
theorem stamped_perform (s : HandleStore M R) (op : StoreOp R) (now : Instant) :
    Stamped s op now (perform s op now).2 := by
  cases op with
  | insert_reader v => exact stamped_insert s _ .readers v now rfl rfl
  | insert_writer v => exact stamped_insert s _ .writers v now rfl rfl
  | insert_session v => exact stamped_insert s _ .sessions v now rfl rfl
  | allocate_req_handle v => exact stamped_insert s _ .request_heads v now rfl rfl
  | alloc_fetch_token v => exact stamped_insert s _ .fetch_cancels v now rfl rfl
  | next_chunk c h => exact stamped_access s _ .readers h now rfl rfl
  | try_next_chunk c h => exact stamped_access s _ .readers h now rfl rfl
  | send_chunk c h => exact stamped_access s _ .writers h now rfl rfl
  | next_chunk_done c h eof =>
      refine stamped_of_kept rfl rfl ?_
      simp only [perform, HandleStore.next_chunk_done]
      split
      · exact kept_remove_from s .readers h
      · exact fun _ _ _ he => he
  | finish_body h =>
      refine stamped_of_kept rfl rfl ?_
      simp only [perform, HandleStore.finish_body_snd]
      exact kept_remove_from s .writers h
  | cancel_reader h => exact stamped_of_kept rfl rfl (kept_remove_from s .readers h)
  | remove_session h => exact stamped_of_kept rfl rfl (kept_remove_from s .sessions h)
  | take_req_sender h => exact stamped_of_kept rfl rfl (kept_remove_from s .request_heads h)
  | remove_fetch_token h => exact stamped_of_kept rfl rfl (kept_remove_from s .fetch_cancels h)
  | sweep i ttl => exact stamped_sweep s i ttl now
  | store_pending_reader h r => exact stamped_of_kept rfl rfl fun _ _ _ he => he
  | claim_pending_reader h => exact stamped_of_kept rfl rfl fun _ _ _ he => he
  | send_chunk_done c h => exact stamped_of_kept rfl rfl fun _ _ _ he => he
  | lookup_session h => exact stamped_of_kept rfl rfl fun _ _ _ he => he
  | cancel_in_flight t => exact stamped_of_kept rfl rfl fun _ _ _ he => he
  | get_fetch_cancel_notify t => exact stamped_of_kept rfl rfl fun _ _ _ he => he
  | sweep_pending_readers ttl => exact stamped_of_kept rfl rfl fun _ _ _ he => he

/-- The timestamp in every live entry is the last refresh of its key. -/
def Current (t : Usage M K R) : Prop :=
  ∀ j k e, get (t.store.registry j) k = some e → t.refreshed j k = some e.last_accessed

omit [DecidableEq K] in
theorem current_start (config : StoreConfig) : Current (start config : Usage M K R) := by
  intro j k e he
  exact absurd he (by simp [start, HandleStore.new, get_with_key])

/-- **One operation** keeps the record of the stamps. -/
theorem current_step {t : Usage M K R} (h : Current t) (a : Instant × StoreOp R) :
    Current (t.step a) := by
  intro j k e he
  rcases stamped_perform t.store a.2 a.1 j k e he with ⟨href, hstamp⟩ | ⟨href, hold⟩
  · simp only [step, href, if_true, hstamp]
  · simp only [step, href, Bool.false_eq_true, if_false]
    exact h j k e hold

/-! ## What a sweep spares -/

/-- A sweep leaves a live handle exactly when it was refreshed within the TTL. -/
theorem sweep_spares_iff {t : Usage M K R} (hc : Current t) (i : Registry) (ttl : Duration)
    (now : Instant) (h : ℕ) (hlive : (t.store.entry i h).isSome = true) :
    ((t.step (now, .sweep i ttl)).store.entry i h).isSome = true ↔ t.Refreshed i h ttl now := by
  obtain ⟨e, he⟩ := Option.isSome_iff_exists.mp hlive
  have hstamp : t.refreshed i (handle_to_key M h) = some e.last_accessed := hc i _ e he
  have hafter : (t.step (now, .sweep i ttl)).store.entry i h
      = (some e).filter fun e => !e.is_expired ttl now := by
    simp only [step, perform, HandleStore.entry, HandleStore.sweep_one_eq,
      HandleStore.set_registry_self, get_sweep_registry]
    rw [← he]
    rfl
  -- an entry is left exactly when its timestamp is not older than the TTL
  rw [hafter, Option.isSome_filter]
  simp only [Refreshed, hstamp, Option.some.injEq, exists_eq_left', Option.any_some,
    Timed.is_expired, Bool.not_eq_true', decide_eq_false_iff_not, not_lt]

/-- **A sweep spares what is in use** exactly if each use was refreshed. -/
theorem spares_iff_usesRefreshed {t : Usage M K R} (hc : Current t) (a : Instant × StoreOp R) :
    Spares t a ↔ UsesRefreshed t a := by
  obtain ⟨now, op⟩ := a
  unfold Spares UsesRefreshed
  constructor
  · rintro h i ttl rfl g hlive huse
    exact (sweep_spares_iff hc i ttl now g hlive).mp (h i ttl rfl g hlive huse)
  · rintro h i ttl rfl g hlive huse
    exact (sweep_spares_iff hc i ttl now g hlive).mpr (h i ttl rfl g hlive huse)

/-- **Which runs keep what is in use.** Every sweep of a run spares every live
handle in use exactly when, at every sweep, those handles have been inserted or
touched within the TTL. -/
theorem sweeps_spare_uses_iff_refreshed (config : StoreConfig)
    (ops : List (Instant × StoreOp R)) :
    Machine.Along (fun t a => some (step t a)) Spares (start config : Usage M K R) ops ↔
      Machine.Along (fun t a => some (step t a)) UsesRefreshed (start config : Usage M K R) ops := by
  refine Machine.along_congr (P := Current) ?_ ?_ (current_start config)
  · intro t a t' ht heq
    rw [Option.some.injEq] at heq
    exact heq ▸ current_step ht a
  · intro t a ht
    exact spares_iff_usesRefreshed ht a

/-- A session looked up two ticks before the sweep is removed by it, because
`lookup_session` does not touch. -/
theorem session_in_use_is_swept :
    ¬ ∀ (config : StoreConfig) (ops : List (Instant × StoreOp fun _ => Unit)),
      Machine.Along (fun t a => some (step t a)) Spares
        (start config : Usage Slots SlotKey fun _ => Unit) ops := by
  intro h
  have hrun := h {} [(0, .insert_session ()), (8, .lookup_session (2 ^ 32 + 1)),
    (10, .sweep .sessions 5)]
  have hsweep := ((hrun.2 _ rfl).2 _ rfl).1 .sessions 5 rfl (2 ^ 32 + 1) (by decide)
  -- the lookup is in the record of uses, and the sweep comes two ticks later
  have hswept := hsweep ⟨⟨.sessions, handle_to_key Slots (2 ^ 32 + 1), none, 8, some 8⟩,
    by decide, rfl, rfl, .inl (by decide)⟩
  revert hswept
  decide

end Usage

end Runs

end IrohHttp.Handles
