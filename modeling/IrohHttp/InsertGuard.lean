/-
`InsertGuard` of `iroh-http-core/src/ffi/handles.rs`, and the capacity of the
registries.

A request needs several handles at once, a reader, a writer and a response head,
and each comes out of its own registry with its own capacity check. The guard
remembers what it has inserted and takes it back when it is dropped before
`commit`, by a different function for each kind: `cancel_reader`, `finish_body`
and a bare removal.

`allocate_guarded` is every use of a guard: any list of insertions, of which the
first failure ends the sequence, and a commit that is reached or not. The three
uses in the source (`dispatch`, `wrap_bidi_stream`, `package_response`) are three
such lists. `Spares` is for a guard with other tasks between its insertions, as
`Dispatcher.lean` has it. Registries are compared by their entries: a rollback puts a slot back on
the free list, so the slot map itself does not return to what it was.
-/
import IrohHttp.HandleRuns

set_option autoImplicit false

namespace IrohHttp.Handles

open SlotMap

section Guard

variable {K : Type} {M : Type → Type} [SlotMap K M] {R : Registry → Type}

/-! ## The guard -/

/-- A handle the guard removes when it is dropped uncommitted. -/
inductive TrackedHandle
  | Reader (h : ℕ)
  | Writer (h : ℕ)
  | ReqHead (h : ℕ)
  deriving DecidableEq, Repr

/-- The registry and handle a tracked handle names. -/
def TrackedHandle.names : TrackedHandle → Registry × ℕ
  | .Reader h => (.readers, h)
  | .Writer h => (.writers, h)
  | .ReqHead h => (.request_heads, h)

/-- One arm of the guard's drop. -/
def TrackedHandle.release (s : HandleStore M R) : TrackedHandle → HandleStore M R
  | .Reader h => (s.cancel_reader h).2
  | .Writer h => (s.finish_body h).2
  | .ReqHead h => (s.remove_from .request_heads h).2

/-- Drop an uncommitted guard. -/
def rollback (s : HandleStore M R) (tracked : List TrackedHandle) : HandleStore M R :=
  tracked.foldl TrackedHandle.release s

/-- The guard: the store, what it has tracked, and whether it was committed. -/
structure InsertGuard (M : Type → Type) (R : Registry → Type) where
  store : HandleStore M R
  tracked : List TrackedHandle
  committed : Bool

namespace InsertGuard

/-- `InsertGuard::new` -/
def new (store : HandleStore M R) : InsertGuard M R := ⟨store, [], false⟩

/-- Track the handle of an insertion that succeeded. -/
def tracking (g : InsertGuard M R) (track : ℕ → TrackedHandle)
    (r : Except CoreError ℕ × HandleStore M R) : Except CoreError ℕ × InsertGuard M R :=
  match r with
  | (.ok h, s) => (.ok h, { g with store := s, tracked := g.tracked ++ [track h] })
  | (.error e, s) => (.error e, { g with store := s })

/-- `InsertGuard::insert_reader` -/
def insert_reader (g : InsertGuard M R) (reader : R .readers) (now : Instant) :=
  g.tracking .Reader (g.store.insert_reader reader now)

/-- `InsertGuard::insert_writer` -/
def insert_writer (g : InsertGuard M R) (writer : R .writers) (now : Instant) :=
  g.tracking .Writer (g.store.insert_writer writer now)

/-- `InsertGuard::allocate_req_handle` -/
def allocate_req_handle (g : InsertGuard M R) (sender : R .request_heads) (now : Instant) :=
  g.tracking .ReqHead (g.store.allocate_req_handle sender now)

/-- `InsertGuard::commit` -/
def commit (g : InsertGuard M R) : InsertGuard M R := { g with committed := true }

/-- The drop of a guard: what was not committed is taken back. -/
def drop (g : InsertGuard M R) : HandleStore M R :=
  if g.committed then g.store else rollback g.store g.tracked

end InsertGuard

/-! ## Allocations under a guard -/

/-- One insertion through a guard, with the clock reading it makes. -/
inductive GuardedInsert (R : Registry → Type)
  | insert_reader (reader : R .readers) (now : Instant)
  | insert_writer (writer : R .writers) (now : Instant)
  | allocate_req_handle (sender : R .request_heads) (now : Instant)

namespace GuardedInsert

/-- The registry that it inserts into. -/
def registry : GuardedInsert R → Registry
  | .insert_reader _ _ => .readers
  | .insert_writer _ _ => .writers
  | .allocate_req_handle _ _ => .request_heads

/-- The entry it makes. -/
def entry : (a : GuardedInsert R) → Timed (R a.registry)
  | .insert_reader v now => Timed.new v now
  | .insert_writer v now => Timed.new v now
  | .allocate_req_handle v now => Timed.new v now

/-- What the guard tracks of it. -/
def track : GuardedInsert R → ℕ → TrackedHandle
  | .insert_reader _ _ => .Reader
  | .insert_writer _ _ => .Writer
  | .allocate_req_handle _ _ => .ReqHead

/-- The insertion of a guard. -/
def perform (g : InsertGuard M R) : GuardedInsert R → Except CoreError ℕ × InsertGuard M R
  | .insert_reader v now => g.insert_reader v now
  | .insert_writer v now => g.insert_writer v now
  | .allocate_req_handle v now => g.allocate_req_handle v now

/-- The three methods are `insert_checked` on three registries. -/
theorem perform_eq (g : InsertGuard M R) (a : GuardedInsert R) :
    a.perform g =
      g.tracking a.track (g.store.insert_into a.registry a.entry.value a.entry.last_accessed) := by
  cases a with
  | insert_reader v now => rfl
  | insert_writer v now => rfl
  | allocate_req_handle v now => rfl

/-- What is tracked names its entry. -/
theorem track_names (a : GuardedInsert R) (h : ℕ) : (a.track h).names = (a.registry, h) := by
  cases a with
  | insert_reader v now => rfl
  | insert_writer v now => rfl
  | allocate_req_handle v now => rfl

end GuardedInsert

/-- The insertions in order; the first that fails returns, as `?` does. -/
def insert_all (g : InsertGuard M R) :
    List (GuardedInsert R) → Except CoreError (List ℕ) × InsertGuard M R
  | [] => (.ok [], g)
  | a :: rest =>
    match a.perform g with
    | (.error e, g) => (.error e, g)
    | (.ok h, g) =>
      match insert_all g rest with
      | (.error e, g) => (.error e, g)
      | (.ok hs, g) => (.ok (h :: hs), g)

/-- A use of a guard. `commit` is whether the code gets as far as committing once
every insertion has succeeded. -/
def allocate_guarded (s : HandleStore M R) (inserts : List (GuardedInsert R)) (commit : Bool) :
    Except CoreError (List ℕ) × HandleStore M R :=
  match insert_all (InsertGuard.new s) inserts with
  | (.error e, g) => (.error e, g.drop)
  | (.ok hs, g) => (.ok hs, if commit then g.commit.drop else g.drop)

/-! ## What an insertion and a rollback change -/

/-- The entries of two stores are the same, and so is everything beside them. -/
structure SameEntries (s s' : HandleStore M R) : Prop where
  get_eq : ∀ i k, get (s'.registry i) k = get (s.registry i) k
  pending : s'.pending_readers = s.pending_readers
  config : s'.config = s.config

/-- Writing what is there changes nothing. -/
theorem set_self (s : HandleStore M R) (i : Registry) : s.set i (s.registry i) = s := by
  rw [HandleStore.set, Function.update_eq_self]

/-- `insert_checked` by its capacity check. -/
theorem insert_into_cases (s : HandleStore M R) (i : Registry) (v : R i) (now : Instant) :
    (s.config.max_handles ≤ len (s.registry i) ∧
      s.insert_into i v now = (.error (CoreError.internal "handle registry at capacity"), s)) ∨
    (len (s.registry i) < s.config.max_handles ∧
      s.insert_into i v now =
        (.ok (key_to_handle M (insert (s.registry i) (Timed.new v now)).1),
          s.set i (insert (s.registry i) (Timed.new v now)).2)) := by
  by_cases hroom : s.config.max_handles ≤ len (s.registry i)
  · refine .inl ⟨hroom, ?_⟩
    rw [HandleStore.insert_into, insert_checked, if_pos hroom, set_self]
  · refine .inr ⟨Nat.lt_of_not_le hroom, ?_⟩
    rw [HandleStore.insert_into, insert_checked, if_neg hroom]

/-- The handle of a fresh key names that key. -/
theorem handle_to_key_insert {T : Type} (m : M T) (v : T) :
    handle_to_key M (key_to_handle M (insert m v).1) = (insert m v).1 :=
  from_as_ffi (insert m v).2 _ ((issued_insert m v _).mpr (.inl rfl))

/-- A new key was not there before. -/
theorem get_insert_key {T : Type} (m : M T) (v : T) : get m (insert m v).1 = none := by
  cases hk : get m (insert m v).1 with
  | none => rfl
  | some w => exact absurd (issued_of_get m _ w hk) (insert_fresh m v)

/-- The registry and the key a tracked handle names. -/
def tracked_key (M : Type → Type) [SlotMap K M] (t : TrackedHandle) : Registry × K :=
  (t.names.1, handle_to_key M t.names.2)

/-- Each of the three releases removes the entry of its handle and nothing else. -/
theorem release_get (s : HandleStore M R) (t : TrackedHandle) (i : Registry) (k : K) :
    ((i, k) = tracked_key M t → get ((TrackedHandle.release s t).registry i) k = none) ∧
      ((i, k) ≠ tracked_key M t →
        get ((TrackedHandle.release s t).registry i) k = get (s.registry i) k) := by
  have hrel : TrackedHandle.release s t = (s.remove_from t.names.1 t.names.2).2 := by
    cases t with
    | Reader h => rfl
    | Writer h => exact HandleStore.finish_body_snd s h
    | ReqHead h => rfl
  rw [hrel]
  simp only [HandleStore.remove_from]
  constructor
  · intro h
    obtain ⟨rfl, rfl⟩ := Prod.mk.inj h
    rw [HandleStore.set_registry_self, get_remove_self]
  · intro h
    by_cases hi : i = t.names.1
    · subst hi
      rw [HandleStore.set_registry_self]
      exact get_remove_of_ne (fun hk => h (congrArg (Prod.mk t.names.1) hk))
    · rw [HandleStore.set_registry_of_ne s _ hi]

theorem release_frame (s : HandleStore M R) (t : TrackedHandle) :
    (TrackedHandle.release s t).pending_readers = s.pending_readers ∧
      (TrackedHandle.release s t).config = s.config := by
  cases t with
  | Reader h => exact ⟨rfl, rfl⟩
  | Writer h =>
      simp only [TrackedHandle.release, HandleStore.finish_body_snd]
      exact ⟨rfl, rfl⟩
  | ReqHead h => exact ⟨rfl, rfl⟩

/-- **A rollback removes the tracked handles and nothing else**, whatever other
tasks have done to the store since they were inserted. -/
theorem rollback_get (s : HandleStore M R) (tracked : List TrackedHandle) (i : Registry) (k : K) :
    ((i, k) ∈ tracked.map (tracked_key M) → get ((rollback s tracked).registry i) k = none) ∧
      ((i, k) ∉ tracked.map (tracked_key M) →
        get ((rollback s tracked).registry i) k = get (s.registry i) k) := by
  induction tracked generalizing s with
  | nil => exact ⟨fun h => absurd h List.not_mem_nil, fun _ => rfl⟩
  | cons t rest ih =>
      obtain ⟨hmem, hnot⟩ := ih (TrackedHandle.release s t)
      rw [List.map_cons, List.mem_cons]
      constructor
      · rintro (h | h)
        · by_cases hrest : (i, k) ∈ rest.map (tracked_key M)
          · exact hmem hrest
          · -- released first, and nothing after it brings it back
            rw [rollback, List.foldl_cons]
            exact (hnot hrest).trans ((release_get s t i k).1 h)
        · exact hmem h
      · intro h
        rw [not_or] at h
        rw [rollback, List.foldl_cons]
        exact (hnot h.2).trans ((release_get s t i k).2 h.1)

/-- Taking entries back leaves the pending readers and the configuration alone. -/
theorem rollback_frame (s : HandleStore M R) (tracked : List TrackedHandle) :
    (rollback s tracked).pending_readers = s.pending_readers ∧
      (rollback s tracked).config = s.config := by
  induction tracked generalizing s with
  | nil => exact ⟨rfl, rfl⟩
  | cons t rest ih =>
      obtain ⟨hp, hc⟩ := ih (TrackedHandle.release s t)
      obtain ⟨hp', hc'⟩ := release_frame s t
      exact ⟨hp.trans hp', hc.trans hc'⟩

/-! ## The invariant of a guard -/

/-- The registry and the key of an insertion that returned handle `h`. -/
def guarded_key (M : Type → Type) [SlotMap K M] (p : GuardedInsert R × ℕ) : Registry × K :=
  (p.1.registry, handle_to_key M p.2)

/-- `s'` is `s` with exactly the entries of `done` added. -/
structure ExtendedBy (s s' : HandleStore M R) (done : List (GuardedInsert R × ℕ)) : Prop where
  distinct : (done.map (guarded_key M)).Nodup
  fresh : ∀ p ∈ done, s.entry p.1.registry p.2 = none
  present : ∀ p ∈ done, s'.entry p.1.registry p.2 = some p.1.entry
  others : ∀ i k, (i, k) ∉ done.map (guarded_key M) → get (s'.registry i) k = get (s.registry i) k
  pending : s'.pending_readers = s.pending_readers
  config : s'.config = s.config

theorem ExtendedBy.nil (s : HandleStore M R) : ExtendedBy s s [] :=
  ⟨List.nodup_nil, by rintro p ⟨⟩, by rintro p ⟨⟩, fun _ _ _ => rfl, rfl, rfl⟩

/-- An insertion that succeeds adds one entry. -/
theorem ExtendedBy.insert {s s' : HandleStore M R} {done : List (GuardedInsert R × ℕ)}
    (h : ExtendedBy s s' done) (a : GuardedInsert R) :
    let r := SlotMap.insert (s'.registry a.registry) a.entry
    ExtendedBy s (s'.set a.registry r.2) (done ++ [(a, key_to_handle M r.1)]) := by
  intro r
  have hkey : guarded_key M (a, key_to_handle M r.1) = (a.registry, r.1) :=
    congrArg (Prod.mk a.registry) (handle_to_key_insert (s'.registry a.registry) a.entry)
  have habsent : get (s'.registry a.registry) r.1 = none := get_insert_key _ _
  -- the guarded entries are present, so the new key is none of theirs
  have hnew : (a.registry, r.1) ∉ done.map (guarded_key M) := by
    have hnone : ∀ i k, (i, k) = (a.registry, r.1) → get (s'.registry i) k = none := by
      intro i k heq
      obtain ⟨rfl, rfl⟩ := Prod.mk.inj heq
      exact habsent
    intro hmem
    obtain ⟨p, hp, heq⟩ := List.mem_map.mp hmem
    have hpres := h.present p hp
    rw [HandleStore.entry, hnone _ _ heq] at hpres
    cases hpres
  have hkeep : ∀ i k, (i, k) ≠ (a.registry, r.1) →
      get ((s'.set a.registry r.2).registry i) k = get (s'.registry i) k := by
    intro i k hne
    by_cases hi : i = a.registry
    · subst hi
      rw [HandleStore.set_registry_self]
      exact get_insert_of_ne (fun hk => hne (hk ▸ rfl))
    · rw [HandleStore.set_registry_of_ne s' _ hi]
  refine ⟨?_, ?_, ?_, ?_, h.pending, h.config⟩
  · rw [List.map_append, List.map_singleton, hkey]
    exact List.nodup_append_comm.mp (List.nodup_cons.mpr ⟨hnew, h.distinct⟩)
  · intro p hp
    rcases List.mem_append.mp hp with hp | hp
    · exact h.fresh p hp
    · rw [List.mem_singleton.mp hp, HandleStore.entry, handle_to_key_insert]
      exact (h.others _ _ hnew).symm.trans habsent
  · intro p hp
    rcases List.mem_append.mp hp with hp | hp
    · rw [HandleStore.entry, hkeep, ← h.present p hp, HandleStore.entry]
      intro heq
      exact hnew (heq ▸ List.mem_map_of_mem hp)
    · rw [List.mem_singleton.mp hp, HandleStore.entry, handle_to_key_insert,
        HandleStore.set_registry_self]
      exact get_insert_self _ _
  · intro i k hmem
    rw [List.map_append, List.map_singleton, hkey, List.mem_append, List.mem_singleton,
      not_or] at hmem
    rw [hkeep i k hmem.2, h.others i k hmem.1]

/-- A guard over `s` that has made the insertions `done`, each returning the
handle beside it. -/
structure Guarding (s : HandleStore M R) (g : InsertGuard M R)
    (done : List (GuardedInsert R × ℕ)) : Prop where
  extended : ExtendedBy s g.store done
  tracked : g.tracked = done.map fun p => p.1.track p.2
  uncommitted : g.committed = false

theorem guarding_new (s : HandleStore M R) : Guarding s (InsertGuard.new s) [] :=
  ⟨ExtendedBy.nil s, rfl, rfl⟩

/-- One insertion: it succeeds and is tracked, or it changes nothing. -/
theorem Guarding.perform {s : HandleStore M R} {g : InsertGuard M R}
    {done : List (GuardedInsert R × ℕ)} (hg : Guarding s g done) (a : GuardedInsert R) :
    (∃ h g', a.perform g = (.ok h, g') ∧ Guarding s g' (done ++ [(a, h)])) ∨
      ∃ e, a.perform g = (.error e, g) := by
  rw [GuardedInsert.perform_eq]
  obtain ⟨-, heq⟩ | ⟨-, heq⟩ :=
    insert_into_cases g.store a.registry a.entry.value a.entry.last_accessed
  · rw [heq]
    exact .inr ⟨_, rfl⟩
  · rw [heq]
    refine .inl ⟨_, _, rfl, hg.extended.insert a, ?_, hg.uncommitted⟩
    rw [hg.tracked, List.map_append]
    rfl

/-- A sequence of insertions: all of them are tracked, or those before the first
failure are. -/
theorem Guarding.insert_all {s : HandleStore M R} {g : InsertGuard M R}
    {done : List (GuardedInsert R × ℕ)} (hg : Guarding s g done) (l : List (GuardedInsert R)) :
    (∃ hs g', insert_all g l = (.ok hs, g') ∧ hs.length = l.length ∧
      Guarding s g' (done ++ l.zip hs)) ∨
      ∃ e g' done', insert_all g l = (.error e, g') ∧ Guarding s g' done' := by
  induction l generalizing g done with
  | nil => exact .inl ⟨[], g, rfl, rfl, by rw [List.zip_nil_left, List.append_nil]; exact hg⟩
  | cons a l ih =>
      rw [Handles.insert_all]
      obtain ⟨h, g₁, hok, hg₁⟩ | ⟨e, herr⟩ := hg.perform a
      · rw [hok]
        simp only
        obtain ⟨hs, g₂, hoks, hlen, hg₂⟩ | ⟨e, g₂, done', herr, hg₂⟩ := ih hg₁
        · rw [hoks]
          refine .inl ⟨h :: hs, g₂, rfl, congrArg (· + 1) hlen, ?_⟩
          rw [List.zip_cons_cons, List.append_cons]
          exact hg₂
        · rw [herr]
          exact .inr ⟨e, g₂, done', rfl, hg₂⟩
      · rw [herr]
        exact .inr ⟨e, g, done, rfl, hg⟩

/-- An uncommitted guard puts every entry back. -/
theorem Guarding.drop {s : HandleStore M R} {g : InsertGuard M R}
    {done : List (GuardedInsert R × ℕ)} (hg : Guarding s g done) : SameEntries s g.drop := by
  have hdrop : g.drop = rollback g.store g.tracked := by
    rw [InsertGuard.drop, hg.uncommitted, if_neg Bool.false_ne_true]
  have hkeys : g.tracked.map (tracked_key M) = done.map (guarded_key M) := by
    rw [hg.tracked, List.map_map]
    refine List.map_congr_left fun p _ => ?_
    simp only [Function.comp_apply, tracked_key, guarded_key, GuardedInsert.track_names]
  rw [hdrop]
  obtain ⟨hpending, hconfig⟩ := rollback_frame g.store g.tracked
  refine ⟨fun i k => ?_, hpending.trans hg.extended.pending, hconfig.trans hg.extended.config⟩
  obtain ⟨hmem, hnot⟩ := rollback_get g.store g.tracked i k
  rw [hkeys] at hmem hnot
  by_cases hik : (i, k) ∈ done.map (guarded_key M)
  · rw [hmem hik]
    obtain ⟨p, hp, heq⟩ := List.mem_map.mp hik
    obtain ⟨rfl, rfl⟩ := Prod.mk.inj heq
    exact (hg.extended.fresh p hp).symm
  · rw [hnot hik, hg.extended.others i k hik]

/-- **A guard is all or nothing.** A use that commits adds exactly the entries it
inserted; any other leaves every entry as it was. -/
theorem allocate_guarded_cases (s : HandleStore M R) (inserts : List (GuardedInsert R))
    (commit : Bool) :
    (∃ hs, (allocate_guarded s inserts commit).1 = .ok hs ∧ hs.length = inserts.length ∧
      commit = true ∧ ExtendedBy s (allocate_guarded s inserts commit).2 (inserts.zip hs)) ∨
    (((∃ e, (allocate_guarded s inserts commit).1 = .error e) ∨ commit = false) ∧
      SameEntries s (allocate_guarded s inserts commit).2) := by
  rw [allocate_guarded]
  obtain ⟨hs, g, hok, hlen, hg⟩ | ⟨e, g, done, herr, hg⟩ := (guarding_new s).insert_all inserts
  · rw [hok]
    cases commit with
    | true => exact .inl ⟨hs, rfl, hlen, rfl, hg.extended⟩
    | false => exact .inr ⟨.inr rfl, hg.drop⟩
  · rw [herr]
    exact .inr ⟨.inl ⟨e, rfl⟩, hg.drop⟩

/-! ## Other tasks between the insertions -/

/-- Other tasks use the store while the guard is open. -/
def InsertGuard.meanwhile (g : InsertGuard M R) (others : HandleStore M R → HandleStore M R) :
    InsertGuard M R :=
  { g with store := others g.store }

/-- A guard at one key: it tracks the key and has found it unused, or the entry
there is none of its own. `P` is whatever the entry was before the guard, as far as
other tasks keep it. -/
structure Spares (g : InsertGuard M R) (i : Registry) (k : K) (P : Option (Timed (R i)) → Prop) :
    Prop where
  own : (i, k) ∈ g.tracked.map (tracked_key M) → P none
  others : (i, k) ∉ g.tracked.map (tracked_key M) → P (get (g.store.registry i) k)
  uncommitted : g.committed = false

theorem spares_new {s : HandleStore M R} {i : Registry} {k : K} {P : Option (Timed (R i)) → Prop}
    (h : P (get (s.registry i) k)) : Spares (InsertGuard.new s) i k P :=
  ⟨fun hmem => absurd hmem List.not_mem_nil, fun _ => h, rfl⟩

/-- A guarded insertion answers as the store does. -/
theorem store_of_tracking {g g' : InsertGuard M R} {track : ℕ → TrackedHandle}
    {r : Except CoreError ℕ × HandleStore M R} {answer : Except CoreError ℕ}
    (h : g.tracking track r = (answer, g')) : r = (answer, g'.store) := by
  obtain ⟨_ | handle, s⟩ := r <;> cases h <;> rfl

/-- A key that an insertion takes had no entry. -/
theorem Spares.perform {g : InsertGuard M R} {i : Registry} {k : K}
    {P : Option (Timed (R i)) → Prop} (h : Spares g i k P) (a : GuardedInsert R) :
    Spares (a.perform g).2 i k P := by
  rw [GuardedInsert.perform_eq]
  obtain ⟨-, heq⟩ | ⟨-, heq⟩ :=
    insert_into_cases g.store a.registry a.entry.value a.entry.last_accessed
  · rw [heq]
    exact h
  · rw [heq]
    -- the guard tracks the key of the entry that was just inserted
    have hkey : tracked_key M (a.track (key_to_handle M
        (SlotMap.insert (g.store.registry a.registry) a.entry).1)) =
          (a.registry, (SlotMap.insert (g.store.registry a.registry) a.entry).1) := by
      rw [tracked_key, a.track_names]
      exact congrArg (Prod.mk a.registry) (handle_to_key_insert _ _)
    have hkeys : (i, k) ∈ (g.tracked ++ [a.track (key_to_handle M
        (SlotMap.insert (g.store.registry a.registry) a.entry).1)]).map (tracked_key M) ↔
          (i, k) ∈ g.tracked.map (tracked_key M) ∨
            (i, k) = (a.registry, (SlotMap.insert (g.store.registry a.registry) a.entry).1) := by
      rw [List.map_append, List.map_singleton, List.mem_append, List.mem_singleton, hkey]
    refine ⟨fun hmem => ?_, fun hnot => ?_, h.uncommitted⟩
    · by_cases hbefore : (i, k) ∈ g.tracked.map (tracked_key M)
      · exact h.own hbefore
      · -- the key is the new one, and nothing was there
        have hother := h.others hbefore
        obtain ⟨rfl, rfl⟩ := Prod.mk.inj ((hkeys.mp hmem).resolve_left hbefore)
        rw [get_insert_key] at hother
        exact hother
    · obtain ⟨hbefore, hne⟩ := not_or.mp (fun hor => hnot (hkeys.mpr hor))
      have hother := h.others hbefore
      by_cases hi : i = a.registry
      · subst hi
        have hk : k ≠ (SlotMap.insert (g.store.registry a.registry) a.entry).1 :=
          fun hk => hne (congrArg (Prod.mk a.registry) hk)
        show P (get ((g.store.set a.registry _).registry a.registry) k)
        rw [HandleStore.set_registry_self]
        exact (get_insert_of_ne hk) ▸ hother
      · show P (get ((g.store.set a.registry _).registry i) k)
        rw [HandleStore.set_registry_of_ne g.store _ hi]
        exact hother

/-- What others do between two insertions. -/
theorem Spares.meanwhile {g : InsertGuard M R} {i : Registry} {k : K}
    {P : Option (Timed (R i)) → Prop} (h : Spares g i k P)
    {others : HandleStore M R → HandleStore M R}
    (hkeep : P (get (g.store.registry i) k) → P (get ((others g.store).registry i) k)) :
    Spares (g.meanwhile others) i k P :=
  ⟨h.own, fun hnot => hkeep (h.others hnot), h.uncommitted⟩

/-- An insertion spares the entries of others. -/
theorem Spares.performed {g g' : InsertGuard M R} {i : Registry} {k : K}
    {P : Option (Timed (R i)) → Prop} (h : Spares g i k P) (a : GuardedInsert R)
    {answer : Except CoreError ℕ} (hrun : a.perform g = (answer, g')) : Spares g' i k P := by
  have hnext := h.perform a
  rw [hrun] at hnext
  exact hnext

/-- The drop removes what the guard tracks and nothing else. -/
theorem Spares.drop {g : InsertGuard M R} {i : Registry} {k : K}
    {P : Option (Timed (R i)) → Prop} (h : Spares g i k P) : P (get (g.drop.registry i) k) := by
  rw [InsertGuard.drop, h.uncommitted, if_neg Bool.false_ne_true]
  obtain ⟨hmem, hnot⟩ := rollback_get g.store g.tracked i k
  by_cases hk : (i, k) ∈ g.tracked.map (tracked_key M)
  · rw [hmem hk]
    exact h.own hk
  · rw [hnot hk]
    exact h.others hk

/-! ## Capacity -/

theorem access_config (s : HandleStore M R) (i : Registry) (h : ℕ) (now : Instant) :
    (s.access i h now).2.config = s.config := by
  unfold HandleStore.access
  split <;> rfl

/-- No operation changes the configuration. -/
theorem perform_config (s : HandleStore M R) (op : StoreOp R) (now : Instant) :
    (perform s op now).2.config = s.config := by
  cases op with
  | next_chunk c h => exact access_config s .readers h now
  | try_next_chunk c h => exact access_config s .readers h now
  | send_chunk c h => exact access_config s .writers h now
  | next_chunk_done c h eof => cases eof <;> rfl
  | finish_body h =>
      rw [Handles.perform, HandleStore.finish_body_snd]
      rfl
  | sweep i ttl =>
      rw [Handles.perform, HandleStore.sweep_one_eq]
      rfl
  | _ => rfl

/-- No operation takes a registry over its limit. -/
theorem len_step [IteratesOnce K M] {s : HandleStore M R} {i : Registry}
    (h : len (s.registry i) ≤ s.config.max_handles) (op : StoreOp R) (now : Instant) :
    len ((perform s op now).2.registry i) ≤ s.config.max_handles := by
  cases registry_step s op now i with
  | inserted e hop hroom hout hreg hc =>
      rw [hreg, len_insert]
      exact hroom
  | shrunk hfull hout hreg hc => exact Nat.le_trans (len_le_of_absent hreg.absent) h
  | replaced hout hreg hused hc =>
      rw [hreg, len_with_key]
      exact Nat.zero_le _

/-- **No run takes a registry over `max_handles`.** -/
theorem len_run_le [IteratesOnce K M] (config : StoreConfig) (ops : List (Instant × StoreOp R))
    (i : Registry) :
    len ((History.run config ops : History M R).store.registry i) ≤ config.max_handles := by
  -- the limit itself is never changed
  have hinv : ∀ (t : History M R), t.store.config = config ∧
      len (t.store.registry i) ≤ config.max_handles → ∀ ops : List (Instant × StoreOp R),
      len ((ops.foldl History.step t).store.registry i) ≤ config.max_handles := by
    rintro t ⟨hconfig, hlen⟩ ops
    induction ops generalizing t with
    | nil => exact hlen
    | cons a ops ih =>
        have hlen' := len_step (hconfig ▸ hlen) a.2 a.1
        rw [hconfig] at hlen'
        exact ih (t.step a) ((perform_config t.store a.2 a.1).trans hconfig) hlen'
  refine hinv (History.start config) ⟨rfl, ?_⟩ ops
  show len (with_key : M (Timed (R i))) ≤ config.max_handles
  rw [len_with_key]
  exact Nat.zero_le _

/-- **Capacity and rollback.** No run of operations takes a registry over
`max_handles`. A use of a guard that commits adds exactly the entries it inserted,
under handles that named nothing; one that fails, or is dropped before it commits,
leaves every entry as it was; and the drop itself removes the tracked handles and
nothing else from whatever the store has become. -/
theorem registry_capacity_and_rollback [IteratesOnce K M] :
    (∀ (config : StoreConfig) (ops : List (Instant × StoreOp R)) (i : Registry),
      len ((History.run config ops : History M R).store.registry i) ≤ config.max_handles) ∧
    (∀ (s : HandleStore M R) (inserts : List (GuardedInsert R)) (commit : Bool),
      (∃ hs, (allocate_guarded s inserts commit).1 = .ok hs ∧ hs.length = inserts.length ∧
        commit = true ∧ ExtendedBy s (allocate_guarded s inserts commit).2 (inserts.zip hs)) ∨
      (((∃ e, (allocate_guarded s inserts commit).1 = .error e) ∨ commit = false) ∧
        SameEntries s (allocate_guarded s inserts commit).2)) ∧
    ∀ (s : HandleStore M R) (tracked : List TrackedHandle) (i : Registry) (k : K),
      ((i, k) ∈ tracked.map (tracked_key M) → get ((rollback s tracked).registry i) k = none) ∧
        ((i, k) ∉ tracked.map (tracked_key M) →
          get ((rollback s tracked).registry i) k = get (s.registry i) k) :=
  ⟨len_run_le, allocate_guarded_cases, rollback_get⟩

/-- A limit of one and a reader in place: a guard gets its writer, fails on its
reader and takes the writer back. -/
theorem registry_capacity_and_rollback_full :
    let s : HandleStore Slots fun _ => Unit :=
      (History.run { max_handles := 1 } [(0, .insert_reader ())]).store
    len (s.registry .readers) ≤ 1 ∧
      SameEntries s (allocate_guarded s [.insert_writer () 1, .insert_reader () 2] true).2 := by
  intro s
  obtain ⟨hcap, hguard, -⟩ := registry_capacity_and_rollback (M := Slots) (R := fun _ => Unit)
  refine ⟨hcap { max_handles := 1 } [(0, .insert_reader ())] .readers, ?_⟩
  obtain ⟨hs, hok, -⟩ | ⟨-, hsame⟩ := hguard s [.insert_writer () 1, .insert_reader () 2] true
  · cases hok
  · exact hsame

end Guard

end IrohHttp.Handles
