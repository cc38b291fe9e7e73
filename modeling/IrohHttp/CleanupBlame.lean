/-
Whose failure fails a fence: the outcomes that the tasks of `commands.rs` carry from
what they await to the fences of `discovery_ownership.rs`.

A fence belongs to one WebView label, and once it has failed every later start of that
label is refused. So a failure should stay with the label it happened under. A page's
retirement and a session's own cleanup see to that: all they await has the label of
their one fence. The retirement of an endpoint does not. Its sessions may sit in
several WebViews, it keeps one outcome for all of them, and it writes that outcome to
the fence of each.

`Record` adds to the system of `CleanupFences.lean` what the statement speaks of: the
labels of the native teardowns each task has still to await, and the labels under which
one has failed. What is proved is that a fence fails for a reason of its own label in
every run in which no task that finishes fences of two labels meets a failure.
-/
import IrohHttp.CleanupFences

set_option autoImplicit false

namespace IrohHttp.CleanupBlame

open IrohHttp.DiscoveryOwnership IrohHttp.DiscoveryOwnership.OwnershipState
open IrohHttp.CleanupFences

/-! ## Recording failures -/

/-- The system with, for each task, the labels of the native teardowns it has still to
await, and the labels under which a native teardown has failed. -/
structure Record where
  system : System
  natives : List (List String)
  failed : List String

/-- The record of a new system. -/
def start : Record := ⟨CleanupFences.start, [], []⟩

/-- The windows of the sessions. -/
def labels (sessions : List TrackedDiscovery) : List String :=
  sessions.map fun session => owner_label session.owner

/-- The sessions whose native teardown is left to the task that a step spawns. -/
def drained (s : OwnershipState) : Label → Option (List TrackedDiscovery)
  | .begin_session_cleanup kind handle => (s.begin_session_cleanup kind handle).1.map fun r => [r.1]
  | .retire_endpoint h => some (s.retire_endpoint h).1.sessions
  | .advance_webview w => some (s.advance_webview w).1.sessions
  | .retire_webview w => some (s.retire_webview w).1.sessions
  | .retire_all => some s.retire_all.1.sessions
  | _ => none

/-- What a task awaits next. A fence that was just written is taken down first. -/
def next_await (t : Task) : Option Await :=
  if t.unpublishing.isSome then none else t.awaits.head?

namespace Record

/-- A native teardown of task `i` has ended. -/
def torn_down (r : Record) (i : ℕ) (native : Outcome) : Record :=
  { r with
    natives := r.natives.modify i List.tail
    failed := r.failed ++
      if native.isOk then [] else ((r.natives[i]?).bind List.head?).toList }

/-- What a step adds to the record. -/
def note (r : Record) : Label → Record
  | .advance i native =>
    if (r.system.tasks[i]?).bind next_await = some .native then r.torn_down i native else r
  | a => { r with natives := r.natives ++ ((drained r.system.state a).map labels).toList }

/-- A step of the system, with what it hands to whom written down. -/
def step (r : Record) (a : Label) : Option Record :=
  (r.system.step a).map fun s => { r.note a with system := s }

end Record

/-! ## Reasons -/

/-- A native teardown of the label has failed, or a start of the label has. -/
def OwnFailure (r : Record) (label : String) : Prop :=
  label ∈ r.failed ∨ ∃ (id : ℕ) (l : Lease) (e : String), r.system.leases[id]? = some l ∧
    owner_label l.lease.owner = label ∧ r.system.state.completions id = some (.error e)

/-- A fence may fail: one before it, of its label, has failed, or its label has a failure
of its own. -/
def Explained (r : Record) (f : WebviewCleanupRetirement) : Prop :=
  (∃ g ∈ r.system.fences, g.label = f.label ∧ g.current < f.current ∧
    ∃ e, r.system.state.cleanups g.current = some (.error e)) ∨ OwnFailure r f.label

/-- A task that finishes fences of two labels does not meet a failure. -/
def Meets (r : Record) : Label → Prop
  | .advance i native => ∀ t, r.system.tasks[i]? = some t →
    (∃ f ∈ t.fences, ∃ g ∈ t.fences, f.label ≠ g.label) →
      ∀ await, next_await t = some await → ∀ e, r.system.result native await ≠ some (.error e)
  | _ => True

/-- What is recorded stays recorded. -/
structure Remains (r r' : Record) : Prop where
  fences : ∀ f ∈ r.system.fences, f ∈ r'.system.fences
  cells : Grows r.system.state r'.system.state
  failed : ∀ label ∈ r.failed, label ∈ r'.failed
  completions : ∀ id outcome, r.system.state.completions id = some outcome →
    r'.system.state.completions id = some outcome
  owners : ∀ (id : ℕ) (l : Lease), r.system.leases[id]? = some l →
    ∃ l' : Lease, r'.system.leases[id]? = some l' ∧ l'.lease.owner = l.lease.owner

/-- A failure stays one. -/
theorem Remains.own_failure {r r' : Record} (h : Remains r r') {label : String}
    (hown : OwnFailure r label) : OwnFailure r' label := by
  rcases hown with hfailed | ⟨id, l, e, hl, hlabel, he⟩
  · exact .inl (h.failed label hfailed)
  · obtain ⟨l', hl', howner⟩ := h.owners id l hl
    exact .inr ⟨id, l', e, hl', howner ▸ hlabel, h.completions id _ he⟩

/-- A fence that is explained stays explained. -/
theorem Remains.explained {r r' : Record} (h : Remains r r') {f : WebviewCleanupRetirement}
    (hf : Explained r f) : Explained r' f := by
  rcases hf with ⟨g, hg, hlabel, hlt, e, he⟩ | hown
  · exact .inl ⟨g, h.fences g hg, hlabel, hlt, e, h.cells _ _ he⟩
  · exact .inr (h.own_failure hown)

/-! ## The invariant -/

/-- All that a task awaits has the label of one of its fences, and a failure it carries
explains each of them. -/
structure Owned (r : Record) (t : Task) (natives : List String) : Prop where
  count : natives.length = t.awaits.count .native
  natives : ∀ label ∈ natives, ∃ f ∈ t.fences, f.label = label
  starts : ∀ id, Await.start id ∈ t.awaits → ∃ l : Lease, r.system.leases[id]? = some l ∧
    ∃ f ∈ t.fences, f.label = owner_label l.lease.owner
  outcome : ∀ e, t.outcome = .error e → ∀ f ∈ t.fences, Explained r f

/-- The invariant: each task cleans up what its owner had, and each failed cell has a failure of its
own label behind it. -/
structure Inv (r : Record) : Prop where
  system : CleanupFences.Inv r.system
  length : r.natives.length = r.system.tasks.length
  tasks : ∀ (i : ℕ) (t : Task) (natives : List String), r.system.tasks[i]? = some t →
    r.natives[i]? = some natives → Owned r t natives
  pending : ∀ e ∈ r.system.state.starts.entries, ∃ l : Lease,
    r.system.leases[e.1]? = some l ∧ l.lease.owner = e.2
  failed : ∀ f ∈ r.system.fences, ∀ e, r.system.state.cleanups f.current = some (.error e) →
    Explained r f
  returned : ∀ l ∈ r.system.leases, ∀ e, l.returned = some (.error e) →
    ∃ f ∈ r.system.fences, f.label = owner_label l.lease.owner ∧
      ∃ e', r.system.state.cleanups f.current = some (.error e')

/-- A task keeps its owner. -/
theorem Owned.remains {r r' : Record} (h : Remains r r') {t : Task} {natives : List String}
    (ht : Owned r t natives) : Owned r' t natives where
  count := ht.count
  natives := ht.natives
  starts id hid := by
    obtain ⟨l, hl, f, hf, hlabel⟩ := ht.starts id hid
    obtain ⟨l', hl', howner⟩ := h.owners id l hl
    exact ⟨l', hl', f, hf, howner ▸ hlabel⟩
  outcome e he f hf := h.explained (ht.outcome e he f hf)

theorem inv_start : Inv start where
  system := CleanupFences.inv_start
  length := rfl
  tasks i t natives ht _ := by simp [start, CleanupFences.start] at ht
  pending _ he := absurd he List.not_mem_nil
  failed _ hf := absurd hf List.not_mem_nil
  returned _ hl := absurd hl List.not_mem_nil

/-! ## Steps without a task -/

/-- No fence is published or finished. Leases keep their owners, and one that returns a
failure now has read it from the fence it captured. -/
structure Quiet (s s' : System) : Prop where
  tasks : s'.tasks = s.tasks
  fences : s'.fences = s.fences
  cells : s'.state.cleanups = s.state.cleanups
  completions : ∀ id outcome, s.state.completions id = some outcome →
    s'.state.completions id = some outcome
  owners : ∀ (id : ℕ) (l : Lease), s.leases[id]? = some l →
    ∃ l' : Lease, s'.leases[id]? = some l' ∧ l'.lease.owner = l.lease.owner
  pending : ∀ e ∈ s'.state.starts.entries, e ∈ s.state.starts.entries ∨
    ∃ l : Lease, s'.leases[e.1]? = some l ∧ l.lease.owner = e.2
  returned : ∀ l' ∈ s'.leases, ∀ e, l'.returned = some (.error e) →
    ∃ l ∈ s.leases, l.lease.owner = l'.lease.owner ∧
      (l.returned = some (.error e) ∨ s.cleanup_result l.lease.prior_cleanup = some (.error e))

/-- A fence that a lease captured is one of its label. -/
theorem captured_label {s : System} (h : CleanupFences.Inv s) {l : Lease} (hl : l ∈ s.leases)
    {e : String} (he : s.cleanup_result l.lease.prior_cleanup = some (.error e)) :
    ∃ f ∈ s.fences, f.label = owner_label l.lease.owner ∧
      ∃ e', s.state.cleanups f.current = some (.error e') := by
  have hbehind := (h.leases l hl).behind
  cases hprior : l.lease.prior_cleanup with
  | none =>
      rw [hprior] at he
      cases he
  | some p =>
      rw [hprior] at he hbehind
      obtain ⟨⟨f, hf, hlabel, rfl⟩, -⟩ := hbehind
      exact ⟨f, hf, hlabel, e, he⟩

/-- A step that touches no fence and no task keeps the invariant. -/
theorem Inv.quiet {r : Record} (h : Inv r) {s : System} (hs : CleanupFences.Inv s)
    (hq : Quiet r.system s) : Inv { r with system := s } := by
  have hremains : Remains r { r with system := s } := by
    refine ⟨?_, ?_, fun _ hl => hl, hq.completions, hq.owners⟩
    · intro f hf
      rw [hq.fences]
      exact hf
    · intro i outcome hi
      exact (congrFun hq.cells i).trans hi
  refine ⟨hs, h.length.trans (congrArg _ hq.tasks.symm), ?_, ?_, ?_, ?_⟩
  · intro i t natives ht hnatives
    rw [hq.tasks] at ht
    exact (h.tasks i t natives ht hnatives).remains hremains
  · intro e he
    rcases hq.pending e he with he | hnew
    · obtain ⟨l, hl, howner⟩ := h.pending e he
      obtain ⟨l', hl', howner'⟩ := hq.owners e.1 l hl
      exact ⟨l', hl', howner'.trans howner⟩
    · exact hnew
  · intro f hf e he
    rw [hq.fences] at hf
    rw [hq.cells] at he
    exact hremains.explained (h.failed f hf e he)
  · intro l' hl' e he
    obtain ⟨l, hl, howner, hreturned⟩ := hq.returned l' hl' e he
    have hfence : ∃ f ∈ r.system.fences, f.label = owner_label l.lease.owner ∧
        ∃ e', r.system.state.cleanups f.current = some (.error e') := by
      rcases hreturned with hreturned | hcaptured
      · exact h.returned l hl e hreturned
      · exact captured_label h.system hl hcaptured
    rw [hq.fences, hq.cells, ← howner]
    exact hfence

theorem quiet_state {s : System} {state : OwnershipState} (hsame : SameFences s.state state)
    (hcompletions : state.completions = s.state.completions) :
    Quiet s { s with state := state } where
  tasks := rfl
  fences := rfl
  cells := hsame.cells
  completions id _ hid := (congrFun hcompletions id).trans hid
  owners _ l hl := ⟨l, hl, rfl⟩
  pending e he := .inl (hsame.starts e he)
  returned l hl _ he := ⟨l, hl, rfl, .inl he⟩

theorem quiet_set_lease {s : System} {state : OwnershipState} (hsame : SameFences s.state state)
    (hcompletions : ∀ id outcome, s.state.completions id = some outcome →
      state.completions id = some outcome)
    {id : ℕ} {l l' : Lease} (hl : s.leases[id]? = some l)
    (howner : l'.lease.owner = l.lease.owner)
    (hreturned : l'.returned = l.returned ∨
      l'.returned = s.cleanup_result l.lease.prior_cleanup) :
    Quiet s (s.set_lease id l' state) where
  tasks := rfl
  fences := rfl
  cells := hsame.cells
  completions := hcompletions
  owners j k hk := by
    have hlt := (List.getElem?_eq_some_iff.mp hl).1
    by_cases hj : id = j
    · subst hj
      obtain rfl := Option.some.inj (hl.symm.trans hk)
      exact ⟨l', List.getElem?_set_self hlt, howner⟩
    · exact ⟨k, (List.getElem?_set_ne hj).trans hk, rfl⟩
  pending e he := .inl (hsame.starts e he)
  returned k hk e he := by
    rcases List.mem_or_eq_of_mem_set hk with hk | rfl
    · exact ⟨k, hk, rfl, .inl he⟩
    · refine ⟨l, List.mem_of_getElem? hl, howner.symm, ?_⟩
      rcases hreturned with heq | heq
      · exact .inl (heq.symm.trans he)
      · exact .inr (heq.symm.trans he)

theorem quiet_add_lease {s : System} (h : CleanupFences.Inv s)
    {r : Option StartLease × OwnershipState} (hr : Captures s.state r) (hb : Begins s.state r) :
    Quiet s (s.add_lease r) where
  tasks := rfl
  fences := rfl
  cells := hr.cells
  completions id _ hid := (congrFun hb.completions id).trans hid
  owners id l hl := by
    have hlt := (List.getElem?_eq_some_iff.mp hl).1
    exact ⟨l, (List.getElem?_append_left hlt).trans hl, rfl⟩
  pending e he := by
    rcases hb.pending e he with he | ⟨lease, hlease, rfl⟩
    · exact .inl he
    · -- the new lease is at the place its number says
      refine .inr ⟨⟨lease, s.state.next_cleanup, none⟩, ?_, rfl⟩
      simp only [System.add_lease, hlease, ← h.issued]
      exact List.getElem?_concat_length
  returned l hl e he := by
    rcases List.mem_append.mp hl with hl | hl
    · exact ⟨l, hl, rfl, .inl he⟩
    · obtain ⟨lease, -, rfl⟩ := List.mem_map.mp hl
      cases he

/-! ## Steps that spawn a task -/

/-- Every drained session and every start in flight has the label of one of the
published fences. -/
structure Covers (s : OwnershipState) (sessions : List TrackedDiscovery) (starts : List ℕ)
    (new : List WebviewCleanupRetirement) : Prop where
  sessions : ∀ d ∈ sessions, ∃ f ∈ new, f.label = owner_label d.owner
  starts : ∀ id ∈ starts, ∃ e ∈ s.starts.entries, e.1 = id ∧ ∃ f ∈ new, f.label = owner_label e.2

theorem install_labels (s : OwnershipState) (labels : List String) :
    (s.install_owner_cleanups labels).1.map (·.label) = labels := by
  induction labels generalizing s with
  | nil => rfl
  | cons label labels ih =>
      simp only [OwnershipState.install_owner_cleanups, List.map_cons, ih]
      rfl

theorem mem_matching_owner_labels {s : OwnershipState} {predicate : DiscoveryOwner → Bool}
    {label : String} :
    label ∈ s.matching_owner_labels predicate ↔
      (∃ e ∈ s.sessions.entries, predicate e.2.owner = true ∧ owner_label e.2.owner = label) ∨
      ∃ e ∈ s.starts.entries, predicate e.2 = true ∧ owner_label e.2 = label := by
  simp only [OwnershipState.matching_owner_labels, List.mem_dedup, List.mem_mergeSort,
    List.mem_append, List.mem_map, List.mem_filter, and_assoc]

/-- Fences are published for all labels that the predicate meets. -/
theorem covers_matching (s s' : OwnershipState) (predicate : DiscoveryOwner → Bool) :
    Covers s (s.take_matching predicate).1 (s.matching_starts predicate)
      (s'.install_owner_cleanups (s.matching_owner_labels predicate)).1 := by
  have hfence : ∀ label ∈ s.matching_owner_labels predicate,
      ∃ f ∈ (s'.install_owner_cleanups (s.matching_owner_labels predicate)).1,
        f.label = label := by
    intro label hlabel
    rw [← install_labels s' (s.matching_owner_labels predicate)] at hlabel
    exact List.mem_map.mp hlabel
  refine ⟨?_, ?_⟩
  · intro d hd
    obtain ⟨e, he, rfl⟩ := List.mem_map.mp hd
    obtain ⟨hmem, hp⟩ := List.mem_filter.mp he
    exact hfence _ (mem_matching_owner_labels.mpr (.inl ⟨e, hmem, hp, rfl⟩))
  · intro id hid
    obtain ⟨e, he, rfl⟩ := List.mem_map.mp hid
    obtain ⟨hmem, hp⟩ := List.mem_filter.mp he
    exact ⟨e, hmem, rfl, hfence _ (mem_matching_owner_labels.mpr (.inr ⟨e, hmem, hp, rfl⟩))⟩

theorem covers_retire_endpoint (s : OwnershipState) (h : ℕ) :
    Covers s (s.retire_endpoint h).1.sessions (s.retire_endpoint h).1.starts
      (s.retire_endpoint h).1.owner_cleanups := by
  unfold OwnershipState.retire_endpoint
  dsimp only
  exact ⟨(covers_matching _ _ _).sessions, (covers_matching _ _ _).starts⟩

theorem covers_retire_all (s : OwnershipState) :
    Covers s s.retire_all.1.sessions s.retire_all.1.starts s.retire_all.1.owner_cleanups := by
  unfold OwnershipState.retire_all
  dsimp only
  exact ⟨(covers_matching _ _ _).sessions, (covers_matching _ _ _).starts⟩

/-- A page drains only its own label. -/
theorem covers_next_webview (s : OwnershipState) (w : String) (active : Bool) :
    Covers s (s.next_webview w active).1.sessions (s.next_webview w active).1.starts
      (s.next_webview w active).1.webview_cleanup.toList := by
  refine ⟨?_, ?_⟩
  · intro d hd
    obtain ⟨e, he, rfl⟩ := List.mem_map.mp hd
    have hlabel := beq_iff_eq.mp (List.mem_filter.mp he).2
    exact ⟨_, List.mem_singleton_self _, hlabel.symm⟩
  · intro id hid
    obtain ⟨e, he, rfl⟩ := List.mem_map.mp hid
    obtain ⟨hmem, hp⟩ := List.mem_filter.mp he
    exact ⟨e, hmem, rfl, _, List.mem_singleton_self _, (beq_iff_eq.mp hp).symm⟩

/-- A retirement's task awaits a native teardown for each session. -/
theorem count_native_retire_sessions (fences : List WebviewCleanupRetirement)
    (r : DiscoveryRetirement) :
    (retire_sessions fences r).awaits.count .native = r.sessions.length := by
  simp only [retire_sessions, List.count_append]
  have hprevious : (fences.map Await.previous).count .native = 0 :=
    List.count_eq_zero.mpr (by simp)
  have hstarts : (r.starts.map Await.start).count .native = 0 :=
    List.count_eq_zero.mpr (by simp)
  have hnative : (r.sessions.map fun _ => Await.native).count .native = r.sessions.length := by
    rw [List.map_const', List.count_replicate_self]
  omega

theorem Inv.spawn {r : Record} (h : Inv r) {state : OwnershipState}
    {new : List WebviewCleanupRetirement} (hpub : Publishes r.system.state state new)
    (hcompletions : state.completions = r.system.state.completions) {t : Task}
    (hfresh : Fresh r.system.state new t) (hok : t.outcome = .ok ())
    {sessions : List TrackedDiscovery} (hcount : t.awaits.count .native = sessions.length)
    (starts : List ℕ) (hstarts : ∀ id, Await.start id ∈ t.awaits → id ∈ starts)
    (hcovers : Covers r.system.state sessions starts new) :
    Inv { r with
      system := r.system.add_task state new t, natives := r.natives ++ [labels sessions] } := by
  -- cells, completions and fences are as they were, but for the new fences
  have hremains : Remains r { r with
      system := r.system.add_task state new t, natives := r.natives ++ [labels sessions] } := by
    refine ⟨fun f hf => List.mem_append_left _ hf, ?_, fun _ hl => hl, ?_, fun _ l hl => ⟨l, hl, rfl⟩⟩
    · intro i outcome hi
      exact (congrFun hpub.cells i).trans hi
    · intro id outcome hid
      exact (congrFun hcompletions id).trans hid
  refine ⟨(h.system.add_task hpub hfresh).1, ?_, ?_, ?_, ?_, ?_⟩
  · simp only [System.add_task, List.length_append, List.length_singleton, h.length]
  · intro i t' natives ht' hnatives
    simp only [System.add_task] at ht'
    by_cases hlt : i < r.system.tasks.length
    · rw [List.getElem?_append_left hlt] at ht'
      rw [List.getElem?_append_left (h.length ▸ hlt)] at hnatives
      exact (h.tasks i t' natives ht' hnatives).remains hremains
    · -- the task just spawned
      have hge := Nat.not_lt.mp hlt
      rw [List.getElem?_append_right hge] at ht'
      rw [List.getElem?_append_right (h.length ▸ hge)] at hnatives
      obtain rfl := List.mem_singleton.mp (List.mem_of_getElem? ht')
      obtain rfl := List.mem_singleton.mp (List.mem_of_getElem? hnatives)
      refine ⟨?_, ?_, ?_, ?_⟩
      · rw [hcount]
        exact List.length_map _
      · intro label hlabel
        obtain ⟨d, hd, rfl⟩ := List.mem_map.mp hlabel
        rw [hfresh.fences]
        exact hcovers.sessions d hd
      · intro id hid
        obtain ⟨e, he, rfl, hlabel⟩ := hcovers.starts id (hstarts id hid)
        obtain ⟨l, hl, howner⟩ := h.pending e he
        rw [hfresh.fences]
        exact ⟨l, hl, howner ▸ hlabel⟩
      · intro e he
        rw [hok] at he
        cases he
  · intro e he
    simp only [System.add_task, hpub.starts] at he
    exact h.pending e he
  · intro f hf e he
    rw [show (r.system.add_task state new t).state.cleanups = _ from hpub.cells] at he
    rcases List.mem_append.mp hf with hf | hf
    · exact hremains.explained (h.failed f hf e he)
    · -- nothing is written into a new cell
      rw [h.system.chained.unset _ (hpub.recent f hf)] at he
      cases he
  · intro l hl e he
    obtain ⟨f, hf, hlabel, e', he'⟩ := h.returned l hl e he
    exact ⟨f, List.mem_append_left _ hf, hlabel, e', (congrFun hpub.cells _).trans he'⟩

/-! ## Steps of a task -/

/-- What a task meets explains each of its fences, if they all have one label. -/
theorem Inv.met {r r' : Record} (h : Inv r) (hremains : Remains r r') {t : Task}
    {natives : List String} (hmem : t ∈ r.system.tasks) (ht : Owned r t natives)
    (hsame : ∀ f ∈ t.fences, ∀ g ∈ t.fences, f.label = g.label) {await : Await}
    (hawait : await ∈ t.awaits) {native : Outcome} {e : String}
    (he : r.system.result native await = some (.error e))
    (hnative : await = .native → ∃ label ∈ natives, label ∈ r'.failed) :
    ∀ f ∈ t.fences, Explained r' f := by
  intro f hf
  have htask := h.system.tasks t hmem
  cases await with
  | previous g =>
      -- the fence that one of them replaced is older than all of them
      have hg := htask.awaited g hawait
      obtain ⟨base, hbase, -⟩ := htask.older
      have hbehind := h.system.chained.previous g (htask.published g hg)
      cases hp : g.previous with
      | none =>
          rw [System.result, hp] at he
          cases he
      | some p =>
          rw [hp] at hbehind
          rw [System.result, hp] at he
          obtain ⟨⟨g', hg', hlabel, rfl⟩, -⟩ := hbehind
          have hlt := (hbase g hg).2 _ hp
          have hle := (hbase f hf).1
          refine hremains.explained (.inl ⟨g', hg', ?_, by omega, e, he⟩)
          exact hlabel.trans (hsame g hg f hf)
  | native =>
      obtain ⟨label, hlabel, hfailed⟩ := hnative rfl
      obtain ⟨g, hg, rfl⟩ := ht.natives label hlabel
      refine .inr (.inl ?_)
      rw [hsame f hf g hg]
      exact hfailed
  | start id =>
      obtain ⟨l, hl, g, hg, hlabel⟩ := ht.starts id hawait
      refine hremains.explained (.inr (.inr ⟨id, l, e, hl, ?_, he⟩))
      rw [← hlabel]
      exact hsame g hg f hf

/-- One task moves; the others and the leases stay. -/
theorem Inv.move {r r' : Record} (h : Inv r) (hs : CleanupFences.Inv r'.system)
    (hremains : Remains r r') {i : ℕ} {t' : Task}
    (htasks : r'.system.tasks = r.system.tasks.set i t')
    (hlength : r'.natives.length = r.natives.length)
    (hothers : ∀ j, i ≠ j → r'.natives[j]? = r.natives[j]?)
    (howned : ∀ natives, r'.natives[i]? = some natives → Owned r' t' natives)
    (hfences : r'.system.fences = r.system.fences) (hleases : r'.system.leases = r.system.leases)
    (hstarts : r'.system.state.starts = r.system.state.starts)
    (hcells : ∀ f ∈ r.system.fences, ∀ e, r'.system.state.cleanups f.current = some (.error e) →
      r.system.state.cleanups f.current = some (.error e) ∨ Explained r' f) : Inv r' := by
  refine ⟨hs, ?_, ?_, ?_, ?_, ?_⟩
  · rw [hlength, htasks, List.length_set]
    exact h.length
  · intro j t natives ht hnatives
    rw [htasks] at ht
    by_cases hj : i = j
    · subst hj
      obtain rfl : t' = t := by
        rw [List.getElem?_set_self'] at ht
        obtain ⟨-, -, rfl⟩ := Option.map_eq_some_iff.mp ht
        rfl
      exact howned natives hnatives
    · rw [List.getElem?_set_ne hj] at ht
      rw [hothers j hj] at hnatives
      exact (h.tasks j t natives ht hnatives).remains hremains
  · rw [hstarts, hleases]
    exact h.pending
  · intro f hf e he
    rw [hfences] at hf
    rcases hcells f hf e he with hold | hexplained
    · exact hremains.explained (h.failed f hf e hold)
    · exact hexplained
  · intro l hl e he
    rw [hleases] at hl
    obtain ⟨f, hf, hlabel, e', he'⟩ := h.returned l hl e he
    exact ⟨f, hremains.fences f hf, hlabel, e', hremains.cells _ _ he'⟩

theorem Inv.unpublish {r : Record} (h : Inv r) {i : ℕ} {t : Task}
    (ht : r.system.tasks[i]? = some t) {f : WebviewCleanupRetirement}
    (hf : t.unpublishing = some f) :
    Inv { r with
      system := { r.system with
        state := r.system.state.unpublish f
        tasks := r.system.tasks.set i { t with unpublishing := none } } } := by
  have hfields : (r.system.state.unpublish f).cleanups = r.system.state.cleanups ∧
      (r.system.state.unpublish f).completions = r.system.state.completions ∧
      (r.system.state.unpublish f).starts = r.system.state.starts := by
    unfold OwnershipState.unpublish
    split <;> exact ⟨rfl, rfl, rfl⟩
  obtain ⟨hcells, hcompletions, hstarts⟩ := hfields
  have hremains : Remains r { r with
      system := { r.system with
        state := r.system.state.unpublish f
        tasks := r.system.tasks.set i { t with unpublishing := none } } } :=
    ⟨fun _ hg => hg, fun c _ hc => (congrFun hcells c).trans hc, fun _ hl => hl,
      fun id _ hid => (congrFun hcompletions id).trans hid, fun _ l hl => ⟨l, hl, rfl⟩⟩
  refine h.move (h.system.unpublish ht hf).1 hremains rfl rfl (fun _ _ => rfl) ?_ rfl rfl hstarts ?_
  · intro natives hnatives
    have howned := (h.tasks i t natives ht hnatives).remains hremains
    exact ⟨howned.count, howned.natives, howned.starts, howned.outcome⟩
  · intro g _ e he
    exact .inl ((congrFun hcells g.current).symm.trans he)

/-- A task writes what it carries, and that is explained. -/
theorem Inv.finish_cell {r : Record} (h : Inv r) {i : ℕ} {t : Task}
    (ht : r.system.tasks[i]? = some t) (hawaits : t.awaits = []) {f : WebviewCleanupRetirement}
    {rest : List WebviewCleanupRetirement} (hunf : t.unfinished = f :: rest) :
    Inv { r with
      system := { r.system with
        state := r.system.state.finish_cell f.current t.outcome
        tasks := r.system.tasks.set i { t with
          unfinished := rest, unpublishing := if t.outcome.isOk then some f else none } } } := by
  obtain ⟨hs, hlater⟩ := h.system.finish_cell ht hawaits hunf
  have hremains : Remains r { r with
      system := { r.system with
        state := r.system.state.finish_cell f.current t.outcome
        tasks := r.system.tasks.set i { t with
          unfinished := rest, unpublishing := if t.outcome.isOk then some f else none } } } :=
    ⟨fun _ hg => hg, hlater.cells, fun _ hl => hl, fun _ _ hid => hid, fun _ l hl => ⟨l, hl, rfl⟩⟩
  have hnatives : ∃ natives, r.natives[i]? = some natives := by
    have hlt := (List.getElem?_eq_some_iff.mp ht).1
    exact ⟨_, List.getElem?_eq_getElem (h.length ▸ hlt)⟩
  have htask := h.system.tasks t (List.mem_of_getElem? ht)
  refine h.move hs hremains rfl rfl (fun _ _ => rfl) ?_ rfl rfl rfl ?_
  · intro natives hnatives
    have howned := (h.tasks i t natives ht hnatives).remains hremains
    exact ⟨howned.count, howned.natives, howned.starts, howned.outcome⟩
  · intro g hg e he
    simp only [OwnershipState.finish_cell] at he
    by_cases heq : g.current = f.current
    · have hfence := htask.unfinished f (hunf ▸ List.mem_cons_self)
      have hgf : g = f :=
        h.system.chained.distinct g hg f (htask.published f hfence) heq
      subst hgf
      rw [Function.update_self] at he
      cases hcell : r.system.state.cleanups g.current with
      | some outcome =>
          rw [hcell, Option.getD_some] at he
          exact .inl he
      | none =>
          rw [hcell, Option.getD_none] at he
          obtain ⟨natives, hnatives⟩ := hnatives
          have howned := (h.tasks i t natives ht hnatives).remains hremains
          exact .inr (howned.outcome e (Option.some.inj he) g hfence)
    · rw [Function.update_of_ne heq] at he
      exact .inl he

/-- The error a task carries is one it had or the one it meets. -/
theorem combine_error {k : Keeps} {a b : Outcome} {e : String} (h : k.combine a b = .error e) :
    a = .error e ∨ b = .error e := by
  rcases a with ea | ⟨⟩ <;> rcases b with eb | ⟨⟩ <;> cases k <;>
    simp_all [Keeps.combine]

theorem natives_modify_self {natives : List (List String)} {i : ℕ} {label : String}
    {rest : List String} (h : natives[i]? = some (label :: rest)) :
    (natives.modify i List.tail)[i]? = some rest := by
  simp only [List.getElem?_modify, h, if_true, Option.map_eq_map, Option.map_some, List.tail_cons]

theorem natives_modify_ne {natives : List (List String)} {i j : ℕ} (h : i ≠ j) :
    (natives.modify i List.tail)[j]? = natives[j]? := by
  simp only [List.getElem?_modify, if_neg h, Option.map_eq_map, Option.map_id']

/-- A task goes on to what it awaits after `await`, and meets no failure or has fences of
one label only. -/
theorem Inv.awaited {r r' : Record} (h : Inv r) {i : ℕ} {t : Task}
    (ht : r.system.tasks[i]? = some t) {native : Outcome} {await : Await} {rest : List Await}
    (hawaits : t.awaits = await :: rest) {outcome : Outcome}
    (hout : r.system.result native await = some outcome)
    (hmeets : (∃ f ∈ t.fences, ∃ g ∈ t.fences, f.label ≠ g.label) → ∀ e, outcome ≠ .error e)
    {natives rest' : List String} (hnatives : r.natives[i]? = some natives)
    (hsystem : r'.system = { r.system with
      tasks := r.system.tasks.set i
        { t with awaits := rest, outcome := t.keeps.combine t.outcome outcome } })
    (hlength : r'.natives.length = r.natives.length)
    (hothers : ∀ j, i ≠ j → r'.natives[j]? = r.natives[j]?)
    (hself : r'.natives[i]? = some rest') (hcount : rest'.length = rest.count .native)
    (hsub : ∀ label ∈ rest', label ∈ natives) (hfailed : ∀ label ∈ r.failed, label ∈ r'.failed)
    (hnative : await = .native → ∀ e, outcome = .error e → ∃ label ∈ natives, label ∈ r'.failed) :
    Inv r' := by
  have hs := (h.system.awaited ht hawaits hout).1
  have hremains : Remains r r' := by
    refine ⟨?_, ?_, hfailed, ?_, ?_⟩ <;> rw [hsystem]
    · exact fun f hf => hf
    · exact fun _ _ hc => hc
    · exact fun _ _ hc => hc
    · exact fun _ l hl => ⟨l, hl, rfl⟩
  have howned := h.tasks i t natives ht hnatives
  have hin : ∀ a ∈ rest, a ∈ t.awaits := fun a ha => hawaits ▸ List.mem_cons_of_mem _ ha
  refine h.move (hsystem ▸ hs) hremains (by rw [hsystem]) hlength hothers ?_ (by rw [hsystem])
    (by rw [hsystem]) (by rw [hsystem]) ?_
  · intro natives' hnatives'
    obtain rfl := Option.some.inj (hself.symm.trans hnatives')
    have hlater := howned.remains hremains
    refine ⟨hcount, fun label hl => howned.natives label (hsub label hl),
      fun id hid => hlater.starts id (hin _ hid), ?_⟩
    intro e he f hf
    rcases combine_error he with hold | hnew
    · exact hlater.outcome e hold f hf
    · subst hnew
      refine h.met hremains (List.mem_of_getElem? ht) howned ?_
        (hawaits ▸ List.mem_cons_self) hout (fun hn => hnative hn e rfl) f hf
      intro f' hf' g hg
      by_contra hne
      exact hmeets ⟨f', hf', g, hg, hne⟩ e rfl
  · intro f _ e he
    rw [hsystem] at he
    exact .inl he

theorem Inv.advance {r : Record} (h : Inv r) {i : ℕ} {native : Outcome} {t : Task}
    (ht : r.system.tasks[i]? = some t) {x : Task × OwnershipState}
    (hx : r.system.advance_task t native = some x) (hmeets : Meets r (.advance i native)) :
    Inv { r.note (.advance i native) with
      system := { r.system with state := x.2, tasks := r.system.tasks.set i x.1 } } := by
  obtain ⟨natives, hnatives⟩ : ∃ natives, r.natives[i]? = some natives :=
    ⟨_, List.getElem?_eq_getElem (h.length ▸ (List.getElem?_eq_some_iff.mp ht).1)⟩
  have hcount := (h.tasks i t natives ht hnatives).count
  rcases advance_task_cases hx with ⟨f, hf, rfl⟩ |
    ⟨hnone, await, rest, outcome, hawaits, hout, rfl⟩ | ⟨hnone, hawaits, f, rest, hunf, rfl⟩
  · have hnote : r.note (.advance i native) = r := by
      simp [Record.note, ht, next_await, hf]
    rw [hnote]
    exact h.unpublish ht hf
  · have hnext : next_await t = some await := by
      simp [next_await, hnone, hawaits]
    have hmeets' : (∃ f ∈ t.fences, ∃ g ∈ t.fences, f.label ≠ g.label) →
        ∀ e, outcome ≠ .error e := by
      intro hshared e he
      exact hmeets t ht hshared await hnext e (he ▸ hout)
    rw [hawaits] at hcount
    by_cases hawait : await = .native
    · -- a native teardown: its label is the next of the task's
      subst hawait
      rw [List.count_cons_self] at hcount
      obtain ⟨label, rest', rfl⟩ := List.exists_cons_of_length_eq_add_one hcount
      have hnote : r.note (.advance i native) = r.torn_down i native := by
        simp [Record.note, ht, hnext]
      rw [hnote]
      refine h.awaited ht hawaits hout hmeets' hnatives rfl (List.length_modify _ _ _)
        (fun j hj => natives_modify_ne hj) (natives_modify_self hnatives)
        (Nat.succ_inj.mp hcount) (fun l hl => List.mem_cons_of_mem _ hl)
        (fun l hl => List.mem_append_left _ hl) ?_
      intro _ e he
      obtain rfl : native = outcome := Option.some.inj hout
      refine ⟨label, List.mem_cons_self, List.mem_append_right _ ?_⟩
      simp [he, hnatives, Except.isOk, Except.toBool]
    · have hnote : r.note (.advance i native) = r := by
        simp [Record.note, ht, hnext, hawait]
      rw [hnote]
      rw [List.count_cons_of_ne hawait] at hcount
      exact h.awaited ht hawaits hout hmeets' hnatives rfl rfl (fun _ _ => rfl) hnatives hcount
        (fun _ hl => hl) (fun _ hl => hl) (fun hn => absurd hn hawait)
  · have hnote : r.note (.advance i native) = r := by
      simp [Record.note, ht, next_await, hnone, hawaits]
    rw [hnote]
    exact h.finish_cell ht hawaits hunf

/-! ## Runs -/

theorem Inv.retire {r : Record} (h : Inv r) {x : DiscoveryRetirement × OwnershipState}
    {new : List WebviewCleanupRetirement} (hpub : Publishes r.system.state x.2 new)
    (hcompletions : x.2.completions = r.system.state.completions)
    (hcovers : Covers r.system.state x.1.sessions x.1.starts new) :
    Inv { r with
      system := r.system.add_task x.2 new (retire_sessions new x.1)
      natives := r.natives ++ [labels x.1.sessions] } := by
  refine h.spawn hpub hcompletions ?_ rfl (count_native_retire_sessions new x.1) x.1.starts ?_ hcovers
  · apply fresh_retire_sessions
    intro id hid
    obtain ⟨e, he, hid, -⟩ := hcovers.starts id hid
    exact ⟨e, he, hid⟩
  · intro id hid
    simpa [retire_sessions] using hid

theorem inv_step {r r' : Record} {a : Label} (h : Inv r) (hmeets : Meets r a)
    (hstep : r.step a = some r') : Inv r' := by
  obtain ⟨s, hs, rfl⟩ := Option.map_eq_some_iff.mp hstep
  have hinv := (CleanupFences.inv_step h.system hs).1
  -- a step that spawns no task leaves the record as it is
  have hquiet : Quiet r.system s → r.note a = { r with natives := r.natives ++ [] } →
      Inv { r.note a with system := s } := by
    intro hq hnote
    rw [hnote, List.append_nil]
    exact h.quiet hinv hq
  cases a with
  | activate_endpoint e =>
      obtain rfl := Option.some.inj hs
      exact hquiet (quiet_state ⟨rfl, rfl, rfl, fun _ he => he, rfl⟩ rfl) rfl
  | begin_peer_start e w =>
      obtain rfl := Option.some.inj hs
      exact hquiet (quiet_add_lease h.system (captures_begin_peer_start _ e w)
        (begins_peer_start _ e w)) rfl
  | begin_webview_start w =>
      obtain rfl := Option.some.inj hs
      exact hquiet (quiet_add_lease h.system (captures_begin_webview_start _ w)
        (begins_webview_start _ w)) rfl
  | wait_for_cleanup id =>
      obtain ⟨l, hl, hrest⟩ := Option.bind_eq_some_iff.mp hs
      obtain ⟨outcome, hout, rfl⟩ := Option.map_eq_some_iff.mp hrest
      refine hquiet (quiet_set_lease ⟨rfl, rfl, rfl, fun _ he => he, rfl⟩ (fun _ _ hc => hc) hl rfl
        (.inr hout.symm)) rfl
  | arm_native_cleanup id =>
      obtain ⟨l, hl, rfl⟩ := Option.map_eq_some_iff.mp hs
      exact hquiet (quiet_set_lease ⟨rfl, rfl, rfl, fun _ he => he, rfl⟩ (fun _ _ hc => hc) hl rfl
        (.inl rfl)) rfl
  | track id kind handle =>
      obtain ⟨l, hl, rfl⟩ := Option.map_eq_some_iff.mp hs
      obtain ⟨hsame, -, howner, -⟩ := sameFences_track l.lease r.system.state kind handle
      exact hquiet (quiet_set_lease hsame (completions_track _ _ _ _) hl howner (.inl rfl)) rfl
  | finish_cleanup id outcome =>
      obtain ⟨l, hl, rfl⟩ := Option.map_eq_some_iff.mp hs
      exact hquiet (quiet_set_lease (sameFences_release _ _ _) (completions_release _ _ _) hl rfl
        (.inl rfl)) rfl
  | drop id =>
      obtain ⟨l, hl, rfl⟩ := Option.map_eq_some_iff.mp hs
      exact hquiet (quiet_set_lease (sameFences_drop _ _) (completions_drop _ _) hl rfl
        (.inl rfl)) rfl
  | begin_session_cleanup kind handle =>
      simp only [System.step] at hs
      cases htracked : r.system.state.sessions.lookup (kind, handle) with
      | none =>
          have hbegin : r.system.state.begin_session_cleanup kind handle =
              (none, (r.system.state.untrack kind handle).2) := by
            simp only [OwnershipState.begin_session_cleanup, OwnershipState.untrack, htracked]
          rw [hbegin] at hs
          obtain rfl := Option.some.inj hs
          refine hquiet (quiet_state ⟨rfl, rfl, rfl, fun _ he => he, rfl⟩ rfl) ?_
          simp only [Record.note, drained, hbegin, Option.map_none, Option.toList_none]
      | some d =>
          have hbegin : r.system.state.begin_session_cleanup kind handle =
              (some (d, ((r.system.state.untrack kind handle).2.publish (owner_label d.owner)).1),
                ((r.system.state.untrack kind handle).2.publish (owner_label d.owner)).2) := by
            simp only [OwnershipState.begin_session_cleanup, OwnershipState.untrack, htracked]
          rw [hbegin] at hs
          obtain rfl := Option.some.inj hs
          have hnote : r.note (.begin_session_cleanup kind handle) =
              { r with natives := r.natives ++ [labels [d]] } := by
            simp only [Record.note, drained, hbegin, Option.map_some, Option.toList_some]
          rw [hnote]
          refine h.spawn (publishes_session hbegin) rfl (fresh_finish_session _ _) rfl rfl []
            ?_ ⟨?_, fun id hid => absurd hid List.not_mem_nil⟩
          · intro id hid
            simp [finish_session] at hid
          · intro d' hd'
            obtain rfl := List.mem_singleton.mp hd'
            exact ⟨_, List.mem_singleton_self _, rfl⟩
  | retire_endpoint e =>
      obtain rfl := Option.some.inj hs
      exact h.retire (publishes_retire_endpoint _ e) (install_completions _ _)
        (covers_retire_endpoint _ e)
  | advance_webview w =>
      obtain rfl := Option.some.inj hs
      exact h.retire (publishes_next_webview _ w true) rfl (covers_next_webview _ w true)
  | retire_webview w =>
      obtain rfl := Option.some.inj hs
      exact h.retire (publishes_next_webview _ w false) rfl (covers_next_webview _ w false)
  | retire_all =>
      obtain rfl := Option.some.inj hs
      exact h.retire (publishes_retire_all _) (install_completions _ _) (covers_retire_all _)
  | advance i native =>
      obtain ⟨t, hi, hrest⟩ := Option.bind_eq_some_iff.mp hs
      obtain ⟨x, hx, rfl⟩ := Option.map_eq_some_iff.mp hrest
      exact h.advance hi hx hmeets

/-- The record follows the system: it stops no run and changes none. -/
theorem run_record {l : List Label} {r : Record} {s : System} :
    Machine.run System.step r.system l = some s →
      ∃ r', Machine.run Record.step r l = some r' ∧ r'.system = s := by
  induction l generalizing r with
  | nil => exact fun hrun => ⟨r, rfl, Option.some.inj hrun⟩
  | cons a l ih =>
      intro hrun
      obtain ⟨s₁, hs₁, hrest⟩ := Machine.run_cons_eq_some.mp hrun
      have hstep : r.step a = some { r.note a with system := s₁ } := by
        simp only [Record.step, hs₁, Option.map_some]
      obtain ⟨r', hr', hsystem⟩ := ih (r := { r.note a with system := s₁ }) hrest
      exact ⟨r', Machine.run_cons_eq_some.mpr ⟨_, hstep, hr'⟩, hsystem⟩

/-- Behind a failed fence there is a failure of its own label: the oldest of the chain
has no other reason. -/
theorem Inv.own_failure {r : Record} (h : Inv r) {f : WebviewCleanupRetirement}
    (hf : f ∈ r.system.fences) {e : String}
    (he : r.system.state.cleanups f.current = some (.error e)) : OwnFailure r f.label := by
  induction hn : f.current using Nat.strong_induction_on generalizing f e with
  | _ n ih =>
      rcases h.failed f hf e he with ⟨g, hg, hlabel, hlt, e', he'⟩ | hown
      · rw [← hlabel]
        exact ih g.current (hn ▸ hlt) hg he' rfl
      · exact hown

/-- **Cleanup failures stay with their WebView**, in every run in which no task that
finishes the fences of several labels meets a failure: a fence fails only after an
earlier fence of its label, or when a native teardown or a start of its label has
failed, and a start that is refused has such a failure behind it. -/
theorem cleanup_failures_stay (l : List Label) {s : System}
    (hrun : Machine.run System.step CleanupFences.start l = some s)
    (hmeets : Machine.Along Record.step Meets start l) :
    ∃ r, Machine.run Record.step start l = some r ∧ r.system = s ∧
      (∀ f ∈ s.fences, ∀ e, s.state.cleanups f.current = some (.error e) → Explained r f) ∧
      ∀ lease ∈ s.leases, ∀ e, lease.returned = some (.error e) →
        OwnFailure r (owner_label lease.lease.owner) := by
  obtain ⟨r, hr, rfl⟩ := run_record (r := start) hrun
  have hinv : Inv r :=
    Machine.along_invariant (fun _ _ _ h hm hstep => inv_step h hm hstep) inv_start hmeets hr
  refine ⟨r, hr, rfl, hinv.failed, ?_⟩
  intro lease hlease e he
  obtain ⟨f, hf, hlabel, e', he'⟩ := hinv.returned lease hlease e he
  rw [← hlabel]
  exact hinv.own_failure hf he'

/-- A session is closed, its native stop fails, and the next start of the page is
refused: the failure is the page's own. -/
theorem cleanup_failures_stay_session : ∃ s l r,
    Machine.run System.step CleanupFences.start [.begin_webview_start "a", .track 0 .GenericBrowse 1,
      .begin_session_cleanup .GenericBrowse 1, .advance 0 (.error "stop"), .advance 0 (.ok ()),
      .advance 0 (.ok ()), .begin_webview_start "a", .wait_for_cleanup 1] = some s ∧
    s.leases[1]? = some l ∧ l.returned = some (.error "stop") ∧ r.system = s ∧
    OwnFailure r "a" := by
  -- a task with one fence meets the condition
  have hone : ∀ {i : ℕ} {t : Task} {x : Record} {f : WebviewCleanupRetirement},
      x.system.tasks[i]? = some t → t.fences = [f] → ∀ native, Meets x (.advance i native) := by
    intro i t x f ht hf native t' ht' hshared
    obtain rfl := Option.some.inj (ht.symm.trans ht')
    obtain ⟨g, hg, g', hg', hne⟩ := hshared
    rw [hf, List.mem_singleton] at hg hg'
    exact absurd (hg.trans hg'.symm) (fun heq => hne (congrArg _ heq))
  obtain ⟨s, l, hrun, hl, hret, hlabel⟩ : ∃ s l,
      Machine.run System.step CleanupFences.start [.begin_webview_start "a",
        .track 0 .GenericBrowse 1, .begin_session_cleanup .GenericBrowse 1,
        .advance 0 (.error "stop"), .advance 0 (.ok ()), .advance 0 (.ok ()),
        .begin_webview_start "a", .wait_for_cleanup 1] = some s ∧
      s.leases[1]? = some l ∧ l.returned = some (.error "stop") ∧
      owner_label l.lease.owner = "a" := ⟨_, _, rfl, rfl, rfl, rfl⟩
  obtain ⟨r, -, hr, -, hreturned⟩ := cleanup_failures_stay _ hrun (by
    refine Machine.along_cons rfl trivial (Machine.along_cons rfl trivial ?_)
    refine Machine.along_cons rfl trivial (Machine.along_cons rfl (hone rfl rfl _) ?_)
    refine Machine.along_cons rfl (hone rfl rfl _) (Machine.along_cons rfl (hone rfl rfl _) ?_)
    exact Machine.along_cons rfl trivial (Machine.along_cons rfl trivial trivial))
  exact ⟨s, l, r, hrun, hl, hret, hr, hlabel ▸ hreturned l (List.mem_of_getElem? hl) "stop" hret⟩

/-! ## Two windows on one endpoint -/

/-- What the retirement of an endpoint comes to, by its labels. -/
theorem retire_endpoint_eq {s : OwnershipState} {h : ℕ} {labels : List String}
    (hl : s.matching_owner_labels (is_peer_of h) = labels) :
    s.retire_endpoint h =
      let taken := (s.bump_endpoint h false).take_matching (is_peer_of h)
      let fences := taken.2.install_owner_cleanups labels
      (⟨taken.1, s.matching_starts (is_peer_of h), none, fences.1⟩, fences.2) := by
  subst hl
  rfl

/-- Pages "a" and "b" browse on endpoint 1. -/
def two_windows : Record :=
  (Machine.run Record.step start [.activate_endpoint 1, .begin_peer_start 1 "a",
    .track 0 .BrowsePeers 1, .begin_peer_start 1 "b", .track 1 .BrowsePeers 2]).getD start

theorem two_windows_labels :
    two_windows.system.state.matching_owner_labels (is_peer_of 1) = ["a", "b"] := by
  have hperm : two_windows.system.state.matching_owner_labels (is_peer_of 1) =
      (["b", "a"].mergeSort fun a b => decide (a ≤ b)).dedup := rfl
  rw [hperm]
  simp [List.mergeSort]

/-- The endpoint is retired, with a fence for each page. -/
def two_windows_retired : Record :=
  let taken := (two_windows.system.state.bump_endpoint 1 false).take_matching (is_peer_of 1)
  let fences := taken.2.install_owner_cleanups ["a", "b"]
  ⟨two_windows.system.add_task fences.2 fences.1
    (retire_endpoint_discovery_sessions ⟨taken.1, [], none, fences.1⟩), [["b", "a"]], []⟩

/-- The endpoint of two windows is retired. -/
theorem two_windows_step :
    two_windows.step (.retire_endpoint 1) = some two_windows_retired := by
  simp only [Record.step, System.step, Record.note, drained, retire_endpoint_eq two_windows_labels]
  rfl

/-- The endpoint is retired and only the stop of "a" fails. The fence of "b" fails too,
nothing of "b" having failed, and "b" cannot start again. -/
theorem stop_blocks_other_window : ∃ r f l,
    Machine.run Record.step start ([.activate_endpoint 1, .begin_peer_start 1 "a",
      .track 0 .BrowsePeers 1, .begin_peer_start 1 "b", .track 1 .BrowsePeers 2] ++
      [.retire_endpoint 1, .advance 0 (.ok ()), .advance 0 (.ok ()), .advance 0 (.ok ()),
        .advance 0 (.error "stop"), .advance 0 (.ok ()), .advance 0 (.ok ()),
        .begin_webview_start "b", .wait_for_cleanup 2]) = some r ∧
    f ∈ r.system.fences ∧ f.label = "b" ∧
    r.system.state.cleanups f.current = some (.error "stop") ∧ r.failed = ["a"] ∧
    ¬ Explained r f ∧
    r.system.leases[2]? = some l ∧ l.returned = some (.error "stop") ∧
    owner_label l.lease.owner = "b" ∧ ¬ OwnFailure r "b" := by
  rw [Machine.run_append (t := two_windows) rfl]
  obtain ⟨r, l, hrun, hfences, hcell, hfailed, hlength, h₀, h₁, h₂, hl, hret, hlabel⟩ : ∃ r l,
      Machine.run Record.step two_windows_retired [.advance 0 (.ok ()), .advance 0 (.ok ()),
        .advance 0 (.ok ()), .advance 0 (.error "stop"), .advance 0 (.ok ()), .advance 0 (.ok ()),
        .begin_webview_start "b", .wait_for_cleanup 2] = some r ∧
      r.system.fences = [⟨"a", 0, none⟩, ⟨"b", 1, none⟩] ∧
      r.system.state.cleanups 1 = some (.error "stop") ∧ r.failed = ["a"] ∧
      r.system.leases.length = 3 ∧ r.system.state.completions 0 = some (.ok ()) ∧
      r.system.state.completions 1 = some (.ok ()) ∧ r.system.state.completions 2 = none ∧
      r.system.leases[2]? = some l ∧ l.returned = some (.error "stop") ∧
      owner_label l.lease.owner = "b" := by
    exact ⟨_, _, rfl, rfl, rfl, rfl, rfl, rfl, rfl, rfl, rfl, rfl, rfl⟩
  have hno : ¬ OwnFailure r "b" := by
    rintro (hmem | ⟨id, k, e, hk, -, he⟩)
    · simp [hfailed] at hmem
    · -- no start has failed at all
      have hid := (List.getElem?_eq_some_iff.mp hk).1
      rw [hlength] at hid
      have hcases : id = 0 ∨ id = 1 ∨ id = 2 := by omega
      rcases hcases with rfl | rfl | rfl
      · simp [h₀] at he
      · simp [h₁] at he
      · simp [h₂] at he
  refine ⟨r, ⟨"b", 1, none⟩, l, Machine.run_cons_eq_some.mpr ⟨_, two_windows_step, hrun⟩, ?_, rfl,
    hcell, hfailed, ?_, hl, hret, hlabel, hno⟩
  · simp [hfences]
  · rintro (⟨g, hg, hglabel, hlt, -⟩ | hown)
    · -- the older fence is that of "a"
      rw [hfences] at hg
      simp only [List.mem_cons, List.not_mem_nil, or_false] at hg
      rcases hg with rfl | rfl
      · exact absurd hglabel (by decide)
      · exact absurd hlt (Nat.lt_irrefl 1)
    · exact hno hown

end IrohHttp.CleanupBlame
