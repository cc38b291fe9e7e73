/-
`next_path_change` and `unsubscribe_path_changes` of the Tauri adapter
(`commands.rs`), over the core's path subscriptions.

The adapter keeps the receiver of a subscription in a map, and a poll that finds
none there subscribes at the core. An unsubscribe first takes the receiver out and
wakes the poll that waits on it -- or, if there is none yet, leaves a closed
placeholder for the poll it has overtaken -- and then removes the sender at the core.

One endpoint, one peer and one subscription id; the polls come one after another.
Everything else the core does, for this peer and for others, goes on in between. The
endpoint stays open: closing it ends every subscription anyway.
-/
import IrohHttp.PathWatchers

set_option autoImplicit false

namespace IrohHttp.PathChanges

open IrohHttp.PathWatchers

/-! ## Data -/

/-- A `PathSub`: the `Arc` it is behind and the channel its receiver reads, `none`
for the placeholder, whose sender is gone from the start. -/
structure PathSub where
  ptr : ℕ
  rx : Option ℕ
  deriving DecidableEq, Repr

/-- The poll in flight. `waiting` is inside the `select!`, with whether its `Notified`
has been woken; `removing` has `None` and still to look into the map. -/
inductive Poll
  | idle
  | called
  | found (sub : PathSub)
  | waiting (sub : PathSub) (notified : Bool)
  | removing (sub : PathSub)
  deriving DecidableEq, Repr

/-- The unsubscribe call: not made, past the adapter's map, returned. -/
inductive Unsubscribe
  | idle
  | mapped
  | done
  deriving DecidableEq, Repr

/-- `rxs` is the map at the subscription's key. `late` is what polls have returned
since the unsubscribe began. -/
structure Adapter where
  core : SessionRuntime
  rxs : Option PathSub
  next_ptr : ℕ
  poll : Poll
  unsubscribe : Unsubscribe
  late : List (Option PathInfo)

/-- No subscription yet. -/
def Adapter.start : Adapter := ⟨PathWatchers.start, none, 0, .idle, .idle, []⟩

/-- The `PathSub` a poll has a reference to. -/
def Poll.sub : Poll → Option PathSub
  | .idle => none
  | .called => none
  | .found sub => some sub
  | .waiting sub _ => some sub
  | .removing sub => some sub

/-- The channel a poll may still read. -/
def Poll.reads : Poll → Option ℕ
  | .found sub => sub.rx
  | .waiting sub _ => sub.rx
  | _ => none

/-- `notify_waiters`: wakes the poll if it waits on this subscription. -/
def Poll.notify (ptr : ℕ) : Poll → Poll
  | .waiting sub notified => .waiting sub (notified || sub.ptr == ptr)
  | poll => poll

/-- Some sender of the channel is left: in the map, or with an entry a watcher holds. -/
def has_sender (core : SessionRuntime) (tx : ℕ) : Bool :=
  core.path_subs.any (fun _ entry => (core.senders entry).any fun _ tx' => tx' == tx) ||
    core.watchers.any fun w =>
      w.phase ≠ .ended && (core.senders w.peer_subscriptions).any fun _ tx' => tx' == tx

/-! ## Steps -/

/-- What can happen: the turns of the poll, of its caller, and of the core. -/
inductive Label
  | begin
  | lookup
  | select
  | recv
  | recv_closed
  | notified
  | remove
  | unsubscribe_map
  | unsubscribe_core
  | core (a : SessionRuntime.Label)

/-- The steps of a poll. -/
def Label.of_poll : Label → Bool
  | .lookup => true
  | .select => true
  | .recv => true
  | .recv_closed => true
  | .notified => true
  | .remove => true
  | _ => false

namespace Adapter

/-- The adapter has the channel's receiver. -/
def holds (s : Adapter) (tx : ℕ) : Bool :=
  s.rxs.any (fun sub => sub.rx == some tx) || s.poll.sub.any fun sub => sub.rx == some tx

/-- A poll returns. -/
def returns (s : Adapter) (result : Option PathInfo) : Adapter :=
  { s with
    poll := .idle
    late := if s.unsubscribe = .idle then s.late else s.late ++ [result] }

/-- `rx.recv()` is ready with `None`. -/
def closed (s : Adapter) (sub : PathSub) : Bool :=
  match sub.rx with
  | some tx => (s.core.queue tx).isEmpty && !has_sender s.core tx
  | none => true

section

variable (node_id : String) (subscription_id : ℕ)

/-- What the core does on its own: the watchers, other subscriptions, and a receiver
that the adapter has let go of. -/
def permits (s : Adapter) : SessionRuntime.Label → Bool
  | .subscribe node_id' subscription_id' => (node_id', subscription_id') ≠ (node_id, subscription_id)
  | .unsubscribe node_id' subscription_id' => (node_id', subscription_id') ≠ (node_id, subscription_id)
  | .recv tx => !s.holds tx
  | .drop_receiver tx => !s.holds tx
  | .close => false
  | .watcher _ _ => true

/-- The map lookup of `next_path_change`. -/
def lookup (s : Adapter) : Adapter :=
  match s.rxs with
  | some sub => { s with poll := .found sub }
  | none =>
    let sub : PathSub := ⟨s.next_ptr, some s.core.next_channel⟩
    { s with
      core := s.core.subscribe_path_changes node_id subscription_id
      rxs := some sub
      next_ptr := s.next_ptr + 1
      poll := .found sub }

/-- The first half of `unsubscribe_path_changes`. -/
def unsubscribe_map (s : Adapter) : Adapter :=
  match s.rxs with
  | some sub => { s with rxs := none, poll := s.poll.notify sub.ptr, unsubscribe := .mapped }
  | none =>
    { s with
      rxs := some ⟨s.next_ptr, none⟩
      next_ptr := s.next_ptr + 1
      unsubscribe := .mapped }

/-- One step, `none` where the label is not enabled. -/
def step (s : Adapter) : Label → Option Adapter
  | .begin => if s.poll = .idle then some { s with poll := .called } else none
  | .lookup => if s.poll = .called then some (s.lookup node_id subscription_id) else none
  | .select =>
    match s.poll with
    | .found sub => some { s with poll := .waiting sub false }
    | _ => none
  | .recv =>
    match s.poll with
    | .waiting sub _ => sub.rx.bind fun tx => (s.core.queue tx).head?.map fun path =>
        { s with
          core := { s.core with
            queue := Function.update s.core.queue tx (s.core.queue tx).tail } }.returns (some path)
    | _ => none
  | .recv_closed =>
    match s.poll with
    | .waiting sub _ => if s.closed sub then some { s with poll := .removing sub } else none
    | _ => none
  | .notified =>
    match s.poll with
    | .waiting sub true => some { s with poll := .removing sub }
    | _ => none
  | .remove =>
    match s.poll with
    | .removing sub =>
      some ({ s with
        rxs := if s.rxs.map PathSub.ptr = some sub.ptr then none else s.rxs }.returns none)
    | _ => none
  | .unsubscribe_map => if s.unsubscribe = .idle then some s.unsubscribe_map else none
  | .unsubscribe_core =>
    if s.unsubscribe = .mapped then
      some { s with
        core := s.core.unsubscribe_path_changes node_id subscription_id
        unsubscribe := .done }
    else none
  | .core a =>
    if s.permits node_id subscription_id a then
      (s.core.step a).map fun core => { s with core := core }
    else none

end

end Adapter

/-! ## The core's senders -/

/-- A sender in the map is that of the last subscribe call for its peer and id, and an
entry that is out of the map has none. -/
structure Wired (s : SessionRuntime) : Prop where
  bound : ∀ key tx, s.subscriptions.lookup key = some tx → tx < s.next_channel
  listed : ∀ peer entry id tx, s.path_subs.lookup peer = some entry →
    (s.senders entry).lookup id = some tx → s.subscriptions.lookup (peer, id) = some tx
  unmapped : s.closed = false → ∀ entry, (∀ peer, s.path_subs.lookup peer ≠ some entry) →
    (s.senders entry).entries = []
  quiet : ∀ tx, s.next_channel ≤ tx → s.queue tx = []

theorem wired_start : Wired PathWatchers.start where
  bound _ _ h := absurd h (by simp [PathWatchers.start, AList.lookup_empty])
  listed _ _ _ _ h := absurd h (by simp [PathWatchers.start, AList.lookup_empty])
  unmapped _ _ _ := rfl
  quiet _ _ := rfl

/-- A new subscription is wired: its channel is in the peer's entry. -/
theorem Wired.subscribe {s : SessionRuntime} (h : Wired s) (hinv : PathWatchers.Inv s)
    (peer : String) (id : ℕ) : Wired (s.subscribe_path_changes peer id) := by
  have hbound : ∀ key tx, (s.subscriptions.insert (peer, id) s.next_channel).lookup key = some tx →
      tx < s.next_channel + 1 := by
    intro key tx hkey
    rw [AList.lookup_insert_eq_ite] at hkey
    split at hkey
    · obtain rfl := Option.some.inj hkey
      exact Nat.lt_succ_self _
    · exact Nat.lt_succ_of_lt (h.bound key tx hkey)
  unfold SessionRuntime.subscribe_path_changes
  dsimp only
  split
  -- the peer has an entry: one sender is added to it
  · next entry hpeer =>
    refine ⟨hbound, ?_, ?_, fun tx hle => h.quiet tx (Nat.le_of_succ_le hle)⟩
    · intro peer' entry' id' tx hpeer' hsender
      dsimp only at hpeer' hsender ⊢
      rw [AList.lookup_insert_eq_ite]
      by_cases heq : entry' = entry
      · subst heq
        obtain rfl := hinv.peer_eq hpeer' hpeer
        rw [Function.update_self, AList.lookup_insert_eq_ite] at hsender
        by_cases hid : id' = id
        · rw [if_pos hid] at hsender
          rw [if_pos (by rw [hid])]
          exact hsender
        · rw [if_neg hid] at hsender
          rw [if_neg fun hkey => hid (Prod.mk.inj hkey).2]
          exact h.listed _ _ _ _ hpeer' hsender
      · rw [Function.update_of_ne heq] at hsender
        have hne : peer' ≠ peer := by
          rintro rfl
          exact heq (Option.some.inj (hpeer'.symm.trans hpeer))
        rw [if_neg fun hkey => hne (Prod.mk.inj hkey).1]
        exact h.listed _ _ _ _ hpeer' hsender
    · intro hopen entry' hun
      have hne : entry' ≠ entry := fun heq => hun peer (heq ▸ hpeer)
      dsimp only
      rw [Function.update_of_ne hne]
      exact h.unmapped hopen entry' hun
  -- it has none: a new entry with one sender, under a number that is not in use
  · next hpeer =>
    have hold : ∀ {peer' : String} {entry' : ℕ}, s.path_subs.lookup peer' = some entry' →
        entry' ≠ s.next_entry ∧ peer' ≠ peer := by
      intro peer' entry' hpeer'
      obtain ⟨i, w, hi, -, hentry, -⟩ := hinv.mapped peer' entry' hpeer'
      have hlt := hinv.bound w (List.mem_of_getElem? hi)
      refine ⟨by omega, ?_⟩
      rintro rfl
      exact absurd (hpeer.symm.trans hpeer') (by simp)
    refine ⟨hbound, ?_, ?_, fun tx hle => h.quiet tx (Nat.le_of_succ_le hle)⟩
    · intro peer' entry' id' tx hpeer' hsender
      dsimp only at hpeer' hsender ⊢
      rw [AList.lookup_insert_eq_ite] at hpeer' ⊢
      by_cases heq : peer' = peer
      · rw [if_pos heq] at hpeer'
        obtain rfl := Option.some.inj hpeer'
        rw [Function.update_self, AList.lookup_insert_eq_ite] at hsender
        by_cases hid : id' = id
        · rw [if_pos hid] at hsender
          rw [if_pos (by rw [heq, hid])]
          exact hsender
        · rw [if_neg hid] at hsender
          exact absurd hsender (by simp [AList.lookup_empty])
      · rw [if_neg heq] at hpeer'
        rw [Function.update_of_ne (hold hpeer').1] at hsender
        rw [if_neg fun hkey => heq (Prod.mk.inj hkey).1]
        exact h.listed _ _ _ _ hpeer' hsender
    · intro hopen entry' hun
      dsimp only at hun ⊢
      have hne : entry' ≠ s.next_entry := by
        rintro rfl
        exact hun peer (by rw [AList.lookup_insert_eq_ite, if_pos rfl])
      rw [Function.update_of_ne hne]
      apply h.unmapped hopen entry'
      intro peer' hpeer'
      refine hun peer' ?_
      rw [AList.lookup_insert_eq_ite, if_neg (hold hpeer').2]
      exact hpeer'

/-- An `unsubscribe` takes its own channel out and leaves the others wired. -/
theorem Wired.unsubscribe {s : SessionRuntime} (h : Wired s) (peer : String) (id : ℕ) :
    Wired (s.unsubscribe_path_changes peer id) := by
  have hbound : ∀ key tx, (s.subscriptions.erase (peer, id)).lookup key = some tx →
      tx < s.next_channel := by
    intro key tx hkey
    rw [AList.lookup_erase_eq_ite] at hkey
    split at hkey
    · cases hkey
    · exact h.bound key tx hkey
  unfold SessionRuntime.unsubscribe_path_changes
  dsimp only
  split
  · next entry hpeer =>
    refine ⟨hbound, ?_, ?_, h.quiet⟩
    · intro peer' entry' id' tx hpeer' hsender
      dsimp only at hpeer' hsender ⊢
      rw [AList.lookup_erase_eq_ite]
      by_cases heq : entry' = entry
      · subst heq
        rw [Function.update_self, AList.lookup_erase_eq_ite] at hsender
        by_cases hid : id' = id
        · rw [if_pos hid] at hsender
          cases hsender
        · rw [if_neg hid] at hsender
          rw [if_neg fun hkey => hid (Prod.mk.inj hkey).2]
          exact h.listed _ _ _ _ hpeer' hsender
      · rw [Function.update_of_ne heq] at hsender
        have hne : peer' ≠ peer := by
          rintro rfl
          exact heq (Option.some.inj (hpeer'.symm.trans hpeer))
        rw [if_neg fun hkey => hne (Prod.mk.inj hkey).1]
        exact h.listed _ _ _ _ hpeer' hsender
    · intro hopen entry' hun
      have hne : entry' ≠ entry := fun heq => hun peer (heq ▸ hpeer)
      dsimp only
      rw [Function.update_of_ne hne]
      exact h.unmapped hopen entry' hun
  · next hpeer =>
    refine ⟨hbound, ?_, h.unmapped, h.quiet⟩
    intro peer' entry' id' tx hpeer' hsender
    dsimp only at hpeer' hsender ⊢
    have hne : peer' ≠ peer := by
      rintro rfl
      exact absurd (hpeer.symm.trans hpeer') (by simp)
    rw [AList.lookup_erase_eq_ite, if_neg fun hkey => hne (Prod.mk.inj hkey).1]
    exact h.listed _ _ _ _ hpeer' hsender

theorem any_sender_iff {m : FiniteMap ℕ ℕ} {tx : ℕ} :
    m.any (fun _ tx' => tx' == tx) = true ↔ ∃ id, m.lookup id = some tx := by
  rw [AList.any_eq_true_iff]
  constructor
  · rintro ⟨⟨id, tx'⟩, hmem, heq⟩
    obtain rfl := beq_iff_eq.mp heq
    exact ⟨id, AList.lookup_eq_some_iff.mpr hmem⟩
  · rintro ⟨id, hget⟩
    exact ⟨⟨id, tx⟩, AList.lookup_eq_some_iff.mp hget, beq_self_eq_true tx⟩

/-- What a watcher sends goes to subscribers. -/
theorem Wired.sent {s : SessionRuntime} (h : Wired s) {w : Watcher} (howns : s.owns w = true)
    {active : PathInfo} {tx : ℕ}
    (hne : (s.send_all w.peer_subscriptions active).queue tx ≠ s.queue tx) :
    ∃ id, s.subscriptions.lookup (w.nid, id) = some tx := by
  unfold SessionRuntime.send_all at hne
  dsimp only at hne
  split at hne
  · next hany =>
    rw [Bool.and_eq_true] at hany
    obtain ⟨id, hget⟩ := any_sender_iff.mp hany.1
    exact ⟨id, h.listed _ _ _ _ (owns_iff.mp howns) hget⟩
  · exact absurd rfl hne

/-- `retain` invents no sender. -/
theorem lookup_of_retain_open {s : SessionRuntime} {late : List ℕ} {entry entry' id tx : ℕ}
    (h : (Function.update s.senders entry (s.retain_open late entry) entry').lookup id = some tx) :
    (s.senders entry').lookup id = some tx := by
  by_cases heq : entry' = entry
  · subst heq
    rw [Function.update_self, AList.lookup_eq_some_iff, SessionRuntime.retain_open,
      AList.mem_retain] at h
    exact AList.lookup_eq_some_iff.mpr h.1
  · rwa [Function.update_of_ne heq] at h

/-- A watcher's step keeps the wiring. -/
theorem Wired.watcher {s s' : SessionRuntime} (h : Wired s) (hinv : PathWatchers.Inv s) {i : ℕ}
    {w w' : Watcher} (hi : s.watchers[i]? = some w) (ht : s.Takes w w' s') :
    Wired { s' with watchers := s.watchers.set i w' } := by
  cases ht with
  | counts _ => exact ⟨h.bound, h.listed, h.unmapped, h.quiet⟩
  | moves _ => exact ⟨h.bound, h.listed, h.unmapped, h.quiet⟩
  | ends _ => exact ⟨h.bound, h.listed, h.unmapped, h.quiet⟩
  | sends active hp =>
      refine ⟨h.bound, h.listed, h.unmapped, ?_⟩
      intro tx hle
      dsimp only
      split
      · next howns =>
        by_contra hne
        rw [← h.quiet tx hle] at hne
        obtain ⟨id, hsub⟩ := h.sent howns hne
        exact absurd (h.bound _ _ hsub) (Nat.not_lt.mpr hle)
      · exact h.quiet tx hle
  -- while the runtime is open, a watcher that leaves owns no entry any more, and takes none out
  | leaves hp =>
      obtain ⟨path_subs, hstate, hmap, hsame⟩ := hinv.remove_own hi
      rw [hstate]
      refine ⟨h.bound, ?_, ?_, h.quiet⟩
      · intro peer entry id tx hpeer hsender
        exact h.listed peer entry id tx (hmap peer entry hpeer).1 hsender
      · intro hopen
        rcases hp with hp | ⟨-, hnot⟩
        · exact absurd hp (hinv.retiring hopen w (List.mem_of_getElem? hi))
        · rw [hsame hnot]
          exact h.unmapped hopen
  | keeps late hp howns =>
      refine ⟨h.bound, ?_, ?_, h.quiet⟩
      · intro peer entry id tx hpeer hsender
        exact h.listed peer entry id tx hpeer (lookup_of_retain_open hsender)
      · intro hopen entry hun
        have hne : entry ≠ w.peer_subscriptions := by
          rintro rfl
          exact hun w.nid (owns_iff.mp howns)
        dsimp only
        rw [Function.update_of_ne hne]
        exact h.unmapped hopen entry hun
  -- the entry it takes out has no sender left
  | empties late hp howns hempty =>
      refine ⟨h.bound, ?_, ?_, h.quiet⟩
      · intro peer entry id tx hpeer hsender
        dsimp only at hpeer
        rw [AList.lookup_erase_eq_ite] at hpeer
        split at hpeer
        · cases hpeer
        · exact h.listed peer entry id tx hpeer (lookup_of_retain_open hsender)
      · intro hopen entry hun
        dsimp only at hun ⊢
        by_cases heq : entry = w.peer_subscriptions
        · rw [heq, Function.update_self]
          exact hempty
        · rw [Function.update_of_ne heq]
          apply h.unmapped hopen entry
          intro peer hpeer
          refine hun peer ?_
          have hne : peer ≠ w.nid := by
            rintro rfl
            exact heq (Option.some.inj (hpeer.symm.trans (owns_iff.mp howns)))
          rw [AList.lookup_erase_eq_ite, if_neg hne]
          exact hpeer

theorem Wired.step {s s' : SessionRuntime} {a : SessionRuntime.Label} (h : Wired s)
    (hinv : PathWatchers.Inv s) (hstep : s.step a = some s') : Wired s' := by
  cases a with
  | subscribe peer id =>
      obtain rfl := Option.some.inj hstep
      exact h.subscribe hinv peer id
  | unsubscribe peer id =>
      obtain rfl := Option.some.inj hstep
      exact h.unsubscribe peer id
  | recv channel =>
      obtain rfl := Option.some.inj hstep
      refine ⟨h.bound, h.listed, h.unmapped, ?_⟩
      intro tx hle
      dsimp only
      by_cases heq : tx = channel
      · rw [heq, Function.update_self, ← heq, h.quiet tx hle]
        rfl
      · rw [Function.update_of_ne heq]
        exact h.quiet tx hle
  | drop_receiver channel =>
      simp only [SessionRuntime.step] at hstep
      split at hstep
      · obtain rfl := Option.some.inj hstep
        exact ⟨h.bound, h.listed, h.unmapped, h.quiet⟩
      · cases hstep
  | close =>
      obtain rfl := Option.some.inj hstep
      exact ⟨h.bound, h.listed, fun hopen => (by cases hopen), h.quiet⟩
  | watcher i act =>
      obtain ⟨w, hi, hrest⟩ := Option.bind_eq_some_iff.mp hstep
      obtain ⟨⟨w', t⟩, ht, rfl⟩ := Option.map_eq_some_iff.mp hrest
      exact h.watcher hinv hi (SessionRuntime.takes_of_watcher_step ht)

/-! ## When an unsubscribe is final -/

/-- The next step of this watcher sends on the channel. -/
def sends_on (core : SessionRuntime) (i tx : ℕ) : Bool :=
  (core.watchers[i]?).any fun w =>
    (match w.phase with
      | .sending _ => true
      | _ => false) &&
    core.owns w && (core.senders w.peer_subscriptions).any fun _ tx' => tx' == tx

/-- Nothing is left unread for a poll that the unsubscribe finds past its lookup, and
nothing is sent to it before the core is told. When the unsubscribe has returned, a
poll that is or will be before its lookup has the placeholder to find. -/
def Meets (s : Adapter) : Label → Prop
  | .begin => s.unsubscribe = .done → s.rxs ≠ none
  | .unsubscribe_map => ∀ tx, s.poll.reads = some tx → s.core.queue tx = []
  | .unsubscribe_core => s.poll = .called → s.rxs ≠ none
  | .core (.watcher i .send) =>
    s.unsubscribe = .mapped → ∀ tx, s.holds tx = true → sends_on s.core i tx = false
  | _ => True

section

variable {node_id : String} {subscription_id : ℕ}

/-- What the core's own steps leave alone. -/
structure Frame (node_id : String) (subscription_id : ℕ) (s : Adapter) (a : SessionRuntime.Label)
    (core : SessionRuntime) : Prop where
  own : core.subscriptions.lookup (node_id, subscription_id) =
    s.core.subscriptions.lookup (node_id, subscription_id)
  old : ∀ key tx, tx < s.core.next_channel → core.subscriptions.lookup key = some tx →
    s.core.subscriptions.lookup key = some tx
  next : s.core.next_channel ≤ core.next_channel
  closed : core.closed = s.core.closed
  queue : ∀ tx, s.holds tx = true → core.queue tx = s.core.queue tx ∨
    (∃ i, a = .watcher i .send ∧ sends_on s.core i tx = true) ∧
      ∃ key, s.core.subscriptions.lookup key = some tx

/-- A watcher's step leaves the subscription's channel alone, but for what it sends into it. -/
theorem frame_watcher {s : Adapter} (hw : Wired s.core) (hinv : PathWatchers.Inv s.core) {i : ℕ}
    {act : SessionRuntime.Act} {w w' : Watcher} {core : SessionRuntime}
    (hi : s.core.watchers[i]? = some w)
    (hstep : s.core.watcher_step w act = some (w', core)) :
    Frame node_id subscription_id s (.watcher i act)
      { core with watchers := s.core.watchers.set i w' } := by
  have hframe : ∀ {core' : SessionRuntime}, core'.subscriptions = s.core.subscriptions →
      core'.next_channel = s.core.next_channel → core'.closed = s.core.closed →
      core'.queue = s.core.queue →
      Frame node_id subscription_id s (.watcher i act) core' := by
    intro core' hsub hnext hclosed hqueue
    refine ⟨by rw [hsub], fun _ _ _ h => hsub ▸ h, Nat.le_of_eq hnext.symm, hclosed, ?_⟩
    exact fun tx _ => .inl (congrFun hqueue tx)
  cases SessionRuntime.takes_of_watcher_step hstep with
  | counts _ => exact hframe rfl rfl rfl rfl
  | moves _ => exact hframe rfl rfl rfl rfl
  | ends _ => exact hframe rfl rfl rfl rfl
  | keeps _ _ _ => exact hframe rfl rfl rfl rfl
  | empties _ _ _ _ => exact hframe rfl rfl rfl rfl
  | leaves _ =>
      obtain ⟨path_subs, hstate, -, -⟩ := hinv.remove_own hi
      rw [hstate]
      exact hframe rfl rfl rfl rfl
  | sends active hp =>
      refine ⟨rfl, fun _ _ _ h => h, Nat.le_refl _, rfl, ?_⟩
      intro tx _
      have hact : act = .send := by
        cases act <;> simp [SessionRuntime.watcher_step, hp] at hstep ⊢
      dsimp only
      split
      · next howns =>
        by_cases hsame : (s.core.send_all w.peer_subscriptions active).queue tx = s.core.queue tx
        · exact .inl hsame
        · obtain ⟨id, hsub⟩ := hw.sent howns hsame
          refine .inr ⟨⟨i, by rw [hact], ?_⟩, (w.nid, id), hsub⟩
          simp only [sends_on, hi, Option.any_some, hp, howns, Bool.true_and]
          unfold SessionRuntime.send_all at hsame
          dsimp only at hsame
          split at hsame
          · next hany => exact (Bool.and_eq_true _ _ ▸ hany).1
          · exact absurd rfl hsame
      · exact .inl rfl

theorem frame_step {s : Adapter} (hw : Wired s.core) (hinv : PathWatchers.Inv s.core)
    {a : SessionRuntime.Label} (hpermits : s.permits node_id subscription_id a = true)
    {core : SessionRuntime} (hstep : s.core.step a = some core) :
    Frame node_id subscription_id s a core := by
  cases a with
  | subscribe peer id =>
      obtain rfl := Option.some.inj hstep
      have hne : (peer, id) ≠ (node_id, subscription_id) := of_decide_eq_true hpermits
      obtain ⟨hsub, hnext, hclosed, hqueue⟩ := s.core.subscribe_fields peer id
      refine ⟨?_, ?_, by omega, hclosed, fun tx _ => .inl (congrFun hqueue tx)⟩
      · rw [hsub, AList.lookup_insert_eq_ite, if_neg hne.symm]
      · intro key tx hlt hkey
        rw [hsub, AList.lookup_insert_eq_ite] at hkey
        split at hkey
        · have heq := Option.some.inj hkey
          omega
        · exact hkey
  | unsubscribe peer id =>
      obtain rfl := Option.some.inj hstep
      have hne : (peer, id) ≠ (node_id, subscription_id) := of_decide_eq_true hpermits
      obtain ⟨hsub, hnext, hclosed, hqueue⟩ := s.core.unsubscribe_fields peer id
      refine ⟨?_, ?_, by omega, hclosed, fun tx _ => .inl (congrFun hqueue tx)⟩
      · rw [hsub, AList.lookup_erase_eq_ite, if_neg hne.symm]
      · intro key tx _ hkey
        rw [hsub, AList.lookup_erase_eq_ite] at hkey
        split at hkey
        · cases hkey
        · exact hkey
  | recv channel =>
      obtain rfl := Option.some.inj hstep
      refine ⟨rfl, fun _ _ _ h => h, Nat.le_refl _, rfl, ?_⟩
      intro tx hholds
      have hne : tx ≠ channel := by
        rintro rfl
        simp [Adapter.permits, hholds] at hpermits
      exact .inl (Function.update_of_ne hne _ _)
  | drop_receiver channel =>
      simp only [SessionRuntime.step] at hstep
      split at hstep
      · obtain rfl := Option.some.inj hstep
        exact ⟨rfl, fun _ _ _ h => h, Nat.le_refl _, rfl, fun _ _ => .inl rfl⟩
      · cases hstep
  | close => cases hpermits
  | watcher i act =>
      obtain ⟨w, hi, hrest⟩ := Option.bind_eq_some_iff.mp hstep
      obtain ⟨⟨w', t⟩, ht, rfl⟩ := Option.map_eq_some_iff.mp hrest
      exact frame_watcher hw hinv hi ht

/-! ## The invariant -/

/-- A channel that a poll reads or will find. -/
def Held (s : Adapter) (tx : ℕ) : Prop :=
  (∃ sub, s.rxs = some sub ∧ sub.rx = some tx) ∨ s.poll.reads = some tx

theorem Held.holds {s : Adapter} {tx : ℕ} (h : Held s tx) : s.holds tx = true := by
  rcases h with ⟨sub, hsub, hrx⟩ | hreads
  · simp [Adapter.holds, hsub, hrx]
  · cases hp : s.poll <;> rw [hp] at hreads <;> simp [Poll.reads] at hreads <;>
      simp [Adapter.holds, hp, Poll.sub, hreads]

/-- The invariant: the core's own, its wiring, and a channel that belongs to the subscription. -/
structure Inv (node_id : String) (subscription_id : ℕ) (s : Adapter) : Prop where
  core : PathWatchers.Inv s.core
  wired : Wired s.core
  opened : s.core.closed = false
  ours : ∀ tx, Held s tx → tx < s.core.next_channel ∧
    ∀ key, s.core.subscriptions.lookup key = some tx → key = (node_id, subscription_id)
  empty : s.unsubscribe ≠ .idle → ∀ tx, Held s tx → s.core.queue tx = []
  done : s.unsubscribe = .done → s.core.subscriptions.lookup (node_id, subscription_id) = none
  called : s.unsubscribe = .done → s.poll = .called → s.rxs ≠ none
  late : ∀ r ∈ s.late, r = none

theorem inv_start : Inv node_id subscription_id Adapter.start where
  core := PathWatchers.inv_start
  wired := wired_start
  opened := rfl
  ours tx h := by rcases h with ⟨sub, hsub, -⟩ | hreads <;> simp_all [Adapter.start, Poll.reads]
  empty h := absurd rfl h
  done h := by cases h
  called h := by cases h
  late _ hr := absurd hr List.not_mem_nil

/-- Only the poll and the map have changed, and nothing new is held. -/
theorem Inv.narrow {s : Adapter} (h : Inv node_id subscription_id s) {poll : Poll}
    {rxs : Option PathSub} {late : List (Option PathInfo)}
    (hheld : ∀ tx, Held { s with poll := poll, rxs := rxs, late := late } tx → Held s tx)
    (hcalled : s.unsubscribe = .done → poll = .called → rxs ≠ none)
    (hlate : ∀ r ∈ late, r = none) :
    Inv node_id subscription_id { s with poll := poll, rxs := rxs, late := late } :=
  ⟨h.core, h.wired, h.opened, fun tx ht => h.ours tx (hheld tx ht),
    fun hun tx ht => h.empty hun tx (hheld tx ht), h.done, hcalled, hlate⟩

/-- The poll moves to where it reads nothing. -/
theorem Inv.set_poll {s : Adapter} (h : Inv node_id subscription_id s) {poll : Poll}
    (hreads : poll.reads = none) (hcalled : s.unsubscribe = .done → poll = .called → s.rxs ≠ none) :
    Inv node_id subscription_id { s with poll := poll } := by
  refine h.narrow ?_ hcalled h.late
  rintro tx (hsub | hread)
  · exact .inl hsub
  · exact absurd (hreads.symm.trans hread) (by simp)

theorem Inv.lookup {s : Adapter} (h : Inv node_id subscription_id s) (hpoll : s.poll = .called) :
    Inv node_id subscription_id (s.lookup node_id subscription_id) := by
  unfold Adapter.lookup
  split
  · next sub hsub =>
    refine h.narrow ?_ (fun _ hc => by cases hc) h.late
    rintro tx (⟨sub', hsub', hrx⟩ | hreads)
    · exact .inl ⟨sub', hsub', hrx⟩
    · exact .inl ⟨sub, hsub, hreads⟩
  · next hnone =>
    have hnotdone : s.unsubscribe ≠ .done := fun hd => h.called hd hpoll hnone
    obtain ⟨hsubs, hnext, hclosed, hqueue⟩ := s.core.subscribe_fields node_id subscription_id
    -- the only channel held is the new one
    have hnew : ∀ tx, Held { s with
        core := s.core.subscribe_path_changes node_id subscription_id
        rxs := some ⟨s.next_ptr, some s.core.next_channel⟩
        next_ptr := s.next_ptr + 1
        poll := .found ⟨s.next_ptr, some s.core.next_channel⟩ } tx → tx = s.core.next_channel := by
      rintro tx (⟨sub', hsub', hrx⟩ | hreads)
      · obtain rfl := Option.some.inj hsub'
        exact (Option.some.inj hrx).symm
      · exact (Option.some.inj hreads).symm
    refine ⟨h.core.subscribe _ _, h.wired.subscribe h.core _ _, hclosed.trans h.opened, ?_, ?_,
      fun hd => absurd hd hnotdone, fun hd => absurd hd hnotdone, h.late⟩
    · intro tx ht
      obtain rfl := hnew tx ht
      refine ⟨?_, ?_⟩
      · rw [hnext]
        exact Nat.lt_succ_self _
      · intro key hkey
        rw [hsubs, AList.lookup_insert_eq_ite] at hkey
        split at hkey
        · next heq => exact heq
        · exact absurd (h.wired.bound _ _ hkey) (Nat.lt_irrefl _)
    · intro _ tx ht
      rw [hnew tx ht]
      exact (congrFun hqueue _).trans (h.wired.quiet _ (Nat.le_refl _))

/-- The first half of `unsubscribe` removes the receivers. -/
theorem Inv.unsubscribe_map {s : Adapter} (h : Inv node_id subscription_id s)
    (hmeets : ∀ tx, s.poll.reads = some tx → s.core.queue tx = []) :
    Inv node_id subscription_id s.unsubscribe_map := by
  have hreads : ∀ ptr, (s.poll.notify ptr).reads = s.poll.reads := by
    intro ptr
    cases s.poll <;> rfl
  unfold Adapter.unsubscribe_map
  split
  · next sub hsub =>
    have hheld : ∀ tx, Held { s with
        rxs := none
        poll := s.poll.notify sub.ptr
        unsubscribe := .mapped } tx → s.poll.reads = some tx := by
      rintro tx (⟨sub', hsub', -⟩ | hr)
      · cases hsub'
      · exact (hreads sub.ptr).symm.trans hr
    refine ⟨h.core, h.wired, h.opened, fun tx ht => h.ours tx (.inr (hheld tx ht)),
      fun _ tx ht => hmeets tx (hheld tx ht), fun hd => (by cases hd), fun hd => (by cases hd),
      h.late⟩
  · have hheld : ∀ tx, Held { s with
        rxs := some ⟨s.next_ptr, none⟩
        next_ptr := s.next_ptr + 1
        unsubscribe := .mapped } tx → s.poll.reads = some tx := by
      rintro tx (⟨sub', hsub', hrx⟩ | hr)
      · obtain rfl := Option.some.inj hsub'
        cases hrx
      · exact hr
    refine ⟨h.core, h.wired, h.opened, fun tx ht => h.ours tx (.inr (hheld tx ht)),
      fun _ tx ht => hmeets tx (hheld tx ht), fun hd => (by cases hd), fun hd => (by cases hd),
      h.late⟩

/-- The second half closes the subscription's channel. -/
theorem Inv.unsubscribe_core {s : Adapter} (h : Inv node_id subscription_id s)
    (hmapped : s.unsubscribe = .mapped) (hmeets : s.poll = .called → s.rxs ≠ none) :
    Inv node_id subscription_id
      { s with
        core := s.core.unsubscribe_path_changes node_id subscription_id
        unsubscribe := .done } := by
  obtain ⟨hsubs, hnext, hclosed, hqueue⟩ := s.core.unsubscribe_fields node_id subscription_id
  refine ⟨h.core.unsubscribe _ _, h.wired.unsubscribe _ _, hclosed.trans h.opened, ?_, ?_, ?_,
    fun _ hc => hmeets hc, h.late⟩
  · intro tx ht
    obtain ⟨hlt, hkey⟩ := h.ours tx ht
    refine ⟨hnext.symm ▸ hlt, ?_⟩
    intro key hget
    rw [hsubs, AList.lookup_erase_eq_ite] at hget
    split at hget
    · cases hget
    · exact hkey key hget
  · intro _ tx ht
    exact (congrFun hqueue tx).trans (h.empty (by rw [hmapped]; simp) tx ht)
  · intro _
    dsimp only
    rw [hsubs, AList.lookup_erase_eq_ite, if_pos rfl]

/-- A step of the core keeps the adapter's invariant. -/
theorem Inv.core_step {s : Adapter} (h : Inv node_id subscription_id s)
    {a : SessionRuntime.Label} (hpermits : s.permits node_id subscription_id a = true)
    {core : SessionRuntime} (hstep : s.core.step a = some core) (hmeets : Meets s (.core a)) :
    Inv node_id subscription_id { s with core := core } := by
  have hframe := frame_step h.wired h.core hpermits hstep
  refine ⟨PathWatchers.inv_step h.core hstep, h.wired.step h.core hstep,
    hframe.closed.trans h.opened, ?_, ?_, fun hd => hframe.own.trans (h.done hd), h.called, h.late⟩
  · intro tx ht
    obtain ⟨hlt, hkey⟩ := h.ours tx ht
    exact ⟨Nat.lt_of_lt_of_le hlt hframe.next, fun key hget => hkey key (hframe.old key tx hlt hget)⟩
  · intro hun tx ht
    have hold := h.empty hun tx ht
    rcases hframe.queue tx (Held.holds (s := s) ht) with hsame | ⟨⟨i, rfl, hsends⟩, key, hsub⟩
    · exact hsame.trans hold
    · -- what is sent is sent to a subscriber, and the core has none left
      cases hphase : s.unsubscribe with
      | idle => exact absurd hphase hun
      | mapped => exact absurd hsends (by simp [hmeets hphase tx (Held.holds (s := s) ht)])
      | done =>
          obtain rfl := (h.ours tx ht).2 key hsub
          exact absurd (hsub.symm.trans (h.done hphase)) (by simp)

/-- A poll takes a path off its channel, which no unsubscribe has found. -/
theorem Inv.recv {s : Adapter} (h : Inv node_id subscription_id s) {sub : PathSub}
    {notified : Bool} (hpoll : s.poll = .waiting sub notified) {tx : ℕ} (hrx : sub.rx = some tx)
    {path : PathInfo} (hhead : (s.core.queue tx).head? = some path) :
    Inv node_id subscription_id (Adapter.returns { s with
      core := { s.core with
        queue := Function.update s.core.queue tx (s.core.queue tx).tail } } (some path)) := by
  have hheld : Held s tx := .inr (by rw [hpoll]; exact hrx)
  have hidle : s.unsubscribe = .idle := by
    by_contra hun
    rw [h.empty hun tx hheld] at hhead
    cases hhead
  have hcore : s.core.step (.recv tx) = some { s.core with
      queue := Function.update s.core.queue tx (s.core.queue tx).tail } := rfl
  unfold Adapter.returns
  refine ⟨PathWatchers.inv_step h.core hcore, h.wired.step h.core hcore, h.opened, ?_,
    fun hun => absurd hidle hun, h.done, fun _ hc => (by cases hc), ?_⟩
  · rintro tx' (hsub | hreads)
    · exact h.ours tx' (.inl hsub)
    · cases hreads
  · dsimp only
    rw [if_pos hidle]
    exact h.late

/-- A poll that found its receiver closed takes it out and returns null. -/
theorem Inv.remove {s : Adapter} (h : Inv node_id subscription_id s) (rxs : Option PathSub)
    (hrxs : rxs = none ∨ rxs = s.rxs) :
    Inv node_id subscription_id (Adapter.returns { s with rxs := rxs } none) := by
  unfold Adapter.returns
  refine h.narrow ?_ (fun _ hc => by cases hc) ?_
  · rintro tx (⟨sub, hsub, hrx⟩ | hreads)
    · rcases hrxs with rfl | rfl
      · cases hsub
      · exact .inl ⟨sub, hsub, hrx⟩
    · cases hreads
  · intro r hr
    dsimp only at hr
    by_cases hidle : s.unsubscribe = .idle
    · rw [if_pos hidle] at hr
      exact h.late r hr
    · rw [if_neg hidle] at hr
      rcases List.mem_append.mp hr with hr | hr
      · exact h.late r hr
      · exact List.mem_singleton.mp hr

/-- **A step that meets the condition keeps the invariant.** -/
theorem inv_step {s s' : Adapter} {a : Label} (h : Inv node_id subscription_id s)
    (hmeets : Meets s a) (hstep : s.step node_id subscription_id a = some s') :
    Inv node_id subscription_id s' := by
  -- the last three steps are where the condition is used: they race with the poll
  cases a with
  | begin =>
      simp only [Adapter.step] at hstep
      split at hstep
      · obtain rfl := Option.some.inj hstep
        exact h.set_poll rfl fun hd _ => hmeets hd
      · cases hstep
  | lookup =>
      simp only [Adapter.step] at hstep
      split at hstep
      · next hpoll =>
        obtain rfl := Option.some.inj hstep
        exact h.lookup hpoll
      · cases hstep
  | select =>
      simp only [Adapter.step] at hstep
      split at hstep
      · next sub hpoll =>
        obtain rfl := Option.some.inj hstep
        refine h.narrow ?_ (fun _ hc => by cases hc) h.late
        rintro tx (hsub | hreads)
        · exact .inl hsub
        · exact .inr (by rw [hpoll]; exact hreads)
      · cases hstep
  | recv =>
      simp only [Adapter.step] at hstep
      split at hstep
      · next sub notified hpoll =>
        obtain ⟨tx, hrx, hrest⟩ := Option.bind_eq_some_iff.mp hstep
        obtain ⟨path, hhead, rfl⟩ := Option.map_eq_some_iff.mp hrest
        exact h.recv hpoll hrx hhead
      · cases hstep
  | recv_closed =>
      simp only [Adapter.step] at hstep
      split at hstep
      · next sub notified hpoll =>
        split at hstep
        · obtain rfl := Option.some.inj hstep
          exact h.set_poll rfl fun _ hc => (by cases hc)
        · cases hstep
      · cases hstep
  | notified =>
      simp only [Adapter.step] at hstep
      split at hstep
      · next sub hpoll =>
        obtain rfl := Option.some.inj hstep
        exact h.set_poll rfl fun _ hc => (by cases hc)
      · cases hstep
  | remove =>
      simp only [Adapter.step] at hstep
      split at hstep
      · next sub hpoll =>
        obtain rfl := Option.some.inj hstep
        apply h.remove
        split
        · exact .inl rfl
        · exact .inr rfl
      · cases hstep
  | unsubscribe_map =>
      simp only [Adapter.step] at hstep
      split at hstep
      · obtain rfl := Option.some.inj hstep
        exact h.unsubscribe_map hmeets
      · cases hstep
  | unsubscribe_core =>
      simp only [Adapter.step] at hstep
      split at hstep
      · next hmapped =>
        obtain rfl := Option.some.inj hstep
        exact h.unsubscribe_core hmapped hmeets
      · cases hstep
  | core a =>
      simp only [Adapter.step] at hstep
      split at hstep
      · next hpermits =>
        obtain ⟨core, hcore, rfl⟩ := Option.map_eq_some_iff.mp hstep
        exact h.core_step hpermits hcore hmeets
      · cases hstep

/-! ## Finality -/

/-- The core has no sender for the subscription. -/
def Unsubscribed (node_id : String) (subscription_id : ℕ) (core : SessionRuntime) : Prop :=
  ∀ entry, core.path_subs.lookup node_id = some entry →
    (core.senders entry).lookup subscription_id = none

/-- No poll has returned a path since the unsubscribe began. Once it has returned, a
poll that is in flight comes by its own steps to return null, and the core has no
sender left. -/
structure Final (node_id : String) (subscription_id : ℕ) (s : Adapter) : Prop where
  null : ∀ r ∈ s.late, r = none
  answered : s.unsubscribe = .done → s.poll ≠ .idle →
    ∃ (l : List Label) (s' : Adapter), (∀ a ∈ l, a.of_poll = true) ∧
      Machine.run (Adapter.step node_id subscription_id) s l = some s' ∧
      s'.poll = .idle ∧ s'.late = s.late ++ [none]
  unsubscribed : s.unsubscribe = .done → Unsubscribed node_id subscription_id s.core

theorem Inv.unsubscribed {s : Adapter} (h : Inv node_id subscription_id s)
    (hdone : s.unsubscribe = .done) : Unsubscribed node_id subscription_id s.core := by
  intro entry hpeer
  by_contra hne
  obtain ⟨tx, hsender⟩ := Option.ne_none_iff_exists'.mp hne
  have hsub := h.wired.listed _ _ _ _ hpeer hsender
  exact absurd (hsub.symm.trans (h.done hdone)) (by simp)

/-- The senders of a held channel are gone with the subscription. -/
theorem Inv.has_sender {s : Adapter} (h : Inv node_id subscription_id s)
    (hdone : s.unsubscribe = .done) {tx : ℕ} (ht : Held s tx) : has_sender s.core tx = false := by
  have hnone : ∀ peer entry, s.core.path_subs.lookup peer = some entry →
      (s.core.senders entry).any (fun _ tx' => tx' == tx) = false := by
    intro peer entry hpeer
    by_contra hany
    obtain ⟨id, hsender⟩ := any_sender_iff.mp (Bool.not_eq_false _ ▸ hany)
    have hsub := h.wired.listed _ _ _ _ hpeer hsender
    rw [(h.ours tx ht).2 _ hsub] at hsub
    exact absurd (hsub.symm.trans (h.done hdone)) (by simp)
  unfold PathChanges.has_sender
  rw [Bool.or_eq_false_iff]
  constructor
  · rw [← Bool.not_eq_true, AList.any_eq_true_iff]
    rintro ⟨⟨peer, entry⟩, hmem, hany⟩
    rw [hnone peer entry (AList.lookup_eq_some_iff.mpr hmem)] at hany
    cases hany
  · rw [List.any_eq_false]
    intro w hw
    rw [Bool.and_eq_true, not_and]
    intro _ hany
    by_cases hmapped : ∃ peer, s.core.path_subs.lookup peer = some w.peer_subscriptions
    · obtain ⟨peer, hpeer⟩ := hmapped
      rw [hnone peer _ hpeer] at hany
      cases hany
    · have hempty := h.wired.unmapped h.opened w.peer_subscriptions
        fun peer hpeer => hmapped ⟨peer, hpeer⟩
      simp [AList.any, hempty] at hany

/-- Behind the `unsubscribe` the subscription's channel is closed. -/
theorem Inv.closed {s : Adapter} (h : Inv node_id subscription_id s)
    (hdone : s.unsubscribe = .done) {sub : PathSub} (ht : ∀ tx, sub.rx = some tx → Held s tx) :
    s.closed sub = true := by
  unfold Adapter.closed
  split
  · next tx hrx =>
    have hheld := ht tx hrx
    rw [h.empty (by rw [hdone]; simp) tx hheld, h.has_sender hdone hheld]
    rfl
  · rfl

variable (node_id subscription_id) in
/-- A poll whose receiver is closed returns null in the steps it has left. -/
theorem run_removing {s : Adapter} (hdone : s.unsubscribe = .done) {sub : PathSub}
    (hpoll : s.poll = .removing sub) :
    ∃ s', Machine.run (Adapter.step node_id subscription_id) s [.remove] = some s' ∧
      s'.poll = .idle ∧ s'.late = s.late ++ [none] := by
  have hstep : s.step node_id subscription_id .remove = some ({ s with
      rxs := if s.rxs.map PathSub.ptr = some sub.ptr then none else s.rxs }.returns none) := by
    simp [Adapter.step, hpoll]
  refine ⟨_, Machine.run_cons_eq_some.mpr ⟨_, hstep, rfl⟩, rfl, ?_⟩
  simp [Adapter.returns, hdone]

variable (node_id subscription_id) in
/-- A poll that waits behind the `unsubscribe` returns nothing, and leaves. -/
theorem run_waiting {s : Adapter} (hdone : s.unsubscribe = .done) {sub : PathSub} {notified : Bool}
    (hpoll : s.poll = .waiting sub notified) (hclosed : s.closed sub = true) :
    ∃ s', Machine.run (Adapter.step node_id subscription_id) s [.recv_closed, .remove] = some s' ∧
      s'.poll = .idle ∧ s'.late = s.late ++ [none] := by
  have hstep : s.step node_id subscription_id .recv_closed =
      some { s with poll := .removing sub } := by
    simp [Adapter.step, hpoll, hclosed]
  obtain ⟨s', hrun, hidle, hlate⟩ :=
    run_removing node_id subscription_id
      (s := { s with poll := .removing sub }) hdone rfl
  exact ⟨s', Machine.run_cons_eq_some.mpr ⟨_, hstep, hrun⟩, hidle, hlate⟩

variable (node_id subscription_id) in
/-- So does a poll that had found its receiver. -/
theorem run_found {s : Adapter} (hdone : s.unsubscribe = .done) {sub : PathSub}
    (hpoll : s.poll = .found sub) (hclosed : s.closed sub = true) :
    ∃ s', Machine.run (Adapter.step node_id subscription_id) s [.select, .recv_closed, .remove] =
        some s' ∧ s'.poll = .idle ∧ s'.late = s.late ++ [none] := by
  have hstep : s.step node_id subscription_id .select =
      some { s with poll := .waiting sub false } := by
    simp [Adapter.step, hpoll]
  obtain ⟨s', hrun, hidle, hlate⟩ :=
    run_waiting node_id subscription_id
      (s := { s with poll := .waiting sub false }) hdone rfl hclosed
  exact ⟨s', Machine.run_cons_eq_some.mpr ⟨_, hstep, hrun⟩, hidle, hlate⟩

/-- Behind the `unsubscribe`, every poll under way returns nothing. -/
theorem Inv.final {s : Adapter} (h : Inv node_id subscription_id s) :
    Final node_id subscription_id s := by
  refine ⟨h.late, ?_, fun hdone => h.unsubscribed hdone⟩
  intro hdone hpoll
  cases hp : s.poll with
  | idle => exact absurd hp hpoll
  | called =>
      obtain ⟨sub, hsub⟩ := Option.ne_none_iff_exists'.mp (h.called hdone hp)
      have hstep : s.step node_id subscription_id .lookup = some { s with poll := .found sub } := by
        simp [Adapter.step, hp, Adapter.lookup, hsub]
      have hclosed := h.closed hdone fun tx hrx => .inl ⟨sub, hsub, hrx⟩
      obtain ⟨s', hrun, hidle, hlate⟩ :=
        run_found node_id subscription_id
          (s := { s with poll := .found sub }) hdone rfl hclosed
      exact ⟨_, s', by simp [Label.of_poll], Machine.run_cons_eq_some.mpr ⟨_, hstep, hrun⟩, hidle,
        hlate⟩
  | found sub =>
      have hclosed := h.closed hdone fun tx hrx => .inr (by rw [hp]; exact hrx)
      obtain ⟨s', hrun, hidle, hlate⟩ := run_found node_id subscription_id hdone hp hclosed
      exact ⟨_, s', by simp [Label.of_poll], hrun, hidle, hlate⟩
  | waiting sub notified =>
      have hclosed := h.closed hdone fun tx hrx => .inr (by rw [hp]; exact hrx)
      obtain ⟨s', hrun, hidle, hlate⟩ := run_waiting node_id subscription_id hdone hp hclosed
      exact ⟨_, s', by simp [Label.of_poll], hrun, hidle, hlate⟩
  | removing sub =>
      obtain ⟨s', hrun, hidle, hlate⟩ := run_removing node_id subscription_id hdone hp
      exact ⟨_, s', by simp [Label.of_poll], hrun, hidle, hlate⟩

/-- **An unsubscribe is final, while its condition is met.** In every run whose steps
meet `Meets`, every state is `Final`: what polls return from then on is null, none of
them is left waiting, and the core has no sender. -/
theorem unsubscribe_final {l : List Label} {s : Adapter}
    (hmeets : Machine.Along (Adapter.step node_id subscription_id) Meets Adapter.start l)
    (hrun : Machine.run (Adapter.step node_id subscription_id) Adapter.start l = some s) :
    Final node_id subscription_id s :=
  (Machine.along_invariant (fun _ _ _ h hm hs => inv_step h hm hs) inv_start hmeets hrun).final

end

/-- The unsubscribe overtakes the first poll, and leaves it the placeholder. -/
theorem unsubscribe_final_overtaken : ∃ s,
    Machine.run (Adapter.step "peer" 1) Adapter.start
      [.begin, .unsubscribe_map, .unsubscribe_core, .lookup] = some s ∧
    s.poll = .found ⟨0, none⟩ ∧ Final "peer" 1 s := by
  refine ⟨_, rfl, rfl, ?_⟩
  have hmeets : Machine.Along (Adapter.step "peer" 1) Meets Adapter.start
      [.begin, .unsubscribe_map, .unsubscribe_core, .lookup] := by
    refine Machine.along_cons rfl (fun h => by cases h) ?_
    refine Machine.along_cons rfl (fun _ h => by cases h) ?_
    refine Machine.along_cons rfl (fun _ h => by cases h) ?_
    exact Machine.along_cons rfl trivial trivial
  exact unsubscribe_final hmeets rfl

/-- The unsubscribe overtakes the second poll: it takes the receiver out, wakes nobody,
and the poll subscribes anew. That poll returns a path, and the core keeps its sender. -/
theorem overtaken_poll_resubscribes : ∃ s,
    Machine.run (Adapter.step "peer" 1) Adapter.start
      [.begin, .lookup, .core (.watcher 0 .fetch_add), .core (.watcher 0 .spawn),
        .core (.watcher 0 .check_closed), .core (.watcher 0 (.scan [])),
        .core (.watcher 0 (.peer_stats (some [⟨false, "10.0.0.1:1", true⟩]))),
        .core (.watcher 0 .send), .select, .recv,
        .begin, .unsubscribe_map, .unsubscribe_core, .lookup, .select,
        .core (.watcher 0 .sleep), .core (.watcher 0 .check_closed), .core (.watcher 0 (.scan [])),
        .core (.watcher 0 (.peer_stats (some [⟨true, "relay", true⟩]))),
        .core (.watcher 0 .send), .recv] = some s ∧
    s.unsubscribe = .done ∧ s.poll = .idle ∧ s.late = [some ⟨true, "relay", true⟩] ∧
    ¬ Unsubscribed "peer" 1 s.core := by
  refine ⟨_, rfl, rfl, rfl, rfl, ?_⟩
  intro hgone
  exact absurd (hgone 0 rfl) (by decide)

end IrohHttp.PathChanges
