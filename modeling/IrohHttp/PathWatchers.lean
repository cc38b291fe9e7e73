/-
Path-change subscriptions of the core: `subscribe_path_changes`, its watcher task
and `unsubscribe_path_changes` (`endpoint/observe.rs`, `endpoint/session_runtime.rs`).

The first subscriber of a peer makes the peer's entry and spawns a watcher that is
bound to it; later ones join. A watcher that finds its entry without senders takes
it out and ends, and a subscriber that comes after makes a new entry with a watcher
of its own. The two sides meet under the lock of `path_subs`: each locked section is
one step here, and so is each access to the counter, each look at the closed flag
and each await.

An entry is an `Arc` that is compared by pointer, so it is a number; so is a
channel.
-/
import IrohHttp.FiniteMap
import IrohHttp.Machine
import IrohHttp.Parties
import Mathlib.Logic.Function.Basic

set_option autoImplicit false

namespace IrohHttp.PathWatchers

/-! ## Data -/

/-- A path of a connection. -/
structure PathInfo where
  relay : Bool
  addr : String
  active : Bool
  deriving DecidableEq, Repr

/-- Where a watcher stands. The first two belong to the subscribe call that spawns
it, `broken` is behind the loop. -/
inductive Phase
  | inserted
  | counted
  | checking
  | retiring
  | scanning
  | polling
  | sending (active : PathInfo)
  | sleeping
  | broken
  | ended
  deriving DecidableEq, Repr

/-- The task of one peer. -/
structure Watcher where
  nid : String
  peer_subscriptions : ℕ
  last_key : Option String
  phase : Phase
  deriving DecidableEq, Repr

/-- The subscribe call that made the entry has not returned. -/
def Watcher.midway (w : Watcher) : Bool := w.phase = .inserted || w.phase = .counted

/-- It is a task that has not ended. -/
def Watcher.is_task (w : Watcher) : Bool := !w.midway && w.phase ≠ .ended

/-- The path subscriptions of `SessionRuntime`, with what they point to: the senders
of every `PathSubscriptions` ever made, the channels and the watchers.
`subscriptions` is history: the channel of the last subscribe call for a peer and an
id, unless that was unsubscribed. -/
structure SessionRuntime where
  path_subs : FiniteMap String ℕ
  active_path_watchers : ℕ
  closed : Bool
  next_entry : ℕ
  senders : ℕ → FiniteMap ℕ ℕ
  next_channel : ℕ
  dropped : ℕ → Bool
  queue : ℕ → List PathInfo
  watchers : List Watcher
  subscriptions : FiniteMap (String × ℕ) ℕ

/-- No subscription yet. -/
def start : SessionRuntime where
  path_subs := ∅
  active_path_watchers := 0
  closed := false
  next_entry := 0
  senders := fun _ => ∅
  next_channel := 0
  dropped := fun _ => false
  queue := fun _ => []
  watchers := []
  subscriptions := ∅

namespace SessionRuntime

/-! ## Calls -/

/-- The locked section of `subscribe_path_changes`. A new entry comes with the
watcher that the rest of the call counts and spawns. -/
def subscribe_path_changes (s : SessionRuntime) (node_id_str : String) (subscription_id : ℕ) :
    SessionRuntime :=
  let tx := s.next_channel
  let s := { s with
    next_channel := s.next_channel + 1
    subscriptions := s.subscriptions.insert (node_id_str, subscription_id) tx }
  match s.path_subs.lookup node_id_str with
  | some entry =>
    { s with
      senders := Function.update s.senders entry ((s.senders entry).insert subscription_id tx) }
  | none =>
    { s with
      path_subs := s.path_subs.insert node_id_str s.next_entry
      next_entry := s.next_entry + 1
      senders := Function.update s.senders s.next_entry
        ((∅ : FiniteMap ℕ ℕ).insert subscription_id tx)
      watchers := s.watchers ++ [⟨node_id_str, s.next_entry, none, .inserted⟩] }

/-- `unsubscribe_path_changes`: both maps forget the subscription. -/
def unsubscribe_path_changes (s : SessionRuntime) (node_id_str : String) (subscription_id : ℕ) :
    SessionRuntime :=
  let s := { s with subscriptions := s.subscriptions.erase (node_id_str, subscription_id) }
  match s.path_subs.lookup node_id_str with
  | some entry =>
    { s with senders := Function.update s.senders entry ((s.senders entry).erase subscription_id) }
  | none => s

theorem subscribe_fields (s : SessionRuntime) (node_id_str : String) (subscription_id : ℕ) :
    (s.subscribe_path_changes node_id_str subscription_id).subscriptions =
        s.subscriptions.insert (node_id_str, subscription_id) s.next_channel ∧
      (s.subscribe_path_changes node_id_str subscription_id).next_channel = s.next_channel + 1 ∧
      (s.subscribe_path_changes node_id_str subscription_id).closed = s.closed ∧
      (s.subscribe_path_changes node_id_str subscription_id).queue = s.queue := by
  unfold subscribe_path_changes
  dsimp only
  split
  · exact ⟨rfl, rfl, rfl, rfl⟩
  · exact ⟨rfl, rfl, rfl, rfl⟩

theorem unsubscribe_fields (s : SessionRuntime) (node_id_str : String) (subscription_id : ℕ) :
    (s.unsubscribe_path_changes node_id_str subscription_id).subscriptions =
        s.subscriptions.erase (node_id_str, subscription_id) ∧
      (s.unsubscribe_path_changes node_id_str subscription_id).next_channel = s.next_channel ∧
      (s.unsubscribe_path_changes node_id_str subscription_id).closed = s.closed ∧
      (s.unsubscribe_path_changes node_id_str subscription_id).queue = s.queue := by
  unfold unsubscribe_path_changes
  dsimp only
  split
  · exact ⟨rfl, rfl, rfl, rfl⟩
  · exact ⟨rfl, rfl, rfl, rfl⟩

/-! ## The watcher -/

/-- The map still has this watcher's entry. -/
def owns (s : SessionRuntime) (w : Watcher) : Bool :=
  s.path_subs.lookup w.nid == some w.peer_subscriptions

/-- Take the watcher's entry out, if it is still the one in the map. -/
def remove_own (s : SessionRuntime) (w : Watcher) : SessionRuntime :=
  if s.owns w then { s with path_subs := s.path_subs.erase w.nid } else s

/-- Drop the senders whose receiver is gone. `late` are receivers dropped while this
runs, after their sender was looked at. -/
def retain_open (s : SessionRuntime) (late : List ℕ) (entry : ℕ) : FiniteMap ℕ ℕ :=
  (s.senders entry).retain fun _ tx => !s.dropped tx || late.contains tx

/-- `sender.send` to every sender of an entry. A channel without receiver takes
nothing. -/
def send_all (s : SessionRuntime) (entry : ℕ) (active : PathInfo) : SessionRuntime :=
  { s with
    queue := fun tx =>
      if (s.senders entry).any (fun _ tx' => tx' == tx) && !s.dropped tx then s.queue tx ++ [active]
      else s.queue tx }

/-- The key of a path, by which a change is seen. -/
def path_key (active : PathInfo) : String := toString active.relay ++ ":" ++ active.addr

/-- What the environment decides in a step of a watcher. -/
inductive Act
  | fetch_add
  | spawn
  | check_closed
  | retire
  | scan (late : List ℕ)
  | peer_stats (paths : Option (List PathInfo))
  | send
  | sleep
  | wait_for_closed
  | fetch_sub

/-- One step of a watcher. -/
def watcher_step (s : SessionRuntime) (w : Watcher) : Act → Option (Watcher × SessionRuntime)
  | .fetch_add =>
    if w.phase = .inserted then
      some ({ w with phase := .counted },
        { s with active_path_watchers := s.active_path_watchers + 1 })
    else none
  | .spawn => if w.phase = .counted then some ({ w with phase := .checking }, s) else none
  | .check_closed =>
    if w.phase = .checking then
      some ({ w with phase := if s.closed then .retiring else .scanning }, s)
    else none
  | .retire =>
    if w.phase = .retiring then some ({ w with phase := .broken }, s.remove_own w) else none
  | .scan late =>
    if w.phase = .scanning then
      if s.owns w then
        let senders := s.retain_open late w.peer_subscriptions
        let s := { s with senders := Function.update s.senders w.peer_subscriptions senders }
        if senders.entries.isEmpty then
          some ({ w with phase := .broken }, { s with path_subs := s.path_subs.erase w.nid })
        else some ({ w with phase := .polling }, s)
      else some ({ w with phase := .broken }, s)
    else none
  | .peer_stats paths =>
    if w.phase = .polling then
      match paths.bind (List.find? PathInfo.active) with
      | some active =>
        if some (path_key active) ≠ w.last_key then
          some ({ w with last_key := some (path_key active), phase := .sending active }, s)
        else some ({ w with phase := .sleeping }, s)
      | none => some ({ w with phase := .sleeping }, s)
    else none
  | .send =>
    match w.phase with
    | .sending active =>
      some ({ w with phase := .sleeping },
        if s.owns w then s.send_all w.peer_subscriptions active else s)
    | _ => none
  | .sleep => if w.phase = .sleeping then some ({ w with phase := .checking }, s) else none
  | .wait_for_closed =>
    if w.phase = .sleeping ∧ s.closed then some ({ w with phase := .retiring }, s) else none
  | .fetch_sub =>
    if w.phase = .broken then
      some ({ w with phase := .ended },
        { s with active_path_watchers := s.active_path_watchers - 1 })
    else none

/-! ## Steps -/

/-- What can happen: calls, what receivers do, the close, and the watchers' steps. -/
inductive Label
  | subscribe (node_id_str : String) (subscription_id : ℕ)
  | unsubscribe (node_id_str : String) (subscription_id : ℕ)
  | recv (channel : ℕ)
  | drop_receiver (channel : ℕ)
  | close
  | watcher (i : ℕ) (act : Act)

/-- One step, `none` where the label is not enabled. -/
def step (s : SessionRuntime) : Label → Option SessionRuntime
  | .subscribe node_id_str subscription_id =>
    some (s.subscribe_path_changes node_id_str subscription_id)
  | .unsubscribe node_id_str subscription_id =>
    some (s.unsubscribe_path_changes node_id_str subscription_id)
  | .recv channel => some { s with queue := Function.update s.queue channel (s.queue channel).tail }
  | .drop_receiver channel =>
    if channel < s.next_channel then
      some { s with dropped := Function.update s.dropped channel true }
    else none
  | .close => some { s with closed := true }
  | .watcher i act =>
    (s.watchers[i]?).bind fun w => (s.watcher_step w act).map fun r =>
      { r.2 with watchers := s.watchers.set i r.1 }

/-! ## What a watcher can do -/

/-- A step inside the loop, by which the watcher alone changes. -/
structure Moves (s : SessionRuntime) (w w' : Watcher) : Prop where
  nid : w'.nid = w.nid
  entry : w'.peer_subscriptions = w.peer_subscriptions
  before : w.phase ≠ .inserted ∧ w.phase ≠ .broken ∧ w.phase ≠ .ended
  after : w'.phase ≠ .inserted ∧ w'.phase ≠ .broken ∧ w'.phase ≠ .ended
  retiring : w'.phase = .retiring → s.closed = true

/-- The kinds of step of a watcher. -/
inductive Takes (s : SessionRuntime) (w : Watcher) : Watcher → SessionRuntime → Prop
  | counts (hp : w.phase = .inserted) :
      Takes s w { w with phase := .counted }
        { s with active_path_watchers := s.active_path_watchers + 1 }
  | moves {w' : Watcher} (h : Moves s w w') : Takes s w w' s
  | sends (active : PathInfo) (hp : w.phase = .sending active) :
      Takes s w { w with phase := .sleeping }
        { s with
          queue := if s.owns w then (s.send_all w.peer_subscriptions active).queue else s.queue }
  | leaves (hp : w.phase = .retiring ∨ w.phase = .scanning ∧ s.owns w = false) :
      Takes s w { w with phase := .broken } (s.remove_own w)
  | keeps (late : List ℕ) (hp : w.phase = .scanning) (howns : s.owns w = true) :
      Takes s w { w with phase := .polling }
        { s with
          senders := Function.update s.senders w.peer_subscriptions
            (s.retain_open late w.peer_subscriptions) }
  | empties (late : List ℕ) (hp : w.phase = .scanning) (howns : s.owns w = true)
      (hempty : (s.retain_open late w.peer_subscriptions).entries = []) :
      Takes s w { w with phase := .broken }
        { s with
          senders := Function.update s.senders w.peer_subscriptions
            (s.retain_open late w.peer_subscriptions)
          path_subs := s.path_subs.erase w.nid }
  | ends (hp : w.phase = .broken) :
      Takes s w { w with phase := .ended }
        { s with active_path_watchers := s.active_path_watchers - 1 }

/-- What a watcher's step can do. -/
theorem takes_of_watcher_step {s s' : SessionRuntime} {w w' : Watcher} {act : Act}
    (h : s.watcher_step w act = some (w', s')) : Takes s w w' s' := by
  -- most steps only move the watcher on inside its loop
  have hmove : ∀ {phase : Phase} {last_key : Option String},
      (w.phase ≠ .inserted ∧ w.phase ≠ .broken ∧ w.phase ≠ .ended) →
      (phase ≠ .inserted ∧ phase ≠ .broken ∧ phase ≠ .ended) →
      (phase = .retiring → s.closed = true) →
      Moves s w { w with last_key := last_key, phase := phase } :=
    fun hb ha hr => ⟨rfl, rfl, hb, ha, hr⟩
  cases act with
  | fetch_add =>
      simp only [watcher_step] at h
      split at h
      · next hp =>
        obtain ⟨rfl, rfl⟩ := Prod.mk.inj (Option.some.inj h)
        exact .counts hp
      · cases h
  | spawn =>
      simp only [watcher_step] at h
      split at h
      · next hp =>
        obtain ⟨rfl, rfl⟩ := Prod.mk.inj (Option.some.inj h)
        exact .moves (hmove (by simp [hp]) (by simp) (by simp))
      · cases h
  | check_closed =>
      simp only [watcher_step] at h
      split at h
      · next hp =>
        obtain ⟨rfl, rfl⟩ := Prod.mk.inj (Option.some.inj h)
        refine .moves (hmove (by simp [hp]) ?_ ?_)
        · split <;> simp
        · intro hr
          by_contra hopen
          simp [hopen] at hr
      · cases h
  | retire =>
      simp only [watcher_step] at h
      split at h
      · next hp =>
        obtain ⟨rfl, rfl⟩ := Prod.mk.inj (Option.some.inj h)
        exact .leaves (.inl hp)
      · cases h
  | scan late =>
      simp only [watcher_step] at h
      split at h
      · next hp =>
        split at h
        · next howns =>
          split at h
          · next hempty =>
            obtain ⟨rfl, rfl⟩ := Prod.mk.inj (Option.some.inj h)
            exact .empties late hp howns (List.isEmpty_iff.mp hempty)
          · obtain ⟨rfl, rfl⟩ := Prod.mk.inj (Option.some.inj h)
            exact .keeps late hp howns
        · next howns =>
          obtain ⟨rfl, rfl⟩ := Prod.mk.inj (Option.some.inj h)
          rw [Bool.not_eq_true] at howns
          -- the entry is somebody else's by now: `remove_own` leaves it
          have hleaves : Takes s w { w with phase := .broken } (s.remove_own w) :=
            .leaves (.inr ⟨hp, howns⟩)
          rw [remove_own, howns] at hleaves
          exact hleaves
      · cases h
  | peer_stats paths =>
      simp only [watcher_step] at h
      split at h
      · next hp =>
        split at h
        · split at h
          · obtain ⟨rfl, rfl⟩ := Prod.mk.inj (Option.some.inj h)
            exact .moves (hmove (by simp [hp]) (by simp) (by simp))
          · obtain ⟨rfl, rfl⟩ := Prod.mk.inj (Option.some.inj h)
            exact .moves (hmove (by simp [hp]) (by simp) (by simp))
        · obtain ⟨rfl, rfl⟩ := Prod.mk.inj (Option.some.inj h)
          exact .moves (hmove (by simp [hp]) (by simp) (by simp))
      · cases h
  | send =>
      simp only [watcher_step] at h
      split at h
      · next active hp =>
        obtain ⟨rfl, rfl⟩ := Prod.mk.inj (Option.some.inj h)
        have hsends := Takes.sends (s := s) active hp
        by_cases howns : s.owns w = true
        · rw [if_pos howns] at hsends ⊢
          exact hsends
        · rw [if_neg howns] at hsends ⊢
          exact hsends
      · cases h
  | sleep =>
      simp only [watcher_step] at h
      split at h
      · next hp =>
        obtain ⟨rfl, rfl⟩ := Prod.mk.inj (Option.some.inj h)
        exact .moves (hmove (by simp [hp]) (by simp) (by simp))
      · cases h
  | wait_for_closed =>
      simp only [watcher_step] at h
      split at h
      · next hp =>
        obtain ⟨rfl, rfl⟩ := Prod.mk.inj (Option.some.inj h)
        exact .moves (hmove (by simp [hp.1]) (by simp) fun _ => hp.2)
      · cases h
  | fetch_sub =>
      simp only [watcher_step] at h
      split at h
      · next hp =>
        obtain ⟨rfl, rfl⟩ := Prod.mk.inj (Option.some.inj h)
        exact .ends hp
      · cases h

end SessionRuntime

/-! ## The invariant -/

/-- Not past the loop. -/
def Watcher.running (w : Watcher) : Prop := w.phase ≠ .broken ∧ w.phase ≠ .ended

/-- Between its `fetch_add` and its `fetch_sub`. -/
def Watcher.counted (w : Watcher) : Bool := w.phase ≠ .inserted && w.phase ≠ .ended

/-- The invariant: each entry has its own watcher, which runs, and each subscription has its sender.
-/
structure Inv (s : SessionRuntime) : Prop where
  bound : ∀ w ∈ s.watchers, w.peer_subscriptions < s.next_entry
  distinct : (s.watchers.map (·.peer_subscriptions)).Nodup
  mapped : ∀ peer entry, s.path_subs.lookup peer = some entry →
    ∃ (i : ℕ) (w : Watcher), s.watchers[i]? = some w ∧ w.nid = peer ∧
      w.peer_subscriptions = entry ∧ w.running
  counter : s.active_path_watchers = s.watchers.countP Watcher.counted
  retiring : s.closed = false → ∀ w ∈ s.watchers, w.phase ≠ .retiring
  live : s.closed = false → ∀ peer id tx, s.subscriptions.lookup (peer, id) = some tx →
    s.dropped tx = false →
    ∃ entry, s.path_subs.lookup peer = some entry ∧ (s.senders entry).lookup id = some tx

theorem inv_start : Inv start where
  bound _ hw := absurd hw List.not_mem_nil
  distinct := List.nodup_nil
  mapped _ _ h := absurd h (by simp [start, AList.lookup_empty])
  counter := rfl
  retiring _ _ hw := absurd hw List.not_mem_nil
  live _ _ _ _ h := absurd h (by simp [start, AList.lookup_empty])

/-- An entry has one watcher. -/
theorem Inv.index_eq {s : SessionRuntime} (h : Inv s) {i j : ℕ} {w v : Watcher}
    (hi : s.watchers[i]? = some w) (hj : s.watchers[j]? = some v)
    (heq : w.peer_subscriptions = v.peer_subscriptions) : i = j := by
  have hlt : i < (s.watchers.map (·.peer_subscriptions)).length := by
    rw [List.length_map]
    exact (List.getElem?_eq_some_iff.mp hi).1
  apply (List.getElem?_inj hlt h.distinct).mp
  rw [List.getElem?_map, List.getElem?_map, hi, hj, Option.map_some, Option.map_some, heq]

/-- An entry belongs to one peer. -/
theorem Inv.peer_eq {s : SessionRuntime} (h : Inv s) {peer peer' : String} {entry : ℕ}
    (hp : s.path_subs.lookup peer = some entry) (hp' : s.path_subs.lookup peer' = some entry) :
    peer = peer' := by
  obtain ⟨i, w, hi, hnid, hentry, -⟩ := h.mapped peer entry hp
  obtain ⟨j, v, hj, hnid', hentry', -⟩ := h.mapped peer' entry hp'
  obtain rfl := h.index_eq hi hj (hentry.trans hentry'.symm)
  obtain rfl := Option.some.inj (hi.symm.trans hj)
  exact hnid.symm.trans hnid'

/-- The entry of a watcher, if it is in the map at all, is there under its peer. -/
theorem Inv.owns_of_mapped {s : SessionRuntime} (h : Inv s) {i : ℕ} {w : Watcher}
    (hi : s.watchers[i]? = some w) {peer : String}
    (hp : s.path_subs.lookup peer = some w.peer_subscriptions) : peer = w.nid := by
  obtain ⟨j, v, hj, hnid, hentry, -⟩ := h.mapped peer _ hp
  obtain rfl := h.index_eq hi hj hentry.symm
  obtain rfl := Option.some.inj (hi.symm.trans hj)
  exact hnid.symm

/-- A watcher owns its entry while the map has it for the peer. -/
theorem owns_iff {s : SessionRuntime} {w : Watcher} :
    s.owns w = true ↔ s.path_subs.lookup w.nid = some w.peer_subscriptions := by
  rw [SessionRuntime.owns, beq_iff_eq]

/-! ## Steps of a watcher -/

theorem map_entry_set {watchers : List Watcher} {i : ℕ} {w w' : Watcher}
    (hi : watchers[i]? = some w) (hentry : w'.peer_subscriptions = w.peer_subscriptions) :
    (watchers.set i w').map (·.peer_subscriptions) = watchers.map (·.peer_subscriptions) := by
  have hlt := (List.getElem?_eq_some_iff.mp hi).1
  apply List.ext_getElem?
  intro j
  rw [List.getElem?_map, List.getElem?_map]
  by_cases hij : i = j
  · subst hij
    rw [List.getElem?_set_self hlt, hi, Option.map_some, Option.map_some, hentry]
  · rw [List.getElem?_set_ne hij]

/-- What remains to be shown when one watcher moves. -/
theorem Inv.set_watcher {s : SessionRuntime} (h : Inv s) (s' : SessionRuntime) {i : ℕ}
    {w w' : Watcher} (hi : s.watchers[i]? = some w) (hnid : w'.nid = w.nid)
    (hentry : w'.peer_subscriptions = w.peer_subscriptions)
    (hnext : s'.next_entry = s.next_entry) (hclosed : s'.closed = s.closed)
    (hmap : ∀ peer entry, s'.path_subs.lookup peer = some entry →
      s.path_subs.lookup peer = some entry ∧ (entry = w.peer_subscriptions → w'.running))
    (hcounter : s'.active_path_watchers = (s.watchers.set i w').countP Watcher.counted)
    (hretiring : s.closed = false → w'.phase ≠ .retiring)
    (hlive : s.closed = false → ∀ peer id tx, s'.subscriptions.lookup (peer, id) = some tx →
      s'.dropped tx = false →
      ∃ entry, s'.path_subs.lookup peer = some entry ∧ (s'.senders entry).lookup id = some tx) :
    Inv { s' with watchers := s.watchers.set i w' } := by
  have hlt := (List.getElem?_eq_some_iff.mp hi).1
  refine ⟨?_, ?_, ?_, hcounter, ?_, ?_⟩
  · intro v hv
    rw [show ({ s' with watchers := s.watchers.set i w' } : SessionRuntime).next_entry =
      s.next_entry from hnext]
    rcases List.mem_or_eq_of_mem_set hv with hv | rfl
    · exact h.bound v hv
    · rw [hentry]
      exact h.bound w (List.mem_of_getElem? hi)
  · rw [map_entry_set hi hentry]
    exact h.distinct
  · intro peer entry hp
    obtain ⟨hold, hrunning⟩ := hmap peer entry hp
    obtain ⟨j, v, hj, hvnid, hventry, hv⟩ := h.mapped peer entry hold
    by_cases hij : i = j
    · subst hij
      obtain rfl := Option.some.inj (hi.symm.trans hj)
      exact ⟨i, w', List.getElem?_set_self hlt, hnid.trans hvnid, hentry.trans hventry,
        hrunning hventry.symm⟩
    · exact ⟨j, v, (List.getElem?_set_ne hij).trans hj, hvnid, hventry, hv⟩
  · intro hopen v hv
    rw [show ({ s' with watchers := s.watchers.set i w' } : SessionRuntime).closed = s.closed
      from hclosed] at hopen
    rcases List.mem_or_eq_of_mem_set hv with hv | rfl
    · exact h.retiring hopen v hv
    · exact hretiring hopen
  · intro hopen
    exact hlive (hclosed.symm.trans hopen)

/-- A watcher that moves between two counted phases leaves the counter right. -/
theorem Inv.counter_set {s : SessionRuntime} (h : Inv s) {i : ℕ} {w w' : Watcher}
    (hi : s.watchers[i]? = some w) (hbefore : w.counted = true) (hafter : w'.counted = true) :
    s.active_path_watchers = (s.watchers.set i w').countP Watcher.counted := by
  have hcount := Parties.countP_set Watcher.counted hi w'
  have hcounter := h.counter
  rw [hbefore, hafter] at hcount
  omega

/-- A sender is kept while its receiver is there. -/
theorem lookup_retain_open {s : SessionRuntime} {entry id tx : ℕ} (late : List ℕ)
    (h : (s.senders entry).lookup id = some tx) (hdrop : s.dropped tx = false) :
    (s.retain_open late entry).lookup id = some tx := by
  rw [AList.lookup_eq_some_iff] at h ⊢
  rw [SessionRuntime.retain_open, AList.mem_retain]
  exact ⟨h, by simp [hdrop]⟩

/-- `retain` keeps a sender whose receiver is there. -/
theorem lookup_retain_open_update {s : SessionRuntime} {late : List ℕ} {entry entry' id tx : ℕ}
    (h : (s.senders entry').lookup id = some tx) (hdrop : s.dropped tx = false) :
    (Function.update s.senders entry (s.retain_open late entry) entry').lookup id = some tx := by
  by_cases heq : entry' = entry
  · subst heq
    rw [Function.update_self]
    exact lookup_retain_open late h hdrop
  · rw [Function.update_of_ne heq]
    exact h

/-- After `remove_own` the watcher's entry is not in the map. -/
theorem Inv.remove_own {s : SessionRuntime} (h : Inv s) {i : ℕ} {w : Watcher}
    (hi : s.watchers[i]? = some w) :
    ∃ path_subs, s.remove_own w = { s with path_subs := path_subs } ∧
      (∀ peer entry, path_subs.lookup peer = some entry →
        s.path_subs.lookup peer = some entry ∧ entry ≠ w.peer_subscriptions) ∧
      (s.owns w = false → path_subs = s.path_subs) := by
  unfold SessionRuntime.remove_own
  split
  · next howns =>
    refine ⟨_, rfl, ?_, fun hnot => absurd howns (by simp [hnot])⟩
    intro peer entry hpeer
    rw [AList.lookup_erase_eq_ite] at hpeer
    split at hpeer
    · cases hpeer
    · next hne =>
      refine ⟨hpeer, ?_⟩
      rintro rfl
      exact hne (h.owns_of_mapped hi hpeer)
  · next hnot =>
    refine ⟨s.path_subs, rfl, ?_, fun _ => rfl⟩
    intro peer entry hpeer
    refine ⟨hpeer, ?_⟩
    rintro rfl
    rw [h.owns_of_mapped hi hpeer] at hpeer
    exact hnot (owns_iff.mpr hpeer)

/-- A watcher whose entry is not its own any more, or whose endpoint is closed, takes
it out if it is there. -/
theorem Inv.leaves {s : SessionRuntime} (h : Inv s) {i : ℕ} {w : Watcher}
    (hi : s.watchers[i]? = some w)
    (hp : w.phase = .retiring ∨ w.phase = .scanning ∧ s.owns w = false) :
    Inv { s.remove_own w with watchers := s.watchers.set i { w with phase := .broken } } := by
  obtain ⟨path_subs, hstate, hmap, hsame⟩ := h.remove_own hi
  have hcounted : w.counted = true := by
    rcases hp with hp | ⟨hp, -⟩
    · simp [Watcher.counted, hp]
    · simp [Watcher.counted, hp]
  rw [hstate]
  refine h.set_watcher _ hi rfl rfl rfl rfl ?_ ?_ ?_ ?_
  · exact fun peer entry hpeer => ⟨(hmap peer entry hpeer).1,
      fun heq => absurd heq (hmap peer entry hpeer).2⟩
  · exact h.counter_set hi hcounted rfl
  · intro _
    simp
  · -- an open endpoint's watcher leaves only what is not its own any more
    intro hopen
    rcases hp with hp | ⟨-, hnot⟩
    · exact absurd hp (h.retiring hopen w (List.mem_of_getElem? hi))
    · rw [hsame hnot]
      exact h.live hopen

/-- A watcher that finds its entry without senders takes it out. -/
theorem Inv.empties {s : SessionRuntime} (h : Inv s) {i : ℕ} {w : Watcher}
    (hi : s.watchers[i]? = some w) {late : List ℕ} (hp : w.phase = .scanning)
    (howns : s.owns w = true)
    (hempty : (s.retain_open late w.peer_subscriptions).entries = []) :
    Inv { s with
      senders := Function.update s.senders w.peer_subscriptions
        (s.retain_open late w.peer_subscriptions)
      path_subs := s.path_subs.erase w.nid
      watchers := s.watchers.set i { w with phase := .broken } } := by
  have hown := owns_iff.mp howns
  refine h.set_watcher { s with
    senders := Function.update s.senders w.peer_subscriptions
      (s.retain_open late w.peer_subscriptions)
    path_subs := s.path_subs.erase w.nid } hi rfl rfl rfl rfl ?_ ?_ ?_ ?_
  · intro peer entry hpeer
    rw [AList.lookup_erase_eq_ite] at hpeer
    split at hpeer
    · cases hpeer
    · next hne =>
      refine ⟨hpeer, ?_⟩
      rintro rfl
      exact absurd (h.owns_of_mapped hi hpeer) hne
  · exact h.counter_set hi (by simp [Watcher.counted, hp]) rfl
  · intro _
    simp
  · intro hopen peer id tx hsub hdrop
    obtain ⟨entry, hpeer, hsender⟩ := h.live hopen peer id tx hsub hdrop
    by_cases hne : peer = w.nid
    · -- its sender would have been kept
      subst hne
      obtain rfl := Option.some.inj (hown.symm.trans hpeer)
      have hkept := lookup_retain_open late hsender hdrop
      rw [AList.lookup_eq_some_iff, hempty] at hkept
      exact absurd hkept List.not_mem_nil
    · refine ⟨entry, ?_, lookup_retain_open_update hsender hdrop⟩
      rw [AList.lookup_erase_eq_ite, if_neg hne]
      exact hpeer

/-- A watcher that left its loop counts itself out. -/
theorem Inv.ends {s : SessionRuntime} (h : Inv s) {i : ℕ} {w : Watcher}
    (hi : s.watchers[i]? = some w) (hp : w.phase = .broken) :
    Inv { s with
      active_path_watchers := s.active_path_watchers - 1
      watchers := s.watchers.set i { w with phase := .ended } } := by
  refine h.set_watcher { s with active_path_watchers := s.active_path_watchers - 1 }
    hi rfl rfl rfl rfl ?_ ?_ ?_ h.live
  · intro peer entry hpeer
    refine ⟨hpeer, ?_⟩
    rintro rfl
    -- a watcher past its loop has no entry in the map
    obtain ⟨j, v, hj, -, hventry, hv⟩ := h.mapped peer _ hpeer
    obtain rfl := h.index_eq hi hj hventry.symm
    obtain rfl := Option.some.inj (hi.symm.trans hj)
    exact absurd hp hv.1
  · have hcount := Parties.countP_set Watcher.counted hi { w with phase := .ended }
    have hcounter := h.counter
    simp [Watcher.counted, hp] at hcount
    dsimp only
    omega
  · intro _
    simp

/-- **A watcher's step keeps the invariant.** -/
theorem Inv.watcher {s s' : SessionRuntime} (h : Inv s) {i : ℕ} {w w' : Watcher}
    (hi : s.watchers[i]? = some w) (ht : s.Takes w w' s') :
    Inv { s' with watchers := s.watchers.set i w' } := by
  cases ht with
  | counts hp =>
      refine h.set_watcher _ hi rfl rfl rfl rfl ?_ ?_ ?_ ?_
      · exact fun peer entry hpeer => ⟨hpeer, fun _ => by simp [Watcher.running]⟩
      · have hcount := Parties.countP_set Watcher.counted hi { w with phase := .counted }
        simp only [Watcher.counted, hp] at hcount
        simp at hcount
        rw [hcount, h.counter]
      · intro _
        simp
      · exact h.live
  | moves hm =>
      refine h.set_watcher _ hi hm.nid hm.entry rfl rfl ?_ ?_ ?_ ?_
      · exact fun peer entry hpeer => ⟨hpeer, fun _ => hm.after.2⟩
      · apply h.counter_set hi
        · simp [Watcher.counted, hm.before]
        · simp [Watcher.counted, hm.after]
      · intro hopen hr
        exact absurd (hm.retiring hr) (by simp [hopen])
      · exact h.live
  | sends active hp =>
      refine h.set_watcher _ hi rfl rfl rfl rfl ?_ ?_ ?_ ?_
      · exact fun peer entry hpeer => ⟨hpeer, fun _ => by simp [Watcher.running]⟩
      · exact h.counter_set hi (by simp [Watcher.counted, hp]) rfl
      · intro _
        simp
      · exact h.live
  | leaves hp => exact h.leaves hi hp
  | keeps late hp howns =>
      refine h.set_watcher _ hi rfl rfl rfl rfl ?_ ?_ ?_ ?_
      · exact fun peer entry hpeer => ⟨hpeer, fun _ => by simp [Watcher.running]⟩
      · exact h.counter_set hi (by simp [Watcher.counted, hp]) rfl
      · intro _
        simp
      · intro hopen peer id tx hsub hdrop
        obtain ⟨entry, hpeer, hsender⟩ := h.live hopen peer id tx hsub hdrop
        exact ⟨entry, hpeer, lookup_retain_open_update hsender hdrop⟩
  | empties late hp howns hempty => exact h.empties hi hp howns hempty
  | ends hp => exact h.ends hi hp

/-! ## Calls -/

/-- A subscription adds an entry and its watcher together. -/
theorem Inv.subscribe {s : SessionRuntime} (h : Inv s) (peer : String) (id : ℕ) :
    Inv (s.subscribe_path_changes peer id) := by
  unfold SessionRuntime.subscribe_path_changes
  dsimp only
  split
  · next entry hpeer =>
    refine ⟨h.bound, h.distinct, h.mapped, h.counter, h.retiring, ?_⟩
    intro hopen peer' id' tx hsub hdrop
    rw [AList.lookup_insert_eq_ite] at hsub
    split at hsub
    · next hkey =>
      -- the new subscription
      obtain ⟨rfl, rfl⟩ := Prod.mk.inj hkey
      obtain rfl := Option.some.inj hsub
      refine ⟨entry, hpeer, ?_⟩
      dsimp only
      rw [Function.update_self, AList.lookup_insert_eq_ite, if_pos rfl]
    · next hkey =>
      obtain ⟨entry', hpeer', hsender⟩ := h.live hopen peer' id' tx hsub hdrop
      refine ⟨entry', hpeer', ?_⟩
      dsimp only
      by_cases heq : entry' = entry
      · subst heq
        have hid : id' ≠ id := by
          rintro rfl
          exact hkey (congrArg (·, id') (h.peer_eq hpeer' hpeer))
        rw [Function.update_self, AList.lookup_insert_eq_ite, if_neg hid]
        exact hsender
      · rw [Function.update_of_ne heq]
        exact hsender
  · next hpeer =>
    refine ⟨?_, ?_, ?_, ?_, ?_, ?_⟩
    · intro w hw
      rcases List.mem_append.mp hw with hw | hw
      · exact Nat.lt_succ_of_lt (h.bound w hw)
      · rw [List.mem_singleton.mp hw]
        exact Nat.lt_succ_self _
    · rw [List.map_append]
      refine List.Nodup.append h.distinct (List.nodup_singleton _) ?_
      intro entry hold hnew
      obtain ⟨w, hw, rfl⟩ := List.mem_map.mp hold
      have hlt := h.bound w hw
      rw [List.mem_singleton.mp hnew] at hlt
      exact Nat.lt_irrefl _ hlt
    · intro peer' entry hpeer'
      rw [AList.lookup_insert_eq_ite] at hpeer'
      split at hpeer'
      · next heq =>
        obtain rfl := Option.some.inj hpeer'
        refine ⟨s.watchers.length, _, List.getElem?_concat_length, heq.symm, rfl, ?_⟩
        simp [Watcher.running]
      · obtain ⟨i, w, hi, hw⟩ := h.mapped peer' entry hpeer'
        have hlt := (List.getElem?_eq_some_iff.mp hi).1
        exact ⟨i, w, (List.getElem?_append_left hlt).trans hi, hw⟩
    · rw [List.countP_append]
      exact h.counter
    · intro hopen w hw
      rcases List.mem_append.mp hw with hw | hw
      · exact h.retiring hopen w hw
      · rw [List.mem_singleton.mp hw]
        simp
    · intro hopen peer' id' tx hsub hdrop
      rw [AList.lookup_insert_eq_ite] at hsub
      split at hsub
      · next hkey =>
        obtain ⟨rfl, rfl⟩ := Prod.mk.inj hkey
        obtain rfl := Option.some.inj hsub
        refine ⟨s.next_entry, ?_, ?_⟩
        · rw [AList.lookup_insert_eq_ite, if_pos rfl]
        · dsimp only
          rw [Function.update_self, AList.lookup_insert_eq_ite, if_pos rfl]
      · obtain ⟨entry, hpeer', hsender⟩ := h.live hopen peer' id' tx hsub hdrop
        have hne : peer' ≠ peer := by
          rintro rfl
          exact absurd (hpeer.symm.trans hpeer') (by simp)
        -- an entry in the map is older than the new one
        obtain ⟨i, w, hi, -, hentry, -⟩ := h.mapped peer' entry hpeer'
        have hlt := h.bound w (List.mem_of_getElem? hi)
        have hold : entry ≠ s.next_entry := by omega
        refine ⟨entry, ?_, ?_⟩
        · rw [AList.lookup_insert_eq_ite, if_neg hne]
          exact hpeer'
        · dsimp only
          rw [Function.update_of_ne hold]
          exact hsender

/-- An `unsubscribe` leaves the entries to their watchers. -/
theorem Inv.unsubscribe {s : SessionRuntime} (h : Inv s) (peer : String) (id : ℕ) :
    Inv (s.unsubscribe_path_changes peer id) := by
  have hrest : ∀ {peer' : String} {id' tx : ℕ},
      (s.subscriptions.erase (peer, id)).lookup (peer', id') = some tx →
      (peer', id') ≠ (peer, id) ∧ s.subscriptions.lookup (peer', id') = some tx := by
    intro peer' id' tx hsub
    rw [AList.lookup_erase_eq_ite] at hsub
    split at hsub
    · cases hsub
    · next hne => exact ⟨hne, hsub⟩
  unfold SessionRuntime.unsubscribe_path_changes
  dsimp only
  split
  · next entry hpeer =>
    refine ⟨h.bound, h.distinct, h.mapped, h.counter, h.retiring, ?_⟩
    intro hopen peer' id' tx hsub hdrop
    obtain ⟨hkey, hsub⟩ := hrest hsub
    obtain ⟨entry', hpeer', hsender⟩ := h.live hopen peer' id' tx hsub hdrop
    refine ⟨entry', hpeer', ?_⟩
    dsimp only
    by_cases heq : entry' = entry
    · subst heq
      have hid : id' ≠ id := by
        rintro rfl
        exact hkey (congrArg (·, id') (h.peer_eq hpeer' hpeer))
      rw [Function.update_self, AList.lookup_erase_eq_ite, if_neg hid]
      exact hsender
    · rw [Function.update_of_ne heq]
      exact hsender
  · refine ⟨h.bound, h.distinct, h.mapped, h.counter, h.retiring, ?_⟩
    intro hopen peer' id' tx hsub hdrop
    exact h.live hopen peer' id' tx (hrest hsub).2 hdrop

/-! ## Runs -/

theorem inv_step {s s' : SessionRuntime} {a : SessionRuntime.Label} (h : Inv s)
    (hstep : s.step a = some s') : Inv s' := by
  cases a with
  | subscribe peer id =>
      obtain rfl := Option.some.inj hstep
      exact h.subscribe peer id
  | unsubscribe peer id =>
      obtain rfl := Option.some.inj hstep
      exact h.unsubscribe peer id
  | recv channel =>
      obtain rfl := Option.some.inj hstep
      exact ⟨h.bound, h.distinct, h.mapped, h.counter, h.retiring, h.live⟩
  | drop_receiver channel =>
      simp only [SessionRuntime.step] at hstep
      split at hstep
      · obtain rfl := Option.some.inj hstep
        refine ⟨h.bound, h.distinct, h.mapped, h.counter, h.retiring, ?_⟩
        intro hopen peer id tx hsub hdrop
        apply h.live hopen peer id tx hsub
        dsimp only at hdrop
        by_cases heq : tx = channel
        · subst heq
          simp at hdrop
        · rwa [Function.update_of_ne heq] at hdrop
      · cases hstep
  | close =>
      obtain rfl := Option.some.inj hstep
      exact ⟨h.bound, h.distinct, h.mapped, h.counter, fun hopen => (by cases hopen),
        fun hopen => by cases hopen⟩
  | watcher i act =>
      obtain ⟨w, hi, hrest⟩ := Option.bind_eq_some_iff.mp hstep
      obtain ⟨⟨w', t⟩, ht, rfl⟩ := Option.map_eq_some_iff.mp hrest
      exact h.watcher hi (SessionRuntime.takes_of_watcher_step ht)

theorem inv_run {l : List SessionRuntime.Label} {s : SessionRuntime}
    (hrun : Machine.run SessionRuntime.step start l = some s) : Inv s :=
  Machine.run_invariant (fun _ _ _ => inv_step) inv_start hrun

/-- No subscribe call is between its locked section and its spawn. -/
def Settled (s : SessionRuntime) : Prop := ∀ w ∈ s.watchers, w.midway = false

/-- The counter is the tasks that have not ended, and the calls that have counted
theirs and not spawned it. -/
theorem countP_counted (watchers : List Watcher) :
    watchers.countP Watcher.counted =
      watchers.countP Watcher.is_task + watchers.countP fun w => w.phase = .counted := by
  induction watchers with
  | nil => rfl
  | cons w watchers ih =>
      rw [List.countP_cons, List.countP_cons, List.countP_cons, ih]
      have hone : (if w.counted then 1 else 0) =
          (if w.is_task then 1 else 0) + if decide (w.phase = .counted) then 1 else 0 := by
        cases hp : w.phase <;> simp [Watcher.counted, Watcher.is_task, Watcher.midway, hp]
      omega

theorem Inv.exists_unique {s : SessionRuntime} (h : Inv s) {peer : String} {entry : ℕ}
    (hpeer : s.path_subs.lookup peer = some entry) :
    ∃ (i : ℕ) (w : Watcher), s.watchers[i]? = some w ∧ w.nid = peer ∧
      w.peer_subscriptions = entry ∧ w.running ∧
      ∀ (j : ℕ) (v : Watcher), s.watchers[j]? = some v → v.peer_subscriptions = entry → j = i := by
  obtain ⟨i, w, hi, hnid, hentry, hrunning⟩ := h.mapped peer entry hpeer
  refine ⟨i, w, hi, hnid, hentry, hrunning, ?_⟩
  intro j v hj hv
  exact h.index_eq hj hi (hv.trans hentry.symm)

/-- **Every entry has one watcher, every subscriber an entry, and the counter counts
the watchers.** An entry's one watcher is a task that has not ended, or the spawn
that the subscribe call which made the entry has still to make. While the endpoint is
open the sender of a subscription that was neither dropped nor unsubscribed nor
replaced is in the entry its peer has. -/
theorem path_watchers {l : List SessionRuntime.Label} {s : SessionRuntime}
    (hrun : Machine.run SessionRuntime.step start l = some s) :
    (∀ peer entry, s.path_subs.lookup peer = some entry →
      (∃! i : ℕ, ∃ w : Watcher, s.watchers[i]? = some w ∧ w.peer_subscriptions = entry ∧
        (w.midway = true ∨ w.is_task = true)) ∧
      (Settled s → ∃! i : ℕ, ∃ w : Watcher, s.watchers[i]? = some w ∧ w.peer_subscriptions = entry ∧
        w.is_task = true)) ∧
    (s.closed = false → ∀ peer id tx, s.subscriptions.lookup (peer, id) = some tx →
      s.dropped tx = false →
      ∃ entry, s.path_subs.lookup peer = some entry ∧ (s.senders entry).lookup id = some tx) ∧
    s.active_path_watchers = s.watchers.countP Watcher.is_task +
      s.watchers.countP (fun w => w.phase = .counted) ∧
    (Settled s → s.active_path_watchers = s.watchers.countP Watcher.is_task) := by
  have h := inv_run hrun
  have hcounter := h.counter
  rw [countP_counted] at hcounter
  refine ⟨?_, h.live, hcounter, ?_⟩
  · intro peer entry hpeer
    obtain ⟨i, w, hi, hnid, hentry, hrunning, hunique⟩ := h.exists_unique hpeer
    have htask : w.midway = true ∨ w.is_task = true := by
      by_cases hm : w.midway = true
      · exact .inl hm
      · exact .inr (by simp [Watcher.is_task, hm, hrunning.2])
    constructor
    · refine ⟨i, ⟨w, hi, hentry, htask⟩, ?_⟩
      rintro j ⟨v, hj, hv, -⟩
      exact hunique j v hj hv
    · intro hsettled
      have hnot := hsettled w (List.mem_of_getElem? hi)
      refine ⟨i, ⟨w, hi, hentry, htask.resolve_left (by simp [hnot])⟩, ?_⟩
      rintro j ⟨v, hj, hv, -⟩
      exact hunique j v hj hv
  · intro hsettled
    have hzero : (s.watchers.countP fun w => w.phase = .counted) = 0 := by
      apply List.countP_eq_zero.mpr
      intro w hw hp
      have hnot := hsettled w hw
      simp at hp
      simp [Watcher.midway, hp] at hnot
    omega

/-- The call that makes an entry spawns its watcher later. Before that the entry has
no task, and once it has counted the watcher the counter is ahead of the tasks. -/
theorem entry_before_its_task :
    (¬ ∀ (l : List SessionRuntime.Label) (s : SessionRuntime),
      Machine.run SessionRuntime.step start l = some s →
      ∀ peer entry, s.path_subs.lookup peer = some entry →
        ∃! i : ℕ, ∃ w : Watcher, s.watchers[i]? = some w ∧ w.peer_subscriptions = entry ∧
          w.is_task = true) ∧
    ¬ ∀ (l : List SessionRuntime.Label) (s : SessionRuntime),
      Machine.run SessionRuntime.step start l = some s →
      s.active_path_watchers = s.watchers.countP Watcher.is_task := by
  constructor
  · intro hall
    obtain ⟨i, ⟨w, hw, -, htask⟩, -⟩ := hall [.subscribe "peer" 1] _ rfl "peer" 0 rfl
    rw [List.mem_singleton.mp (List.mem_of_getElem? hw)] at htask
    revert htask
    decide
  · intro hall
    have hcount := hall [.subscribe "peer" 1, .watcher 0 .fetch_add] _ rfl
    revert hcount
    decide

/-- Two subscribers share a watcher; one unsubscribes, and the watcher goes on. -/
theorem path_watchers_shared : ∃ s,
    Machine.run SessionRuntime.step start [.subscribe "peer" 1, .watcher 0 .fetch_add,
      .watcher 0 .spawn, .subscribe "peer" 2, .unsubscribe "peer" 1, .watcher 0 .check_closed,
      .watcher 0 (.scan [])] = some s ∧
    s.path_subs.lookup "peer" = some 0 ∧ s.subscriptions.lookup ("peer", 2) = some 1 ∧
    (s.senders 0).lookup 2 = some 1 ∧ s.active_path_watchers = 1 ∧
    ∃! i : ℕ, ∃ w : Watcher, s.watchers[i]? = some w ∧ w.peer_subscriptions = 0 ∧
      w.is_task = true := by
  refine ⟨_, rfl, rfl, rfl, rfl, rfl, ?_⟩
  refine ((path_watchers (l := [.subscribe "peer" 1, .watcher 0 .fetch_add,
    .watcher 0 .spawn, .subscribe "peer" 2, .unsubscribe "peer" 1, .watcher 0 .check_closed,
    .watcher 0 (.scan [])]) rfl).1 "peer" 0 rfl).2 ?_
  intro w hw
  rw [List.mem_singleton.mp hw]
  rfl

end IrohHttp.PathWatchers
