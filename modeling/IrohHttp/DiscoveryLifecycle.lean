/-
The browse reducer of `DiscoveryLifecycle.swift`, for one native browse of iOS.

`NWBrowser` shows the services it sees as a whole, in no order and with a row for each interface. The
reducer keeps one row of an instance and turns a snapshot into the records that say what has changed
since the last; a poll takes them. The texts are those of Swift, which are equal when they are
canonically equivalent, so they are any type with a linear order, and the key that orders the rows of
an instance is any function.
-/
import IrohHttp.FiniteMap
import IrohHttp.Machine
import Mathlib.Data.List.Sort

set_option autoImplicit false

namespace IrohHttp.DiscoveryLifecycle

open Machine

/-- The states of a session. -/
inductive DiscoverySessionState
  | starting
  | active
  | stopping
  | closed
  | failed (message : String)
  deriving DecidableEq

/-- The name of the state in a poll; `starting` and `stopping` count as active. -/
def DiscoverySessionState.poll_value : DiscoverySessionState → String
  | .starting | .active | .stopping => "active"
  | .closed => "closed"
  | .failed _ => "failed"

/-- What the caller of the start has been told. -/
inductive DiscoveryStartCompletion
  | pending
  | resolved (id : ℕ)
  | rejected (message : String)
  deriving DecidableEq

/-- What the callers of a stop have been told. -/
inductive DiscoveryStopCompletion
  | not_requested
  | pending
  | resolved
  deriving DecidableEq

variable {Text Txt : Type}

/-- A row of a snapshot, and a record of a poll. -/
structure DiscoveryDnsSdRecord (Text Txt : Type) where
  service_type : Text
  instance_name : Text
  txt : Txt
  is_active : Bool := true
  deriving DecidableEq

/-- The record that takes an instance away again. -/
def DiscoveryDnsSdRecord.inactive [EmptyCollection Txt] (record : DiscoveryDnsSdRecord Text Txt) :
    DiscoveryDnsSdRecord Text Txt :=
  { service_type := record.service_type, instance_name := record.instance_name, txt := ∅
    is_active := false }

/-- Instances by their name, each with its record. -/
abbrev Instances (Text Txt : Type) := FiniteMap Text (DiscoveryDnsSdRecord Text Txt)

/-! ## Snapshots -/

section Snapshot

variable [LinearOrder Text] [DecidableEq Txt] [EmptyCollection Txt]

/-- A row takes the place of its instance's row if its key is smaller. -/
def collapse_row (stable_ordering_key : DiscoveryDnsSdRecord Text Txt → Text)
    (by_instance : Instances Text Txt) (record : DiscoveryDnsSdRecord Text Txt) :
    Instances Text Txt :=
  if record.is_active then
    match by_instance.lookup record.instance_name with
    | some existing =>
      if stable_ordering_key existing ≤ stable_ordering_key record then by_instance
      else by_instance.insert record.instance_name record
    | none => by_instance.insert record.instance_name record
  else by_instance

/-- `collapse`: one active row for each instance, the one whose key is the least. -/
def collapse (stable_ordering_key : DiscoveryDnsSdRecord Text Txt → Text)
    (records : List (DiscoveryDnsSdRecord Text Txt)) : Instances Text Txt :=
  records.foldl (collapse_row stable_ordering_key) ∅

/-- The keys of a map, sorted. -/
def sorted_names (m : Instances Text Txt) : List Text :=
  m.keys.insertionSort (· ≤ ·)

/-- What `nativeSnapshot` does for an instance that is there: `known` and `pending`. -/
def upsert (by_instance : Instances Text Txt)
    (s : Instances Text Txt × List (DiscoveryDnsSdRecord Text Txt)) (name : Text) :
    Instances Text Txt × List (DiscoveryDnsSdRecord Text Txt) :=
  match by_instance.lookup name with
  | none => s
  | some record =>
    if s.1.lookup record.instance_name ≠ some record then
      (s.1.insert record.instance_name record, s.2 ++ [record])
    else s

/-- What `nativeSnapshot` does for an instance that has gone. -/
def expire (s : Instances Text Txt × List (DiscoveryDnsSdRecord Text Txt)) (name : Text) :
    Instances Text Txt × List (DiscoveryDnsSdRecord Text Txt) :=
  match s.1.lookup name with
  | none => s
  | some expired => (s.1.erase name, s.2 ++ [expired.inactive])

/-- The names that go are those of the map after the first loop. -/
def diff (by_instance : Instances Text Txt)
    (s : Instances Text Txt × List (DiscoveryDnsSdRecord Text Txt)) :
    Instances Text Txt × List (DiscoveryDnsSdRecord Text Txt) :=
  let s := (sorted_names by_instance).foldl (upsert by_instance) s
  ((sorted_names s.1).filter fun name => (by_instance.lookup name).isNone).foldl expire s

end Snapshot

/-! ## Rows -/

section Rows

variable [LinearOrder Text]

/-- The row that stands for an instance: an active one whose key is the least. -/
structure Chosen (stable_ordering_key : DiscoveryDnsSdRecord Text Txt → Text)
    (records : List (DiscoveryDnsSdRecord Text Txt)) (name : Text)
    (record : DiscoveryDnsSdRecord Text Txt) : Prop where
  shown : record ∈ records
  active : record.is_active = true
  named : record.instance_name = name
  least : ∀ other ∈ records, other.is_active = true → other.instance_name = name →
    stable_ordering_key record ≤ stable_ordering_key other

/-- The map has a row for each instance that the records show. -/
structure Collapsed (stable_ordering_key : DiscoveryDnsSdRecord Text Txt → Text)
    (records : List (DiscoveryDnsSdRecord Text Txt)) (m : Instances Text Txt) : Prop where
  chosen : ∀ name record, m.lookup name = some record → Chosen stable_ordering_key records name record
  total : ∀ record ∈ records, record.is_active = true → (m.lookup record.instance_name).isSome = true

variable {stable_ordering_key : DiscoveryDnsSdRecord Text Txt → Text}
  {records : List (DiscoveryDnsSdRecord Text Txt)} {m : Instances Text Txt}

/-- A row takes the place of one whose key is not less. -/
theorem Collapsed.insert (h : Collapsed stable_ordering_key records m)
    {row : DiscoveryDnsSdRecord Text Txt} (hactive : row.is_active = true)
    (hle : ∀ existing, m.lookup row.instance_name = some existing →
      stable_ordering_key row ≤ stable_ordering_key existing) :
    Collapsed stable_ordering_key (records ++ [row]) (m.insert row.instance_name row) where
  chosen := by
    intro name record hget
    rw [AList.lookup_insert_eq_ite] at hget
    split at hget
    · next hname =>
        cases hget
        refine ⟨List.mem_append_right _ List.mem_cons_self, hactive, hname.symm, ?_⟩
        intro other hmem hother hnamed
        rcases List.mem_append.mp hmem with hmem | hmem
        · -- the row of the instance so far is between the two
          obtain ⟨existing, hexisting⟩ := Option.isSome_iff_exists.mp (h.total other hmem hother)
          rw [hnamed, hname] at hexisting
          have hleast := (h.chosen _ existing hexisting).least other hmem hother (hnamed.trans hname)
          exact (hle existing hexisting).trans hleast
        · rw [List.mem_singleton.mp hmem]
    · next hname =>
        have hc := h.chosen name record hget
        refine ⟨List.mem_append_left _ hc.shown, hc.active, hc.named, ?_⟩
        intro other hmem hother hnamed
        rcases List.mem_append.mp hmem with hmem | hmem
        · exact hc.least other hmem hother hnamed
        · rw [List.mem_singleton.mp hmem] at hnamed
          exact absurd hnamed.symm hname
  total := by
    intro other hmem hother
    rw [AList.lookup_insert_eq_ite]
    split
    · rfl
    · next hname =>
        rcases List.mem_append.mp hmem with hmem | hmem
        · exact h.total other hmem hother
        · rw [List.mem_singleton.mp hmem] at hname
          exact absurd rfl hname

/-- A row that is left out: it is not active, or its instance has one before it. -/
theorem Collapsed.skip (h : Collapsed stable_ordering_key records m)
    {row : DiscoveryDnsSdRecord Text Txt}
    (hrow : row.is_active = true → ∃ existing, m.lookup row.instance_name = some existing ∧
      stable_ordering_key existing ≤ stable_ordering_key row) :
    Collapsed stable_ordering_key (records ++ [row]) m where
  chosen := by
    intro name record hget
    have hc := h.chosen name record hget
    refine ⟨List.mem_append_left _ hc.shown, hc.active, hc.named, ?_⟩
    intro other hmem hother hnamed
    rcases List.mem_append.mp hmem with hmem | hmem
    · exact hc.least other hmem hother hnamed
    · rw [List.mem_singleton.mp hmem] at hother hnamed ⊢
      obtain ⟨existing, hexisting, hle⟩ := hrow hother
      rw [hnamed, hget] at hexisting
      cases hexisting
      exact hle
  total := by
    intro other hmem hother
    rcases List.mem_append.mp hmem with hmem | hmem
    · exact h.total other hmem hother
    · rw [List.mem_singleton.mp hmem] at hother ⊢
      obtain ⟨existing, hexisting, _⟩ := hrow hother
      rw [hexisting]
      rfl

/-- **One row more** keeps the least ones. -/
theorem Collapsed.row (h : Collapsed stable_ordering_key records m)
    (row : DiscoveryDnsSdRecord Text Txt) :
    Collapsed stable_ordering_key (records ++ [row]) (collapse_row stable_ordering_key m row) := by
  unfold collapse_row
  split
  · next hactive =>
      split
      · next existing hexisting =>
          split
          · next hle => exact h.skip fun _ => ⟨existing, hexisting, hle⟩
          · next hlt =>
              apply h.insert hactive
              intro other hother
              rw [hexisting] at hother
              cases hother
              exact (not_le.mp hlt).le
      · next hnone =>
          apply h.insert hactive
          intro other hother
          rw [hnone] at hother
          cases hother
  · next hinactive => exact h.skip fun hactive => absurd hactive hinactive

/-- **The rows that are left** are the least of their instances. -/
theorem collapse_collapsed (stable_ordering_key : DiscoveryDnsSdRecord Text Txt → Text)
    (records : List (DiscoveryDnsSdRecord Text Txt)) :
    Collapsed stable_ordering_key records (collapse stable_ordering_key records) := by
  induction records using List.reverseRecOn with
  | nil => exact {
      chosen := fun name record hget => by cases hget
      total := fun record hmem => by cases hmem }
  | append_singleton records row ih =>
      rw [collapse, List.foldl_append]
      exact ih.row row

/-- The names of a map are its keys. -/
theorem mem_sorted_names {name : Text} : name ∈ sorted_names m ↔ (m.lookup name).isSome = true := by
  rw [sorted_names, List.mem_insertionSort, AList.lookup_isSome]
  exact AList.mem_keys.symm

theorem lookup_expire [EmptyCollection Txt]
    (s : Instances Text Txt × List (DiscoveryDnsSdRecord Text Txt))
    (name key : Text) :
    (expire s name).1.lookup key = if key = name then none else s.1.lookup key := by
  unfold DiscoveryLifecycle.expire
  split
  · next hnone =>
      split
      · next hkey => rw [hkey, hnone]
      · rfl
  · rw [AList.lookup_erase_eq_ite]

end Rows

/-! ## What the records say -/

section Replay

variable [LinearOrder Text] [DecidableEq Txt]

/-- The instances that are there for someone who has read some records. A record that says nothing
new is refused: a row that is there, or the end of what is not. -/
def replay : Instances Text Txt → List (DiscoveryDnsSdRecord Text Txt) → Option (Instances Text Txt)
  | known, [] => some known
  | known, record :: records =>
    if record.is_active then
      if known.lookup record.instance_name = some record then none
      else replay (known.insert record.instance_name record) records
    else if (known.lookup record.instance_name).isSome then
      replay (known.erase record.instance_name) records
    else none

/-- One record more at the front. -/
theorem replay_cons (known : Instances Text Txt)
    (record : DiscoveryDnsSdRecord Text Txt) (records : List (DiscoveryDnsSdRecord Text Txt)) :
    replay known (record :: records) =
      if record.is_active then
        if known.lookup record.instance_name = some record then none
        else replay (known.insert record.instance_name record) records
      else if (known.lookup record.instance_name).isSome then
        replay (known.erase record.instance_name) records
      else none := rfl

/-- Records are read one after the other. -/
theorem replay_append (known : Instances Text Txt)
    (l₁ l₂ : List (DiscoveryDnsSdRecord Text Txt)) :
    replay known (l₁ ++ l₂) = (replay known l₁).bind fun known => replay known l₂ := by
  induction l₁ generalizing known with
  | nil => rfl
  | cons record records ih =>
      rw [List.cons_append, replay_cons, replay_cons]
      split
      · split
        · rfl
        · exact ih _
      · split
        · exact ih _
        · rfl

/-- The map is what the records say, the polled ones and those that wait. -/
structure Told (polled : List (DiscoveryDnsSdRecord Text Txt))
    (s : Instances Text Txt × List (DiscoveryDnsSdRecord Text Txt)) : Prop where
  replayed : replay ∅ (polled ++ s.2) = some s.1
  keyed : ∀ name record, s.1.lookup name = some record → record.instance_name = name

variable {polled : List (DiscoveryDnsSdRecord Text Txt)}
  {by_instance : Instances Text Txt}
  {s : Instances Text Txt × List (DiscoveryDnsSdRecord Text Txt)}

/-- A row that says something new is told. -/
theorem Told.upsert (h : Told polled s)
    (hrow : ∀ name record, by_instance.lookup name = some record →
      record.is_active = true ∧ record.instance_name = name) (name : Text) :
    Told polled (upsert by_instance s name) := by
  unfold DiscoveryLifecycle.upsert
  split
  · exact h
  · next record hget =>
      split
      · next hne =>
          constructor
          · dsimp only
            rw [← List.append_assoc, replay_append, h.replayed, Option.bind_some, replay_cons,
              if_pos (hrow name record hget).1, if_neg hne]
            rfl
          · intro key other hother
            rw [AList.lookup_insert_eq_ite] at hother
            split at hother
            · next hkey =>
                cases hother
                exact hkey.symm
            · exact h.keyed key other hother
      · exact h

theorem lookup_upsert (s : Instances Text Txt × List (DiscoveryDnsSdRecord Text Txt))
    (hrow : ∀ name record, by_instance.lookup name = some record →
      record.is_active = true ∧ record.instance_name = name) (name key : Text) :
    (upsert by_instance s name).1.lookup key =
      if key = name then (by_instance.lookup key).or (s.1.lookup key) else s.1.lookup key := by
  unfold DiscoveryLifecycle.upsert
  by_cases hkey : key = name
  · rw [if_pos hkey, hkey]
    split
    · next hnone => rw [hnone, Option.none_or]
    · next record hget =>
        rw [hget, Option.some_or]
        obtain ⟨_, rfl⟩ := hrow name record hget
        split
        · rw [AList.lookup_insert_eq_ite, if_pos rfl]
        · next heq => exact not_not.mp heq
  · rw [if_neg hkey]
    split
    · rfl
    · next record hget =>
        obtain ⟨_, rfl⟩ := hrow name record hget
        split
        · rw [AList.lookup_insert_eq_ite, if_neg hkey]
        · rfl

/-- All rows of a snapshot are told, and the map has them. -/
theorem upserts (h : Told polled s) (hrow : ∀ name record, by_instance.lookup name = some record →
      record.is_active = true ∧ record.instance_name = name) (names : List Text) :
    Told polled (names.foldl (upsert by_instance) s) ∧
      ∀ key, (names.foldl (upsert by_instance) s).1.lookup key =
        if key ∈ names then (by_instance.lookup key).or (s.1.lookup key) else s.1.lookup key := by
  -- over the names, with any map: a name that comes twice changes nothing the second time
  induction names generalizing s with
  | nil => exact ⟨h, fun key => (if_neg List.not_mem_nil).symm⟩
  | cons name names ih =>
      obtain ⟨htold, hget⟩ := ih (h.upsert hrow name)
      refine ⟨htold, fun key => ?_⟩
      rw [List.foldl_cons, hget, lookup_upsert s hrow]
      by_cases hkey : key = name
      · rw [if_pos hkey, if_pos (List.mem_cons.mpr (.inl hkey))]
        split
        · cases by_instance.lookup key <;> rfl
        · rfl
      · rw [if_neg hkey]
        simp only [List.mem_cons, hkey, false_or]

variable [EmptyCollection Txt]

/-- An instance that is gone is told. -/
theorem Told.expire (h : Told polled s) (name : Text) : Told polled (expire s name) := by
  unfold DiscoveryLifecycle.expire
  split
  · exact h
  · next expired hget =>
      have hname : expired.inactive.instance_name = name := h.keyed name expired hget
      constructor
      · dsimp only
        rw [← List.append_assoc, replay_append, h.replayed, Option.bind_some, replay_cons,
          if_neg (by exact Bool.false_ne_true), hname, hget]
        rfl
      · intro key other hother
        rw [AList.lookup_erase_eq_ite] at hother
        split at hother
        · cases hother
        · exact h.keyed key other hother

/-- All that are gone are told, and the map has them no more. -/
theorem expires (h : Told polled s) (names : List Text) :
    Told polled (names.foldl expire s) ∧
      ∀ key, (names.foldl expire s).1.lookup key = if key ∈ names then none else s.1.lookup key := by
  -- the map changes with each name, and what is gone stays so
  induction names generalizing s with
  | nil => exact ⟨h, fun key => (if_neg List.not_mem_nil).symm⟩
  | cons name names ih =>
      obtain ⟨htold, hget⟩ := ih (h.expire name)
      refine ⟨htold, fun key => ?_⟩
      rw [List.foldl_cons, hget, lookup_expire]
      by_cases hkey : key = name
      · rw [if_pos hkey, if_pos (List.mem_cons.mpr (.inl hkey)), ite_self]
      · rw [if_neg hkey]
        simp only [List.mem_cons, hkey, false_or]

/-- The records of a snapshot lead to its rows, whatever was there before. -/
theorem diff_told (h : Told polled s) (hrow : ∀ name record, by_instance.lookup name = some record →
      record.is_active = true ∧ record.instance_name = name) :
    Told polled (diff by_instance s) ∧
      ∀ key, (diff by_instance s).1.lookup key = by_instance.lookup key := by
  obtain ⟨htold, hget⟩ := upserts h hrow (sorted_names by_instance)
  unfold diff
  dsimp only
  generalize (sorted_names by_instance).foldl (upsert by_instance) s = t at htold hget
  obtain ⟨hends, hgone⟩ :=
    expires htold ((sorted_names t.1).filter fun name => (by_instance.lookup name).isNone)
  refine ⟨hends, fun key => ?_⟩
  rw [hgone]
  -- a name that goes has no row; a name that stays has the row of the first loop, or never was there
  split
  · next hmem => exact (Option.isNone_iff_eq_none.mp (List.mem_filter.mp hmem).2).symm
  · next hstays =>
      cases hrowkey : by_instance.lookup key with
      | some record =>
          have hmem : key ∈ sorted_names by_instance := by
            rw [mem_sorted_names, hrowkey]
            rfl
          rw [hget, if_pos hmem, hrowkey]
          rfl
      | none =>
          by_contra hthere
          apply hstays
          rw [List.mem_filter, mem_sorted_names, hrowkey]
          exact ⟨Option.isSome_iff_ne_none.mpr hthere, rfl⟩

end Replay

/-! ## The reducer -/

/-- What follows `pending_start_failure` is a record: the records that polls have taken, the last
snapshot that was accepted, and how many polls were told of a failure. -/
structure DiscoveryBrowseLifecycle (Text Txt : Type) where
  id : ℕ
  callback_generation : ℕ
  state : DiscoverySessionState := .starting
  start_completion : DiscoveryStartCompletion := .pending
  stop_completion : DiscoveryStopCompletion := .not_requested
  native_terminal_acknowledged : Bool := false
  known : Instances Text Txt := ∅
  pending : List (DiscoveryDnsSdRecord Text Txt) := []
  pending_start_failure : Option String := none
  polled : List (DiscoveryDnsSdRecord Text Txt) := []
  snapshot : List (DiscoveryDnsSdRecord Text Txt) := []
  failed_polls : ℕ := 0

/-- What can happen to a browse: the callbacks of the platform, stops and polls. -/
inductive Event (Text Txt : Type)
  | native_ready (generation : ℕ)
  | native_failure (generation : ℕ) (message : String)
  | native_cancelled (generation : ℕ)
  | native_snapshot (generation : ℕ) (records : List (DiscoveryDnsSdRecord Text Txt))
  | request_stop
  | poll

namespace DiscoveryBrowseLifecycle

/-- The start has its answer once. -/
def complete_start (x : DiscoveryBrowseLifecycle Text Txt) (completion : DiscoveryStartCompletion) :
    DiscoveryBrowseLifecycle Text Txt :=
  if x.start_completion = .pending then { x with start_completion := completion } else x

/-- Whether a callback is of this browse, which must not be closed. -/
def accepts (x : DiscoveryBrowseLifecycle Text Txt) (generation : ℕ) : Bool :=
  generation == x.callback_generation && x.state != .closed

/-- `nativeReady` -/
def native_ready (x : DiscoveryBrowseLifecycle Text Txt) (generation : ℕ) :
    DiscoveryBrowseLifecycle Text Txt :=
  if x.accepts generation ∧ x.state = .starting then
    { x with state := .active }.complete_start (.resolved x.id)
  else x

/-- `nativeFailure`: before it is ready the start keeps the message until the platform has ended it.
-/
def native_failure (x : DiscoveryBrowseLifecycle Text Txt) (generation : ℕ) (message : String) :
    DiscoveryBrowseLifecycle Text Txt :=
  if x.accepts generation then
    match x.state with
    | .starting => { x with state := .failed message, pending_start_failure := some message }
    | .active => { x with state := .failed message }
    | _ => x
  else x

/-- `nativeCancelled`, the platform's last word. -/
def native_cancelled (x : DiscoveryBrowseLifecycle Text Txt) (generation : ℕ) :
    DiscoveryBrowseLifecycle Text Txt :=
  if generation = x.callback_generation then
    let y := { x with native_terminal_acknowledged := true }
    match x.state with
    | .starting =>
      { y with state := .closed }.complete_start (.rejected "browse closed before becoming ready")
    | .active => { y with state := .closed }
    | .stopping =>
      { { y with state := .closed }.complete_start (.rejected
          (x.pending_start_failure.getD "browse closed before becoming ready")) with
        stop_completion := .resolved }
    | .failed message =>
      -- a failure that a poll has still to see stays, unless the start takes it
      if x.start_completion = .pending then
        { y.complete_start (.rejected (x.pending_start_failure.getD message)) with state := .closed }
      else y
    | .closed => y
  else x

/-- `nativeSnapshot`: what is new or gone since the last one waits for a poll. -/
def native_snapshot [LinearOrder Text] [DecidableEq Txt] [EmptyCollection Txt]
    (stable_ordering_key : DiscoveryDnsSdRecord Text Txt → Text)
    (x : DiscoveryBrowseLifecycle Text Txt) (generation : ℕ)
    (records : List (DiscoveryDnsSdRecord Text Txt)) : DiscoveryBrowseLifecycle Text Txt :=
  if x.accepts generation ∧ (x.state = .starting ∨ x.state = .active) then
    let s := diff (collapse stable_ordering_key records) (x.known, x.pending)
    { x with known := s.1, pending := s.2, snapshot := records }
  else x

/-- `requestStop`: what waits is dropped. -/
def request_stop (x : DiscoveryBrowseLifecycle Text Txt) : DiscoveryBrowseLifecycle Text Txt :=
  if x.native_terminal_acknowledged then
    -- the stop takes the place of the poll that would have seen the end
    { x with state := .closed, stop_completion := .resolved, known := ∅, pending := [] }
  else if x.state = .stopping then x
  else
    { x with
      state := .stopping, stop_completion := .pending, known := ∅, pending := []
      pending_start_failure :=
        if x.state = .starting then some "browse closed before becoming ready"
        else x.pending_start_failure }

/-- The status, the records and the error of a poll, and the reducer after it. -/
def poll (x : DiscoveryBrowseLifecycle Text Txt) :
    (String × List (DiscoveryDnsSdRecord Text Txt) × Option String) ×
      DiscoveryBrowseLifecycle Text Txt :=
  let y := { x with pending := [], polled := x.polled ++ x.pending }
  match x.state with
  | .failed message =>
    (("failed", x.pending, some message),
      { y with state := .closed, failed_polls := x.failed_polls + 1 })
  | state => ((state.poll_value, x.pending, none), y)

/-- A browse that was started. -/
def start (id callback_generation : ℕ) : DiscoveryBrowseLifecycle Text Txt :=
  { id := id, callback_generation := callback_generation }

/-- A poll names the browse by the id that its start was resolved with, so it comes after the start has
its answer. -/
def step [LinearOrder Text] [DecidableEq Txt] [EmptyCollection Txt]
    (stable_ordering_key : DiscoveryDnsSdRecord Text Txt → Text)
    (x : DiscoveryBrowseLifecycle Text Txt) :
    Event Text Txt → Option (DiscoveryBrowseLifecycle Text Txt)
  | .native_ready generation => some (x.native_ready generation)
  | .native_failure generation message => some (x.native_failure generation message)
  | .native_cancelled generation => some (x.native_cancelled generation)
  | .native_snapshot generation records =>
    some (x.native_snapshot stable_ordering_key generation records)
  | .request_stop => some x.request_stop
  | .poll => if x.start_completion = .pending then none else some x.poll.2

/-! ## The lifecycle -/

/-- The start has its answer when the platform ends the browse, or before. A stop waits for that end,
and a failure is told to one poll. -/
structure Safe (x : DiscoveryBrowseLifecycle Text Txt) : Prop where
  starting : x.state = .starting → x.start_completion = .pending ∧ x.stop_completion = .not_requested
  active : x.state = .active → x.start_completion ≠ .pending ∧ x.stop_completion = .not_requested
  stopping : x.state = .stopping ↔ x.stop_completion = .pending
  waits : x.stop_completion = .pending → x.native_terminal_acknowledged = false
  stopped : x.stop_completion = .resolved →
    x.native_terminal_acknowledged = true ∧ x.state = .closed
  failed : ∀ message, x.state = .failed message → x.stop_completion = .not_requested
  answered : x.start_completion = .pending →
    x.native_terminal_acknowledged = false ∧ x.state ≠ .closed
  once : x.failed_polls ≤ 1
  untold : x.stop_completion = .not_requested → x.state ≠ .closed → x.failed_polls = 0
  cleared : x.stop_completion ≠ .not_requested → x.pending = []

section Safe

variable {x : DiscoveryBrowseLifecycle Text Txt}

theorem not_waiting (hstop : x.stop_completion = .not_requested) {P : Prop}
    (hno : x.stop_completion = .pending) : P := by
  rw [hstop] at hno
  cases hno

theorem not_stopped (hstop : x.stop_completion = .not_requested) {P : Prop}
    (hno : x.stop_completion = .resolved) : P := by
  rw [hstop] at hno
  cases hno

/-- A browse that is starting or active has not been asked to stop. -/
theorem Safe.unstopped (h : Safe x) (hlive : x.state = .starting ∨ x.state = .active) :
    x.stop_completion = .not_requested := by
  rcases hlive with hs | hs
  · exact (h.starting hs).2
  · exact (h.active hs).2

/-- A start that is completed has an answer. -/
theorem complete_start_ne (x : DiscoveryBrowseLifecycle Text Txt)
    (completion : DiscoveryStartCompletion) (h : completion ≠ .pending) :
    (x.complete_start completion).start_completion ≠ .pending := by
  unfold complete_start
  split
  · exact h
  · next hne => exact hne

/-- The answer of a start changes nothing else. -/
theorem complete_start_frame (x : DiscoveryBrowseLifecycle Text Txt)
    (completion : DiscoveryStartCompletion) :
    (x.complete_start completion) =
      { x with start_completion := (x.complete_start completion).start_completion } := by
  unfold complete_start
  split <;> rfl

/-- Readiness answers the start. -/
theorem Safe.native_ready (h : Safe x) (generation : ℕ) : Safe (x.native_ready generation) := by
  unfold DiscoveryBrowseLifecycle.native_ready
  split
  · next hgo =>
      obtain ⟨_, hnone⟩ := h.starting hgo.2
      have hdone := complete_start_ne { x with state := .active } (.resolved x.id) nofun
      have hopen : x.state ≠ .closed := by
        rw [hgo.2]
        exact nofun
      rw [complete_start_frame]
      generalize ({ x with state := .active }.complete_start (.resolved x.id)).start_completion
        = completion at hdone
      exact { h with
        starting := fun hno => by cases hno
        active := fun _ => ⟨hdone, hnone⟩
        stopping := ⟨fun hno => (by cases hno), fun hno => not_waiting hnone hno⟩
        stopped := fun hno => not_stopped hnone hno
        failed := fun _ hno => by cases hno
        answered := fun hno => absurd hno hdone
        untold := fun _ _ => h.untold hnone hopen }
  · exact h

theorem Safe.fail (h : Safe x) (hlive : x.state = .starting ∨ x.state = .active) (message : String)
    (pending_start_failure : Option String) :
    Safe { x with
      state := .failed message, pending_start_failure := pending_start_failure } := by
  have hnone := h.unstopped hlive
  have hopen : x.state ≠ .closed := by
    rcases hlive with hs | hs <;> rw [hs] <;> exact nofun
  exact { h with
    starting := fun hno => by cases hno
    active := fun hno => by cases hno
    stopping := ⟨fun hno => (by cases hno), fun hno => not_waiting hnone hno⟩
    stopped := fun hno => not_stopped hnone hno
    failed := fun _ _ => hnone
    answered := fun hp => ⟨(h.answered hp).1, nofun⟩
    untold := fun _ _ => h.untold hnone hopen }

/-- A failure leaves the start to the platform's last word. -/
theorem Safe.native_failure (h : Safe x) (generation : ℕ) (message : String) :
    Safe (x.native_failure generation message) := by
  unfold DiscoveryBrowseLifecycle.native_failure
  split
  · split
    · next hs => exact h.fail (.inl hs) message _
    · next hs => exact h.fail (.inr hs) message x.pending_start_failure
    · exact h
  · exact h

/-- The platform has ended a browse that no stop waits for. -/
theorem Safe.close (h : Safe x) (hstop : x.stop_completion = .not_requested)
    {completion : DiscoveryStartCompletion} (hdone : completion ≠ .pending) :
    Safe { x with
      state := .closed, native_terminal_acknowledged := true, start_completion := completion } := { h with
  starting := fun hno => by cases hno
  active := fun hno => by cases hno
  stopping := ⟨fun hno => (by cases hno), fun hno => not_waiting hstop hno⟩
  waits := fun hno => not_waiting hstop hno
  stopped := fun _ => ⟨rfl, rfl⟩
  failed := fun _ hno => by cases hno
  answered := fun hno => absurd hno hdone
  untold := fun _ hno => absurd rfl hno }

/-- **The last word** answers the start and the stops. -/
theorem Safe.native_cancelled (h : Safe x) (generation : ℕ) :
    Safe (x.native_cancelled generation) := by
  unfold DiscoveryBrowseLifecycle.native_cancelled
  split
  · dsimp only
    -- only a browse that is stopping has a stop that the end resolves
    split
    · next hs =>
        rw [complete_start_frame]
        exact h.close (h.starting hs).2 (complete_start_ne _ _ nofun)
    · next hs => exact h.close (h.active hs).2 (h.active hs).1
    · next hs =>
        rw [complete_start_frame]
        have hdone := complete_start_ne
          { x with native_terminal_acknowledged := true, state := .closed }
          (.rejected
            (x.pending_start_failure.getD "browse closed before becoming ready")) nofun
        have hstop := h.stopping.mp hs
        exact {
          starting := fun hno => by cases hno
          active := fun hno => by cases hno
          stopping := ⟨fun hno => (by cases hno), fun hno => by cases hno⟩
          waits := fun hno => by cases hno
          stopped := fun _ => ⟨rfl, rfl⟩
          failed := fun _ hno => by cases hno
          answered := fun hno => absurd hno hdone
          once := h.once
          untold := fun hno => by cases hno
          cleared := fun _ => h.cleared (by
            rw [hstop]
            exact nofun) }
    · next message hs =>
        split
        · rw [complete_start_frame]
          exact h.close (h.failed message hs) (complete_start_ne _ _ nofun)
        · next hdone => exact { h with
            waits := fun hno => not_waiting (h.failed message hs) hno
            stopped := fun hno => not_stopped (h.failed message hs) hno
            answered := fun hno => absurd hno hdone }
    · next hs => exact { h with
        waits := fun hno => by
          have hno := h.stopping.mpr hno
          rw [hs] at hno
          cases hno
        stopped := fun _ => ⟨rfl, hs⟩
        answered := fun hno => absurd hs (h.answered hno).2 }
  · exact h

/-- A stop waits for the last word, or has it already. -/
theorem Safe.request_stop (h : Safe x) : Safe x.request_stop := by
  unfold DiscoveryBrowseLifecycle.request_stop
  split
  · next hack => exact {
      starting := fun hno => by cases hno
      active := fun hno => by cases hno
      stopping := ⟨fun hno => (by cases hno), fun hno => by cases hno⟩
      waits := fun hno => by cases hno
      stopped := fun _ => ⟨hack, rfl⟩
      failed := fun _ hno => by cases hno
      answered := fun hp => by
        have hno := (h.answered hp).1
        rw [hack] at hno
        cases hno
      once := h.once
      untold := fun hno => by cases hno
      cleared := fun _ => rfl }
  · next hack =>
      split
      · exact h
      · exact {
          starting := fun hno => by cases hno
          active := fun hno => by cases hno
          stopping := ⟨fun _ => rfl, fun _ => rfl⟩
          waits := fun _ => Bool.eq_false_of_not_eq_true hack
          stopped := fun hno => by cases hno
          failed := fun _ hno => by cases hno
          answered := fun hp => ⟨(h.answered hp).1, nofun⟩
          once := h.once
          untold := fun hno => by cases hno
          cleared := fun _ => rfl }

/-- A poll tells a failure once. -/
theorem Safe.poll (h : Safe x) (hstarted : x.start_completion ≠ .pending) : Safe x.poll.2 := by
  unfold DiscoveryBrowseLifecycle.poll
  dsimp only
  split
  · next message hs =>
      have hstop := h.failed message hs
      have hzero : x.failed_polls = 0 := by
        apply h.untold hstop
        rw [hs]
        exact nofun
      exact {
        starting := fun hno => by cases hno
        active := fun hno => by cases hno
        stopping := ⟨fun hno => (by cases hno), fun hno => not_waiting hstop hno⟩
        waits := h.waits
        stopped := fun hno => not_stopped hstop hno
        failed := fun _ hno => by cases hno
        answered := fun hno => absurd hno hstarted
        once := by
          change x.failed_polls + 1 ≤ 1
          omega
        untold := fun _ hno => absurd rfl hno
        cleared := fun _ => rfl }
  · exact { h with cleared := fun _ => rfl }

end Safe

/-! ## The view -/

section View

variable [LinearOrder Text] [DecidableEq Txt]

/-- What polls have been told can be read, and until a stop it leads, with what waits, to the rows of
the last snapshot. -/
structure View (stable_ordering_key : DiscoveryDnsSdRecord Text Txt → Text)
    (x : DiscoveryBrowseLifecycle Text Txt) : Prop where
  polled : ∃ view, replay ∅ x.polled = some view
  told : x.stop_completion = .not_requested → Told x.polled (x.known, x.pending)
  shown : x.stop_completion = .not_requested → ∀ name,
    x.known.lookup name = (collapse stable_ordering_key x.snapshot).lookup name

variable {stable_ordering_key : DiscoveryDnsSdRecord Text Txt → Text}
  {x y : DiscoveryBrowseLifecycle Text Txt}

/-- What has nothing to do with the records keeps the view. -/
theorem View.keep (h : View stable_ordering_key x) (hpolled : y.polled = x.polled)
    (hknown : y.known = x.known) (hpending : y.pending = x.pending)
    (hsnapshot : y.snapshot = x.snapshot)
    (hstop : y.stop_completion = .not_requested → x.stop_completion = .not_requested) :
    View stable_ordering_key y where
  polled := by
    rw [hpolled]
    exact h.polled
  told := fun hno => by
    rw [hpolled, hknown, hpending]
    exact h.told (hstop hno)
  shown := fun hno => by
    rw [hknown, hsnapshot]
    exact h.shown (hstop hno)

theorem View.native_ready (h : View stable_ordering_key x) (generation : ℕ) :
    View stable_ordering_key (x.native_ready generation) := by
  unfold DiscoveryBrowseLifecycle.native_ready
  split
  · rw [complete_start_frame]
    exact h.keep rfl rfl rfl rfl fun hno => hno
  · exact h

theorem View.native_failure (h : View stable_ordering_key x) (generation : ℕ) (message : String) :
    View stable_ordering_key (x.native_failure generation message) := by
  unfold DiscoveryBrowseLifecycle.native_failure
  split
  · split
    · exact h.keep rfl rfl rfl rfl fun hno => hno
    · exact h.keep rfl rfl rfl rfl fun hno => hno
    · exact h
  · exact h

theorem View.native_cancelled (h : View stable_ordering_key x) (generation : ℕ) :
    View stable_ordering_key (x.native_cancelled generation) := by
  unfold DiscoveryBrowseLifecycle.native_cancelled
  split
  · dsimp only
    split
    · rw [complete_start_frame]
      exact h.keep rfl rfl rfl rfl fun hno => hno
    · exact h.keep rfl rfl rfl rfl fun hno => hno
    · rw [complete_start_frame]
      exact h.keep rfl rfl rfl rfl fun hno => by cases hno
    · split
      · rw [complete_start_frame]
        exact h.keep rfl rfl rfl rfl fun hno => hno
      · exact h.keep rfl rfl rfl rfl fun hno => hno
    · exact h.keep rfl rfl rfl rfl fun hno => hno
  · exact h

theorem View.request_stop (h : View stable_ordering_key x) :
    View stable_ordering_key x.request_stop := by
  unfold DiscoveryBrowseLifecycle.request_stop
  split
  · exact ⟨h.polled, fun hno => (by cases hno), fun hno => by cases hno⟩
  · split
    · exact h
    · exact ⟨h.polled, fun hno => (by cases hno), fun hno => by cases hno⟩

theorem View.poll (h : View stable_ordering_key x) (hsafe : Safe x) :
    View stable_ordering_key x.poll.2 := by
  -- after a stop the map is empty and says nothing of the polls, but then nothing waits either
  have hpolled : ∃ view, replay ∅ (x.polled ++ x.pending) = some view := by
    by_cases hstop : x.stop_completion = .not_requested
    · exact ⟨x.known, (h.told hstop).replayed⟩
    · rw [hsafe.cleared hstop, List.append_nil]
      exact h.polled
  have htold : x.stop_completion = .not_requested → Told (x.polled ++ x.pending) (x.known, []) := by
    intro hstop
    have htold := h.told hstop
    refine ⟨?_, htold.keyed⟩
    rw [List.append_nil]
    exact htold.replayed
  unfold DiscoveryBrowseLifecycle.poll
  dsimp only
  split
  · exact ⟨hpolled, htold, h.shown⟩
  · exact ⟨hpolled, htold, h.shown⟩

theorem view_start (id callback_generation : ℕ) :
    Safe (start id callback_generation : DiscoveryBrowseLifecycle Text Txt) ∧
      View stable_ordering_key (start id callback_generation) := by
  constructor
  · exact {
      starting := fun _ => ⟨rfl, rfl⟩
      active := fun hno => by cases hno
      stopping := ⟨fun hno => (by cases hno), fun hno => by cases hno⟩
      waits := fun hno => by cases hno
      stopped := fun hno => by cases hno
      failed := fun _ hno => by cases hno
      answered := fun _ => ⟨rfl, nofun⟩
      once := Nat.zero_le _
      untold := fun _ _ => rfl
      cleared := fun hno => absurd rfl hno }
  · exact {
      polled := ⟨∅, rfl⟩
      told := fun _ => ⟨rfl, fun name record hget => by cases hget⟩
      shown := fun _ name => rfl }

variable [EmptyCollection Txt]

theorem View.native_snapshot (h : View stable_ordering_key x) (hsafe : Safe x) (generation : ℕ)
    (records : List (DiscoveryDnsSdRecord Text Txt)) :
    View stable_ordering_key (x.native_snapshot stable_ordering_key generation records) := by
  unfold DiscoveryBrowseLifecycle.native_snapshot
  split
  · next hgo =>
      have hstop := hsafe.unstopped hgo.2
      have hrow : ∀ name record, (collapse stable_ordering_key records).lookup name = some record →
          record.is_active = true ∧ record.instance_name = name := by
        intro name record hget
        have hchosen := (collapse_collapsed stable_ordering_key records).chosen name record hget
        exact ⟨hchosen.active, hchosen.named⟩
      obtain ⟨htold, hget⟩ := diff_told (h.told hstop) hrow
      exact ⟨h.polled, fun _ => htold, fun _ => hget⟩
  · exact h

theorem Safe.native_snapshot (h : Safe x) (generation : ℕ)
    (records : List (DiscoveryDnsSdRecord Text Txt)) :
    Safe (x.native_snapshot stable_ordering_key generation records) := by
  unfold DiscoveryBrowseLifecycle.native_snapshot
  split
  · next hgo =>
      have hstop := h.unstopped hgo.2
      exact { h with cleared := fun hno => absurd hstop hno }
  · exact h

theorem view_step {event : Event Text Txt} (h : Safe x ∧ View stable_ordering_key x)
    (hstep : step stable_ordering_key x event = some y) : Safe y ∧ View stable_ordering_key y := by
  obtain ⟨hsafe, hview⟩ := h
  cases event with
  | native_ready generation =>
      cases hstep
      exact ⟨hsafe.native_ready generation, hview.native_ready generation⟩
  | native_failure generation message =>
      cases hstep
      exact ⟨hsafe.native_failure generation message, hview.native_failure generation message⟩
  | native_cancelled generation =>
      cases hstep
      exact ⟨hsafe.native_cancelled generation, hview.native_cancelled generation⟩
  | native_snapshot generation records =>
      cases hstep
      exact ⟨hsafe.native_snapshot generation records, hview.native_snapshot hsafe generation records⟩
  | request_stop =>
      cases hstep
      exact ⟨hsafe.request_stop, hview.request_stop⟩
  | poll =>
      rw [step, Option.ite_none_left_eq_some] at hstep
      obtain ⟨hstarted, hstep⟩ := hstep
      cases hstep
      exact ⟨hsafe.poll hstarted, hview.poll hsafe⟩

/-- **Polls follow the snapshots.** In any order of native callbacks, stops and polls, and whatever the
rows of a snapshot: the records of the polls can be read one after the other, and each of them says
something new. Until a stop is asked for, they lead with those that wait to the last snapshot, with
one row for each of its instances: an active one whose key is the least. A stop is done once the platform
has ended the browse, and then the start has its answer; a failure is told to one poll at most. -/
theorem polls_follow_snapshots (stable_ordering_key : DiscoveryDnsSdRecord Text Txt → Text)
    (id callback_generation : ℕ) {history : List (Event Text Txt)}
    {x : DiscoveryBrowseLifecycle Text Txt}
    (hrun : run (step stable_ordering_key) (start id callback_generation) history = some x) :
    (∃ view, replay ∅ x.polled = some view) ∧
      (x.stop_completion = .not_requested →
        ∃ view, replay ∅ (x.polled ++ x.pending) = some view ∧
          (∀ name record, view.lookup name = some record →
            Chosen stable_ordering_key x.snapshot name record) ∧
          ∀ record ∈ x.snapshot, record.is_active = true →
            (view.lookup record.instance_name).isSome = true) ∧
      (x.native_terminal_acknowledged = true → x.start_completion ≠ .pending) ∧
      (x.stop_completion = .resolved → x.native_terminal_acknowledged = true) ∧
      (x.stop_completion = .pending → x.state = .stopping) ∧ x.failed_polls ≤ 1 := by
  have hinv : Safe x ∧ View stable_ordering_key x :=
    run_invariant (fun _ _ _ h hstep => view_step h hstep) (view_start id callback_generation) hrun
  obtain ⟨hsafe, hview⟩ := hinv
  refine ⟨hview.polled, fun hstop => ?_, fun hack hno => ?_, fun hdone => (hsafe.stopped hdone).1,
    hsafe.stopping.mpr, hsafe.once⟩
  · have hcollapsed := collapse_collapsed stable_ordering_key x.snapshot
    refine ⟨x.known, (hview.told hstop).replayed, fun name record hget => ?_,
      fun record hmem hactive => ?_⟩
    · rw [hview.shown hstop] at hget
      exact hcollapsed.chosen name record hget
    · rw [hview.shown hstop]
      exact hcollapsed.total record hmem hactive
  · have hopen := (hsafe.answered hno).1
    rw [hack] at hopen
    cases hopen

end View

/-- Two snapshots: an instance with two rows, which changes its text, and one that goes. -/
theorem polls_follow_snapshots_changed : ∃ x : DiscoveryBrowseLifecycle ℕ (List ℕ),
    run (step fun record => record.txt.headD 0) (start 7 7)
      [.native_ready 7,
        .native_snapshot 7 [⟨0, 2, [5], true⟩, ⟨0, 1, [4], true⟩, ⟨0, 2, [3], true⟩], .poll,
        .native_snapshot 7 [⟨0, 2, [6], true⟩], .poll] = some x ∧
      x.polled = [⟨0, 1, [4], true⟩, ⟨0, 2, [3], true⟩, ⟨0, 2, [6], true⟩, ⟨0, 1, [], false⟩] ∧
      ∃ view, replay ∅ x.polled = some view := by
  have hrun : run (step fun record : DiscoveryDnsSdRecord ℕ (List ℕ) => record.txt.headD 0) (start 7 7)
      [.native_ready 7,
        .native_snapshot 7 [⟨0, 2, [5], true⟩, ⟨0, 1, [4], true⟩, ⟨0, 2, [3], true⟩], .poll,
        .native_snapshot 7 [⟨0, 2, [6], true⟩], .poll] = some _ := rfl
  exact ⟨_, hrun, by decide, (polls_follow_snapshots _ 7 7 hrun).1⟩

end DiscoveryBrowseLifecycle

end IrohHttp.DiscoveryLifecycle
