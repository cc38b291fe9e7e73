/-
`iroh-http-tauri/src/discovery_ownership.rs`: who owns a DNS-SD browse or
advertisement session.

A start captures its owner -- the endpoint and the page, each with a generation --
before it creates anything, and attaches what it created only if both generations
are still the active ones. Closing an endpoint, loading a page and destroying a
WebView raise a generation and drain the sessions of the old one in the same
critical section.

Every function of the source holds the one lock throughout, so each is a function
on `OwnershipState` here. A `WebviewCleanup` and a `StartCompletion` are shared
cells, written once; a cell is named by the number it was created with, which is
what `ptr_eq` compares. Who waits for which cell is in `CleanupFences.lean`.

Generations are natural numbers; the source stops the process when 64 bits are
used up.
-/
import IrohHttp.FiniteMap
import IrohHttp.Machine
import Mathlib.Data.List.Dedup
import Mathlib.Data.List.Perm.Subperm
import Mathlib.Logic.Function.Basic

set_option autoImplicit false

namespace IrohHttp.DiscoveryOwnership

/-! ## Data -/

/-- The kinds of discovery sessions. -/
inductive DiscoveryKind
  | BrowsePeers
  | AdvertisePeer
  | GenericAdvertise
  | GenericBrowse
  deriving DecidableEq, Repr

/-- Who a session belongs to: an endpoint and a window, or a window, each in a generation. -/
inductive DiscoveryOwner
  | Peer (endpoint_handle endpoint_generation : ℕ) (webview_label : String)
      (webview_generation : ℕ)
  | Webview (webview_label : String) (webview_generation : ℕ)
  deriving DecidableEq, Repr

/-- `owner_label`, the window. -/
def owner_label : DiscoveryOwner → String
  | .Peer _ _ webview_label _ => webview_label
  | .Webview webview_label _ => webview_label

/-- A session of the map. -/
structure TrackedDiscovery where
  kind : DiscoveryKind
  handle : ℕ
  owner : DiscoveryOwner
  deriving DecidableEq, Repr

/-- What a peer session captures before it starts. -/
structure PeerOwnerToken where
  endpoint_handle : ℕ
  endpoint_generation : ℕ
  webview_label : String
  webview_generation : ℕ

/-- What a generic session captures before it starts. -/
structure WebviewOwnerToken where
  webview_label : String
  webview_generation : ℕ

/-- The owner that the token stands for. -/
def PeerOwnerToken.owner (t : PeerOwnerToken) : DiscoveryOwner :=
  .Peer t.endpoint_handle t.endpoint_generation t.webview_label t.webview_generation

/-- The owner that the token stands for. -/
def WebviewOwnerToken.owner (t : WebviewOwnerToken) : DiscoveryOwner :=
  .Webview t.webview_label t.webview_generation

/-- The generation of an endpoint or a window. -/
structure OwnerGeneration where
  generation : ℕ := 0
  active : Bool := false
  deriving DecidableEq, Repr

/-- How native cleanup ended. -/
abbrev Outcome := Except String Unit

/-- The state behind the lock. `starts` has the owner of every pending start;
`cleanups` and `completions` are the cells of the `WebviewCleanup`s and the
`StartCompletion`s, `none` until they are finished. -/
structure OwnershipState where
  sessions : FiniteMap (DiscoveryKind × ℕ) TrackedDiscovery
  starts : FiniteMap ℕ DiscoveryOwner
  next_start : ℕ
  endpoints : ℕ → Option OwnerGeneration
  webviews : String → Option OwnerGeneration
  webview_cleanups : String → Option ℕ
  next_cleanup : ℕ
  cleanups : ℕ → Option Outcome
  completions : ℕ → Option Outcome

/-- `OwnershipState::default` -/
def OwnershipState.default : OwnershipState where
  sessions := ∅
  starts := ∅
  next_start := 0
  endpoints := fun _ => none
  webviews := fun _ => none
  webview_cleanups := fun _ => none
  next_cleanup := 0
  cleanups := fun _ => none
  completions := fun _ => none

/-- A published fence: the label it was published under, its own cell and the one
it took the place of. `SessionCleanup` has the same three fields. -/
structure WebviewCleanupRetirement where
  label : String
  current : ℕ
  previous : Option ℕ
  deriving DecidableEq, Repr

/-- What one owner transition invalidates. -/
structure DiscoveryRetirement where
  sessions : List TrackedDiscovery
  starts : List ℕ
  webview_cleanup : Option WebviewCleanupRetirement
  owner_cleanups : List WebviewCleanupRetirement

/-- The interval from the capture of an owner to tracking or cleanup. -/
structure StartLease where
  id : ℕ
  owner : DiscoveryOwner
  active : Bool
  native_started : Bool
  prior_cleanup : Option ℕ

/-! ## Owners -/

/-- `next_generation` -/
def next_generation (current : ℕ) : ℕ := current + 1

/-- An owner entry is live and of this generation. -/
def generation_is_current (current : Option OwnerGeneration) (generation : ℕ) : Bool :=
  current.any fun owner => owner.active && owner.generation == generation

/-- `owner_is_current`; `peer_owner_is_current` and `webview_owner_is_current` are
its two branches, on the tokens. -/
def owner_is_current (s : OwnershipState) : DiscoveryOwner → Bool
  | .Peer endpoint_handle endpoint_generation webview_label webview_generation =>
    generation_is_current (s.endpoints endpoint_handle) endpoint_generation &&
      generation_is_current (s.webviews webview_label) webview_generation
  | .Webview webview_label webview_generation =>
    generation_is_current (s.webviews webview_label) webview_generation

/-- `kind_matches_owner` -/
def kind_matches_owner : DiscoveryKind → DiscoveryOwner → Bool
  | .BrowsePeers, .Peer _ _ _ _ => true
  | .AdvertisePeer, .Peer _ _ _ _ => true
  | .GenericAdvertise, .Webview _ _ => true
  | .GenericBrowse, .Webview _ _ => true
  | _, _ => false

namespace OwnershipState

/-- The endpoint's entry, created if there is none, in its next generation. -/
def bump_endpoint (s : OwnershipState) (endpoint_handle : ℕ) (active : Bool) : OwnershipState :=
  let owner := (s.endpoints endpoint_handle).getD {}
  { s with
    endpoints := Function.update s.endpoints endpoint_handle
      (some ⟨next_generation owner.generation, active⟩) }

/-- The next generation of a window. -/
def bump_webview (s : OwnershipState) (webview_label : String) (active : Bool) : OwnershipState :=
  let owner := (s.webviews webview_label).getD {}
  { s with
    webviews := Function.update s.webviews webview_label
      (some ⟨next_generation owner.generation, active⟩) }

/-- `activate_endpoint` -/
def activate_endpoint (s : OwnershipState) (endpoint_handle : ℕ) : OwnershipState :=
  s.bump_endpoint endpoint_handle true

/-- The page's entry; a label never seen before starts as generation 1. -/
def webview_entry (s : OwnershipState) (webview_label : String) :
    OwnerGeneration × OwnershipState :=
  let webview := (s.webviews webview_label).getD ⟨1, true⟩
  (webview, { s with webviews := Function.update s.webviews webview_label (some webview) })

/-! ## Capturing an owner -/

/-- `begin_peer` -/
def begin_peer (s : OwnershipState) (endpoint_handle : ℕ) (webview_label : String) :
    Option PeerOwnerToken × OwnershipState :=
  match s.endpoints endpoint_handle with
  | none => (none, s)
  | some endpoint =>
    if !endpoint.active then (none, s)
    else
      let (webview, s) := s.webview_entry webview_label
      if !webview.active then (none, s)
      else (some ⟨endpoint_handle, endpoint.generation, webview_label, webview.generation⟩, s)

/-- `begin_webview` -/
def begin_webview (s : OwnershipState) (webview_label : String) :
    Option WebviewOwnerToken × OwnershipState :=
  let (webview, s) := s.webview_entry webview_label
  if !webview.active then (none, s) else (some ⟨webview_label, webview.generation⟩, s)

/-- A start is pending from here on, with the cleanup that it waits for. -/
def insert_start (s : OwnershipState) (owner : DiscoveryOwner) (prior_cleanup : Option ℕ) :
    StartLease × OwnershipState :=
  (⟨s.next_start, owner, true, false, prior_cleanup⟩,
    { s with starts := s.starts.insert s.next_start owner, next_start := s.next_start + 1 })

/-- `begin_peer_start` -/
def begin_peer_start (s : OwnershipState) (endpoint_handle : ℕ) (webview_label : String) :
    Option StartLease × OwnershipState :=
  match s.endpoints endpoint_handle with
  | none => (none, s)
  | some endpoint =>
    -- unlike `begin_peer`, the page's entry is made before the endpoint is checked
    let (webview, s) := s.webview_entry webview_label
    if !endpoint.active || !webview.active then (none, s)
    else
      let r := s.insert_start
        (.Peer endpoint_handle endpoint.generation webview_label webview.generation)
        (s.webview_cleanups webview_label)
      (some r.1, r.2)

/-- `begin_webview_start` -/
def begin_webview_start (s : OwnershipState) (webview_label : String) :
    Option StartLease × OwnershipState :=
  let (webview, s) := s.webview_entry webview_label
  if !webview.active then (none, s)
  else
    let r := s.insert_start (.Webview webview_label webview.generation)
      (s.webview_cleanups webview_label)
    (some r.1, r.2)

/-! ## Tracking -/

/-- Attach a resource to an owner that is still current. -/
def track_owner (s : OwnershipState) (owner : DiscoveryOwner) (kind : DiscoveryKind)
    (handle : ℕ) : Option TrackedDiscovery × OwnershipState :=
  if owner_is_current s owner then
    (some ⟨kind, handle, owner⟩,
      { s with sessions := s.sessions.insert (kind, handle) ⟨kind, handle, owner⟩ })
  else (none, s)

/-- `track_peer` -/
def track_peer (s : OwnershipState) (token : PeerOwnerToken) (kind : DiscoveryKind) (handle : ℕ) :=
  s.track_owner token.owner kind handle

/-- `track_generic` -/
def track_generic (s : OwnershipState) (token : WebviewOwnerToken) (kind : DiscoveryKind)
    (handle : ℕ) :=
  s.track_owner token.owner kind handle

/-- A cell is written once. -/
def finish_completion (s : OwnershipState) (id : ℕ) (outcome : Outcome) : OwnershipState :=
  { s with
    completions := Function.update s.completions id
      (some ((s.completions id).getD outcome)) }

/-- The start is no longer pending, and its completion says how it ended. -/
def release_start (s : OwnershipState) (id : ℕ) (outcome : Outcome) : OwnershipState :=
  { s with starts := s.starts.erase id }.finish_completion id outcome

end OwnershipState

namespace StartLease

/-- `StartLease::track`: on success the start is released as well; on failure the
lease stays active through the caller's cleanup. -/
def track (lease : StartLease) (s : OwnershipState) (kind : DiscoveryKind) (handle : ℕ) :
    Option TrackedDiscovery × StartLease × OwnershipState :=
  match s.track_owner lease.owner kind handle with
  | (none, s) => (none, lease, s)
  | (some d, s) => (some d, { lease with active := false }, s.release_start lease.id (.ok ()))

/-- `arm_native_cleanup`: from here on a drop is a failure. -/
def arm_native_cleanup (lease : StartLease) : StartLease := { lease with native_started := true }

/-- `finish_cleanup` -/
def finish_cleanup (lease : StartLease) (s : OwnershipState) (outcome : Outcome) : OwnershipState :=
  s.release_start lease.id outcome

/-- The drop of a lease that was not finished. -/
def drop (lease : StartLease) (s : OwnershipState) : OwnershipState :=
  if lease.active then
    s.release_start lease.id
      (if lease.native_started then
        .error "native discovery start was abandoned before cleanup completed"
      else .ok ())
  else s

end StartLease

namespace OwnershipState

/-- `untrack` -/
def untrack (s : OwnershipState) (kind : DiscoveryKind) (handle : ℕ) :
    Option TrackedDiscovery × OwnershipState :=
  (s.sessions.lookup (kind, handle), { s with sessions := s.sessions.erase (kind, handle) })

/-! ## Fences -/

/-- Create a fence and publish it under the label. -/
def publish (s : OwnershipState) (label : String) : WebviewCleanupRetirement × OwnershipState :=
  (⟨label, s.next_cleanup, s.webview_cleanups label⟩,
    { s with
      webview_cleanups := Function.update s.webview_cleanups label (some s.next_cleanup)
      next_cleanup := s.next_cleanup + 1 })

/-- A fence for each label, in order. -/
def install_owner_cleanups (s : OwnershipState) :
    List String → List WebviewCleanupRetirement × OwnershipState
  | [] => ([], s)
  | label :: labels =>
    let r := s.publish label
    let rest := r.2.install_owner_cleanups labels
    (r.1 :: rest.1, rest.2)

/-- `WebviewCleanup::finish`. -/
def finish_cell (s : OwnershipState) (cleanup : ℕ) (outcome : Outcome) : OwnershipState :=
  { s with
    cleanups := Function.update s.cleanups cleanup
      (some ((s.cleanups cleanup).getD outcome)) }

/-- Take a fence down if no newer one has been published. -/
def unpublish (s : OwnershipState) (fence : WebviewCleanupRetirement) : OwnershipState :=
  if s.webview_cleanups fence.label = some fence.current then
    { s with webview_cleanups := Function.update s.webview_cleanups fence.label none }
  else s

/-- Retire one tracked session and publish its fence. The fence is a
`SessionCleanup`. -/
def begin_session_cleanup (s : OwnershipState) (kind : DiscoveryKind) (handle : ℕ) :
    Option (TrackedDiscovery × WebviewCleanupRetirement) × OwnershipState :=
  match s.untrack kind handle with
  | (none, s) => (none, s)
  | (some tracked, s) =>
    let r := s.publish (owner_label tracked.owner)
    (some (tracked, r.1), r.2)

/-! ## Retirement -/

/-- Remove the sessions that meet the predicate. -/
def take_matching (s : OwnershipState) (predicate : DiscoveryOwner → Bool) :
    List TrackedDiscovery × OwnershipState :=
  ((s.sessions.entries.filter fun e => predicate e.2.owner).map Sigma.snd,
    { s with sessions := s.sessions.retain fun _ session => !predicate session.owner })

/-- The pending starts that meet the predicate. They stay pending. -/
def matching_starts (s : OwnershipState) (predicate : DiscoveryOwner → Bool) : List ℕ :=
  (s.starts.entries.filter fun e => predicate e.2).map Sigma.fst

/-- The windows of the sessions and starts that meet the predicate, sorted and each once. -/
def matching_owner_labels (s : OwnershipState) (predicate : DiscoveryOwner → Bool) :
    List String :=
  let sessions := (s.sessions.entries.filter fun e => predicate e.2.owner).map
    fun e => owner_label e.2.owner
  let starts := (s.starts.entries.filter fun e => predicate e.2).map fun e => owner_label e.2
  ((sessions ++ starts).mergeSort fun a b => decide (a ≤ b)).dedup

/-- Whether the owner is of the endpoint. -/
def is_peer_of (endpoint_handle : ℕ) : DiscoveryOwner → Bool
  | .Peer h _ _ _ => h == endpoint_handle
  | .Webview _ _ => false

/-- `retire_endpoint`: the next generation, inactive, and everything of the old one handed out. -/
def retire_endpoint (s : OwnershipState) (endpoint_handle : ℕ) :
    DiscoveryRetirement × OwnershipState :=
  let s := s.bump_endpoint endpoint_handle false
  let labels := s.matching_owner_labels (is_peer_of endpoint_handle)
  let starts := s.matching_starts (is_peer_of endpoint_handle)
  let taken := s.take_matching (is_peer_of endpoint_handle)
  let fences := taken.2.install_owner_cleanups labels
  (⟨taken.1, starts, none, fences.1⟩, fences.2)

/-- `advance_webview` leaves the page's next generation active, `retire_webview`
does not. -/
def next_webview (s : OwnershipState) (webview_label : String) (active : Bool) :
    DiscoveryRetirement × OwnershipState :=
  let fence := s.publish webview_label
  let s := fence.2.bump_webview webview_label active
  let starts := s.matching_starts fun owner => owner_label owner == webview_label
  let taken := s.take_matching fun owner => owner_label owner == webview_label
  (⟨taken.1, starts, some fence.1, []⟩, taken.2)

/-- `advance_webview`, for a page that is loaded again. -/
def advance_webview (s : OwnershipState) (webview_label : String) :=
  s.next_webview webview_label true

/-- `retire_webview`, for a page that is gone. -/
def retire_webview (s : OwnershipState) (webview_label : String) :=
  s.next_webview webview_label false

/-- `retire_all` -/
def retire_all (s : OwnershipState) : DiscoveryRetirement × OwnershipState :=
  let retire : OwnerGeneration → OwnerGeneration := fun owner =>
    ⟨next_generation owner.generation, false⟩
  let s := { s with
    endpoints := fun h => (s.endpoints h).map retire
    webviews := fun label => (s.webviews label).map retire }
  let labels := s.matching_owner_labels fun _ => true
  let starts := s.matching_starts fun _ => true
  let taken := s.take_matching fun _ => true
  let fences := taken.2.install_owner_cleanups labels
  (⟨taken.1, starts, none, fences.1⟩, fences.2)

end OwnershipState

/-! ## Handles

Every handle that is tracked comes out of one of these maps, of the session's
kind, and the command that inserted it tries once to track it. -/

/-- The counter of `DiscoveryHandleMap`. -/
structure DiscoveryHandleMap where
  next : ℕ := 1
  deriving DecidableEq

/-- `DiscoveryHandleMap::insert`: handles are counted up. -/
def DiscoveryHandleMap.insert (m : DiscoveryHandleMap) : ℕ × DiscoveryHandleMap :=
  (m.next, ⟨m.next + 1⟩)

/-- The handles of `n` insertions. -/
def DiscoveryHandleMap.issue (m : DiscoveryHandleMap) : ℕ → List ℕ
  | 0 => []
  | n + 1 => m.insert.1 :: m.insert.2.issue n

/-- A handle is never issued again. -/
theorem DiscoveryHandleMap.issue_nodup (m : DiscoveryHandleMap) (n : ℕ) : (m.issue n).Nodup := by
  have hge : ∀ (n : ℕ) (m : DiscoveryHandleMap), ∀ h ∈ m.issue n, m.next ≤ h := by
    intro n
    induction n with
    | zero => intro m h hmem; cases hmem
    | succ n ih =>
        intro m h hmem
        rcases List.mem_cons.mp hmem with rfl | hmem
        · exact Nat.le_refl _
        · have hnext := ih m.insert.2 h hmem
          exact Nat.le_trans (Nat.le_succ _) hnext
  induction n generalizing m with
  | zero => exact List.nodup_nil
  | succ n ih =>
      refine List.nodup_cons.mpr ⟨fun hmem => ?_, ih m.insert.2⟩
      have hnext := hge n m.insert.2 _ hmem
      exact Nat.not_succ_le_self m.next hnext

/-! ## Operations -/

/-- The operations on the state, each under its lock. -/
inductive OwnershipOp
  | activate_endpoint (endpoint_handle : ℕ)
  | begin_peer (endpoint_handle : ℕ) (webview_label : String)
  | begin_webview (webview_label : String)
  | begin_peer_start (endpoint_handle : ℕ) (webview_label : String)
  | begin_webview_start (webview_label : String)
  | track_peer (token : PeerOwnerToken) (kind : DiscoveryKind) (handle : ℕ)
  | track_generic (token : WebviewOwnerToken) (kind : DiscoveryKind) (handle : ℕ)
  | track (lease : StartLease) (kind : DiscoveryKind) (handle : ℕ)
  | finish_cleanup (lease : StartLease) (outcome : Outcome)
  | drop (lease : StartLease)
  | untrack (kind : DiscoveryKind) (handle : ℕ)
  | begin_session_cleanup (kind : DiscoveryKind) (handle : ℕ)
  | finish_cell (cleanup : ℕ) (outcome : Outcome)
  | unpublish (fence : WebviewCleanupRetirement)
  | retire_endpoint (endpoint_handle : ℕ)
  | advance_webview (webview_label : String)
  | retire_webview (webview_label : String)
  | retire_all

/-- What an operation shows to its caller: the owner it captured, the session it
tracked, the sessions it handed out. -/
structure Effect where
  captured : Option DiscoveryOwner := none
  tracked : Option TrackedDiscovery := none
  handed : List TrackedDiscovery := []

namespace OwnershipState

/-- What an operation does, and what it hands out. -/
def perform (s : OwnershipState) : OwnershipOp → Effect × OwnershipState
  | .activate_endpoint h => ({}, s.activate_endpoint h)
  | .begin_peer h w => ({ captured := (s.begin_peer h w).1.map (·.owner) }, (s.begin_peer h w).2)
  | .begin_webview w => ({ captured := (s.begin_webview w).1.map (·.owner) }, (s.begin_webview w).2)
  | .begin_peer_start h w =>
    ({ captured := (s.begin_peer_start h w).1.map (·.owner) }, (s.begin_peer_start h w).2)
  | .begin_webview_start w =>
    ({ captured := (s.begin_webview_start w).1.map (·.owner) }, (s.begin_webview_start w).2)
  | .track_peer token kind handle =>
    ({ tracked := (s.track_peer token kind handle).1 }, (s.track_peer token kind handle).2)
  | .track_generic token kind handle =>
    ({ tracked := (s.track_generic token kind handle).1 }, (s.track_generic token kind handle).2)
  | .track lease kind handle =>
    ({ tracked := (lease.track s kind handle).1 }, (lease.track s kind handle).2.2)
  | .finish_cleanup lease outcome => ({}, lease.finish_cleanup s outcome)
  | .drop lease => ({}, lease.drop s)
  | .untrack kind handle =>
    ({ handed := (s.untrack kind handle).1.toList }, (s.untrack kind handle).2)
  | .begin_session_cleanup kind handle =>
    ({ handed := ((s.begin_session_cleanup kind handle).1.map Prod.fst).toList },
      (s.begin_session_cleanup kind handle).2)
  | .finish_cell cleanup outcome => ({}, s.finish_cell cleanup outcome)
  | .unpublish fence => ({}, s.unpublish fence)
  | .retire_endpoint h => ({ handed := (s.retire_endpoint h).1.sessions }, (s.retire_endpoint h).2)
  | .advance_webview w => ({ handed := (s.advance_webview w).1.sessions }, (s.advance_webview w).2)
  | .retire_webview w => ({ handed := (s.retire_webview w).1.sessions }, (s.retire_webview w).2)
  | .retire_all => ({ handed := s.retire_all.1.sessions }, s.retire_all.2)

end OwnershipState

namespace OwnershipOp

/-- The endpoint that an operation activates. -/
def activates : OwnershipOp → Option ℕ
  | .activate_endpoint h => some h
  | _ => none

/-- The key under which an operation tries to track a session. -/
def track_key : OwnershipOp → Option (DiscoveryKind × ℕ)
  | .track_peer _ kind handle => some (kind, handle)
  | .track_generic _ kind handle => some (kind, handle)
  | .track _ kind handle => some (kind, handle)
  | _ => none

/-- The owner that a token or lease attaches to. -/
def track_owner : OwnershipOp → Option DiscoveryOwner
  | .track_peer token _ _ => some token.owner
  | .track_generic token _ _ => some token.owner
  | .track lease _ _ => some lease.owner
  | _ => none

/-- The assertion of the tracking functions. -/
def kind_matches (op : OwnershipOp) : Bool :=
  match op.track_key, op.track_owner with
  | some key, some owner => kind_matches_owner key.1 owner
  | _, _ => true

/-- Whether it retires the endpoint. -/
def retires_endpoint (op : OwnershipOp) (endpoint_handle : ℕ) : Bool :=
  match op with
  | .retire_endpoint h => endpoint_handle == h
  | .retire_all => true
  | _ => false

/-- Whether it retires or advances the window. -/
def retires_webview (op : OwnershipOp) (webview_label : String) : Bool :=
  match op with
  | .advance_webview w => webview_label == w
  | .retire_webview w => webview_label == w
  | .retire_all => true
  | _ => false

/-- The operation retires or advances an owner. -/
def retires (op : OwnershipOp) (owner : DiscoveryOwner) : Bool :=
  match op with
  | .retire_endpoint h => OwnershipState.is_peer_of h owner
  | .advance_webview w => owner_label owner == w
  | .retire_webview w => owner_label owner == w
  | .retire_all => true
  | _ => false

/-- The sessions an operation is to hand out: the one under its key, or those of
the owner it names. -/
def names (op : OwnershipOp) (key : DiscoveryKind × ℕ) (session : TrackedDiscovery) : Bool :=
  match op with
  | .untrack kind handle => decide (key = (kind, handle))
  | .begin_session_cleanup kind handle => decide (key = (kind, handle))
  | op => op.retires session.owner

end OwnershipOp

/-! ## What one operation does to the sessions -/

namespace OwnershipState

attribute [local simp] perform

/-- Fences leave sessions, endpoints and windows alone. -/
theorem install_owner_cleanups_frame (s : OwnershipState) (labels : List String) :
    (s.install_owner_cleanups labels).2.sessions = s.sessions ∧
      (s.install_owner_cleanups labels).2.endpoints = s.endpoints ∧
      (s.install_owner_cleanups labels).2.webviews = s.webviews := by
  induction labels generalizing s with
  | nil => exact ⟨rfl, rfl, rfl⟩
  | cons label labels ih => exact ih (s.publish label).2

/-- An operation tracks one session for an owner that is current, or hands out
the sessions it names and keeps the others. -/
inductive SessionStep (s : OwnershipState) (op : OwnershipOp) : Prop
  | tracked (d : TrackedDiscovery)
      (hkey : op.track_key = some (d.kind, d.handle)) (howner : op.track_owner = some d.owner)
      (hcurrent : owner_is_current s d.owner = true)
      (htracked : (s.perform op).1.tracked = some d) (hhanded : (s.perform op).1.handed = [])
      (hsessions : (s.perform op).2.sessions = s.sessions.insert (d.kind, d.handle) d)
      (hendpoints : (s.perform op).2.endpoints = s.endpoints)
      (hwebviews : (s.perform op).2.webviews = s.webviews)
  | handed
      (hrefused : ∀ owner, op.track_owner = some owner → owner_is_current s owner = false)
      (htracked : (s.perform op).1.tracked = none)
      (hhanded : (s.perform op).1.handed
        = (s.sessions.entries.filter fun e => op.names e.1 e.2).map Sigma.snd)
      (hsessions : (s.perform op).2.sessions.entries
        = s.sessions.entries.filter fun e => !op.names e.1 e.2)

/-- Operations that leave the sessions alone. -/
theorem SessionStep.keep {s : OwnershipState} {op : OwnershipOp}
    (hrefused : ∀ owner, op.track_owner = some owner → owner_is_current s owner = false)
    (hnames : ∀ k d, op.names k d = false) (htracked : (s.perform op).1.tracked = none)
    (hhanded : (s.perform op).1.handed = [])
    (hsessions : (s.perform op).2.sessions = s.sessions) : SessionStep s op := by
  refine .handed hrefused htracked ?_ ?_
  · rw [hhanded, List.filter_eq_nil_iff.mpr, List.map_nil]
    intro e _
    rw [hnames]
    exact Bool.false_ne_true
  · rw [hsessions, List.filter_eq_self.mpr]
    intro e _
    rw [hnames]
    rfl

/-- **Tracking**: a current owner has its session, and another changes nothing. -/
theorem track_owner_eq (s : OwnershipState) (owner : DiscoveryOwner) (kind : DiscoveryKind)
    (handle : ℕ) :
    (owner_is_current s owner = true ∧ s.track_owner owner kind handle =
      (some ⟨kind, handle, owner⟩,
        { s with sessions := s.sessions.insert (kind, handle) ⟨kind, handle, owner⟩ })) ∨
    (owner_is_current s owner = false ∧ s.track_owner owner kind handle = (none, s)) := by
  unfold track_owner
  by_cases h : owner_is_current s owner = true
  · exact .inl ⟨h, if_pos h⟩
  · exact .inr ⟨Bool.eq_false_iff.mpr h, if_neg h⟩

theorem begin_peer_frame (s : OwnershipState) (h : ℕ) (w : String) :
    (s.begin_peer h w).2.sessions = s.sessions := by
  unfold begin_peer
  split
  · rfl
  · split
    · rfl
    · simp only
      split <;> rfl

theorem begin_peer_start_frame (s : OwnershipState) (h : ℕ) (w : String) :
    (s.begin_peer_start h w).2.sessions = s.sessions := by
  unfold begin_peer_start
  split
  · rfl
  · simp only
    split <;> rfl

theorem begin_webview_frame (s : OwnershipState) (w : String) :
    (s.begin_webview w).2.sessions = s.sessions := by
  unfold begin_webview
  simp only
  split <;> rfl

theorem begin_webview_start_frame (s : OwnershipState) (w : String) :
    (s.begin_webview_start w).2.sessions = s.sessions := by
  unfold begin_webview_start
  simp only
  split <;> rfl

/-- **What one operation does to the sessions.** -/
theorem session_step (s : OwnershipState) (op : OwnershipOp) : SessionStep s op := by
  cases op with
  | activate_endpoint h => exact .keep (by rintro _ ⟨⟩) (fun _ _ => rfl) rfl rfl rfl
  | begin_peer h w => exact .keep (by rintro _ ⟨⟩) (fun _ _ => rfl) rfl rfl (s.begin_peer_frame h w)
  | begin_webview w => exact .keep (by rintro _ ⟨⟩) (fun _ _ => rfl) rfl rfl (s.begin_webview_frame w)
  | begin_peer_start h w =>
      exact .keep (by rintro _ ⟨⟩) (fun _ _ => rfl) rfl rfl (s.begin_peer_start_frame h w)
  | begin_webview_start w =>
      exact .keep (by rintro _ ⟨⟩) (fun _ _ => rfl) rfl rfl (s.begin_webview_start_frame w)
  | track_peer token kind handle =>
      obtain ⟨hcur, heq⟩ | ⟨hcur, heq⟩ := s.track_owner_eq token.owner kind handle
      · refine .tracked ⟨kind, handle, token.owner⟩ rfl rfl hcur ?_ rfl ?_ ?_ ?_
        all_goals simp only [perform, track_peer, heq]
      · refine .keep ?_ (fun _ _ => rfl) ?_ rfl ?_
        · rintro owner ⟨⟩
          exact hcur
        all_goals simp only [perform, track_peer, heq]
  | track_generic token kind handle =>
      obtain ⟨hcur, heq⟩ | ⟨hcur, heq⟩ := s.track_owner_eq token.owner kind handle
      · refine .tracked ⟨kind, handle, token.owner⟩ rfl rfl hcur ?_ rfl ?_ ?_ ?_
        all_goals simp only [perform, track_generic, heq]
      · refine .keep ?_ (fun _ _ => rfl) ?_ rfl ?_
        · rintro owner ⟨⟩
          exact hcur
        all_goals simp only [perform, track_generic, heq]
  | track lease kind handle =>
      obtain ⟨hcur, heq⟩ | ⟨hcur, heq⟩ := s.track_owner_eq lease.owner kind handle
      · refine .tracked ⟨kind, handle, lease.owner⟩ rfl rfl hcur ?_ rfl ?_ ?_ ?_
        all_goals simp only [perform, StartLease.track, heq]
        all_goals rfl
      · refine .keep ?_ (fun _ _ => rfl) ?_ rfl ?_
        · rintro owner ⟨⟩
          exact hcur
        all_goals simp only [perform, StartLease.track, heq]
  | finish_cleanup lease outcome => exact .keep (by rintro _ ⟨⟩) (fun _ _ => rfl) rfl rfl rfl
  | drop lease =>
      refine .keep (by rintro _ ⟨⟩) (fun _ _ => rfl) rfl rfl ?_
      simp only [perform, StartLease.drop]
      split <;> rfl
  | untrack kind handle =>
      refine .handed (by rintro _ ⟨⟩) rfl ?_ ?_
      · exact (s.sessions.filter_key (kind, handle)).symm
      · simp only [perform, untrack, AList.entries_erase, OwnershipOp.names, ne_eq, decide_not]
  | begin_session_cleanup kind handle =>
      have hfilter := s.sessions.filter_key (kind, handle)
      refine .handed (by rintro _ ⟨⟩) rfl ?_ ?_
      · refine Eq.trans ?_ hfilter.symm
        simp only [perform, begin_session_cleanup, untrack]
        cases s.sessions.lookup (kind, handle) <;> rfl
      · simp only [perform, begin_session_cleanup, untrack]
        cases s.sessions.lookup (kind, handle) <;>
          simp only [publish, AList.entries_erase, OwnershipOp.names, ne_eq, decide_not]
  | finish_cell cleanup outcome => exact .keep (by rintro _ ⟨⟩) (fun _ _ => rfl) rfl rfl rfl
  | unpublish fence =>
      refine .keep (by rintro _ ⟨⟩) (fun _ _ => rfl) rfl rfl ?_
      simp only [perform, unpublish]
      split <;> rfl
  | retire_endpoint h =>
      refine .handed (by rintro _ ⟨⟩) rfl rfl ?_
      exact congrArg AList.entries (install_owner_cleanups_frame _ _).1
  | advance_webview w => exact .handed (by rintro _ ⟨⟩) rfl rfl rfl
  | retire_webview w => exact .handed (by rintro _ ⟨⟩) rfl rfl rfl
  | retire_all =>
      refine .handed (by rintro _ ⟨⟩) rfl rfl ?_
      exact congrArg AList.entries (install_owner_cleanups_frame _ _).1

/-! ## What one operation does to the generations -/

/-- An entry that is there goes to its next generation. -/
def Bumped (o o' : Option OwnerGeneration) : Prop :=
  ∀ g, o = some g → ∃ active, o' = some ⟨g.generation + 1, active⟩

theorem bump_endpoint_self (s : OwnershipState) (h : ℕ) (active : Bool) :
    Bumped (s.endpoints h) ((s.bump_endpoint h active).endpoints h) := by
  intro g hg
  refine ⟨active, ?_⟩
  simp only [bump_endpoint, Function.update_self, hg, Option.getD_some, next_generation]

theorem bump_webview_self (s : OwnershipState) (w : String) (active : Bool) :
    Bumped (s.webviews w) ((s.bump_webview w active).webviews w) := by
  intro g hg
  refine ⟨active, ?_⟩
  simp only [bump_webview, Function.update_self, hg, Option.getD_some, next_generation]

theorem webview_entry_eq (s : OwnershipState) (w w' : String) :
    (s.webview_entry w).2.endpoints = s.endpoints ∧
      ((s.webview_entry w).2.webviews w' = s.webviews w' ∨ s.webviews w' = none) := by
  refine ⟨rfl, ?_⟩
  by_cases hw : w' = w
  · subst hw
    cases hs : s.webviews w' with
    | none => exact .inr rfl
    | some g =>
        left
        simp only [webview_entry, hs, Option.getD_some, Function.update_self]
  · left
    simp only [webview_entry, Function.update_of_ne hw]

/-- The owners after a capture: a page that was never seen may have got its entry. -/
theorem begin_owners (s : OwnershipState) (op : OwnershipOp)
    (hop : (∃ h w, op = .begin_peer h w) ∨ (∃ w, op = .begin_webview w) ∨
      (∃ h w, op = .begin_peer_start h w) ∨ ∃ w, op = .begin_webview_start w) (w' : String) :
    (s.perform op).2.endpoints = s.endpoints ∧
      ((s.perform op).2.webviews w' = s.webviews w' ∨ s.webviews w' = none) := by
  obtain ⟨h, w, rfl⟩ | ⟨w, rfl⟩ | ⟨h, w, rfl⟩ | ⟨w, rfl⟩ := hop
  · simp only [perform, begin_peer]
    split
    · exact ⟨rfl, .inl rfl⟩
    · split
      · exact ⟨rfl, .inl rfl⟩
      · split <;> exact s.webview_entry_eq w w'
  · simp only [perform, begin_webview]
    split <;> exact s.webview_entry_eq w w'
  · simp only [perform, begin_peer_start]
    split
    · exact ⟨rfl, .inl rfl⟩
    · split <;> exact s.webview_entry_eq w w'
  · simp only [perform, begin_webview_start]
    split <;> exact s.webview_entry_eq w w'

/-- The operations that touch neither generation map. -/
theorem tracking_owners (s : OwnershipState) (op : OwnershipOp) (owner : DiscoveryOwner)
    (hop : op.track_owner = some owner) :
    (s.perform op).2.endpoints = s.endpoints ∧ (s.perform op).2.webviews = s.webviews := by
  have htrack : ∀ o kind handle, (s.track_owner o kind handle).2.endpoints = s.endpoints ∧
      (s.track_owner o kind handle).2.webviews = s.webviews := by
    intro o kind handle
    obtain ⟨-, heq⟩ | ⟨-, heq⟩ := s.track_owner_eq o kind handle <;> rw [heq] <;> exact ⟨rfl, rfl⟩
  cases op with
  | track_peer token kind handle => exact htrack token.owner kind handle
  | track_generic token kind handle => exact htrack token.owner kind handle
  | track lease kind handle =>
      obtain ⟨-, heq⟩ | ⟨-, heq⟩ := s.track_owner_eq lease.owner kind handle
      · simp only [perform, StartLease.track, heq]
        exact ⟨rfl, rfl⟩
      · simp only [perform, StartLease.track, heq, and_self]
  | _ => cases hop

/-- **The other operations** leave the generation of an endpoint alone. -/
theorem endpoint_kept (s : OwnershipState) (op : OwnershipOp) (h : ℕ)
    (hact : op.activates ≠ some h) (hret : op.retires_endpoint h = false) :
    (s.perform op).2.endpoints h = s.endpoints h := by
  cases op with
  | activate_endpoint h' =>
      have hne : h ≠ h' := fun heq => hact (heq ▸ rfl)
      simp only [perform, activate_endpoint, bump_endpoint, Function.update_of_ne hne]
  | begin_peer h' w => rw [(s.begin_owners _ (.inl ⟨h', w, rfl⟩) w).1]
  | begin_webview w => rw [(s.begin_owners _ (.inr (.inl ⟨w, rfl⟩)) w).1]
  | begin_peer_start h' w => rw [(s.begin_owners _ (.inr (.inr (.inl ⟨h', w, rfl⟩))) w).1]
  | begin_webview_start w => rw [(s.begin_owners _ (.inr (.inr (.inr ⟨w, rfl⟩))) w).1]
  | track_peer token kind handle => rw [(s.tracking_owners _ _ rfl).1]
  | track_generic token kind handle => rw [(s.tracking_owners _ _ rfl).1]
  | track lease kind handle => rw [(s.tracking_owners _ _ rfl).1]
  | drop lease =>
      simp only [perform, StartLease.drop]
      split <;> rfl
  | begin_session_cleanup kind handle =>
      simp only [perform, begin_session_cleanup, untrack]
      cases s.sessions.lookup (kind, handle) <;> rfl
  | unpublish fence =>
      simp only [perform, unpublish]
      split <;> rfl
  | retire_endpoint h' =>
      have hne : h ≠ h' := by
        rintro rfl
        simp only [OwnershipOp.retires_endpoint, beq_self_eq_true, Bool.true_eq_false] at hret
      simp only [perform, retire_endpoint, (install_owner_cleanups_frame _ _).2.1, take_matching,
        bump_endpoint, Function.update_of_ne hne]
  | retire_all => cases hret
  | _ => rfl

/-- **Activation and retirement** go on to the next generation. -/
theorem endpoint_bumped (s : OwnershipState) (op : OwnershipOp) (h : ℕ)
    (hop : op.activates = some h ∨ op.retires_endpoint h = true) :
    Bumped (s.endpoints h) ((s.perform op).2.endpoints h) := by
  cases op with
  | activate_endpoint h' =>
      rcases hop with hop | hop
      · obtain rfl : h' = h := Option.some.inj hop
        exact s.bump_endpoint_self h' true
      · cases hop
  | retire_endpoint h' =>
      rcases hop with hop | hop
      · cases hop
      · obtain rfl : h = h' := beq_iff_eq.mp hop
        simp only [perform, retire_endpoint, (install_owner_cleanups_frame _ _).2.1, take_matching]
        exact s.bump_endpoint_self h false
  | retire_all =>
      intro g hg
      refine ⟨false, ?_⟩
      simp only [perform, retire_all, (install_owner_cleanups_frame _ _).2.1, take_matching, hg,
        Option.map_some, next_generation]
  | _ => rcases hop with hop | hop <;> cases hop

/-- A page that is not retired keeps its entry, or gets its first. -/
theorem webview_kept (s : OwnershipState) (op : OwnershipOp) (w : String)
    (hret : op.retires_webview w = false) :
    (s.perform op).2.webviews w = s.webviews w ∨ s.webviews w = none := by
  cases op with
  | begin_peer h' w' => exact (s.begin_owners _ (.inl ⟨h', w', rfl⟩) w).2
  | begin_webview w' => exact (s.begin_owners _ (.inr (.inl ⟨w', rfl⟩)) w).2
  | begin_peer_start h' w' => exact (s.begin_owners _ (.inr (.inr (.inl ⟨h', w', rfl⟩))) w).2
  | begin_webview_start w' => exact (s.begin_owners _ (.inr (.inr (.inr ⟨w', rfl⟩))) w).2
  | track_peer token kind handle => exact .inl (by rw [(s.tracking_owners _ _ rfl).2])
  | track_generic token kind handle => exact .inl (by rw [(s.tracking_owners _ _ rfl).2])
  | track lease kind handle => exact .inl (by rw [(s.tracking_owners _ _ rfl).2])
  | drop lease =>
      simp only [perform, StartLease.drop]
      split <;> exact .inl rfl
  | begin_session_cleanup kind handle =>
      simp only [perform, begin_session_cleanup, untrack]
      cases s.sessions.lookup (kind, handle) <;> exact .inl rfl
  | unpublish fence =>
      simp only [perform, unpublish]
      split <;> exact .inl rfl
  | retire_endpoint h' =>
      left
      simp only [perform, retire_endpoint, (install_owner_cleanups_frame _ _).2.2, take_matching]
      rfl
  | advance_webview w' =>
      have hne : w ≠ w' := beq_eq_false_iff_ne.mp hret
      left
      simp only [perform, advance_webview, next_webview, take_matching, bump_webview, publish,
        Function.update_of_ne hne]
  | retire_webview w' =>
      have hne : w ≠ w' := beq_eq_false_iff_ne.mp hret
      left
      simp only [perform, retire_webview, next_webview, take_matching, bump_webview, publish,
        Function.update_of_ne hne]
  | retire_all => cases hret
  | _ => exact .inl rfl

/-- The same for a window. -/
theorem webview_bumped (s : OwnershipState) (op : OwnershipOp) (w : String)
    (hop : op.retires_webview w = true) :
    Bumped (s.webviews w) ((s.perform op).2.webviews w) := by
  cases op with
  | advance_webview w' =>
      obtain rfl : w = w' := beq_iff_eq.mp hop
      exact (s.publish w).2.bump_webview_self w true
  | retire_webview w' =>
      obtain rfl : w = w' := beq_iff_eq.mp hop
      exact (s.publish w).2.bump_webview_self w false
  | retire_all =>
      intro g hg
      refine ⟨false, ?_⟩
      simp only [perform, retire_all, (install_owner_cleanups_frame _ _).2.2, take_matching, hg,
        Option.map_some, next_generation]
  | _ => cases hop

/-! ## Current and stale owners -/

theorem generation_is_current_iff {o : Option OwnerGeneration} {g : ℕ} :
    generation_is_current o g = true ↔ o = some ⟨g, true⟩ := by
  cases o with
  | none => simp [generation_is_current]
  | some c =>
      obtain ⟨g', a⟩ := c
      simp [generation_is_current, and_comm]

/-- An owner that is neither retired nor activated anew stays current. -/
theorem current_step {s : OwnershipState} {op : OwnershipOp} {owner : DiscoveryOwner}
    (hcur : owner_is_current s owner = true) (hret : op.retires owner = false)
    (hact : ∀ h, op.activates = some h → (s.endpoints h).any (·.active) = false) :
    owner_is_current (s.perform op).2 owner = true := by
  have hwebview : ∀ w g, op.retires_webview w = false →
      generation_is_current (s.webviews w) g = true →
      generation_is_current ((s.perform op).2.webviews w) g = true := by
    intro w g hw hg
    rw [generation_is_current_iff] at hg ⊢
    obtain heq | hnone := s.webview_kept op w hw
    · rw [heq, hg]
    · rw [hnone] at hg
      cases hg
  cases owner with
  | Peer h g w wg =>
      have hsplit : op.retires (.Peer h g w wg) = (op.retires_endpoint h || op.retires_webview w) := by
        cases op <;> simp only [OwnershipOp.retires, OwnershipOp.retires_endpoint,
          OwnershipOp.retires_webview, is_peer_of, owner_label, Bool.or_false, Bool.false_or,
          Bool.or_self]
      rw [hsplit, Bool.or_eq_false_iff] at hret
      simp only [owner_is_current, Bool.and_eq_true] at hcur ⊢
      refine ⟨?_, hwebview w wg hret.2 hcur.2⟩
      have hsome := generation_is_current_iff.mp hcur.1
      -- a live endpoint is not activated a second time
      have hne : op.activates ≠ some h := by
        intro hop
        have hdead := hact h hop
        rw [hsome] at hdead
        cases hdead
      rw [s.endpoint_kept op h hne hret.1]
      exact hcur.1
  | Webview w wg =>
      refine hwebview w wg ?_ hcur
      cases op with
      | retire_all => cases hret
      | _ => exact hret

/-- The entry exists and has come as far as generation `n`. -/
def Reached (o : Option OwnerGeneration) (n : ℕ) : Prop := ∃ c, o = some c ∧ n ≤ c.generation

/-- A generation that was gone past stays so. -/
theorem Bumped.reached {o o' : Option OwnerGeneration} {n : ℕ} (h : Bumped o o')
    (hn : Reached o n) : Reached o' (n + 1) := by
  obtain ⟨c, hc, hle⟩ := hn
  obtain ⟨active, hc'⟩ := h c hc
  exact ⟨_, hc', Nat.succ_le_succ hle⟩

theorem Reached.mono {o : Option OwnerGeneration} {m n : ℕ} (h : Reached o n) (hle : m ≤ n) :
    Reached o m := by
  obtain ⟨c, hc, hn⟩ := h
  exact ⟨c, hc, Nat.le_trans hle hn⟩

/-- What has been reached of an endpoint stays reached. -/
theorem reached_endpoint {s : OwnershipState} {h n : ℕ} (hn : Reached (s.endpoints h) n)
    (op : OwnershipOp) : Reached ((s.perform op).2.endpoints h) n := by
  by_cases hop : op.activates = some h ∨ op.retires_endpoint h = true
  · exact ((s.endpoint_bumped op h hop).reached hn).mono (Nat.le_succ n)
  · rw [not_or, Bool.not_eq_true] at hop
    rw [s.endpoint_kept op h hop.1 hop.2]
    exact hn

/-- And of a window. -/
theorem reached_webview {s : OwnershipState} {w : String} {n : ℕ} (hn : Reached (s.webviews w) n)
    (op : OwnershipOp) : Reached ((s.perform op).2.webviews w) n := by
  by_cases hop : op.retires_webview w = true
  · exact ((s.webview_bumped op w hop).reached hn).mono (Nat.le_succ n)
  · obtain heq | hnone := s.webview_kept op w (Bool.eq_false_iff.mpr hop)
    · rw [heq]
      exact hn
    · obtain ⟨c, hc, -⟩ := hn
      rw [hnone] at hc
      cases hc

/-- The generations of the owner have been reached: it was captured here. -/
def Known (s : OwnershipState) : DiscoveryOwner → Prop
  | .Peer h g w wg => Reached (s.endpoints h) g ∧ Reached (s.webviews w) wg
  | .Webview w wg => Reached (s.webviews w) wg

/-- One of the owner's generations has been left behind. -/
def Stale (s : OwnershipState) : DiscoveryOwner → Prop
  | .Peer h g w wg => Reached (s.endpoints h) (g + 1) ∨ Reached (s.webviews w) (wg + 1)
  | .Webview w wg => Reached (s.webviews w) (wg + 1)

/-- What is known of an owner stays known. -/
theorem known_step {s : OwnershipState} {owner : DiscoveryOwner} (h : Known s owner)
    (op : OwnershipOp) : Known (s.perform op).2 owner := by
  cases owner with
  | Peer e g w wg => exact ⟨reached_endpoint h.1 op, reached_webview h.2 op⟩
  | Webview w wg => exact reached_webview (n := wg) h op

/-- **A stale owner stays stale.** -/
theorem stale_step {s : OwnershipState} {owner : DiscoveryOwner} (h : Stale s owner)
    (op : OwnershipOp) : Stale (s.perform op).2 owner := by
  cases owner with
  | Peer e g w wg =>
      rcases h with h | h
      · exact .inl (reached_endpoint h op)
      · exact .inr (reached_webview h op)
  | Webview w wg => exact reached_webview (n := wg + 1) h op

/-- Retiring or advancing one of its owners makes a captured owner stale. -/
theorem retires_stale {s : OwnershipState} {owner : DiscoveryOwner} {op : OwnershipOp}
    (h : Known s owner) (hret : op.retires owner = true) : Stale (s.perform op).2 owner := by
  cases owner with
  | Peer e g w wg =>
      cases op with
      | retire_endpoint e' =>
          exact .inl ((s.endpoint_bumped (.retire_endpoint e') e (.inr hret)).reached h.1)
      | advance_webview w' =>
          exact .inr ((s.webview_bumped (.advance_webview w') w hret).reached h.2)
      | retire_webview w' =>
          exact .inr ((s.webview_bumped (.retire_webview w') w hret).reached h.2)
      | retire_all => exact .inl ((s.endpoint_bumped .retire_all e (.inr rfl)).reached h.1)
      | _ => cases hret
  | Webview w wg =>
      cases op with
      | advance_webview w' => exact (s.webview_bumped (.advance_webview w') w hret).reached h
      | retire_webview w' => exact (s.webview_bumped (.retire_webview w') w hret).reached h
      | retire_all => exact (s.webview_bumped .retire_all w rfl).reached h
      | _ => cases hret

/-- A generation that has been left behind is not the current one. -/
theorem not_current_of_reached {o : Option OwnerGeneration} {g : ℕ} (h : Reached o (g + 1)) :
    generation_is_current o g = false := by
  obtain ⟨c, rfl, hle⟩ := h
  refine Bool.eq_false_iff.mpr fun hcur => ?_
  rw [generation_is_current_iff, Option.some.injEq] at hcur
  subst hcur
  exact Nat.not_succ_le_self g hle

/-- A stale owner is not current. -/
theorem Stale.not_current {s : OwnershipState} {owner : DiscoveryOwner} (h : Stale s owner) :
    owner_is_current s owner = false := by
  cases owner with
  | Peer e g w wg =>
      rcases h with h | h
      · rw [owner_is_current, not_current_of_reached h, Bool.false_and]
      · rw [owner_is_current, not_current_of_reached h, Bool.and_false]
  | Webview w wg => exact not_current_of_reached h

theorem webview_entry_reached (s : OwnershipState) (w : String) :
    Reached ((s.webview_entry w).2.webviews w) (s.webview_entry w).1.generation := by
  refine ⟨(s.webview_entry w).1, ?_, Nat.le_refl _⟩
  simp only [webview_entry, Function.update_self]

/-- Capturing an owner reads the generations that are there. -/
theorem captured_known {s : OwnershipState} {op : OwnershipOp} {owner : DiscoveryOwner}
    (h : (s.perform op).1.captured = some owner) : Known (s.perform op).2 owner := by
  cases op with
  | begin_peer e w =>
      simp only [perform, begin_peer] at h ⊢
      cases he : s.endpoints e with
      | none => rw [he] at h; cases h
      | some endpoint =>
          simp only [he] at h ⊢
          split at h
          · cases h
          · split at h
            · cases h
            · next h₁ h₂ =>
              rw [if_neg h₁, if_neg h₂]
              obtain rfl := Option.some.inj h
              exact ⟨⟨endpoint, he, Nat.le_refl _⟩, s.webview_entry_reached w⟩
  | begin_webview w =>
      simp only [perform, begin_webview] at h ⊢
      split at h
      · cases h
      · next h₁ =>
        rw [if_neg h₁]
        obtain rfl := Option.some.inj h
        exact s.webview_entry_reached w
  | begin_peer_start e w =>
      simp only [perform, begin_peer_start] at h ⊢
      cases he : s.endpoints e with
      | none => rw [he] at h; cases h
      | some endpoint =>
          simp only [he] at h ⊢
          split at h
          · cases h
          · next h₁ =>
            rw [if_neg h₁]
            obtain rfl := Option.some.inj h
            exact ⟨⟨endpoint, he, Nat.le_refl _⟩, s.webview_entry_reached w⟩
  | begin_webview_start w =>
      simp only [perform, begin_webview_start] at h ⊢
      split at h
      · cases h
      · next h₁ =>
        rw [if_neg h₁]
        obtain rfl := Option.some.inj h
        exact s.webview_entry_reached w
  | _ => cases h

/-- A retired endpoint is not active. -/
theorem endpoint_retired {s : OwnershipState} {op : OwnershipOp} {h : ℕ} {c : OwnerGeneration}
    (hret : op.retires_endpoint h = true) (hc : (s.perform op).2.endpoints h = some c) :
    c.active = false := by
  cases op with
  | retire_endpoint h' =>
      obtain rfl : h = h' := beq_iff_eq.mp hret
      simp only [perform, retire_endpoint, (install_owner_cleanups_frame _ _).2.1, take_matching,
        bump_endpoint, Function.update_self, Option.some.injEq] at hc
      rw [← hc]
  | retire_all =>
      simp only [perform, retire_all, (install_owner_cleanups_frame _ _).2.1, take_matching,
        Option.map_eq_some_iff] at hc
      obtain ⟨g, -, rfl⟩ := hc
      rfl
  | _ => cases hret

end OwnershipState

/-! ## Runs -/

/-- A run so far: the state, and in order the endpoints activated, the keys tried
for tracking, the sessions tracked, handed out, and replaced under their key. -/
structure Trace where
  state : OwnershipState
  activated : List ℕ
  keys : List (DiscoveryKind × ℕ)
  tracked : List TrackedDiscovery
  handed : List TrackedDiscovery
  replaced : List TrackedDiscovery

namespace Trace

open OwnershipState

/-- No operation yet. -/
def start : Trace := ⟨OwnershipState.default, [], [], [], [], []⟩

/-- The session that tracking `d` would replace. -/
def displaced (s : OwnershipState) (d : Option TrackedDiscovery) : List TrackedDiscovery :=
  match d with
  | some d => (s.sessions.lookup (d.kind, d.handle)).toList
  | none => []

/-- One operation, with what it did written down. -/
def step (t : Trace) (op : OwnershipOp) : Trace :=
  let r := t.state.perform op
  { state := r.2
    activated := t.activated ++ op.activates.toList
    keys := t.keys ++ op.track_key.toList
    tracked := t.tracked ++ r.1.tracked.toList
    handed := t.handed ++ r.1.handed
    replaced := t.replaced ++ displaced t.state r.1.tracked }

/-- A run of operations. -/
def run (l : List OwnershipOp) : Trace := l.foldl step start

/-- An endpoint handle is activated at most once. -/
def ActivatesFresh (t : Trace) (op : OwnershipOp) : Prop :=
  ∀ h, op.activates = some h → h ∉ t.activated

/-- A session is tracked under a key that was not tried before. -/
def TracksFresh (t : Trace) (op : OwnershipOp) : Prop :=
  ∀ k, op.track_key = some k → k ∉ t.keys

/-- What every run keeps: every session sits under its own key, its owner is the
current one, and nothing that was tracked is unaccounted for. -/
structure Owned (t : Trace) : Prop where
  key : ∀ e ∈ t.state.sessions.entries, e.1 = (e.2.kind, e.2.handle)
  current : ∀ e ∈ t.state.sessions.entries, owner_is_current t.state e.2.owner = true
  activated : ∀ h c, t.state.endpoints h = some c → c.active = true → h ∈ t.activated
  tracked : ∀ e ∈ t.state.sessions.entries, e.1 ∈ t.keys
  conserved : t.tracked.Perm (t.handed ++ (t.state.sessions.values ++ t.replaced))

theorem owned_start : Owned start where
  key e he := absurd he List.not_mem_nil
  current e he := absurd he List.not_mem_nil
  activated h c hc := by cases hc
  tracked e he := absurd he List.not_mem_nil
  conserved := List.Perm.nil

/-- The endpoints that are active have been activated. -/
theorem activated_step {t : Trace} (ht : Owned t) (op : OwnershipOp) (h : ℕ) (c : OwnerGeneration)
    (hc : (t.step op).state.endpoints h = some c) (hactive : c.active = true) :
    h ∈ (t.step op).activated := by
  by_cases hact : op.activates = some h
  · exact List.mem_append_right _ (by rw [hact]; exact List.mem_singleton_self h)
  · refine List.mem_append_left _ ?_
    cases hret : op.retires_endpoint h with
    | true =>
        rw [endpoint_retired hret hc] at hactive
        cases hactive
    | false =>
        have hsame := t.state.endpoint_kept op h hact hret
        exact ht.activated h c (hsame ▸ hc) hactive

/-- **Every operation keeps the owners current.** -/
theorem owned_step {t : Trace} (ht : Owned t) {op : OwnershipOp} (hop : ActivatesFresh t op) :
    Owned (t.step op) := by
  -- an endpoint that was never activated is not active
  have hdead : ∀ h, op.activates = some h → (t.state.endpoints h).any (·.active) = false := by
    intro h hact
    cases hc : t.state.endpoints h with
    | none => rfl
    | some c =>
        refine Bool.eq_false_iff.mpr fun hactive => ?_
        exact hop h hact (ht.activated h c hc hactive)
  cases t.state.session_step op with
  | tracked d hkey howner hcurrent htracked hhanded hsessions hendpoints hwebviews =>
      have hsame : ∀ owner, owner_is_current (t.state.perform op).2 owner
          = owner_is_current t.state owner := by
        intro owner
        cases owner <;> simp only [owner_is_current, hendpoints, hwebviews]
      have hmem : ∀ e ∈ (t.step op).state.sessions.entries,
          e = ⟨(d.kind, d.handle), d⟩ ∨ e ∈ t.state.sessions.entries := by
        intro e he
        simp only [step, hsessions] at he
        exact (AList.mem_entries_insert.mp he).imp id And.left
      refine ⟨?_, ?_, activated_step ht op, ?_, ?_⟩
      · intro e he
        rcases hmem e he with rfl | he
        · rfl
        · exact ht.key e he
      · intro e he
        rcases hmem e he with rfl | he
        · exact (hsame _).trans hcurrent
        · exact (hsame _).trans (ht.current e he)
      · intro e he
        rcases hmem e he with rfl | he
        · exact List.mem_append_right _ (by rw [hkey]; exact List.mem_singleton_self _)
        · exact List.mem_append_left _ (ht.tracked e he)
      · -- the new session comes in, the one under its key is replaced
        simp only [step, htracked, hhanded, hsessions, displaced, Option.toList_some,
          List.append_nil, AList.values_insert]
        refine (ht.conserved.append_right [d]).trans ?_
        have hsplit := t.state.sessions.values_perm_erase (d.kind, d.handle)
        grind
  | handed hrefused htracked hhanded hsessions =>
      have hmem : ∀ e ∈ (t.step op).state.sessions.entries,
          e ∈ t.state.sessions.entries ∧ op.names e.1 e.2 = false := by
        intro e he
        simp only [step, hsessions, List.mem_filter, Bool.not_eq_true'] at he
        exact he
      refine ⟨fun e he => ht.key e (hmem e he).1, ?_, activated_step ht op, ?_, ?_⟩
      · intro e he
        obtain ⟨he, hnot⟩ := hmem e he
        refine current_step (ht.current e he) ?_ hdead
        cases op with
        | untrack kind handle => rfl
        | begin_session_cleanup kind handle => rfl
        | _ => exact hnot
      · intro e he
        exact List.mem_append_left _ (ht.tracked e (hmem e he).1)
      · -- what is handed out leaves the sessions
        have hsplit := t.state.sessions.values_perm_retain fun k v => op.names k v
        have hvalues : (t.state.perform op).2.sessions.values
            = (t.state.sessions.retain fun k v => !op.names k v).values := by
          rw [AList.values, AList.values, hsessions]
          rfl
        simp only [step, htracked, hhanded, hvalues, displaced, Option.toList_none,
          List.append_nil]
        refine ht.conserved.trans ?_
        rw [List.append_assoc, ← List.append_assoc (List.map _ _)]
        exact (hsplit.append_right t.replaced).append_left t.handed

/-! ### Whole runs -/

/-- The run is one of the machine. -/
theorem run_eq (l : List OwnershipOp) :
    Machine.run (fun t op => some (step t op)) start l = some (run l) :=
  Machine.run_total step start l

theorem run_append (l₁ l₂ : List OwnershipOp) : run (l₁ ++ l₂) = l₂.foldl step (run l₁) :=
  List.foldl_append

/-- The states of a run that activates no endpoint twice. -/
theorem owned_run {l : List OwnershipOp} (hl : (l.filterMap OwnershipOp.activates).Nodup) :
    Owned (run l) := by
  refine Machine.along_invariant (C := ActivatesFresh) ?_ owned_start ?_ (run_eq l)
  · intro t op t' ht hop hstep
    rw [Option.some.injEq] at hstep
    exact hstep ▸ owned_step ht hop
  · refine Machine.along_fresh (g := Trace.activated) ?_ hl
    intro t op t' hstep
    rw [Option.some.injEq] at hstep
    exact hstep ▸ rfl

/-- Keys that are all different replace nothing. -/
theorem replaced_run {l : List OwnershipOp} (hl : (l.filterMap OwnershipOp.activates).Nodup)
    (hkeys : (l.filterMap OwnershipOp.track_key).Nodup) : (run l).replaced = [] := by
  refine (Machine.along_invariant (P := fun t => Owned t ∧ t.replaced = [])
    (C := fun t op => ActivatesFresh t op ∧ TracksFresh t op) ?_ ⟨owned_start, rfl⟩ ?_
    (run_eq l)).2
  · rintro t op t' ⟨ht, hnone⟩ ⟨hact, hfresh⟩ hstep
    rw [Option.some.injEq] at hstep
    subst hstep
    refine ⟨owned_step ht hact, ?_⟩
    cases t.state.session_step op with
    | tracked d hkey howner hcurrent htracked hhanded hsessions hendpoints hwebviews =>
        -- a session under this key would have been tried before
        have habsent : t.state.sessions.lookup (d.kind, d.handle) = none := by
          cases hget : t.state.sessions.lookup (d.kind, d.handle) with
          | none => rfl
          | some v =>
              have hmem := AList.lookup_eq_some_iff.mp hget
              exact absurd (ht.tracked _ hmem) (hfresh _ hkey)
        simp only [step, htracked, displaced, habsent, hnone, Option.toList_none, List.append_nil]
    | handed hrefused htracked hhanded hsessions =>
        simp only [step, htracked, displaced, hnone, List.append_nil]
  · refine Machine.along_and (Machine.along_fresh (g := Trace.activated) ?_ hl)
      (Machine.along_fresh (g := Trace.keys) ?_ hkeys)
    · intro t op t' hstep
      rw [Option.some.injEq] at hstep
      exact hstep ▸ rfl
    · intro t op t' hstep
      rw [Option.some.injEq] at hstep
      exact hstep ▸ rfl

/-- The handles that were tried for tracking under one kind. -/
def handles (l : List OwnershipOp) (kind : DiscoveryKind) : List ℕ :=
  ((l.filterMap OwnershipOp.track_key).filter fun k => decide (k.1 = kind)).map Prod.snd

/-- Keys are different when the handles of each kind are. -/
theorem nodup_of_kinds {keys : List (DiscoveryKind × ℕ)}
    (h : ∀ kind, ((keys.filter fun k => decide (k.1 = kind)).map Prod.snd).Nodup) :
    keys.Nodup := by
  induction keys with
  | nil => exact List.nodup_nil
  | cons k keys ih =>
      refine List.nodup_cons.mpr ⟨fun hmem => ?_, ih fun kind => ?_⟩
      · have hk := h k.1
        rw [List.filter_cons, if_pos (decide_eq_true rfl), List.map_cons, List.nodup_cons] at hk
        exact hk.1 (List.mem_map_of_mem (List.mem_filter.mpr ⟨hmem, decide_eq_true rfl⟩))
      · exact (h kind).sublist (((List.sublist_cons_self k keys).filter _).map Prod.snd)

/-- Handles that come out of a `DiscoveryHandleMap`, each tried at most once, are
different keys. -/
theorem keys_nodup_of_issued {l : List OwnershipOp}
    (h : ∀ kind, ∃ n, (handles l kind).Subperm (DiscoveryHandleMap.issue {} n)) :
    (l.filterMap OwnershipOp.track_key).Nodup := by
  refine nodup_of_kinds fun kind => ?_
  obtain ⟨n, l', hperm, hsub⟩ := h kind
  exact hperm.nodup_iff.mp ((DiscoveryHandleMap.issue_nodup {} n).sublist hsub)

/-- Where the assertions of the tracking functions hold, peer sessions have peer
owners and generic ones page owners. -/
theorem kinds_run {l : List OwnershipOp} (hl : ∀ op ∈ l, op.kind_matches = true) :
    ∀ e ∈ (run l).state.sessions.entries, kind_matches_owner e.2.kind e.2.owner = true := by
  refine Machine.along_invariant
    (P := fun t : Trace => ∀ e ∈ t.state.sessions.entries,
      kind_matches_owner e.2.kind e.2.owner = true)
    (C := fun _ op => op.kind_matches = true) ?_ (fun e he => absurd he List.not_mem_nil)
    (Machine.along_of_forall (fun op hop _ => hl op hop) _) (run_eq l)
  intro t op t' ht hop hstep e he
  rw [Option.some.injEq] at hstep
  subst hstep
  cases t.state.session_step op with
  | tracked d hkey howner hcurrent htracked hhanded hsessions hendpoints hwebviews =>
      simp only [step, hsessions] at he
      rcases AList.mem_entries_insert.mp he with rfl | ⟨he, -⟩
      · simpa only [OwnershipOp.kind_matches, hkey, howner] using hop
      · exact ht e he
  | handed hrefused htracked hhanded hsessions =>
      simp only [step, hsessions, List.mem_filter] at he
      exact ht e he.1

/-- A captured owner stays known, and is stale once an operation has retired or
advanced it. -/
theorem stale_run {owner : DiscoveryOwner} {l : List OwnershipOp} {t : Trace}
    (h : Known t.state owner) (hl : ∃ op ∈ l, op.retires owner = true) :
    Stale (l.foldl step t).state owner := by
  have hkeep : ∀ (l : List OwnershipOp) (t : Trace), Stale t.state owner →
      Stale (l.foldl step t).state owner := by
    intro l
    induction l with
    | nil => exact fun t ht => ht
    | cons op l ih => exact fun t ht => ih (t.step op) (stale_step ht op)
  induction l generalizing t with
  | nil =>
      obtain ⟨op, hmem, -⟩ := hl
      cases hmem
  | cons op l ih =>
      by_cases hop : op.retires owner = true
      · exact hkeep l (t.step op) (retires_stale h hop)
      · refine ih (known_step h op) ?_
        obtain ⟨op', hmem, hret⟩ := hl
        rcases List.mem_cons.mp hmem with rfl | hmem
        · exact absurd hret hop
        · exact ⟨op', hmem, hret⟩

/-- The sessions that an operation is to hand out. -/
def due (s : OwnershipState) (op : OwnershipOp) : List TrackedDiscovery :=
  (s.sessions.entries.filter fun e => op.names e.1 e.2).map Sigma.snd

/-- **Ownership of discovery sessions.** In every state of a run that activates no
endpoint handle twice: every tracked session has a current owner; an owner that was
captured before one of its owners was retired or advanced tracks nothing any more;
every session that was tracked has been handed out once or is still tracked, for a
handle out of a `DiscoveryHandleMap` replaces none; and what an operation hands out
are the sessions it names, none of which stays. -/
theorem discovery_ownership {l : List OwnershipOp}
    (hl : (l.filterMap OwnershipOp.activates).Nodup) :
    (∀ e ∈ (run l).state.sessions.entries, e.1 = (e.2.kind, e.2.handle) ∧
      owner_is_current (run l).state e.2.owner = true) ∧
    ((∀ op ∈ l, op.kind_matches = true) → ∀ e ∈ (run l).state.sessions.entries,
      kind_matches_owner e.2.kind e.2.owner = true) ∧
    (∀ l₁ op l₂ owner, l = l₁ ++ op :: l₂ →
      ((run l₁).state.perform op).1.captured = some owner →
      (∃ op' ∈ l₂, op'.retires owner = true) →
      ∀ op', op'.track_owner = some owner → ((run l).state.perform op').1.tracked = none ∧
        ((run l).state.perform op').2.sessions.entries = (run l).state.sessions.entries) ∧
    (run l).tracked.Perm
      ((run l).handed ++ ((run l).state.sessions.values ++ (run l).replaced)) ∧
    ((∀ kind, ∃ n, (handles l kind).Subperm (DiscoveryHandleMap.issue {} n)) →
      (run l).replaced = []) ∧
    (∀ op, ((run l).state.perform op).1.handed = due (run l).state op ∧
      due ((run l).state.perform op).2 op = []) := by
  have hown := owned_run hl
  refine ⟨fun e he => ⟨hown.key e he, hown.current e he⟩, kinds_run, ?_, hown.conserved,
    fun hissued => replaced_run hl (keys_nodup_of_issued hissued), ?_⟩
  · intro l₁ op l₂ owner hsplit hcap hret op' htrack
    have hknown : Known ((run l₁).step op).state owner := captured_known hcap
    have hstale : Stale (run l).state owner := by
      rw [hsplit, run_append, List.foldl_cons]
      exact stale_run hknown hret
    cases (run l).state.session_step op' with
    | tracked d hkey howner hcurrent htracked hhanded hsessions hendpoints hwebviews =>
        rw [htrack, Option.some.injEq] at howner
        rw [← howner, hstale.not_current] at hcurrent
        cases hcurrent
    | handed hrefused htracked hhanded hsessions =>
        refine ⟨htracked, ?_⟩
        rw [hsessions, List.filter_eq_self.mpr]
        intro e _
        cases op' with
        | track_peer token kind handle => rfl
        | track_generic token kind handle => rfl
        | track lease kind handle => rfl
        | _ => cases htrack
  · intro op
    cases (run l).state.session_step op with
    | tracked d hkey howner hcurrent htracked hhanded hsessions hendpoints hwebviews =>
        -- tracking names no session
        have hnone : ∀ s : OwnershipState, due s op = [] := by
          intro s
          rw [due, List.filter_eq_nil_iff.mpr, List.map_nil]
          intro e _
          cases op with
          | track_peer token kind handle => exact Bool.false_ne_true
          | track_generic token kind handle => exact Bool.false_ne_true
          | track lease kind handle => exact Bool.false_ne_true
          | _ => cases hkey
        rw [hnone, hnone]
        exact ⟨hhanded, rfl⟩
    | handed hrefused htracked hhanded hsessions =>
        refine ⟨hhanded, ?_⟩
        rw [due, hsessions, List.filter_filter, List.filter_eq_nil_iff.mpr, List.map_nil]
        intro e _
        simp only [Bool.and_not_self, Bool.false_eq_true, not_false_eq_true]

/-- A page is advanced while a start of the old page is under way: its session is
handed out to the advance, and its late start is refused. -/
theorem discovery_ownership_advanced :
    let old : WebviewOwnerToken := ⟨"main", 1⟩
    let l : List OwnershipOp := [.advance_webview "main", .begin_webview "main",
      .track_generic old .GenericBrowse 3, .activate_endpoint 10, .begin_peer 10 "main",
      .advance_webview "main"]
    (run l).handed = [⟨.GenericBrowse, 3, old.owner⟩] ∧
      ((run l).state.perform (.track_generic old .GenericBrowse 5)).1.tracked = none := by
  intro old l
  obtain ⟨-, -, hlate, hperm, -, -⟩ := discovery_ownership (l := l) (by decide)
  refine ⟨?_, ?_⟩
  · have hnone : (run l).state.sessions.values ++ (run l).replaced = [] := rfl
    rw [hnone, List.append_nil] at hperm
    exact List.perm_singleton.mp hperm.symm
  · exact (hlate [.advance_webview "main"] (.begin_webview "main") _ old.owner rfl rfl
      ⟨.advance_webview "main", by simp, rfl⟩ _ rfl).1

end Trace

end IrohHttp.DiscoveryOwnership
