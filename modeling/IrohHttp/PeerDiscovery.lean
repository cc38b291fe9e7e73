/-
Peer events of a browse session, `iroh-http-discovery/src/lib.rs`.

A browse session turns DNS-SD records into contributions of its address-lookup
source (`SourceLookup.lean`) and into the events its caller folds: an active event
sets a node's addresses, an inactive one deletes the node. One record may give
two events, and `next_event` keeps the second for the next call.

The lookup is shared with other sources, whose operations come in between. The
session is open throughout: its source is not retired.
-/
import IrohHttp.SourceLookup

set_option autoImplicit false

open Machine

namespace IrohHttp.Discovery

variable {Id U : Type} [DecidableEq Id] [LinearOrder (TransportAddr U)]

/-! ## Records -/

/-- `service_type`, `host` and `port` are not read here. -/
structure ServiceRecord where
  is_active : Bool
  instance_name : String
  addrs : List SocketAddr
  txt : List (String × String)
  deriving DecidableEq, Repr

/-- An event of the peer browse. -/
structure PeerDiscoveryEvent where
  is_active : Bool
  node_id : String
  addrs : List String
  deriving DecidableEq, Repr

/-- The key of the node id. -/
def TXT_PK : String := "pk"

/-- The key of the relay. -/
def TXT_RELAY : String := "relay"

/-- The key of the direct addresses. -/
def TXT_ADDRESS : String := "address"

/-- The first TXT property with the key. -/
def ServiceRecord.txt_value (rec : ServiceRecord) (key : String) : Option String :=
  (rec.txt.find? fun p => p.1 = key).map Prod.snd

/-- `(segments()[0] & 0xffc0) == 0xfe80`. -/
def is_unicast_link_local (ip : ℕ) : Bool := (ip / 2 ^ 112) &&& 0xffc0 == 0xfe80

/-- `same_scoped_host`: the interface counts for link-local addresses only. -/
def same_scoped_host : SocketAddr → SocketAddr → Bool
  | .v4 left _, .v4 right _ => left == right
  | .v6 left _ _ left_scope, .v6 right _ _ right_scope =>
    left == right && (!is_unicast_link_local left || left_scope == right_scope)
  | _, _ => false

/-- A link-local IPv6 literal without the interface it is on. -/
def is_ambiguous : SocketAddr → Bool
  | .v6 ip _ _ scope_id => is_unicast_link_local ip && scope_id == 0
  | .v4 _ _ => false

/-- The candidates of the `address` TXT property: real ports, unambiguous, each
once. -/
def txt_addrs (fmt : AddressFormats Id U) (addresses : String) : List SocketAddr :=
  (addresses.toList.splitOn ',').foldl (fun found address =>
    match fmt.parse_socket_addr (trim (String.ofList address)) with
    | none => found
    | some address =>
      -- the same test of the port as in `endpoint_data`
      if address.port ≤ 1 then found
      else if is_ambiguous address then found
      else if address ∈ found then found
      else found ++ [address]) []

/-- The addresses of an active record. A resolved address gives way to a TXT
candidate on the same host with another port. -/
def record_addrs (fmt : AddressFormats Id U) (rec : ServiceRecord) : List String :=
  let authoritative := ((rec.txt_value TXT_ADDRESS).map (txt_addrs fmt)).getD []
  let resolved := ((rec.addrs.filter fun srv => 1 < srv.port).filter fun srv =>
    !authoritative.any fun a => same_scoped_host a srv && a.port != srv.port).map
      fmt.socket_addr_to_string
  -- by their text, so that a resolved address is not repeated
  let direct := authoritative.foldl (fun addrs a =>
    if fmt.socket_addr_to_string a ∈ addrs then addrs
    else addrs ++ [fmt.socket_addr_to_string a]) resolved
  direct ++ (rec.txt_value TXT_RELAY).toList

/-- `peer_event_from_record` -/
def peer_event_from_record (fmt : AddressFormats Id U) (rec : ServiceRecord) :
    Option PeerDiscoveryEvent :=
  let node_id := ((rec.txt_value TXT_PK).filter (· ≠ "")).or
    (if rec.instance_name = "" then none else some rec.instance_name)
  node_id.map fun node_id =>
    if rec.is_active then ⟨true, node_id, record_addrs fmt rec⟩ else ⟨false, node_id, []⟩

/-! ## The session -/

/-- The event of a contribution that is gone. -/
def from_removal (removal : AddressLookupRemoval) : PeerDiscoveryEvent where
  is_active := removal.has_remaining_contributions
  node_id := removal.node_id
  addrs := removal.remaining_addrs

/-- `apply_peer_record`, with the state it leaves. -/
def apply_peer_record (fmt : AddressFormats Id U) (st : LookupState Id U) (source_id : ℕ)
    (retired : Bool) (record : ServiceRecord) : List PeerDiscoveryEvent × LookupState Id U :=
  match peer_event_from_record fmt record with
  | none => ([], st)
  | some event =>
    if event.is_active then
      match st.upsert fmt source_id retired record.instance_name event.node_id event.addrs with
      | (.ok update, st) =>
        ((update.replaced.map from_removal).toList ++
          [{ event with node_id := update.node_id, addrs := update.effective_addrs }], st)
      -- the error itself is only logged; what it retracted is reported
      | (.error error, st) => ((error.removal.map from_removal).toList, st)
    else
      let r := st.remove_with_snapshot fmt source_id retired record.instance_name
      ((r.1.map from_removal).toList, r.2)

/-- `returned` has what the calls of `next_event` have returned so far. -/
structure BrowseSession (Id U : Type) where
  lookup : LookupState Id U
  pending : List PeerDiscoveryEvent
  returned : List PeerDiscoveryEvent

/-- What another source may do to the lookup. -/
inductive OtherStep
  | new_source
  | upsert (source_id : ℕ) (retired : Bool) (instance_name node_id : String) (addrs : List String)
  | remove (source_id : ℕ) (retired : Bool) (instance_name : String)
  | sweep (source_id : ℕ)
  deriving DecidableEq, Repr

/-- `pop` is a call of `next_event` that finds an event pending, `record` one that
finds none and receives a record; calls take turns. -/
inductive BrowseStep
  | pop
  | record (record : ServiceRecord)
  | other (op : OtherStep)
  deriving DecidableEq, Repr

/-- An operation of a source other than `own`. -/
def LookupState.other (fmt : AddressFormats Id U) (own : ℕ) (st : LookupState Id U) :
    OtherStep → Option (LookupState Id U)
  | .new_source => some { st with next_source_id := st.next_source_id + 1 }
  | .upsert source_id retired instance_name node_id addrs =>
    if source_id = own then none
    else some (st.upsert fmt source_id retired instance_name node_id addrs).2
  | .remove source_id retired instance_name =>
    if source_id = own then none
    else some (st.remove_with_snapshot fmt source_id retired instance_name).2
  | .sweep source_id => if source_id = own then none else some (st.sweep_source source_id)

namespace BrowseSession

/-- One step of the browse, `none` where it is not enabled. -/
def step (fmt : AddressFormats Id U) (own : ℕ) (s : BrowseSession Id U) :
    BrowseStep → Option (BrowseSession Id U)
  | .pop =>
    match s.pending with
    | [] => none
    | event :: rest => some { s with pending := rest, returned := s.returned ++ [event] }
  | .record record =>
    match s.pending with
    | _ :: _ => none
    | [] =>
      let r := apply_peer_record fmt s.lookup own false record
      match r.1 with
      -- nothing to report: the call goes on to the next record
      | [] => some { s with lookup := r.2 }
      | event :: rest =>
        some { lookup := r.2, pending := rest, returned := s.returned ++ [event] }
  | .other op => (s.lookup.other fmt own op).map fun st => { s with lookup := st }

end BrowseSession

/-! ## What the events stand for -/

/-- The caller's map, from node ids to addresses. -/
def apply_event (m : String → Option (List String)) (e : PeerDiscoveryEvent) :
    String → Option (List String) :=
  Function.update m e.node_id (if e.is_active then some e.addrs else none)

/-- The fold of a list of events, from nothing. -/
def replay (events : List PeerDiscoveryEvent) : String → Option (List String) :=
  events.foldl apply_event fun _ => none

/-- What a source says of an endpoint, by what it has for each instance: nothing
where no instance names the endpoint, and otherwise the texts of the addresses that
any of those instances has, each address once and in their order. -/
structure Says (fmt : AddressFormats Id U) (instances : String → Option (Contribution Id U)) (id : Id)
    (told : Option (List String)) : Prop where
  nothing : told = none ↔ ∀ instance_name c, instances instance_name = some c → c.endpoint_id ≠ id
  addresses : ∀ addrs, told = some addrs → ∃ l : List (TransportAddr U), l.SortedLT ∧
    (∀ a, a ∈ l ↔ ∃ instance_name c, instances instance_name = some c ∧ c.endpoint_id = id ∧
      a ∈ c.data) ∧ addrs = l.map (TransportAddr.wire fmt)

omit [DecidableEq Id] in
/-- An endpoint with one address is told as that address. -/
theorem Says.eq_singleton {fmt : AddressFormats Id U} {instances : String → Option (Contribution Id U)}
    {id : Id} {told : Option (List String)} (h : Says fmt instances id told) {name : String}
    {c : Contribution Id U} (hget : instances name = some c) (hid : c.endpoint_id = id)
    {addr : TransportAddr U}
    (hdata : ∀ name c, instances name = some c → c.endpoint_id = id → c.data = {addr}) :
    told = some [addr.wire fmt] := by
  cases htold : told with
  | none => exact absurd hid (h.nothing.mp htold name c hget)
  | some addrs =>
      obtain ⟨l, hsorted, hmem, rfl⟩ := h.addresses addrs htold
      have hone : ∀ a, a ∈ l ↔ a = addr := by
        intro a
        rw [hmem]
        constructor
        · rintro ⟨name', c', hget', hid', ha⟩
          rw [hdata name' c' hget' hid', Finset.mem_singleton] at ha
          exact ha
        · rintro rfl
          exact ⟨name, c, hget, hid, (hdata name c hget hid) ▸ Finset.mem_singleton_self a⟩
      have hperm : l.Perm [addr] :=
        (List.perm_ext_iff_of_nodup hsorted.nodup (List.nodup_singleton addr)).mpr fun a => by
          rw [hone, List.mem_singleton]
      rw [List.perm_singleton.mp hperm]
      rfl

/-- A map from node ids to addresses says of every endpoint what the source says of
it, and has no other node. -/
structure Replicates (fmt : AddressFormats Id U) (instances : String → Option (Contribution Id U))
    (m : String → Option (List String)) : Prop where
  node : ∀ id, Says fmt instances id (m (fmt.node_id id))
  only : ∀ node, (∀ id, fmt.node_id id ≠ node) → m node = none

/-- The contribution of a record: of an active one with a well-formed node id. -/
def contribution_of (fmt : AddressFormats Id U) (record : ServiceRecord) :
    Option (Contribution Id U) :=
  match peer_event_from_record fmt record with
  | some ⟨true, node_id, addrs⟩ =>
    match fmt.parse_endpoint_id node_id with
    | .ok id => some ⟨id, fmt.node_id id, endpoint_data fmt addrs⟩
    | .error _ => none
  | _ => none

/-- What a list of records leaves: for each instance what its last one says. -/
def live_contributions (fmt : AddressFormats Id U) (records : List ServiceRecord) :
    String → Option (Contribution Id U) :=
  records.foldl (fun instances record =>
    Function.update instances record.instance_name (contribution_of fmt record)) fun _ => none

/-- A map from node ids to addresses is a given map of the endpoints. -/
structure Represents (fmt : AddressFormats Id U) (v : Id → Option (List String))
    (m : String → Option (List String)) : Prop where
  node : ∀ id, m (fmt.node_id id) = v id
  only : ∀ node, (∀ id, fmt.node_id id ≠ node) → m node = none

omit [LinearOrder (TransportAddr U)] in
/-- An event sets or deletes one endpoint. -/
theorem Represents.apply_event {fmt : AddressFormats Id U} {v v' : Id → Option (List String)}
    {m : String → Option (List String)} (h : Represents fmt v m) (e : PeerDiscoveryEvent) {id : Id}
    (hnode : e.node_id = fmt.node_id id)
    (hv : Function.update v id (if e.is_active then some e.addrs else none) = v') :
    Represents fmt v' (Discovery.apply_event m e) := by
  subst hv
  unfold Discovery.apply_event
  rw [hnode]
  constructor
  · intro other
    by_cases hother : other = id
    · rw [hother, Function.update_self, Function.update_self]
    · have hne : fmt.node_id other ≠ fmt.node_id id := fun heq => hother (fmt.node_id_injective heq)
      rw [Function.update_of_ne hne, Function.update_of_ne hother, h.node other]
  · intro node hnone
    rw [Function.update_of_ne (hnone id).symm, h.only node hnone]

namespace LookupState

/-- A source has a contribution for an endpoint. -/
def contributes (st : LookupState Id U) (source_id : ℕ) (id : Id) : Bool :=
  st.contributions.any fun key c => key.1 = source_id ∧ c.endpoint_id = id

/-- What a source says of an endpoint: nothing, or the addresses of all of its
contributions for it, as text. -/
def view (fmt : AddressFormats Id U) (st : LookupState Id U) (source_id : ℕ) (id : Id) :
    Option (List String) :=
  if st.contributes source_id id then some (st.source_effective_addrs fmt source_id id) else none

/-- What a source has for each instance. -/
def instances (st : LookupState Id U) (source_id : ℕ) (instance_name : String) :
    Option (Contribution Id U) :=
  st.contributions.lookup (source_id, instance_name)

/-- The view is what the contributions say. -/
theorem says_view (fmt : AddressFormats Id U) (st : LookupState Id U) (source_id : ℕ) (id : Id) :
    Says fmt (st.instances source_id) id (st.view fmt source_id id) := by
  -- the source speaks of the endpoint where one of its instances does
  have hcontributes : st.contributes source_id id = true ↔
      ∃ instance_name c, st.instances source_id instance_name = some c ∧ c.endpoint_id = id := by
    rw [contributes, AList.any_eq_true_iff]
    constructor
    · rintro ⟨⟨⟨source, instance_name⟩, c⟩, hmem, hboth⟩
      obtain ⟨rfl, hid⟩ : source = source_id ∧ c.endpoint_id = id := by simpa using hboth
      exact ⟨instance_name, c, AList.lookup_eq_some_iff.mpr hmem, hid⟩
    · rintro ⟨instance_name, c, hget, hid⟩
      exact ⟨_, AList.lookup_eq_some_iff.mp hget, by simpa using hid⟩
  rw [view]
  split
  · next hany =>
    obtain ⟨name, c, hget, hid⟩ := hcontributes.mp hany
    refine ⟨⟨fun hsome => absurd hsome (Option.some_ne_none _), fun hno => absurd hid (hno name c hget)⟩,
      fun addrs haddrs => ?_⟩
    cases haddrs
    refine ⟨_, Finset.sortedLT_sort (st.source_union source_id id), fun a => ?_, rfl⟩
    rw [Finset.mem_sort, source_union, AList.mem_gather]
    constructor
    · rintro ⟨⟨⟨source, instance_name⟩, c⟩, hmem, hboth, ha⟩
      obtain ⟨rfl, hid⟩ : source = source_id ∧ c.endpoint_id = id := by simpa using hboth
      exact ⟨instance_name, c, AList.lookup_eq_some_iff.mpr hmem, hid, ha⟩
    · rintro ⟨instance_name, c, hget, hid, ha⟩
      exact ⟨_, AList.lookup_eq_some_iff.mp hget, by simpa using hid, ha⟩
  · next hnone =>
    refine ⟨⟨fun _ name c hget hid => hnone (hcontributes.mpr ⟨name, c, hget, hid⟩),
      fun _ => rfl⟩, fun _ hnone => absurd hnone.symm (Option.some_ne_none _)⟩

/-- A source's contributions carry the node id of their endpoint. -/
def Named (fmt : AddressFormats Id U) (source_id : ℕ) (st : LookupState Id U) : Prop :=
  ∀ e ∈ st.contributions.entries, e.1.1 = source_id →
    e.2.node_id = fmt.node_id e.2.endpoint_id

/-- Two states have the same contributions of a source for an endpoint. -/
def SameFor (source_id : ℕ) (id : Id) (st st' : LookupState Id U) : Prop :=
  ∀ e : Σ _ : ℕ × String, Contribution Id U, e.1.1 = source_id → e.2.endpoint_id = id →
    (e ∈ st.contributions.entries ↔ e ∈ st'.contributions.entries)

/-- The union of a source's contributions is read off them. -/
theorem SameFor.union_eq {source_id : ℕ} {id : Id} {st st' : LookupState Id U}
    (h : SameFor source_id id st st') :
    st.source_union source_id id = st'.source_union source_id id := by
  refine AList.gather_congr fun e he => ?_
  have hboth : e.1.1 = source_id ∧ e.2.endpoint_id = id := by simpa using he
  exact h e hboth.1 hboth.2

omit [LinearOrder (TransportAddr U)] in
theorem SameFor.contributes_eq {source_id : ℕ} {id : Id} {st st' : LookupState Id U}
    (h : SameFor source_id id st st') :
    st.contributes source_id id = st'.contributes source_id id := by
  refine AList.any_congr fun e he => ?_
  have hboth : e.1.1 = source_id ∧ e.2.endpoint_id = id := by simpa using he
  exact h e hboth.1 hboth.2

/-- The view is read off the contributions of the source. -/
theorem SameFor.view_eq {fmt : AddressFormats Id U} {source_id : ℕ} {id : Id}
    {st st' : LookupState Id U} (h : SameFor source_id id st st') :
    st.view fmt source_id id = st'.view fmt source_id id := by
  rw [view, view, source_effective_addrs, source_effective_addrs, h.contributes_eq, h.union_eq]

/-- The event of a removal says the view it left. -/
theorem from_removal_view (fmt : AddressFormats Id U) (st : LookupState Id U) (source_id : ℕ) (id : Id)
    (node : String) :
    (if (from_removal (st.removal_snapshot fmt source_id id node)).is_active then
      some (from_removal (st.removal_snapshot fmt source_id id node)).addrs else none) =
      st.view fmt source_id id :=
  rfl

/-- The view of one endpoint has changed, and the rest has not. -/
theorem update_view_eq {fmt : AddressFormats Id U} {source_id : ℕ} {st st' : LookupState Id U} {id : Id}
    (hsame : ∀ other, other ≠ id → st'.view fmt source_id other = st.view fmt source_id other) :
    Function.update (st.view fmt source_id) id (st'.view fmt source_id id) =
      st'.view fmt source_id := by
  funext other
  by_cases hother : other = id
  · rw [hother, Function.update_self]
  · rw [Function.update_of_ne hother, hsame other hother]

/-! ## One record -/

/-- Removing an instance's contribution retracts it, or reports what is left. -/
theorem represents_remove_contribution {fmt : AddressFormats Id U} {source_id : ℕ}
    {st : LookupState Id U} {m : String → Option (List String)}
    (h : Represents fmt (st.view fmt source_id) m) (hn : Named fmt source_id st)
    (instance_name : String) :
    Represents fmt ((st.remove_contribution fmt (source_id, instance_name)).2.view fmt source_id)
      ((((st.remove_contribution fmt (source_id, instance_name)).1.map from_removal).toList).foldl
        Discovery.apply_event m) := by
  unfold remove_contribution
  split
  · exact h
  · next c hc =>
    have hmem := AList.lookup_eq_some_iff.mp hc
    -- the removal's own node id, which `Named` says is that of the endpoint
    refine h.apply_event _ (hn _ hmem rfl) (update_view_eq fun other hne => ?_)
    refine (SameFor.view_eq fun e _ he => ?_).symm
    exact sameAt_erase hmem hne e he

/-- A removal leaves every contribution where it was. -/
theorem named_remove_contribution {fmt : AddressFormats Id U} {source_id : ℕ} {st : LookupState Id U}
    (hn : Named fmt source_id st) (key : ℕ × String) :
    Named fmt source_id (st.remove_contribution fmt key).2 :=
  fun e he => hn e (entries_remove_contribution he)

/-- **What a valid `upsert` returns**, in terms of the state it leaves. -/
theorem upsert_ok {fmt : AddressFormats Id U} (st : LookupState Id U) (source_id : ℕ)
    (instance_name : String) {node_id : String} (addrs : List String) {id : Id}
    (hid : fmt.parse_endpoint_id node_id = .ok id) :
    ∃ st', st.upsert fmt source_id false instance_name node_id addrs =
        (.ok {
          node_id := fmt.node_id id
          effective_addrs := st'.source_effective_addrs fmt source_id id
          replaced := ((st.contributions.lookup (source_id, instance_name)).filter
            fun old => old.endpoint_id ≠ id).map fun old =>
              st'.removal_snapshot fmt source_id old.endpoint_id old.node_id }, st') ∧
      st'.contributions = st.contributions.insert (source_id, instance_name)
        ⟨id, fmt.node_id id, endpoint_data fmt addrs⟩ := by
  refine ⟨(st.upsert fmt source_id false instance_name node_id addrs).2, ?_,
    contributions_upsert_ok hid⟩
  simp only [upsert, hid]
  rfl

/-- A source that has just inserted for an endpoint contributes for it. -/
theorem view_of_insert {fmt : AddressFormats Id U} {st st' : LookupState Id U} {source_id : ℕ}
    {instance_name : String} {c : Contribution Id U}
    (hst' : st'.contributions = st.contributions.insert (source_id, instance_name) c) :
    st'.view fmt source_id c.endpoint_id =
      some (st'.source_effective_addrs fmt source_id c.endpoint_id) := by
  have hany : st'.contributes source_id c.endpoint_id = true := by
    refine AList.any_eq_true_iff.mpr ⟨⟨(source_id, instance_name), c⟩, ?_, by simp⟩
    rw [hst']
    exact AList.mem_entries_insert.mpr (.inl rfl)
  rw [view, if_pos hany]

/-- An active record: the replaced endpoint is reported first, then the new one. -/
theorem represents_upsert_ok {fmt : AddressFormats Id U} {source_id : ℕ} {st st' : LookupState Id U}
    {m : String → Option (List String)} (h : Represents fmt (st.view fmt source_id) m)
    (hn : Named fmt source_id st) {instance_name : String} {c : Contribution Id U}
    (hst' : st'.contributions = st.contributions.insert (source_id, instance_name) c) :
    Represents fmt (st'.view fmt source_id)
      ((((((st.contributions.lookup (source_id, instance_name)).filter
        fun old => old.endpoint_id ≠ c.endpoint_id).map fun old =>
          st'.removal_snapshot fmt source_id old.endpoint_id old.node_id).map from_removal).toList ++
        [(⟨true, fmt.node_id c.endpoint_id,
          st'.source_effective_addrs fmt source_id c.endpoint_id⟩ : PeerDiscoveryEvent)]).foldl
          Discovery.apply_event m) := by
  have hsame : ∀ other, other ≠ c.endpoint_id →
      (∀ old, st.contributions.lookup (source_id, instance_name) = some old →
        other ≠ old.endpoint_id) →
      st'.view fmt source_id other = st.view fmt source_id other := by
    intro other hnew hold
    refine (SameFor.view_eq fun e _ he => ?_).symm
    rw [hst']
    exact sameAt_insert hnew hold e he
  have hnew : st'.view fmt source_id c.endpoint_id =
      some (st'.source_effective_addrs fmt source_id c.endpoint_id) := view_of_insert hst'
  rw [List.foldl_append]
  cases hold : (st.contributions.lookup (source_id, instance_name)).filter
      fun old => old.endpoint_id ≠ c.endpoint_id with
  | none =>
      -- nothing replaced, or the same endpoint again
      refine h.apply_event _ rfl ?_
      rw [if_pos rfl, ← hnew]
      refine update_view_eq fun other hne => hsame other hne fun old hget => ?_
      rw [hget, Option.filter_some] at hold
      split at hold
      · cases hold
      · next hid =>
        have heq : old.endpoint_id = c.endpoint_id := by simpa using hid
        rw [heq]
        exact hne
  | some old =>
      obtain ⟨hget, hid⟩ := Option.filter_eq_some_iff.mp hold
      have hmem := AList.lookup_eq_some_iff.mp hget
      -- the order of the two events matters only where they name one node, and they do not
      refine (h.apply_event (from_removal
        (st'.removal_snapshot fmt source_id old.endpoint_id old.node_id)) (hn _ hmem rfl)
          rfl).apply_event _ rfl (funext fun other => ?_)
      by_cases hc : other = c.endpoint_id
      · rw [hc, Function.update_self, hnew]
        rfl
      · rw [Function.update_of_ne hc]
        by_cases ho : other = old.endpoint_id
        · rw [ho, Function.update_self]
          exact from_removal_view fmt st' source_id old.endpoint_id old.node_id
        · rw [Function.update_of_ne ho, hsame other hc]
          intro old' hget'
          rw [hget, Option.some.injEq] at hget'
          exact hget' ▸ ho

/-- An upsert puts its contribution under the endpoint its node id names. -/
theorem named_upsert {fmt : AddressFormats Id U} {source_id : ℕ} {st : LookupState Id U}
    (hn : Named fmt source_id st) (instance_name node_id : String) (addrs : List String) :
    Named fmt source_id (st.upsert fmt source_id false instance_name node_id addrs).2 := by
  cases hid : fmt.parse_endpoint_id node_id with
  | error message =>
      simp only [upsert, hid]
      exact named_remove_contribution hn _
  | ok id =>
      intro e he
      rw [contributions_upsert_ok hid, AList.mem_entries_insert] at he
      rcases he with rfl | ⟨hold, -⟩
      · exact fun _ => rfl
      · exact hn e hold

end LookupState

omit [DecidableEq Id] [LinearOrder (TransportAddr U)] in
/-- A record with an instance name has a node id. -/
theorem peer_event_of_named (fmt : AddressFormats Id U) {rec : ServiceRecord}
    (h : rec.instance_name ≠ "") :
    ∃ event, peer_event_from_record fmt rec = some event ∧ event.is_active = rec.is_active := by
  have hsome : ∃ node_id, ((rec.txt_value TXT_PK).filter (· ≠ "")).or
      (if rec.instance_name = "" then none else some rec.instance_name) = some node_id := by
    rw [if_neg h]
    cases (rec.txt_value TXT_PK).filter (· ≠ "") with
    | none => exact ⟨_, rfl⟩
    | some node_id => exact ⟨_, rfl⟩
  obtain ⟨node_id, hnode⟩ := hsome
  refine ⟨_, by rw [peer_event_from_record, hnode]; rfl, ?_⟩
  split
  · next hactive => exact hactive.symm
  · next hactive => exact (Bool.eq_false_iff.mpr hactive).symm

/-- **One record.** Its events take the view before it to the view after it. -/
theorem represents_apply_peer_record {fmt : AddressFormats Id U} {source_id : ℕ}
    {st : LookupState Id U} {m : String → Option (List String)}
    (h : Represents fmt (st.view fmt source_id) m) (hn : st.Named fmt source_id)
    {record : ServiceRecord} (hname : record.instance_name ≠ "") :
    Represents fmt ((apply_peer_record fmt st source_id false record).2.view fmt source_id)
        ((apply_peer_record fmt st source_id false record).1.foldl apply_event m) ∧
      (apply_peer_record fmt st source_id false record).2.Named fmt source_id := by
  obtain ⟨event, hevent, -⟩ := peer_event_of_named fmt hname
  simp only [apply_peer_record, hevent]
  by_cases hactive : event.is_active = true
  · rw [if_pos hactive]
    have hnamed := LookupState.named_upsert hn record.instance_name event.node_id event.addrs
    cases hid : fmt.parse_endpoint_id event.node_id with
    | error message =>
        simp only [LookupState.upsert, hid]
        exact ⟨LookupState.represents_remove_contribution h hn _,
          LookupState.named_remove_contribution hn _⟩
    | ok id =>
        obtain ⟨st', heq, hst'⟩ :=
          LookupState.upsert_ok st source_id record.instance_name event.addrs hid
        rw [heq] at hnamed ⊢
        refine ⟨?_, hnamed⟩
        rw [hactive]
        exact LookupState.represents_upsert_ok h hn hst'
  · rw [if_neg hactive]
    exact ⟨LookupState.represents_remove_contribution h hn _,
      LookupState.named_remove_contribution hn _⟩

/-- A removal takes the instance's contribution and no other. -/
theorem LookupState.instances_remove_contribution (fmt : AddressFormats Id U) (st : LookupState Id U)
    (source_id : ℕ) (instance_name : String) :
    (st.remove_contribution fmt (source_id, instance_name)).2.instances source_id =
      Function.update (st.instances source_id) instance_name none := by
  unfold remove_contribution
  split
  · next hnone => exact (Function.update_eq_self_iff.mpr hnone.symm).symm
  · funext other
    refine (AList.lookup_erase_eq_ite st.contributions (source_id, instance_name) _).trans ?_
    by_cases hother : other = instance_name
    · rw [hother, if_pos rfl, Function.update_self]
    · rw [if_neg (fun heq => hother (Prod.mk.inj heq).2), Function.update_of_ne hother]
      rfl

/-- **One record sets one instance**, to what the record says. -/
theorem instances_apply_peer_record (fmt : AddressFormats Id U) (st : LookupState Id U)
    (source_id : ℕ) {record : ServiceRecord} (hname : record.instance_name ≠ "") :
    (apply_peer_record fmt st source_id false record).2.instances source_id =
      Function.update (st.instances source_id) record.instance_name (contribution_of fmt record) := by
  obtain ⟨⟨is_active, node_id, addrs⟩, hevent, -⟩ := peer_event_of_named fmt hname
  have hremoved := st.instances_remove_contribution fmt source_id record.instance_name
  simp only [apply_peer_record, contribution_of, hevent]
  cases is_active with
  | false => exact hremoved
  | true =>
      rw [if_pos rfl]
      cases hid : fmt.parse_endpoint_id node_id with
      | error message =>
          simp only [LookupState.upsert, hid]
          exact hremoved
      | ok id =>
          obtain ⟨st', heq, hst'⟩ :=
            LookupState.upsert_ok st source_id record.instance_name addrs hid
          rw [heq]
          funext other
          show st'.contributions.lookup (source_id, other) = _
          rw [hst', AList.lookup_insert_eq_ite]
          by_cases hother : other = record.instance_name
          · simp only [hother, if_true, Function.update_self, hid]
          · rw [if_neg (fun heq => hother (Prod.mk.inj heq).2), Function.update_of_ne hother]
            rfl

/-! ## Other sources -/

namespace LookupState

/-- Two states have the same contributions of a source. -/
def SameSource (source_id : ℕ) (st st' : LookupState Id U) : Prop :=
  ∀ e : Σ _ : ℕ × String, Contribution Id U, e.1.1 = source_id →
    (e ∈ st.contributions.entries ↔ e ∈ st'.contributions.entries)

omit [DecidableEq Id] [LinearOrder (TransportAddr U)] in
theorem SameSource.sameFor {source_id : ℕ} {st st' : LookupState Id U}
    (h : SameSource source_id st st') (id : Id) : SameFor source_id id st st' :=
  fun e he _ => h e he

omit [DecidableEq Id] [LinearOrder (TransportAddr U)] in
theorem SameSource.trans {source_id : ℕ} {st st' st'' : LookupState Id U}
    (h : SameSource source_id st st') (h' : SameSource source_id st' st'') :
    SameSource source_id st st'' :=
  fun e he => (h e he).trans (h' e he)

omit [DecidableEq Id] [LinearOrder (TransportAddr U)] in
theorem SameSource.symm {source_id : ℕ} {st st' : LookupState Id U}
    (h : SameSource source_id st st') : SameSource source_id st' st :=
  fun e he => (h e he).symm

/-- The removal of another source's instance is not seen by this one. -/
theorem sameSource_remove_contribution (fmt : AddressFormats Id U) {own source_id : ℕ}
    (hne : source_id ≠ own) (st : LookupState Id U) (instance_name : String) :
    SameSource own st (st.remove_contribution fmt (source_id, instance_name)).2 := by
  intro e he
  unfold remove_contribution
  split
  · exact Iff.rfl
  · refine (AList.mem_entries_erase.trans (and_iff_left ?_)).symm
    intro hkey
    exact hne (by rw [← he, hkey])

/-- An operation of another source leaves this one's contributions alone. -/
theorem sameSource_other {fmt : AddressFormats Id U} {own : ℕ} {st st' : LookupState Id U}
    {op : OtherStep} (h : st.other fmt own op = some st') : SameSource own st st' := by
  cases op with
  | new_source =>
      cases h
      exact fun _ _ => Iff.rfl
  | upsert source_id retired instance_name node_id addrs =>
      simp only [other] at h
      split at h
      · cases h
      · next hne =>
        cases h
        cases retired with
        | true => exact fun _ _ => Iff.rfl
        | false =>
            cases hid : fmt.parse_endpoint_id node_id with
            | error message =>
                simp only [upsert, hid]
                exact sameSource_remove_contribution fmt hne st instance_name
            | ok id =>
                intro e he
                rw [contributions_upsert_ok hid, AList.mem_entries_insert]
                -- keys of different sources differ, even for one instance name
                have hkey : e.1 ≠ (source_id, instance_name) := by
                  intro hkey
                  exact hne (by rw [← he, hkey])
                refine ⟨fun hmem => .inr ⟨hmem, hkey⟩, ?_⟩
                rintro (rfl | ⟨hmem, -⟩)
                · exact absurd rfl hkey
                · exact hmem
  | remove source_id retired instance_name =>
      simp only [other] at h
      split at h
      · cases h
      · next hne =>
        cases h
        unfold remove_with_snapshot
        split
        · exact fun _ _ => Iff.rfl
        · exact sameSource_remove_contribution fmt hne st instance_name
  | sweep source_id =>
      simp only [other] at h
      split at h
      · cases h
      · next hne =>
        cases h
        intro e he
        rw [contributions_sweep_source, AList.mem_retain, decide_eq_true_iff]
        refine (and_iff_left ?_).symm
        rw [he]
        exact Ne.symm hne

omit [DecidableEq Id] [LinearOrder (TransportAddr U)] in
/-- What this source has for an instance, and what it says of an endpoint, are the
same in both. -/
theorem SameSource.lookup_eq {source_id : ℕ} {st st' : LookupState Id U}
    (h : SameSource source_id st st') (instance_name : String) :
    st.contributions.lookup (source_id, instance_name) =
      st'.contributions.lookup (source_id, instance_name) := by
  refine Option.ext fun c => ?_
  rw [AList.lookup_eq_some_iff, AList.lookup_eq_some_iff]
  exact h _ rfl

/-- A source's addresses depend on its own contributions alone. -/
theorem SameSource.addrs_eq {fmt : AddressFormats Id U} {source_id : ℕ} {st st' : LookupState Id U}
    (h : SameSource source_id st st') (id : Id) :
    st.source_effective_addrs fmt source_id id = st'.source_effective_addrs fmt source_id id := by
  rw [source_effective_addrs, source_effective_addrs, (h.sameFor id).union_eq]

/-- A removal's snapshot depends on the source's own contributions alone. -/
theorem SameSource.snapshot_eq {fmt : AddressFormats Id U} {source_id : ℕ} {st st' : LookupState Id U}
    (h : SameSource source_id st st') (id : Id) (node : String) :
    st.removal_snapshot fmt source_id id node = st'.removal_snapshot fmt source_id id node := by
  have hany := (h.sameFor id).contributes_eq
  rw [contributes, contributes] at hany
  rw [removal_snapshot, removal_snapshot, hany, h.addrs_eq]

/-- The same removal in two states that agree on this source. -/
theorem SameSource.remove_contribution (fmt : AddressFormats Id U) {source_id : ℕ}
    {st st' : LookupState Id U} (h : SameSource source_id st st') (instance_name : String) :
    (st.remove_contribution fmt (source_id, instance_name)).1 =
        (st'.remove_contribution fmt (source_id, instance_name)).1 ∧
      SameSource source_id (st.remove_contribution fmt (source_id, instance_name)).2
        (st'.remove_contribution fmt (source_id, instance_name)).2 := by
  unfold LookupState.remove_contribution
  rw [h.lookup_eq]
  cases st'.contributions.lookup (source_id, instance_name) with
  | none => exact ⟨rfl, h⟩
  | some c =>
      let key := (source_id, instance_name)
      have hleft : SameSource source_id
          ({ st with contributions := st.contributions.erase key }.recompute_endpoint c.endpoint_id)
          ({ st' with contributions := st'.contributions.erase key }.recompute_endpoint
            c.endpoint_id) := by
        intro e he
        exact AList.mem_entries_erase.trans ((and_congr_left fun _ => h e he).trans
          AList.mem_entries_erase.symm)
      exact ⟨congrArg some (hleft.snapshot_eq _ _), hleft⟩

omit [DecidableEq Id] [LinearOrder (TransportAddr U)] in
/-- The same insertion in two states that agree on this source. -/
theorem SameSource.insert {source_id : ℕ} {st st' u u' : LookupState Id U}
    (h : SameSource source_id st st') {key : ℕ × String} {c : Contribution Id U}
    (hu : u.contributions = st.contributions.insert key c)
    (hu' : u'.contributions = st'.contributions.insert key c) : SameSource source_id u u' := by
  intro e he
  rw [hu, hu', AList.mem_entries_insert, AList.mem_entries_insert, h e he]

end LookupState

/-- **Records are read source-locally.** In two states that agree on this source a
record gives the same events, and states that agree again. -/
theorem sameSource_apply_peer_record (fmt : AddressFormats Id U) {source_id : ℕ}
    {st st' : LookupState Id U} (h : LookupState.SameSource source_id st st')
    (record : ServiceRecord) :
    (apply_peer_record fmt st source_id false record).1 =
        (apply_peer_record fmt st' source_id false record).1 ∧
      LookupState.SameSource source_id (apply_peer_record fmt st source_id false record).2
        (apply_peer_record fmt st' source_id false record).2 := by
  unfold apply_peer_record
  cases peer_event_from_record fmt record with
  | none => exact ⟨rfl, h⟩
  | some event =>
      obtain ⟨hremoval, hremoved⟩ := h.remove_contribution fmt record.instance_name
      dsimp only
      by_cases hactive : event.is_active = true
      · rw [if_pos hactive, if_pos hactive]
        cases hid : fmt.parse_endpoint_id event.node_id with
        | error message =>
            simp only [LookupState.upsert, hid]
            exact ⟨congrArg (fun r => (Option.map from_removal r).toList) hremoval, hremoved⟩
        | ok id =>
            obtain ⟨u, heq, hu⟩ :=
              LookupState.upsert_ok st source_id record.instance_name event.addrs hid
            obtain ⟨u', heq', hu'⟩ :=
              LookupState.upsert_ok st' source_id record.instance_name event.addrs hid
            have hsame : LookupState.SameSource source_id u u' := h.insert hu hu'
            rw [heq, heq']
            refine ⟨?_, hsame⟩
            simp only [h.lookup_eq, hsame.addrs_eq, hsame.snapshot_eq]
      · rw [if_neg hactive, if_neg hactive]
        exact ⟨congrArg (fun r => (Option.map from_removal r).toList) hremoval, hremoved⟩

/-! ## Runs of a session -/

namespace BrowseSession

/-- A session on a source that has just been created. -/
def opened (st : LookupState Id U) : BrowseSession Id U := ⟨st, [], []⟩

/-- What a step does to the lookup and to the events that have come up, those
still pending among them: a record adds its own, the rest adds none. -/
theorem step_events {fmt : AddressFormats Id U} {own : ℕ} {s s' : BrowseSession Id U}
    {x : BrowseStep} (hstep : s.step fmt own x = some s') :
    (x = .pop ∧ s'.lookup = s.lookup ∧ s'.returned ++ s'.pending = s.returned ++ s.pending) ∨
    (∃ record, x = .record record ∧ s'.lookup = (apply_peer_record fmt s.lookup own false record).2 ∧
      s'.returned ++ s'.pending =
        s.returned ++ s.pending ++ (apply_peer_record fmt s.lookup own false record).1) ∨
    (∃ op, x = .other op ∧ s.lookup.other fmt own op = some s'.lookup ∧
      s'.returned ++ s'.pending = s.returned ++ s.pending) := by
  -- an event is returned at once, or waits: together they are in the order they were made
  cases x with
  | pop =>
      simp only [step] at hstep
      split at hstep
      · cases hstep
      · next event rest hpending =>
        cases hstep
        refine .inl ⟨rfl, rfl, ?_⟩
        rw [hpending, List.append_assoc, List.singleton_append]
  | record record =>
      refine .inr (.inl ⟨record, rfl, ?_⟩)
      simp only [step] at hstep
      split at hstep
      · cases hstep
      · next hpending =>
        rw [hpending]
        split at hstep
        · next hnone =>
          cases hstep
          exact ⟨rfl, by rw [hnone, hpending, List.append_nil, List.append_nil]⟩
        · next event rest hevents =>
          cases hstep
          exact ⟨rfl, by rw [hevents, List.append_nil, List.append_assoc, List.singleton_append]⟩
  | other op =>
      obtain ⟨st, hst, rfl⟩ := Option.map_eq_some_iff.mp hstep
      exact .inr (.inr ⟨op, rfl, hst, rfl⟩)

/-- The events that have come up stand for what the source says. -/
structure Inv (fmt : AddressFormats Id U) (own : ℕ) (s : BrowseSession Id U) : Prop where
  represents : Represents fmt (s.lookup.view fmt own) (replay (s.returned ++ s.pending))
  named : s.lookup.Named fmt own

theorem inv_opened {fmt : AddressFormats Id U} {own : ℕ} {st : LookupState Id U}
    (hst : ∀ e ∈ st.contributions.entries, e.1.1 ≠ own) : Inv fmt own (opened st) := by
  have hnone : ∀ id, st.view fmt own id = none := by
    intro id
    refine if_neg fun hany => ?_
    obtain ⟨e, he, hboth⟩ := AList.any_eq_true_iff.mp hany
    have hown : e.1.1 = own ∧ e.2.endpoint_id = id := by simpa using hboth
    exact hst e he hown.1
  refine ⟨⟨fun id => (hnone id).symm, fun _ _ => rfl⟩, fun e he hown => ?_⟩
  exact absurd hown (hst e he)

/-- A record that is received has an instance name. -/
def NamedRecord (_ : BrowseSession Id U) (x : BrowseStep) : Prop :=
  ∀ record, x = .record record → record.instance_name ≠ ""

theorem inv_step (fmt : AddressFormats Id U) (own : ℕ) (s : BrowseSession Id U) (x : BrowseStep)
    (s' : BrowseSession Id U) (h : Inv fmt own s) (hname : s.NamedRecord x)
    (hstep : s.step fmt own x = some s') : Inv fmt own s' := by
  obtain ⟨-, hlookup, hevents⟩ | ⟨record, hx, hlookup, hevents⟩ | ⟨op, -, hother, hevents⟩ :=
    step_events hstep
  · refine ⟨?_, ?_⟩
    · rw [hlookup, hevents]
      exact h.represents
    · rw [hlookup]
      exact h.named
  · obtain ⟨hrep, hnamed⟩ := represents_apply_peer_record h.represents h.named (hname record hx)
    refine ⟨?_, ?_⟩
    · rw [hlookup, hevents, replay, List.foldl_append]
      exact hrep
    · rw [hlookup]
      exact hnamed
  · have hsame := LookupState.sameSource_other hother
    refine ⟨?_, fun e he hown => h.named e ((hsame e hown).mpr he) hown⟩
    have hview : s'.lookup.view fmt own = s.lookup.view fmt own :=
      funext fun id => (hsame.sameFor id).view_eq.symm
    rw [hview, hevents]
    exact h.represents

/-- The records of a schedule. -/
def records (l : List BrowseStep) : List ServiceRecord :=
  l.filterMap fun
    | .record record => some record
    | _ => none

/-- The events of a list of records, in a lookup that is used for nothing else. -/
def feed (fmt : AddressFormats Id U) (own : ℕ) (st : LookupState Id U) :
    List ServiceRecord → List PeerDiscoveryEvent
  | [] => []
  | record :: rest =>
    let r := apply_peer_record fmt st own false record
    r.1 ++ feed fmt own r.2 rest

/-- **The events are the source's own.** Whatever the other sources do, and however
the calls of `next_event` fall, those that have come up are the ones the records
alone give. -/
theorem events_eq_feed {fmt : AddressFormats Id U} {own : ℕ} {l : List BrowseStep}
    {s s' : BrowseSession Id U} {st : LookupState Id U}
    (hsame : LookupState.SameSource own s.lookup st) (hrun : run (step fmt own) s l = some s') :
    s'.returned ++ s'.pending = s.returned ++ s.pending ++ feed fmt own st (records l) := by
  induction l generalizing s st with
  | nil =>
      rw [run_nil, Option.some.injEq] at hrun
      rw [← hrun, records, List.filterMap_nil, feed, List.append_nil]
  | cons x l ih =>
      -- the lookup that is fed alone moves with the records and stays put otherwise
      obtain ⟨s₁, hs₁, hrest⟩ := run_cons_eq_some.mp hrun
      obtain ⟨rfl, hlookup, hevents⟩ | ⟨record, rfl, hlookup, hevents⟩ | ⟨op, rfl, hother, hevents⟩ :=
        step_events hs₁
      · rw [ih (hlookup ▸ hsame) hrest, hevents]
        rfl
      · obtain ⟨heq, hsame'⟩ := sameSource_apply_peer_record fmt hsame record
        rw [ih (hlookup ▸ hsame') hrest, hevents, heq, List.append_assoc]
        rfl
      · rw [ih ((LookupState.sameSource_other hother).symm.trans hsame) hrest, hevents]
        rfl

/-- A source has what the records say, each the last of its instance. -/
theorem instances_follow {fmt : AddressFormats Id U} {own : ℕ} {l : List BrowseStep}
    (hl : ∀ record, BrowseStep.record record ∈ l → record.instance_name ≠ "")
    {s s' : BrowseSession Id U} (hrun : run (step fmt own) s l = some s') :
    s'.lookup.instances own = (records l).foldl (fun instances record =>
      Function.update instances record.instance_name (contribution_of fmt record))
        (s.lookup.instances own) := by
  induction l generalizing s with
  | nil =>
      rw [run_nil, Option.some.injEq] at hrun
      rw [← hrun]
      rfl
  | cons x l ih =>
      have hrest' : ∀ record, BrowseStep.record record ∈ l → record.instance_name ≠ "" :=
        fun record hmem => hl record (List.mem_cons_of_mem x hmem)
      obtain ⟨s₁, hs₁, hrest⟩ := run_cons_eq_some.mp hrun
      rw [ih hrest' hrest]
      obtain ⟨rfl, hlookup, -⟩ | ⟨record, rfl, hlookup, -⟩ | ⟨op, rfl, hother, -⟩ := step_events hs₁
      · rw [hlookup]
        rfl
      · rw [hlookup, instances_apply_peer_record fmt _ own (hl record List.mem_cons_self)]
        rfl
      · have hsame : s₁.lookup.instances own = s.lookup.instances own :=
          funext fun name => ((LookupState.sameSource_other hother).lookup_eq name).symm
        rw [hsame]
        rfl

/-- **Peer events replicate the browse state.** A caller that folds what
`next_event` has returned has, whenever nothing is pending, the map from the
endpoints this source contributes for to the addresses of its contributions for
them. The contributions are what the last record of each instance says, and the
events are those of the records alone, on a lookup with no other source. -/
theorem peer_events_replicate (fmt : AddressFormats Id U) (own : ℕ) {st : LookupState Id U}
    (hst : ∀ e ∈ st.contributions.entries, e.1.1 ≠ own) {l : List BrowseStep}
    (hl : ∀ record, BrowseStep.record record ∈ l → record.instance_name ≠ "")
    {s : BrowseSession Id U}
    (hrun : run (step fmt own) (opened st) l = some s) :
    (s.pending = [] → Replicates fmt (s.lookup.instances own) (replay s.returned)) ∧
      s.lookup.instances own = live_contributions fmt (records l) ∧
      s.returned ++ s.pending = feed fmt own Lookup.new.state (records l) := by
  refine ⟨fun hpending => ?_, ?_, ?_⟩
  -- a label with a name is what the platform always gives
  · have hnamed : Along (step fmt own) NamedRecord (opened st) l := by
      refine along_of_forall (fun x hx s' => ?_) _
      rintro record rfl
      exact hl record hx
    have hinv := along_invariant (inv_step fmt own) (inv_opened hst) hnamed hrun
    have hrep := hinv.represents
    rw [hpending, List.append_nil] at hrep
    refine ⟨fun id => ?_, hrep.only⟩
    rw [hrep.node]
    exact LookupState.says_view fmt s.lookup own id
  · rw [instances_follow hl hrun, live_contributions]
    congr 1
    funext name
    show st.contributions.lookup (own, name) = none
    refine Option.eq_none_iff_forall_ne_some.mpr fun c hget => ?_
    exact hst _ (AList.lookup_eq_some_iff.mp hget) rfl
  · have hsame : LookupState.SameSource own st (Lookup.new : Lookup Id U).state := by
      intro e he
      exact ⟨fun hmem => absurd he (hst e hmem), nofun⟩
    exact events_eq_feed hsame hrun

/-- An instance that another source has too names one peer and then another: the
second record gives two events, after which the caller has the second peer, with
its address, and no more the first. -/
theorem peer_events_replicate_renamed :
    ∃ s : BrowseSession String ℕ,
      run (step Lookup.sample_formats 1) (opened Lookup.new.state)
        [.other (.upsert 2 false "printer" "cccccccccccccccccccccccccccccccccccccccccccccccccccc"
            ["192.168.1.2:4433"]),
          .record ⟨true, "printer", [.v4 0xc0a80102 4433],
            [("pk", "aaaaaaaaaaaaaaaaaaaaaaaaaaaaaaaaaaaaaaaaaaaaaaaaaaaa")]⟩,
          .record ⟨true, "printer", [.v4 0xc0a80102 4433],
            [("pk", "bbbbbbbbbbbbbbbbbbbbbbbbbbbbbbbbbbbbbbbbbbbbbbbbbbbb")]⟩,
          .pop] = some s ∧
      s.returned.length = 3 ∧
      replay s.returned "aaaaaaaaaaaaaaaaaaaaaaaaaaaaaaaaaaaaaaaaaaaaaaaaaaaa" = none ∧
      replay s.returned "bbbbbbbbbbbbbbbbbbbbbbbbbbbbbbbbbbbbbbbbbbbbbbbbbbbb" =
        some ["192.168.1.2:4433"] := by
  have hrun : run (step Lookup.sample_formats 1) (opened Lookup.new.state)
        [.other (.upsert 2 false "printer" "cccccccccccccccccccccccccccccccccccccccccccccccccccc"
            ["192.168.1.2:4433"]),
          .record ⟨true, "printer", [.v4 0xc0a80102 4433],
            [("pk", "aaaaaaaaaaaaaaaaaaaaaaaaaaaaaaaaaaaaaaaaaaaaaaaaaaaa")]⟩,
          .record ⟨true, "printer", [.v4 0xc0a80102 4433],
            [("pk", "bbbbbbbbbbbbbbbbbbbbbbbbbbbbbbbbbbbbbbbbbbbbbbbbbbbb")]⟩,
          .pop] = some _ := rfl
  obtain ⟨hrep, hlive, -⟩ := peer_events_replicate Lookup.sample_formats 1
    (fun _ he => absurd he List.not_mem_nil) (by simp) hrun
  obtain ⟨hcontrib, -⟩ := hrep rfl
  rw [hlive] at hcontrib
  -- the second peer's contribution is the only one left
  have hdata : endpoint_data Lookup.sample_formats ["192.168.1.2:4433"] =
      ({.ip (.v4 0xc0a80102 4433)} : Finset (TransportAddr ℕ)) := rfl
  have hinstance : ∀ name, live_contributions Lookup.sample_formats [
      ⟨true, "printer", [.v4 0xc0a80102 4433],
        [("pk", "aaaaaaaaaaaaaaaaaaaaaaaaaaaaaaaaaaaaaaaaaaaaaaaaaaaa")]⟩,
      ⟨true, "printer", [.v4 0xc0a80102 4433],
        [("pk", "bbbbbbbbbbbbbbbbbbbbbbbbbbbbbbbbbbbbbbbbbbbbbbbbbbbb")]⟩] name =
        if name = "printer" then
          some ⟨"bbbbbbbbbbbbbbbbbbbbbbbbbbbbbbbbbbbbbbbbbbbbbbbbbbbb",
            "bbbbbbbbbbbbbbbbbbbbbbbbbbbbbbbbbbbbbbbbbbbbbbbbbbbb",
            endpoint_data Lookup.sample_formats ["192.168.1.2:4433"]⟩
        else none := by
    intro name
    by_cases hname : name = "printer"
    · subst hname
      rfl
    · rw [if_neg hname]
      simp only [live_contributions, List.foldl_cons, List.foldl_nil, Function.update_of_ne hname]
  refine ⟨_, hrun, rfl, ?_, ?_⟩
  · refine (hcontrib "aaaaaaaaaaaaaaaaaaaaaaaaaaaaaaaaaaaaaaaaaaaaaaaaaaaa").nothing.mpr ?_
    intro name c hget
    obtain ⟨-, hc⟩ := Option.ite_none_right_eq_some.mp ((hinstance name).symm.trans hget)
    cases hc
    decide
  · exact (hcontrib "bbbbbbbbbbbbbbbbbbbbbbbbbbbbbbbbbbbbbbbbbbbbbbbbbbbb").eq_singleton
      (hinstance "printer") rfl fun name c hget _ => by
        obtain ⟨-, hc⟩ := Option.ite_none_right_eq_some.mp ((hinstance name).symm.trans hget)
        cases hc
        exact hdata

end BrowseSession

end IrohHttp.Discovery
