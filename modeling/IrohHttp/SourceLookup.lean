/-
The source-scoped address lookup,
`iroh-http-core/src/endpoint/source_scoped_lookup.rs`.

Every browse session owns a source, and a source contributes, per DNS-SD service
instance, the addresses of one endpoint. What iroh resolves is the `effective`
map: per endpoint the union over all sources. It is kept beside the
contributions, and each operation recomputes the endpoints it has touched.

The functions of `LookupState` are the bodies under the state mutex. `Lookup` is
any number of sources with their clones and with the calls on them; `retire`
swaps the flag first and removes under the mutex later, and these are two steps.

Ids, addresses and their text forms are iroh's and the standard library's:
`AddressFormats` has what the code asks of them. An `EndpointData` is a set of
transport addresses, iterated in their order.
-/
import Mathlib.Data.Finset.Sort
import Mathlib.Data.List.Dedup
import Mathlib.Logic.Function.Basic
import Mathlib.Algebra.Group.Nat.Defs
import IrohHttp.FiniteMap
import IrohHttp.Machine

set_option autoImplicit false

open Machine

namespace IrohHttp.Discovery

/-! ## Addresses -/

/-- `std::net::SocketAddr`, with the address as a number. -/
inductive SocketAddr
  | v4 (ip port : ℕ)
  | v6 (ip port flowinfo scope_id : ℕ)
  deriving DecidableEq, Repr

/-- The port of an address. -/
def SocketAddr.port : SocketAddr → ℕ
  | .v4 _ port => port
  | .v6 _ port _ _ => port

/-- `char::is_whitespace`: the Unicode property White_Space. -/
def is_whitespace (c : Char) : Bool :=
  let n := c.toNat
  (9 ≤ n && n ≤ 13) || n == 0x20 || n == 0x85 || n == 0xa0 || n == 0x1680 ||
    (0x2000 ≤ n && n ≤ 0x200a) || n == 0x2028 || n == 0x2029 || n == 0x202f || n == 0x205f ||
    n == 0x3000

/-- `str::trim`. -/
def trim (s : String) : String :=
  String.ofList ((s.toList.dropWhile is_whitespace).reverse.dropWhile is_whitespace).reverse

/-- `iroh::TransportAddr`, in the kinds that the lookup makes. -/
inductive TransportAddr (U : Type)
  | relay (url : U)
  | ip (addr : SocketAddr)

/-- What the lookup uses of iroh's ids and of addresses as text. The error of
`parse_endpoint_id` is the message that `upsert` makes of it; `node_id` is
`base32_encode(id.as_bytes())`. -/
structure AddressFormats (Id U : Type) where
  parse_endpoint_id : String → Except String Id
  node_id : Id → String
  node_id_injective : Function.Injective node_id
  parse_socket_addr : String → Option SocketAddr
  socket_addr_to_string : SocketAddr → String
  parse_relay_url : String → Option U
  relay_url_to_string : U → String

/-- The text that an event carries of an address. -/
def TransportAddr.wire {Id U : Type} (fmt : AddressFormats Id U) : TransportAddr U → String
  | .relay url => fmt.relay_url_to_string url
  | .ip addr => fmt.socket_addr_to_string addr

variable {Id U : Type} [DecidableEq Id] [LinearOrder (TransportAddr U)]

/-- Each text is a socket address with a real port, or a relay URL, or is
skipped. -/
def endpoint_data (fmt : AddressFormats Id U) (addrs : List String) : Finset (TransportAddr U) :=
  addrs.foldl (fun data addr =>
    match fmt.parse_socket_addr (trim addr) with
    -- a text that parses as a socket address is not tried as a URL, whatever its port
    | some addr => if addr.port ≤ 1 then data else insert (.ip addr) data
    | none =>
      match fmt.parse_relay_url (trim addr) with
      | some relay => insert (.relay relay) data
      | none => data) ∅

/-! ## Under the state mutex -/

/-- What one source says of an endpoint under one instance name. -/
structure Contribution (Id U : Type) where
  endpoint_id : Id
  node_id : String
  data : Finset (TransportAddr U)

/-- The contributions of all sources, and the addresses that follow from them. -/
structure LookupState (Id U : Type) where
  next_source_id : ℕ
  contributions : FiniteMap (ℕ × String) (Contribution Id U)
  effective : Id → Option (Finset (TransportAddr U))

/-- `AddressLookupRemoval`. -/
structure AddressLookupRemoval where
  node_id : String
  has_remaining_contributions : Bool
  remaining_addrs : List String
  deriving DecidableEq, Repr

/-- `AddressLookupUpsert`. -/
structure AddressLookupUpsert where
  node_id : String
  effective_addrs : List String
  replaced : Option AddressLookupRemoval
  deriving DecidableEq, Repr

/-- `AddressLookupUpsertError`. -/
structure AddressLookupUpsertError where
  message : String
  removal : Option AddressLookupRemoval
  deriving DecidableEq, Repr

/-- A map entry is present only for data that has addresses. -/
def present (data : Finset (TransportAddr U)) : Option (Finset (TransportAddr U)) :=
  if data = ∅ then none else some data

namespace LookupState

/-- What all sources contribute for an endpoint. -/
def union (st : LookupState Id U) (id : Id) : Finset (TransportAddr U) :=
  st.contributions.gather (fun _ c => c.endpoint_id = id) (·.data)

/-- What one source contributes for an endpoint. -/
def source_union (st : LookupState Id U) (source_id : ℕ) (id : Id) : Finset (TransportAddr U) :=
  st.contributions.gather (fun key c => key.1 = source_id ∧ c.endpoint_id = id) (·.data)

/-- `recompute_endpoint`: the endpoint's addresses become the union of what is said of it. -/
def recompute_endpoint (st : LookupState Id U) (id : Id) : LookupState Id U :=
  { st with effective := Function.update st.effective id (present (st.union id)) }

/-- `source_effective_addrs`: what one source says of an endpoint, in order and as text. -/
def source_effective_addrs (fmt : AddressFormats Id U) (st : LookupState Id U) (source_id : ℕ)
    (id : Id) : List String :=
  (st.source_union source_id id).sort.map (TransportAddr.wire fmt)

/-- `removal_snapshot`: whether the source still speaks of the endpoint, and with which addresses.
-/
def removal_snapshot (fmt : AddressFormats Id U) (st : LookupState Id U) (source_id : ℕ) (id : Id)
    (advertised_node_id : String) : AddressLookupRemoval where
  node_id := advertised_node_id
  has_remaining_contributions :=
    st.contributions.any fun key c => key.1 = source_id ∧ c.endpoint_id = id
  remaining_addrs := st.source_effective_addrs fmt source_id id

/-- `remove_contribution`. -/
def remove_contribution (fmt : AddressFormats Id U) (st : LookupState Id U) (key : ℕ × String) :
    Option AddressLookupRemoval × LookupState Id U :=
  match st.contributions.lookup key with
  | none => (none, st)
  | some c =>
    -- the snapshot is taken of the state behind the removal
    let st := { st with contributions := st.contributions.erase key }.recompute_endpoint
      c.endpoint_id
    (some (st.removal_snapshot fmt key.1 c.endpoint_id c.node_id), st)

/-- `AddressLookupSource::upsert`. The replaced contribution's endpoint is
recomputed too when it is another one. -/
def upsert (fmt : AddressFormats Id U) (st : LookupState Id U) (source_id : ℕ) (retired : Bool)
    (instance_name node_id : String) (addrs : List String) :
    Except AddressLookupUpsertError AddressLookupUpsert × LookupState Id U :=
  let key := (source_id, instance_name)
  if retired then (.error ⟨"address-lookup source has been retired", none⟩, st)
  else
    match fmt.parse_endpoint_id node_id with
    | .error message =>
      -- a malformed record retracts what the instance had said before
      let r := st.remove_contribution fmt key
      (.error ⟨message, r.1⟩, r.2)
    | .ok id =>
      let old := st.contributions.lookup key
      let st := { st with contributions :=
        st.contributions.insert key ⟨id, fmt.node_id id, endpoint_data fmt addrs⟩ }
      let st := match old.filter fun old => old.endpoint_id ≠ id with
        | some old => st.recompute_endpoint old.endpoint_id
        | none => st
      let st := st.recompute_endpoint id
      (.ok {
        node_id := fmt.node_id id
        effective_addrs := st.source_effective_addrs fmt source_id id
        replaced := (old.filter fun old => old.endpoint_id ≠ id).map fun old =>
          st.removal_snapshot fmt source_id old.endpoint_id old.node_id }, st)

/-- `remove_with_snapshot`, which a retired source does not do. -/
def remove_with_snapshot (fmt : AddressFormats Id U) (st : LookupState Id U) (source_id : ℕ)
    (retired : Bool) (instance_name : String) : Option AddressLookupRemoval × LookupState Id U :=
  if retired then (none, st) else st.remove_contribution fmt (source_id, instance_name)

/-- The part of `SourceLease::retire` under the mutex. -/
def sweep_source (st : LookupState Id U) (source_id : ℕ) : LookupState Id U :=
  -- a set in the source; the order of the recomputations does not matter
  let affected :=
    ((st.contributions.entries.filter (·.1.1 = source_id)).map (·.2.endpoint_id)).dedup
  affected.foldl recompute_endpoint
    { st with contributions := st.contributions.retain fun key _ => key.1 ≠ source_id }

/-! ## The effective map is the union -/

/-- The entry of every endpoint is the union of the contributions that name it,
and is there when that has an address. -/
def Exact (st : LookupState Id U) : Prop := ∀ id, st.effective id = present (st.union id)

/-- The contributions that name an endpoint are the same in two states. -/
def SameAt (st st' : LookupState Id U) (id : Id) : Prop :=
  ∀ e : Σ _ : ℕ × String, Contribution Id U, e.2.endpoint_id = id →
    (e ∈ st.contributions.entries ↔ e ∈ st'.contributions.entries)

theorem SameAt.union_eq {st st' : LookupState Id U} {id : Id} (h : SameAt st st' id) :
    st.union id = st'.union id :=
  AList.gather_congr fun e he => h e (by simpa using he)

omit [DecidableEq Id] [LinearOrder (TransportAddr U)] in
/-- Erasing an entry changes the contributions of its endpoint only. -/
theorem sameAt_erase {st : LookupState Id U} {key : ℕ × String} {c : Contribution Id U}
    (hc : ⟨key, c⟩ ∈ st.contributions.entries) {id : Id} (hne : id ≠ c.endpoint_id) :
    SameAt st { st with contributions := st.contributions.erase key } id := by
  intro e he
  rw [AList.mem_entries_erase]
  refine ⟨fun hmem => ⟨hmem, fun hkey => hne ?_⟩, And.left⟩
  have heq : e = ⟨key, c⟩ := st.contributions.nodupKeys.eq_of_fst_eq hmem hc hkey
  rw [← he, heq]

omit [DecidableEq Id] [LinearOrder (TransportAddr U)] in
/-- Inserting an entry changes the contributions of its endpoint and of the one
that it replaces. -/
theorem sameAt_insert {st : LookupState Id U} {key : ℕ × String} {c : Contribution Id U} {id : Id}
    (hnew : id ≠ c.endpoint_id)
    (hold : ∀ old, st.contributions.lookup key = some old → id ≠ old.endpoint_id) :
    SameAt st { st with contributions := st.contributions.insert key c } id := by
  intro e he
  rw [AList.mem_entries_insert]
  constructor
  · intro hmem
    refine .inr ⟨hmem, ?_⟩
    rintro rfl
    exact hold e.2 (AList.lookup_eq_some_iff.mpr hmem) he.symm
  · rintro (rfl | ⟨hmem, -⟩)
    · exact absurd he.symm hnew
    · exact hmem

theorem contributions_foldl_recompute (ids : List Id) (st : LookupState Id U) :
    (ids.foldl recompute_endpoint st).contributions = st.contributions := by
  induction ids generalizing st with
  | nil => rfl
  | cons id ids ih => exact ih (st.recompute_endpoint id)

/-- A sweep takes away what one source said. -/
theorem contributions_sweep_source (st : LookupState Id U) (source_id : ℕ) :
    (st.sweep_source source_id).contributions =
      st.contributions.retain fun key _ => key.1 ≠ source_id :=
  contributions_foldl_recompute ..

/-- A removal adds nothing. -/
theorem entries_remove_contribution {fmt : AddressFormats Id U} {st : LookupState Id U}
    {key : ℕ × String} {e : Σ _ : ℕ × String, Contribution Id U}
    (he : e ∈ (st.remove_contribution fmt key).2.contributions.entries) :
    e ∈ st.contributions.entries := by
  unfold remove_contribution at he
  split at he
  · exact he
  · exact (AList.mem_entries_erase.mp he).1

theorem entries_remove_with_snapshot {fmt : AddressFormats Id U} {st : LookupState Id U}
    {source_id : ℕ} {retired : Bool} {instance_name : String}
    {e : Σ _ : ℕ × String, Contribution Id U}
    (he : e ∈ (st.remove_with_snapshot fmt source_id retired instance_name).2.contributions.entries) :
    e ∈ st.contributions.entries := by
  unfold remove_with_snapshot at he
  split at he
  · exact he
  · exact entries_remove_contribution he

/-- The contributions that a valid `upsert` leaves. -/
theorem contributions_upsert_ok {fmt : AddressFormats Id U} {st : LookupState Id U} {source_id : ℕ}
    {instance_name node_id : String} {addrs : List String} {id : Id}
    (hid : fmt.parse_endpoint_id node_id = .ok id) :
    (st.upsert fmt source_id false instance_name node_id addrs).2.contributions =
      st.contributions.insert (source_id, instance_name)
        ⟨id, fmt.node_id id, endpoint_data fmt addrs⟩ := by
  simp only [upsert, hid]
  split
  · next hret => cases hret
  · split <;> rfl

/-- An `upsert` adds nothing but an entry of its own, and that of a source which
is not retired. -/
theorem entries_upsert {fmt : AddressFormats Id U} {st : LookupState Id U} {source_id : ℕ}
    {retired : Bool} {instance_name node_id : String} {addrs : List String}
    {e : Σ _ : ℕ × String, Contribution Id U}
    (he : e ∈ (st.upsert fmt source_id retired instance_name node_id addrs).2.contributions.entries) :
    e ∈ st.contributions.entries ∨ retired = false ∧ e.1 = (source_id, instance_name) := by
  cases retired with
  | true => exact .inl he
  | false =>
      cases hid : fmt.parse_endpoint_id node_id with
      | error message =>
          simp only [upsert, hid] at he
          exact .inl (entries_remove_contribution he)
      | ok id =>
          rw [contributions_upsert_ok hid, AList.mem_entries_insert] at he
          rcases he with rfl | ⟨hold, -⟩
          · exact .inr ⟨rfl, rfl⟩
          · exact .inl hold

theorem next_source_id_remove_contribution (fmt : AddressFormats Id U) (st : LookupState Id U)
    (key : ℕ × String) :
    (st.remove_contribution fmt key).2.next_source_id = st.next_source_id := by
  unfold remove_contribution
  split <;> rfl

theorem next_source_id_remove_with_snapshot (fmt : AddressFormats Id U) (st : LookupState Id U)
    (source_id : ℕ) (retired : Bool) (instance_name : String) :
    (st.remove_with_snapshot fmt source_id retired instance_name).2.next_source_id
      = st.next_source_id := by
  unfold remove_with_snapshot
  split
  · rfl
  · exact next_source_id_remove_contribution ..

theorem next_source_id_upsert (fmt : AddressFormats Id U) (st : LookupState Id U) (source_id : ℕ)
    (retired : Bool) (instance_name node_id : String) (addrs : List String) :
    (st.upsert fmt source_id retired instance_name node_id addrs).2.next_source_id
      = st.next_source_id := by
  unfold upsert
  split
  · rfl
  · split
    · exact next_source_id_remove_contribution ..
    · dsimp only
      split <;> rfl

theorem next_source_id_foldl_recompute (ids : List Id) (st : LookupState Id U) :
    (ids.foldl recompute_endpoint st).next_source_id = st.next_source_id := by
  induction ids generalizing st with
  | nil => rfl
  | cons id ids ih => exact ih (st.recompute_endpoint id)

end LookupState

/-! ## Sources, their clones and their calls -/

/-- A lease: its live clones, its flag, and whether a `retire` on it has
returned. -/
structure Source where
  clones : ℕ
  retired : Bool
  returned : Bool
  deriving DecidableEq, Repr

/-- `sweeping` has the source of every `retire` that has set the flag and not
removed yet. -/
structure Lookup (Id U : Type) where
  state : LookupState Id U
  sources : ℕ → Source
  sweeping : List ℕ

/-- What happens to a lookup: sources are made, cloned and dropped, and each upserts, removes and
retires. -/
inductive LookupStep
  | new_source
  | clone (source_id : ℕ)
  | upsert (source_id : ℕ) (instance_name node_id : String) (addrs : List String)
  | remove (source_id : ℕ) (instance_name : String)
  /-- the swap of a `retire`; a call that finds the flag set returns here -/
  | retire (source_id : ℕ)
  /-- the locked removal of the `i`-th `retire` that set its flag, which returns -/
  | sweep (i : ℕ)
  /-- a clone is dropped, and with the last one the lease -/
  | drop (source_id : ℕ)
  deriving DecidableEq, Repr

namespace Lookup

/-- An empty lookup, with no source. -/
def new : Lookup Id U where
  state := ⟨1, ∅, fun _ => none⟩
  sources _ := ⟨0, false, false⟩
  sweeping := []

/-- The flag swap of `SourceLease::retire`. -/
def begin_retire (s : Lookup Id U) (source_id : ℕ) : Lookup Id U :=
  let source := s.sources source_id
  if source.retired then
    { s with sources := Function.update s.sources source_id { source with returned := true } }
  else
    { s with
      sources := Function.update s.sources source_id { source with retired := true }
      sweeping := s.sweeping ++ [source_id] }

/-- A call needs a clone, and the last clone outlives the calls on it. -/
def step (fmt : AddressFormats Id U) (s : Lookup Id U) : LookupStep → Option (Lookup Id U)
  | .new_source =>
    let source_id := s.state.next_source_id
    some { s with
      state := { s.state with next_source_id := source_id + 1 }
      sources := Function.update s.sources source_id ⟨1, false, false⟩ }
  | .clone source_id =>
    let source := s.sources source_id
    if 0 < source.clones then
      some { s with sources :=
        Function.update s.sources source_id { source with clones := source.clones + 1 } }
    else none
  | .upsert source_id instance_name node_id addrs =>
    if 0 < (s.sources source_id).clones then
      some { s with state :=
        (s.state.upsert fmt source_id (s.sources source_id).retired instance_name node_id addrs).2 }
    else none
  | .remove source_id instance_name =>
    if 0 < (s.sources source_id).clones then
      some { s with state :=
        (s.state.remove_with_snapshot fmt source_id (s.sources source_id).retired instance_name).2 }
    else none
  | .retire source_id =>
    if 0 < (s.sources source_id).clones then some (s.begin_retire source_id) else none
  | .sweep i =>
    match s.sweeping[i]? with
    | none => none
    | some source_id =>
      some {
        state := s.state.sweep_source source_id
        sources := Function.update s.sources source_id
          { s.sources source_id with returned := true }
        sweeping := s.sweeping.eraseIdx i }
  | .drop source_id =>
    let source := s.sources source_id
    if source.clones = 0 then none
    else if source.clones = 1 then
      -- a `retire` under way borrows a clone, so this is not the last one yet
      if source_id ∈ s.sweeping then none
      else
        some (begin_retire
          { s with sources := Function.update s.sources source_id { source with clones := 0 } }
          source_id)
    else
      some { s with sources :=
        Function.update s.sources source_id { source with clones := source.clones - 1 } }

/-- A source has no contribution. -/
def Empty (s : Lookup Id U) (source_id : ℕ) : Prop :=
  ∀ e ∈ s.state.contributions.entries, e.1.1 ≠ source_id

/-- A `retire` that finds the flag set finds no contribution either. -/
def SweptFirst (s : Lookup Id U) : LookupStep → Prop
  | .retire source_id => 0 < (s.sources source_id).clones → (s.sources source_id).retired = true →
      s.Empty source_id
  | _ => True

/-- The invariant of a run: a source whose retirement returned has retired and has nothing left. -/
structure Inv (s : Lookup Id U) : Prop where
  sweeping : ∀ source_id ∈ s.sweeping, (s.sources source_id).retired = true
  swept : ∀ source_id, (s.sources source_id).retired = true → source_id ∉ s.sweeping →
    s.Empty source_id
  returned : ∀ source_id, (s.sources source_id).returned = true →
    (s.sources source_id).retired = true ∧ s.Empty source_id
  fresh : ∀ source_id, s.state.next_source_id ≤ source_id →
    s.sources source_id = ⟨0, false, false⟩ ∧ source_id ∉ s.sweeping

omit [DecidableEq Id] [LinearOrder (TransportAddr U)] in
theorem inv_new : Inv (new : Lookup Id U) where
  sweeping := nofun
  swept _ := nofun
  returned _ := nofun
  fresh _ _ := ⟨rfl, nofun⟩

/-! ### Steps under the mutex -/

omit [DecidableEq Id] [LinearOrder (TransportAddr U)] in
/-- The state changes, and gains contributions of unretired sources only. -/
theorem Inv.set_state {s : Lookup Id U} (h : Inv s) {st : LookupState Id U}
    (hnext : st.next_source_id = s.state.next_source_id)
    (hentries : ∀ e ∈ st.contributions.entries,
      e ∈ s.state.contributions.entries ∨ (s.sources e.1.1).retired = false) :
    Inv { s with state := st } := by
  -- `upsert` loads the flag under the mutex, so a retired source gains nothing
  have hempty : ∀ source_id, (s.sources source_id).retired = true → s.Empty source_id →
      Empty { s with state := st } source_id := by
    intro source_id hret hemp e he
    rcases hentries e he with hold | hopen
    · exact hemp e hold
    · rintro rfl
      rw [hret] at hopen
      exact nomatch hopen
  refine ⟨h.sweeping, fun source_id hret hnot => ?_, fun source_id hr => ?_, ?_⟩
  · exact hempty source_id hret (h.swept source_id hret hnot)
  · obtain ⟨hret, hemp⟩ := h.returned source_id hr
    exact ⟨hret, hempty source_id hret hemp⟩
  · intro source_id hle
    exact h.fresh source_id (hnext ▸ hle)

omit [DecidableEq Id] [LinearOrder (TransportAddr U)] in
/-- One source changes, and its flag is not taken back. -/
theorem Inv.set_source {s : Lookup Id U} (h : Inv s) {source_id : ℕ} {source : Source}
    (hlt : source_id < s.state.next_source_id)
    (hretired : source.retired = (s.sources source_id).retired)
    (hreturned : source.returned = true →
      (s.sources source_id).retired = true ∧ s.Empty source_id) :
    Inv { s with sources := Function.update s.sources source_id source } := by
  have hret : ∀ other,
      (Function.update s.sources source_id source other).retired = (s.sources other).retired := by
    intro other
    by_cases hother : other = source_id
    · rw [hother, Function.update_self, hretired]
    · rw [Function.update_of_ne hother]
  refine ⟨fun other hmem => ?_, fun other hr => ?_, fun other hr => ?_, ?_⟩
  · exact (hret other).trans (h.sweeping other hmem)
  · exact h.swept other ((hret other).symm.trans hr)
  · by_cases hother : other = source_id
    · subst hother
      rw [hret]
      exact hreturned (by simpa using hr)
    · rw [hret]
      refine h.returned other ?_
      simpa [Function.update_of_ne hother] using hr
  · intro other hle
    have hother : other ≠ source_id := by
      rintro rfl
      exact absurd hlt (not_lt.mpr hle)
    show Function.update s.sources source_id source other = _ ∧ _
    rw [Function.update_of_ne hother]
    exact h.fresh other hle

omit [DecidableEq Id] [LinearOrder (TransportAddr U)] in
/-- A source with a clone was created. -/
theorem Inv.created {s : Lookup Id U} (h : Inv s) {source_id : ℕ}
    (hc : 0 < (s.sources source_id).clones) : source_id < s.state.next_source_id := by
  by_contra hnot
  rw [(h.fresh source_id (not_lt.mp hnot)).1] at hc
  exact absurd hc (lt_irrefl 0)

/-! ### Retirement -/

omit [DecidableEq Id] [LinearOrder (TransportAddr U)] in
/-- The swap. A call that sets the flag still owes the removal; one that finds it
set returns, and is asked to find the source empty. -/
theorem inv_begin_retire {s : Lookup Id U} (h : Inv s) {source_id : ℕ}
    (hlt : source_id < s.state.next_source_id)
    (hempty : (s.sources source_id).retired = true → s.Empty source_id) :
    Inv (s.begin_retire source_id) := by
  unfold begin_retire
  dsimp only
  split
  · next hret => exact h.set_source hlt rfl fun _ => ⟨hret, hempty hret⟩
  · next hret =>
    have hother : ∀ other, other ≠ source_id → Function.update s.sources source_id
        { s.sources source_id with retired := true } other = s.sources other :=
      fun other hne => Function.update_of_ne hne ..
    refine ⟨fun other hmem => ?_, fun other hr hnot => ?_, fun other hr => ?_, ?_⟩
    · by_cases hsame : other = source_id
      · simp [hsame]
      · rcases List.mem_append.mp hmem with hold | hnew
        · exact (congrArg Source.retired (hother other hsame)).trans (h.sweeping other hold)
        · exact absurd (List.mem_singleton.mp hnew) hsame
    · by_cases hsame : other = source_id
      · exact absurd (List.mem_append_right _ (List.mem_singleton.mpr hsame)) hnot
      · refine h.swept other ?_ fun hold => hnot (List.mem_append_left _ hold)
        exact (congrArg Source.retired (hother other hsame)).symm.trans hr
    · by_cases hsame : other = source_id
      · subst hsame
        -- a source with a returned `retire` would have its flag set
        have hr' : (s.sources other).returned = true := by simpa using hr
        exact absurd (h.returned other hr').1 hret
      · have hold := h.returned other ((congrArg Source.returned (hother other hsame)).symm.trans hr)
        exact ⟨(congrArg Source.retired (hother other hsame)).trans hold.1, hold.2⟩
    · intro other hle
      have hsame : other ≠ source_id := by
        rintro rfl
        exact absurd hlt (not_lt.mpr hle)
      refine ⟨(hother other hsame).trans (h.fresh other hle).1, fun hmem => ?_⟩
      rcases List.mem_append.mp hmem with hold | hnew
      · exact (h.fresh other hle).2 hold
      · exact hsame (List.mem_singleton.mp hnew)

/-- Behind its sweep a source has nothing left. -/
theorem empty_sweep_self (st : LookupState Id U) (source_id : ℕ)
    (e : Σ _ : ℕ × String, Contribution Id U)
    (he : e ∈ (st.sweep_source source_id).contributions.entries) :
    e ∈ st.contributions.entries ∧ e.1.1 ≠ source_id := by
  rw [LookupState.contributions_sweep_source, AList.mem_retain, decide_eq_true_iff] at he
  exact he

/-- The locked removal: the source is empty from here on. -/
theorem inv_sweep {s s' : Lookup Id U} {fmt : AddressFormats Id U} {i : ℕ} (h : Inv s)
    (hstep : s.step fmt (.sweep i) = some s') : Inv s' := by
  simp only [step] at hstep
  split at hstep
  · cases hstep
  · next source_id hi =>
    cases hstep
    have hret := h.sweeping source_id (List.mem_of_getElem? hi)
    have hlt : source_id < s.state.next_source_id := by
      by_contra hnot
      exact (h.fresh source_id (not_lt.mp hnot)).2 (List.mem_of_getElem? hi)
    have hnext : (s.state.sweep_source source_id).next_source_id = s.state.next_source_id :=
      LookupState.next_source_id_foldl_recompute ..
    have hstate : Inv { s with state := s.state.sweep_source source_id } :=
      h.set_state hnext fun e he => .inl (empty_sweep_self s.state source_id e he).1
    have hgone : Empty { s with state := s.state.sweep_source source_id } source_id :=
      fun e he => (empty_sweep_self s.state source_id e he).2
    have hdone : Inv { s with
        state := s.state.sweep_source source_id
        sources := Function.update s.sources source_id
          { s.sources source_id with returned := true } } :=
      hstate.set_source (hnext.symm ▸ hlt) rfl fun _ => ⟨hret, hgone⟩
    refine ⟨fun other hmem => ?_, fun other hr hnot => ?_, hdone.returned, ?_⟩
    · exact hdone.sweeping other ((List.eraseIdx_sublist _ _).mem hmem)
    · by_cases hsame : other = source_id
      · exact hsame ▸ hgone
      · -- another source that is being swept still is
        refine hdone.swept other hr fun hold => hnot ?_
        refine List.mem_eraseIdx_iff_getElem?.mpr ?_
        obtain ⟨j, hj⟩ := List.mem_iff_getElem?.mp hold
        refine ⟨j, fun hij => hsame ?_, hj⟩
        rw [hij, hi] at hj
        exact (Option.some.inj hj).symm
    · intro other hle
      have hold := hdone.fresh other hle
      exact ⟨hold.1, fun hmem => hold.2 ((List.eraseIdx_sublist _ _).mem hmem)⟩

theorem inv_new_source {s s' : Lookup Id U} {fmt : AddressFormats Id U} (h : Inv s)
    (hstep : s.step fmt .new_source = some s') : Inv s' := by
  cases hstep
  have hfresh := h.fresh s.state.next_source_id (le_refl _)
  have hother : ∀ other, other ≠ s.state.next_source_id → Function.update s.sources
      s.state.next_source_id ⟨1, false, false⟩ other = s.sources other :=
    fun other hne => Function.update_of_ne hne ..
  refine ⟨fun other hmem => ?_, fun other hr hnot => ?_, fun other hr => ?_, ?_⟩
  · have hne : other ≠ s.state.next_source_id := by
      rintro rfl
      exact hfresh.2 hmem
    exact (congrArg Source.retired (hother other hne)).trans (h.sweeping other hmem)
  · by_cases hne : other = s.state.next_source_id
    · simp [hne] at hr
    · exact h.swept other ((congrArg Source.retired (hother other hne)).symm.trans hr) hnot
  · by_cases hne : other = s.state.next_source_id
    · simp [hne] at hr
    · have hold := h.returned other ((congrArg Source.returned (hother other hne)).symm.trans hr)
      exact ⟨(congrArg Source.retired (hother other hne)).trans hold.1, hold.2⟩
  · intro other hle
    have hlt : s.state.next_source_id < other := hle
    exact ⟨(hother other hlt.ne').trans (h.fresh other hlt.le).1, (h.fresh other hlt.le).2⟩

/-- The drop of a clone. With the last one the lease retires, and no other call
is under way on it then. -/
theorem inv_drop {s s' : Lookup Id U} {fmt : AddressFormats Id U} {source_id : ℕ} (h : Inv s)
    (hstep : s.step fmt (.drop source_id) = some s') : Inv s' := by
  simp only [step] at hstep
  split at hstep
  · cases hstep
  · next hpos =>
    have hlt := h.created (Nat.pos_of_ne_zero hpos)
    have hset : ∀ n, Inv { s with
        sources := Function.update s.sources source_id { s.sources source_id with clones := n } } :=
      fun n => h.set_source hlt rfl (h.returned source_id)
    split at hstep
    · split at hstep
      · cases hstep
      · next hnot =>
        cases hstep
        refine inv_begin_retire (hset 0) hlt fun hret => ?_
        exact h.swept source_id (by simpa using hret) hnot
    · cases hstep
      exact hset _

/-- Every step that meets the side condition keeps the invariant. -/
theorem inv_step (fmt : AddressFormats Id U) (s : Lookup Id U) (x : LookupStep) (s' : Lookup Id U)
    (h : Inv s) (hcond : s.SweptFirst x) (hstep : s.step fmt x = some s') : Inv s' := by
  cases x with
  | new_source => exact inv_new_source h hstep
  | clone source_id =>
      simp only [step] at hstep
      split at hstep
      · next hc =>
        cases hstep
        exact h.set_source (h.created hc) rfl (h.returned source_id)
      · cases hstep
  | upsert source_id instance_name node_id addrs =>
      simp only [step] at hstep
      split at hstep
      · cases hstep
        refine h.set_state (LookupState.next_source_id_upsert ..) fun e he => ?_
        rcases LookupState.entries_upsert he with hold | ⟨hopen, hkey⟩
        · exact .inl hold
        · exact .inr (by rw [hkey]; exact hopen)
      · cases hstep
  | remove source_id instance_name =>
      simp only [step] at hstep
      split at hstep
      · cases hstep
        exact h.set_state (LookupState.next_source_id_remove_with_snapshot ..)
          fun e he => .inl (LookupState.entries_remove_with_snapshot he)
      · cases hstep
  | retire source_id =>
      simp only [step] at hstep
      split at hstep
      · next hc =>
        cases hstep
        exact inv_begin_retire h (h.created hc) (hcond hc)
      · cases hstep
  | sweep i => exact inv_sweep h hstep
  | drop source_id => exact inv_drop h hstep

/-- Addresses in the order of their parts, relays before IP. -/
def TransportAddr.parts : TransportAddr ℕ → List ℕ
  | .relay url => [0, url]
  | .ip (.v4 ip port) => [1, ip, port]
  | .ip (.v6 ip port flowinfo scope_id) => [2, ip, port, flowinfo, scope_id]

theorem TransportAddr.parts_injective : Function.Injective TransportAddr.parts := by
  rintro (url | ⟨ip, port⟩ | ⟨ip, port, flowinfo, scope_id⟩)
    (url' | ⟨ip', port'⟩ | ⟨ip', port', flowinfo', scope_id'⟩) h <;>
    simp_all [TransportAddr.parts]

instance : LinearOrder (TransportAddr ℕ) :=
  LinearOrder.lift' TransportAddr.parts TransportAddr.parts_injective

/-- Ids by their base32 text, and one address in text. -/
def sample_formats : AddressFormats String ℕ where
  parse_endpoint_id s := if s.length = 52 then .ok s else .error "invalid node id"
  node_id id := id
  node_id_injective _ _ h := h
  parse_socket_addr s := if s = "192.168.1.2:4433" then some (.v4 0xc0a80102 4433) else none
  socket_addr_to_string _ := "192.168.1.2:4433"
  parse_relay_url _ := none
  relay_url_to_string _ := ""

end Lookup

end IrohHttp.Discovery
