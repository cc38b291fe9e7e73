/-
The TXT entries that `peer_service_config_from_reconciled_snapshot`
(`iroh-http-discovery/src/lib.rs`) puts into a configuration, against the one byte that a
DNS-SD entry has for its length.

The `address` entry is made by `fit_txt_values`, which takes the candidates in order, each as
it is, and skips one only where there is no room for it behind those taken so far. The `pk` and
the `relay` entry are made by hand, and nothing looks at their length.
-/
import IrohHttp.PeerService

set_option autoImplicit false

namespace IrohHttp.Discovery

/-! ## A selection in order -/

section

variable {α : Type}

/-- The items whose flag is set. -/
def chosen : List Bool → List α → List α
  | true :: flags, x :: l => x :: chosen flags l
  | false :: flags, _ :: l => chosen flags l
  | _, _ => []

@[simp] theorem chosen_nil (flags : List Bool) : chosen flags ([] : List α) = [] := by
  cases flags with
  | nil => rfl
  | cons b flags => cases b <;> rfl

@[simp] theorem chosen_true (flags : List Bool) (x : α) (l : List α) :
    chosen (true :: flags) (x :: l) = x :: chosen flags l := rfl

@[simp] theorem chosen_false (flags : List Bool) (x : α) (l : List α) :
    chosen (false :: flags) (x :: l) = chosen flags l := rfl

theorem chosen_sublist (flags : List Bool) (l : List α) : (chosen flags l).Sublist l := by
  induction l generalizing flags with
  | nil => rw [chosen_nil]
  | cons x l ih =>
      cases flags with
      | nil => exact List.nil_sublist _
      | cons b flags =>
          cases b with
          | false => exact (ih flags).trans (List.sublist_cons_self x l)
          | true => exact (ih flags).cons_cons x

end

/-- Joined behind `kept`, these are the values that a greedy choice takes: one is left out only
where it does not fit behind those taken before it. -/
structure Greedy (value_budget : ℕ) (kept values : List String) (flags : List Bool) : Prop where
  length : flags.length = values.length
  omitted : ∀ i (h : i < values.length), flags[i]? = some false → value_budget <
    (",".intercalate (kept ++ chosen (flags.take i) (values.take i) ++ [values[i]])).utf8ByteSize

/-- A value that does not fit is left out. -/
theorem Greedy.skip {value_budget : ℕ} {kept l : List String} {value : String} {flags : List Bool}
    (hfull : value_budget < (",".intercalate (kept ++ [value])).utf8ByteSize)
    (h : Greedy value_budget kept l flags) :
    Greedy value_budget kept (value :: l) (false :: flags) where
  length := congrArg Nat.succ h.length
  omitted := by
    intro i hi hflag
    cases i with
    | zero =>
        rw [List.take_zero, List.take_zero, chosen_nil, List.append_nil]
        exact hfull
    | succ i =>
        have hlt := Nat.lt_of_succ_lt_succ hi
        rw [List.take_succ_cons, List.take_succ_cons, chosen_false]
        exact h.omitted i hlt hflag

/-- A value that fits is kept. -/
theorem Greedy.take {value_budget : ℕ} {kept l : List String} {value : String} {flags : List Bool}
    (h : Greedy value_budget (kept ++ [value]) l flags) :
    Greedy value_budget kept (value :: l) (true :: flags) where
  length := congrArg Nat.succ h.length
  omitted := by
    intro i hi hflag
    cases i with
    | zero => cases hflag
    | succ i =>
        have hlt := Nat.lt_of_succ_lt_succ hi
        have hfull := h.omitted i hlt hflag
        rw [List.append_assoc kept, List.singleton_append] at hfull
        rw [List.take_succ_cons, List.take_succ_cons, chosen_true]
        exact hfull

/-- `fitted` is a greedy choice. The induction is on what is still to be looked at. -/
theorem fitted_greedy (value_budget : ℕ) (kept l : List String) :
    ∃ flags, fitted value_budget kept l = kept ++ chosen flags l ∧ Greedy value_budget kept l flags := by
  induction l generalizing kept with
  | nil =>
      refine ⟨[], ?_, rfl, fun i hi => absurd hi (Nat.not_lt_zero i)⟩
      rw [fitted, chosen_nil, List.append_nil]
  | cons value l ih =>
      rw [fitted]
      by_cases hfull : value_budget < (",".intercalate (kept ++ [value])).utf8ByteSize
      · rw [if_pos hfull]
        obtain ⟨flags, heq, hgreedy⟩ := ih kept
        exact ⟨false :: flags, heq, hgreedy.skip hfull⟩
      · rw [if_neg hfull]
        obtain ⟨flags, heq, hgreedy⟩ := ih (kept ++ [value])
        refine ⟨true :: flags, ?_, hgreedy.take⟩
        rw [heq, chosen_true, List.append_assoc, List.singleton_append]

/-- What has been taken fits. -/
theorem size_fitted_le {value_budget : ℕ} {kept l : List String}
    (h : (",".intercalate kept).utf8ByteSize ≤ value_budget) :
    (",".intercalate (fitted value_budget kept l)).utf8ByteSize ≤ value_budget := by
  induction l generalizing kept with
  | nil => exact h
  | cons value l ih =>
      rw [fitted]
      by_cases hfull : value_budget < (",".intercalate (kept ++ [value])).utf8ByteSize
      · rw [if_pos hfull]
        exact ih h
      · rw [if_neg hfull]
        exact ih (Nat.not_lt.mp hfull)

/-! ## The entries of a configuration -/

/-- What the length byte of an entry counts: the key, the `=` and the value. -/
def entry_size (entry : String × String) : ℕ := entry.1.utf8ByteSize + 1 + entry.2.utf8ByteSize

/-- The direct addresses of the advertisement, in order. -/
def direct_addresses (bound_sockets : List SocketAddr) (node_addr : EndpointAddr)
    (interface_ips known_local_ips : List IpAddr) : List String :=
  (peer_direct_addresses (reconciled node_addr.ip_addrs interface_ips known_local_ips)
    bound_sockets interface_ips).map SocketAddr.to_string

/-- Every entry is legal, and the value of the `address` entry is a greedy choice of the direct
addresses. -/
structure LegalTxt (c : ServiceConfig) (direct : List String) : Prop where
  size : ∀ entry ∈ c.txt, entry_size entry ≤ DNS_SD_TXT_ENTRY_MAX_BYTES
  address : ∃ flags, Greedy value_budget [] direct flags ∧
    ∀ value, (TXT_ADDRESS, value) ∈ c.txt ↔ joined_txt (chosen flags direct) = some value

theorem direct_addresses_ne_empty {bound_sockets : List SocketAddr} {node_addr : EndpointAddr}
    {interface_ips known_local_ips : List IpAddr} :
    ∀ t ∈ direct_addresses bound_sockets node_addr interface_ips known_local_ips, t ≠ "" := by
  intro t ht
  obtain ⟨a, -, rfl⟩ := List.mem_map.mp ht
  exact to_string_ne_empty a

section

variable {service_name instance_name : String} {bound_sockets : List SocketAddr}
  {node_addr : EndpointAddr} {interface_ips known_local_ips : List IpAddr} {c : ServiceConfig}

/-- There is a configuration where there is a port to advertise. -/
theorem peer_service_config_exists (service_name instance_name : String) {port : ℕ}
    (h : select_port bound_sockets (peer_direct_addresses
      (reconciled node_addr.ip_addrs interface_ips known_local_ips) bound_sockets interface_ips)
      interface_ips = some port) :
    ∃ c, peer_service_config_from_reconciled_snapshot service_name instance_name bound_sockets
      node_addr interface_ips known_local_ips = .ok c := by
  simp only [peer_service_config_from_reconciled_snapshot, h]
  exact ⟨_, rfl⟩

/-- The three entries. -/
theorem peer_service_config_entries
    (h : peer_service_config_from_reconciled_snapshot service_name instance_name bound_sockets
      node_addr interface_ips known_local_ips = .ok c) (entry : String × String) :
    entry ∈ c.txt ↔ entry = (TXT_PK, instance_name) ∨
      (∃ relay, node_addr.relay_urls.head? = some relay ∧ (TXT_RELAY, relay) = entry) ∨
      ∃ value, joined_txt (fitted value_budget []
        (direct_addresses bound_sockets node_addr interface_ips known_local_ips)) = some value ∧
          (TXT_ADDRESS, value) = entry := by
  have hfit : fit_txt_values TXT_ADDRESS
      (direct_addresses bound_sockets node_addr interface_ips known_local_ips) =
        joined_txt (fitted value_budget []
          (direct_addresses bound_sockets node_addr interface_ips known_local_ips)) :=
    fit_txt_values_eq direct_addresses_ne_empty (by decide)
  simp only [peer_service_config_from_reconciled_snapshot] at h
  split at h
  · cases h
  · cases h
    rw [direct_addresses] at hfit
    simp only [hfit, List.mem_append, List.mem_singleton, Option.mem_toList,
      Option.map_eq_some_iff, or_assoc, direct_addresses]

/-- What is joined is within the budget. -/
theorem size_joined_txt {values : List String} {value : String}
    (h : joined_txt (fitted value_budget [] values) = some value) :
    value.utf8ByteSize ≤ value_budget := by
  rw [joined_txt] at h
  split at h
  · cases h
  · cases h
    apply size_fitted_le
    rw [String.intercalate_nil]
    exact Nat.zero_le _

/-- **Every entry is legal and no address is cut**, where the instance name and the relay URL have
room beside their keys. -/
theorem txt_entries_legal_iff
    (h : peer_service_config_from_reconciled_snapshot service_name instance_name bound_sockets
      node_addr interface_ips known_local_ips = .ok c) :
    LegalTxt c (direct_addresses bound_sockets node_addr interface_ips known_local_ips) ↔
      instance_name.utf8ByteSize ≤ 252 ∧
        ∀ relay, node_addr.relay_urls.head? = some relay → relay.utf8ByteSize ≤ 249 := by
  have hentries := peer_service_config_entries h
  have hpk : entry_size (TXT_PK, instance_name) = 3 + instance_name.utf8ByteSize := rfl
  have hrelay (relay : String) : entry_size (TXT_RELAY, relay) = 6 + relay.utf8ByteSize := rfl
  have haddress (value : String) : entry_size (TXT_ADDRESS, value) = 8 + value.utf8ByteSize := rfl
  have hmax : DNS_SD_TXT_ENTRY_MAX_BYTES = 255 := rfl
  constructor
  · intro hlegal
    constructor
    · have hsize := hlegal.size _ ((hentries _).mpr (Or.inl rfl))
      omega
    · intro relay hhead
      have hsize := hlegal.size _ ((hentries _).mpr (Or.inr (Or.inl ⟨relay, hhead, rfl⟩)))
      rw [hrelay] at hsize
      omega
  · rintro ⟨hname, hurl⟩
    constructor
    · intro entry hentry
      rcases (hentries entry).mp hentry with rfl | ⟨relay, hhead, rfl⟩ | ⟨value, hvalue, rfl⟩
      · omega
      · have hle := hurl relay hhead
        rw [hrelay]
        omega
      · -- the budget is what the key leaves of the entry
        have hle := size_joined_txt hvalue
        have hbudget : value_budget = 247 := rfl
        rw [haddress]
        omega
    · obtain ⟨flags, hfitted, hgreedy⟩ := fitted_greedy value_budget []
        (direct_addresses bound_sockets node_addr interface_ips known_local_ips)
      rw [List.nil_append] at hfitted
      refine ⟨flags, hgreedy, fun value => ?_⟩
      have hpk_key : TXT_ADDRESS ≠ TXT_PK := by decide
      have hrelay_key : TXT_RELAY ≠ TXT_ADDRESS := by decide
      rw [hentries, hfitted]
      simp only [Prod.mk.injEq, hpk_key, hrelay_key, false_and, and_false, exists_false, false_or,
        true_and]
      constructor
      · rintro ⟨v, hv, rfl⟩
        exact hv
      · exact fun hv => ⟨value, hv, rfl⟩

end

/-! ## A relay URL that is too long -/

theorem size_join_replicate (n : ℕ) (s : String) :
    (String.join (List.replicate n s)).utf8ByteSize = n * s.utf8ByteSize := by
  induction n with
  | zero => rw [List.replicate_zero, String.join_nil, String.utf8ByteSize_empty, Nat.zero_mul]
  | succ n ih =>
      rw [List.replicate_succ, String.join_cons, String.utf8ByteSize_append, ih, Nat.succ_mul,
        Nat.add_comm]

/-- A relay of 272 bytes, which with its key makes an entry of more than 255. -/
def long_relay : String :=
  "https://relay.example/" ++ String.join (List.replicate 25 "aaaaaaaaaa")

theorem size_long_relay : long_relay.utf8ByteSize = 272 := by
  have hhead : "https://relay.example/".utf8ByteSize = 22 := by decide
  have hrest : "aaaaaaaaaa".utf8ByteSize = 10 := by decide
  have hjoin := size_join_replicate 25 "aaaaaaaaaa"
  have hsize : long_relay.utf8ByteSize = "https://relay.example/".utf8ByteSize
      + (String.join (List.replicate 25 "aaaaaaaaaa")).utf8ByteSize := String.utf8ByteSize_append
  omega

/-- An endpoint with one address and this relay. -/
def relayed (relay : String) : EndpointAddr :=
  { ip_addrs := [.v4 0xC0A80001 4433], relay_urls := [relay] }

/-- There is a configuration of such an endpoint, whatever its relay is. -/
theorem relayed_config (relay : String) : ∃ c, peer_service_config_from_reconciled_snapshot "peers"
    "node" [.v4 0 4433] (relayed relay) [.v4 0xC0A80001] [] = .ok c := by
  have hport : select_port [.v4 0 4433] (peer_direct_addresses
      (reconciled (relayed "").ip_addrs [.v4 0xC0A80001] []) [.v4 0 4433] [.v4 0xC0A80001])
      [.v4 0xC0A80001] = some 4433 := by decide
  exact peer_service_config_exists "peers" "node" hport

/-- The relay URL of the endpoint is advertised as it is. -/
theorem long_relay_illegal :
    ¬ ∀ (service_name instance_name : String) (bound_sockets : List SocketAddr)
      (node_addr : EndpointAddr) (interface_ips known_local_ips : List IpAddr) (c : ServiceConfig),
      peer_service_config_from_reconciled_snapshot service_name instance_name bound_sockets
        node_addr interface_ips known_local_ips = .ok c →
      LegalTxt c (direct_addresses bound_sockets node_addr interface_ips known_local_ips) := by
  intro hall
  obtain ⟨c, hconfig⟩ := relayed_config long_relay
  have hlegal := hall _ _ _ _ _ _ c hconfig
  have hshort := ((txt_entries_legal_iff hconfig).mp hlegal).2 long_relay rfl
  rw [size_long_relay] at hshort
  exact absurd hshort (by decide)

/-- A host with twelve addresses, which do not all fit. -/
def host_ips : List IpAddr := (List.range 12).map fun n => .v4 (0xC0A86465 + n)

/-- An endpoint with more addresses than an entry can hold. -/
def crowded : EndpointAddr :=
  { ip_addrs := host_ips.map fun ip => ip.socket 44330, relay_urls := ["https://relay.example/"] }

/-- The entries are legal, and the `address` entry has the first eleven. -/
theorem crowded_host_legal : ∃ c, peer_service_config_from_reconciled_snapshot "peers" "node"
    [.v4 0 44330] crowded host_ips [] = .ok c ∧
      LegalTxt c (direct_addresses [.v4 0 44330] crowded host_ips []) ∧
      (direct_addresses [.v4 0 44330] crowded host_ips []).length = 12 ∧
      ∃ value, (TXT_ADDRESS, value) ∈ c.txt ∧ value.utf8ByteSize = 241 := by
  have hport : select_port [.v4 0 44330] (peer_direct_addresses
      (reconciled crowded.ip_addrs host_ips []) [.v4 0 44330] host_ips) host_ips = some 44330 := by
    decide +kernel
  obtain ⟨c, hconfig⟩ := peer_service_config_exists "peers" "node" hport
  have hsize : (joined_txt (fitted value_budget []
      (direct_addresses [.v4 0 44330] crowded host_ips []))).map String.utf8ByteSize = some 241 := by
    decide +kernel
  obtain ⟨value, hvalue, hbytes⟩ := Option.map_eq_some_iff.mp hsize
  have hmem := (peer_service_config_entries hconfig (TXT_ADDRESS, value)).mpr
    (.inr (.inr ⟨value, hvalue, rfl⟩))
  refine ⟨c, hconfig, (txt_entries_legal_iff hconfig).mpr ⟨by decide, ?_⟩, by decide +kernel, value, hmem,
    hbytes⟩
  rintro relay hhead
  rw [← Option.some.inj hhead]
  decide

end IrohHttp.Discovery
