/-
What a node advertises, read back by a browser: `peer_service_config_from_snapshot` and
`peer_event_from_record` of `iroh-http-discovery/src/lib.rs`.

The one port of the service goes with each of its addresses, and the `address` property has
the rest. The decoder drops a pair that the property contradicts; what the two filters leave
is shown to be what `peer_direct_addresses` has for the same snapshot. Socket addresses are
written and read as the standard library does (`NetParser.lean`).
-/
import IrohHttp.Base32
import IrohHttp.AddressSanitiser
import IrohHttp.DialableAddresses
import IrohHttp.PeerDiscovery

set_option autoImplicit false

namespace IrohHttp.Discovery

variable {Id U : Type}

/-! ## A service and its record -/

/-- Socket addresses as the standard library reads and writes them. -/
def AddressFormats.std (fmt : AddressFormats Id U) : AddressFormats Id U :=
  { fmt with
    parse_socket_addr := Discovery.parse_socket_addr
    socket_addr_to_string := SocketAddr.to_string }

/-- The text of a node's key, by the codec of the `base32` crate. -/
def node_id_label (base32 : Base32.Codec) (id : Vector UInt8 32) : String := base32.encode id.toList

/-- `peer_service_config_from_snapshot`, where the inventory and the known addresses are the same.
-/
def peer_service_config_from_snapshot (service_name instance_name : String)
    (bound_sockets : List SocketAddr) (node_addr : EndpointAddr) (interface_ips : List IpAddr) :
    Except String ServiceConfig :=
  peer_service_config_from_reconciled_snapshot service_name instance_name bound_sockets node_addr
    interface_ips interface_ips

/-- The record that a resolver has for the service, once it is resolved. -/
def ServiceConfig.record (config : ServiceConfig) : ServiceRecord where
  is_active := true
  instance_name := config.instance_name
  addrs := config.addrs.map (IpAddr.socket config.port)
  txt := config.txt

/-- The numbers of the address fit its family. -/
def IpAddr.InRange (ip : IpAddr) : Prop := (ip.socket 0).InRange

instance (ip : IpAddr) : Decidable ip.InRange := inferInstanceAs (Decidable (ip.socket 0).InRange)

/-- A label has the 52 characters of 32 bytes. -/
theorem node_id_label_ne_empty (base32 : Base32.Codec) (id : Vector UInt8 32) :
    node_id_label base32 id ≠ "" := by
  apply base32.encode_ne_empty
  intro hnil
  have hlength := id.size_toArray
  rw [← Array.length_toList, Vector.toList_toArray, hnil, List.length_nil] at hlength
  omega

/-- No address is held back: what is known is what is live. -/
theorem reconciled_self (ip_addrs : List SocketAddr) (interface_ips : List IpAddr) :
    reconciled ip_addrs interface_ips interface_ips = ip_addrs := by
  rw [reconciled, List.filter_eq_self]
  intro a _
  cases interface_ips.contains a.ip with
  | false => rfl
  | true => rfl

/-! ## Members that fit -/

/-- Fewer texts make a shorter list. -/
theorem size_intercalate_le {kept more : List String} (h : kept <+: more) :
    (",".intercalate kept).utf8ByteSize ≤ (",".intercalate more).utf8ByteSize := by
  obtain ⟨rest, rfl⟩ := h
  rcases eq_or_ne rest [] with rfl | hrest
  · rw [List.append_nil]
  · rcases eq_or_ne kept [] with rfl | hkept
    · rw [String.intercalate_nil, String.utf8ByteSize_empty]
      omega
    · rw [String.intercalate_append_of_ne_nil hkept hrest, String.utf8ByteSize_append,
        String.utf8ByteSize_append]
      omega

/-- Nothing is skipped where there is room for all. -/
theorem fitted_of_fits {value_budget : ℕ} {kept l : List String}
    (h : (",".intercalate (kept ++ l)).utf8ByteSize ≤ value_budget) :
    fitted value_budget kept l = kept ++ l := by
  induction l generalizing kept with
  | nil => rw [fitted, List.append_nil]
  | cons value l ih =>
      have hassoc : kept ++ value :: l = (kept ++ [value]) ++ l := by
        rw [List.append_assoc, List.singleton_append]
      have hle := size_intercalate_le (List.prefix_append (kept ++ [value]) l)
      rw [hassoc] at h ⊢
      rw [fitted, if_neg (by omega)]
      exact ih h

/-! ## What the decoder makes of the property -/

section

variable (fmt : AddressFormats Id U)

/-- A text without whitespace is trimmed already. -/
theorem trim_of_no_whitespace {s : String} (h : ∀ c ∈ s.toList, is_whitespace c = false) :
    trim s = s := by
  have hdrop : ∀ cs : List Char, (∀ c ∈ cs, is_whitespace c = false) →
      cs.dropWhile is_whitespace = cs := by
    intro cs hcs
    cases cs with
    | nil => rfl
    | cons c cs => rw [List.dropWhile_cons, hcs c List.mem_cons_self, if_neg Bool.false_ne_true]
  rw [trim, hdrop _ h, hdrop _ fun c hc => h c (List.mem_reverse.mp hc), List.reverse_reverse,
    String.ofList_toList]

theorem is_socket_char_of_whitespace {c : Char} (h : is_whitespace c = true) :
    is_socket_char c = false := by
  rw [← Bool.not_eq_true, is_socket_char, is_digit_sixteen]
  intro hno
  simp only [Bool.or_eq_true, beq_iff_eq] at hno
  rcases hno with ((((hhex | rfl) | rfl) | rfl) | rfl) | rfl
  · simp only [is_whitespace, is_hex, is_decimal, char_le_iff, Char.reduceToNat, Bool.or_eq_true,
      Bool.and_eq_true, decide_eq_true_eq, beq_iff_eq] at h hhex
    omega
  all_goals exact absurd h (by decide)

/-- What reads as a socket address has no whitespace to trim. -/
theorem trim_of_parse {s : String} {a : SocketAddr} (h : parse_socket_addr s = some a) :
    trim s = s := by
  apply trim_of_no_whitespace
  intro c hc
  by_contra hspace
  rw [Bool.not_eq_false] at hspace
  exact (parse_socket_addr_eq_some.mp h).notMem (is_socket_char_of_whitespace hspace) hc

/-- A member of the property that the decoder keeps. -/
def reads_as (t : String) (a : SocketAddr) : Prop :=
  parse_socket_addr (trim t) = some a ∧ 1 < a.port ∧ is_ambiguous a = false

/-- The body of the loop of `txt_addrs`. -/
def keep_address (found : List SocketAddr) (t : List Char) : List SocketAddr :=
  (parse_socket_addr (trim (String.ofList t))).elim found fun address =>
    if address.port ≤ 1 then found
    else if is_ambiguous address then found
    else push_new found address

/-- An address is kept when it is read from its text. -/
theorem mem_keep_address {found : List SocketAddr} {t : List Char} {a : SocketAddr} :
    a ∈ keep_address found t ↔ a ∈ found ∨ reads_as (String.ofList t) a := by
  rw [keep_address, reads_as]
  cases parse_socket_addr (trim (String.ofList t)) with
  | none => simp only [Option.elim_none, reduceCtorEq, false_and, or_false]
  | some address =>
      rw [Option.elim_some]
      grind [mem_push_new]

/-- The addresses found are those that some text reads as. -/
theorem mem_foldl_keep_address {texts : List (List Char)} {found : List SocketAddr} {a : SocketAddr} :
    a ∈ texts.foldl keep_address found ↔
      a ∈ found ∨ ∃ t ∈ texts, reads_as (String.ofList t) a := by
  induction texts generalizing found with
  | nil => simp only [List.foldl_nil, List.not_mem_nil, false_and, exists_const, or_false]
  | cons t texts ih =>
      rw [List.foldl_cons, ih, mem_keep_address, List.exists_mem_cons_iff, or_assoc]

/-- The browser reads each piece between the commas. -/
theorem mem_txt_addrs {addresses : String} {a : SocketAddr} :
    a ∈ txt_addrs fmt.std addresses ↔
      ∃ t ∈ (addresses.toList.splitOn ',').map String.ofList, reads_as t a := by
  have hfold : txt_addrs fmt.std addresses = (addresses.toList.splitOn ',').foldl keep_address [] := by
    have hstd : fmt.std.parse_socket_addr = parse_socket_addr := rfl
    rw [txt_addrs]
    apply List.foldl_ext
    intro found t _
    rw [keep_address, hstd]
    cases parse_socket_addr (trim (String.ofList t)) with
    | none => rfl
    | some address => rfl
  rw [hfold, mem_foldl_keep_address]
  simp only [List.not_mem_nil, false_or, List.mem_map, exists_exists_and_eq_and]

/-- The candidates that the record's property gives. -/
def authoritative_addrs (rec : ServiceRecord) : List SocketAddr :=
  ((rec.txt_value TXT_ADDRESS).map (txt_addrs fmt.std)).getD []

/-- A resolved address that the property contradicts. -/
def is_contradicted (rec : ServiceRecord) (srv : SocketAddr) : Bool :=
  (authoritative_addrs fmt rec).any fun a => same_scoped_host a srv && a.port != srv.port

/-- **The addresses of the record** are those that its TXT texts read as. -/
theorem mem_authoritative_addrs {config : ServiceConfig} {a : SocketAddr} :
    a ∈ authoritative_addrs fmt config.record ↔ ∃ t ∈ config.txt_addresses, reads_as t a := by
  have hvalue : config.record.txt_value TXT_ADDRESS = config.txt_value TXT_ADDRESS := rfl
  rw [authoritative_addrs, hvalue, ServiceConfig.txt_addresses]
  cases config.txt_value TXT_ADDRESS with
  | none => simp only [Option.map_none, Option.getD_none, List.not_mem_nil, false_and, exists_const]
  | some addresses =>
      rw [Option.map_some, Option.getD_some]
      exact mem_txt_addrs fmt

/-- The resolved addresses that nothing contradicts, the candidates of the property, the relay. -/
theorem record_addrs_std (rec : ServiceRecord) :
    ∃ directs, record_addrs fmt.std rec = directs ++ (rec.txt_value TXT_RELAY).toList ∧
      ∀ text, text ∈ directs ↔
        (∃ srv ∈ rec.addrs, 1 < srv.port ∧ is_contradicted fmt rec srv = false ∧
          srv.to_string = text) ∨ ∃ a ∈ authoritative_addrs fmt rec, a.to_string = text := by
  refine ⟨((authoritative_addrs fmt rec).map SocketAddr.to_string).foldl push_new
    (((rec.addrs.filter fun srv => 1 < srv.port).filter fun srv => !is_contradicted fmt rec srv).map
      SocketAddr.to_string), ?_, ?_⟩
  · rw [List.foldl_map]
    rfl
  · intro text
    simp only [mem_foldl_push_new, List.mem_map, List.mem_filter, decide_eq_true_eq,
      Bool.not_eq_true', and_assoc]

end

/-! ## The snapshot -/

section

variable {bound_sockets candidates : List SocketAddr} {interface_ips : List IpAddr}

/-- What is known of a direct address of a snapshot. -/
structure Direct (a : SocketAddr) : Prop where
  inRange : a.InRange
  socket : a.ip.socket a.port = a
  routable : is_routable_ip a.ip = true
  real : is_placeholder_port a.port = false

theorem socket_port (ip : IpAddr) (port : ℕ) : (ip.socket port).port = port := by
  cases ip with
  | v4 ip => rfl
  | v6 ip => rfl

theorem socket_self {a : SocketAddr} (hflow : a.flowinfo = 0) (hscope : a.scope_id = 0) :
    a.ip.socket a.port = a := by
  cases a with
  | v4 ip port => rfl
  | v6 ip port flowinfo scope_id =>
      rw [SocketAddr.flowinfo] at hflow
      rw [SocketAddr.scope_id] at hscope
      rw [hflow, hscope]
      rfl

theorem inRange_ip {a : SocketAddr} (h : a.InRange) : a.ip.InRange := by
  cases a with
  | v4 ip port => exact ⟨h.1, by omega⟩
  | v6 ip port flowinfo scope_id => exact ⟨h.1, by omega, by omega, by omega⟩

/-- An interface address with the port of a compatible socket can be dialled. -/
theorem direct_socket {ip : IpAddr} {bound : SocketAddr} (hbound : ∀ b ∈ bound_sockets, b.InRange)
    (hip : ip.InRange) (hrouted : is_routable_ip ip = true)
    (h : compatible_bound bound_sockets ip = some bound) : Direct (ip.socket bound.port) where
  inRange := by
    have hport := (hbound bound (compatible_bound_mem h)).port_lt
    cases ip with
    | v4 ip => exact ⟨hip.1, hport⟩
    | v6 ip => exact ⟨hip.1, hport, by omega, by omega⟩
  socket := by rw [socket_ip, socket_port]
  routable := by rw [socket_ip, hrouted]
  real := by
    rw [socket_port]
    have hfound := List.find?_some h
    rw [Bool.and_eq_true, Bool.not_eq_true'] at hfound
    exact hfound.2

/-- Everything the record advertises can be dialled directly. -/
theorem direct_of_mem (hbound : ∀ b ∈ bound_sockets, b.InRange)
    (hcandidates : ∀ a ∈ candidates, a.InRange ∧ a.flowinfo = 0 ∧ a.scope_id = 0)
    (hips : ∀ ip ∈ interface_ips, ip.InRange) {a : SocketAddr}
    (ha : a ∈ peer_direct_addresses candidates bound_sockets interface_ips) : Direct a := by
  rcases mem_peer_direct_addresses.mp ha with ⟨addr, haddr, hrouted, hdial⟩ | ⟨ip, hip, hrouted, hdial⟩
  · obtain ⟨hrange, hflow, hscope⟩ := hcandidates addr haddr
    rcases dialed_cases hdial with ⟨hreal, rfl⟩ | ⟨-, bound, hserves, rfl⟩
    · exact ⟨hrange, socket_self hflow hscope, hrouted, hreal⟩
    · exact direct_socket hbound (inRange_ip hrange) hrouted hserves
  · rw [interface_address, Option.map_eq_some_iff] at hdial
    obtain ⟨bound, hcompatible, rfl⟩ := hdial
    exact direct_socket hbound (hips ip hip) hrouted hcompatible

/-- A direct address reads back from the property as itself. -/
theorem Direct.reads_as_iff {a b : SocketAddr} (h : Direct a) : reads_as a.to_string b ↔ b = a := by
  have hplain : a.without_flowinfo = a := by
    rw [← h.socket]
    exact socket_without_flowinfo _ _
  have hparse := parse_to_string h.inRange
  rw [hplain] at hparse
  have hport : 1 < a.port := by
    have hreal := h.real
    rw [is_placeholder_port, Bool.or_eq_false_iff, beq_eq_false_iff_ne, beq_eq_false_iff_ne] at hreal
    omega
  have hclear : is_ambiguous a = false := by
    have hrouted := h.routable
    cases a with
    | v4 ip port => rfl
    | v6 ip port flowinfo scope_id =>
        rw [is_routable_ip] at hrouted
        split at hrouted
        · cases hrouted
        · rw [Bool.not_eq_true'] at hrouted
          have hlocal : is_unicast_link_local ip = false := hrouted
          rw [is_ambiguous, hlocal, Bool.false_and]
  rw [reads_as, trim_of_parse hparse, hparse, Option.some.injEq]
  constructor
  · exact fun hb => hb.1.symm
  · rintro rfl
    exact ⟨rfl, hport, hclear⟩

/-- The port of the service is that of a bound socket, and a real one. -/
theorem select_port_real {direct_sockets : List SocketAddr} {port : ℕ}
    (h : select_port bound_sockets direct_sockets interface_ips = some port) :
    is_placeholder_port port = false := by
  simp only [select_port, Option.map_eq_some_iff, Option.or_eq_some_iff] at h
  obtain ⟨bound, hbound, rfl⟩ := h
  have hmem : bound ∈ bound_sockets.filter fun bound => !is_placeholder_port bound.port := by
    rcases hbound with (hbound | ⟨-, hbound⟩) | ⟨-, hbound⟩
    · exact List.mem_of_find?_eq_some hbound
    · exact List.mem_of_find?_eq_some hbound
    · exact List.mem_of_mem_head? hbound
  rw [List.mem_filter, Bool.not_eq_true'] at hmem
  exact hmem.2

/-- Each address of the service is listened on at its port, and is a direct address with it. -/
theorem select_addrs_direct {port : ℕ} (hreal : is_placeholder_port port = false)
    (hdirect : ∀ a ∈ peer_direct_addresses candidates bound_sockets interface_ips, Direct a)
    {ip : IpAddr} (h : ip ∈ select_addrs bound_sockets
      (peer_direct_addresses candidates bound_sockets interface_ips) interface_ips port) :
    ip.socket port ∈ peer_direct_addresses candidates bound_sockets interface_ips ∧
      ∃ bound ∈ bound_sockets, bound.port = port ∧ listens_on bound ip = true := by
  simp only [select_addrs] at h
  split at h
  · rw [mem_foldl_push_new, List.mem_map] at h
    rcases h with h | ⟨a, ha, rfl⟩
    · exact absurd h List.not_mem_nil
    · rw [List.mem_filter, Bool.and_eq_true, beq_iff_eq, List.any_eq_true] at ha
      obtain ⟨hmem, hport, bound, hbound, hlistens⟩ := ha
      rw [Bool.and_eq_true, beq_iff_eq] at hlistens
      rw [← hport, (hdirect a hmem).socket]
      exact ⟨hmem, bound, hbound, hlistens.1, hlistens.2⟩
  · rw [mem_foldl_push_new, List.mem_filter, List.any_eq_true] at h
    rcases h with h | ⟨hip, bound, hbound, h⟩
    · exact absurd h List.not_mem_nil
    · rw [Bool.and_eq_true, beq_iff_eq, interface_is_eligible, Bool.and_eq_true, Bool.and_eq_true,
        Bool.not_eq_true', List.any_eq_false] at h
      obtain ⟨hport, ⟨hrouted, hlistens⟩, hnone⟩ := h
      refine ⟨?_, bound, hbound, hport, hlistens⟩
      -- the inventory has paired the address with some port, which is then this one
      have hserves : (compatible_bound bound_sockets ip).isSome = true := by
        rw [compatible_bound, List.find?_isSome]
        refine ⟨bound, hbound, ?_⟩
        rw [hlistens, hport, hreal]
        rfl
      obtain ⟨other, hother⟩ := Option.isSome_iff_exists.mp hserves
      have hmem : ip.socket other.port ∈ peer_direct_addresses candidates bound_sockets interface_ips := by
        rw [mem_peer_direct_addresses]
        right
        refine ⟨ip, hip, hrouted, ?_⟩
        rw [interface_address, hother, Option.map_some]
      have hsame := hnone _ hmem
      rw [socket_ip, socket_port, Bool.and_eq_true, beq_self_eq_true, bne_iff_ne, not_and,
        not_not] at hsame
      rw [← hport, ← hsame rfl]
      exact hmem

end

/-! ## Advertise, then browse -/

section

variable {service_name instance_name : String} {bound_sockets : List SocketAddr}
  {node_addr : EndpointAddr} {interface_ips : List IpAddr} {config : ServiceConfig}

/-- What a configuration that is built has: a port, the label as its key, the first relay and the
selected addresses. -/
theorem snapshot_ok (h : peer_service_config_from_snapshot service_name instance_name bound_sockets
      node_addr interface_ips = .ok config) :
    is_placeholder_port config.port = false ∧ config.instance_name = instance_name ∧
      config.txt_value TXT_PK = some instance_name ∧
      config.txt_value TXT_RELAY = node_addr.relay_urls.head? ∧
      config.addrs = select_addrs bound_sockets (peer_direct_addresses node_addr.ip_addrs
        bound_sockets interface_ips) interface_ips config.port := by
  simp only [peer_service_config_from_snapshot, peer_service_config_from_reconciled_snapshot,
    reconciled_self] at h
  split at h
  · cases h
  · next port hport =>
    cases h
    refine ⟨select_port_real hport, rfl, rfl, ?_, rfl⟩
    have hpk : TXT_PK ≠ TXT_RELAY := by decide
    have haddress : TXT_ADDRESS ≠ TXT_RELAY := by decide
    simp only [ServiceConfig.txt_value, List.find?_append, List.find?_cons, hpk, decide_false,
      List.find?_nil, Option.none_or]
    cases node_addr.relay_urls.head? with
    | none =>
        cases fit_txt_values TXT_ADDRESS _ with
        | none => rfl
        | some value => simp [haddress]
    | some relay => simp

/-- **What is advertised is what is read**: the node, its relay and, as far as there is room, the
direct addresses of the snapshot. -/
theorem advertised_record (fmt : AddressFormats Id U) {base32 : Base32.Codec} {id : Vector UInt8 32}
    (hbound : ∀ b ∈ bound_sockets, b.InRange)
    (hcandidates : ∀ a ∈ node_addr.ip_addrs, a.InRange ∧ a.flowinfo = 0 ∧ a.scope_id = 0)
    (hips : ∀ ip ∈ interface_ips, ip.InRange)
    (h : peer_service_config_from_snapshot service_name (node_id_label base32 id) bound_sockets node_addr
      interface_ips = .ok config) :
    ∃ directs,
      peer_event_from_record fmt.std config.record
        = some ⟨true, node_id_label base32 id, directs ++ node_addr.relay_urls.head?.toList⟩ ∧
      (∀ text ∈ directs, ∃ a ∈ peer_direct_addresses node_addr.ip_addrs bound_sockets interface_ips,
        a.to_string = text) ∧
      (address_entry_size ((peer_direct_addresses node_addr.ip_addrs bound_sockets
          interface_ips).map SocketAddr.to_string) ≤ DNS_SD_TXT_ENTRY_MAX_BYTES →
        ∀ a ∈ peer_direct_addresses node_addr.ip_addrs bound_sockets interface_ips,
          a.to_string ∈ directs) ∧
      ∀ srv ∈ config.record.addrs,
        ∃ bound ∈ bound_sockets, bound.port = srv.port ∧ listens_on bound srv.ip = true := by
  obtain ⟨hreal, hname, hpk, hrelay, haddrs⟩ := snapshot_ok h
  have hdirect := fun a ha => direct_of_mem (a := a) hbound hcandidates hips ha
  have htxt := peer_service_config_txt_addresses h
  rw [reconciled_self] at htxt
  have hsub := sublist_fitted value_budget []
    ((peer_direct_addresses node_addr.ip_addrs bound_sockets interface_ips).map SocketAddr.to_string)
  rw [List.nil_append, ← htxt] at hsub
  -- the property gives direct addresses, by their own texts
  have hauthoritative : ∀ a, a ∈ authoritative_addrs fmt config.record ↔
      a ∈ peer_direct_addresses node_addr.ip_addrs bound_sockets interface_ips ∧
        a.to_string ∈ config.txt_addresses := by
    intro a
    rw [mem_authoritative_addrs]
    constructor
    · rintro ⟨t, ht, hreads⟩
      obtain ⟨b, hb, rfl⟩ := List.mem_map.mp (hsub.subset ht)
      rw [(hdirect b hb).reads_as_iff] at hreads
      rw [hreads]
      exact ⟨hb, ht⟩
    · rintro ⟨ha, ht⟩
      exact ⟨a.to_string, ht, (hdirect a ha).reads_as_iff.mpr rfl⟩
  have hsrv : ∀ srv ∈ config.record.addrs,
      srv ∈ peer_direct_addresses node_addr.ip_addrs bound_sockets interface_ips ∧
        ∃ bound ∈ bound_sockets, bound.port = srv.port ∧ listens_on bound srv.ip = true := by
    intro srv hsrv
    obtain ⟨ip, hip, rfl⟩ := List.mem_map.mp hsrv
    rw [haddrs] at hip
    rw [socket_ip, socket_port]
    exact select_addrs_direct hreal hdirect hip
  obtain ⟨directs, heq, hmem⟩ := record_addrs_std fmt config.record
  refine ⟨directs, ?_, ?_, ?_, fun srv h => (hsrv srv h).2⟩
  · have hpk' : config.record.txt_value TXT_PK = some (node_id_label base32 id) := hpk
    have hrelay' : config.record.txt_value TXT_RELAY = node_addr.relay_urls.head? := hrelay
    have hnode := node_id_label_ne_empty base32 id
    rw [peer_event_from_record, hpk', heq, hrelay']
    simp [hnode, ServiceConfig.record]
  · intro text ht
    rcases (hmem text).mp ht with ⟨srv, hin, -, -, rfl⟩ | ⟨a, ha, rfl⟩
    · exact ⟨srv, (hsrv srv hin).1, rfl⟩
    · exact ⟨a, ((hauthoritative a).mp ha).1, rfl⟩
  · intro hfits a ha
    rw [hmem]
    right
    refine ⟨a, (hauthoritative a).mpr ⟨ha, ?_⟩, rfl⟩
    have hbudget : DNS_SD_TXT_ENTRY_MAX_BYTES = TXT_ADDRESS.utf8ByteSize + 1 + value_budget := by
      decide
    rw [address_entry_size, hbudget] at hfits
    rw [htxt, fitted_of_fits (by rw [List.nil_append]; omega), List.nil_append]
    exact List.mem_map_of_mem ha

/-- Two sockets, a direct and a reflexive candidate, two interfaces. -/
theorem advertised_record_two_interfaces :
    ∃ config directs,
      peer_service_config_from_snapshot "iroh-http" (node_id_label Base32.lowercase (Vector.replicate 32 7))
        [.v4 0 5000, .v6 0 5001 0 0] ⟨[.v4 0xC0A80105 1, .v4 0xCB007109 62000], ["https://relay.test./"]⟩
        [.v4 0xC0A80105, .v6 0x20010DB8000000000000000000000005] = .ok config ∧
      peer_event_from_record (AddressFormats.std (U := String) ⟨Except.ok, id, Function.injective_id,
          fun _ => none, fun _ => "", some, id⟩) config.record
        = some ⟨true, node_id_label Base32.lowercase (Vector.replicate 32 7), directs ++ ["https://relay.test./"]⟩ := by
  obtain ⟨config, h⟩ : ∃ config,
      peer_service_config_from_snapshot "iroh-http" (node_id_label Base32.lowercase (Vector.replicate 32 7))
        [.v4 0 5000, .v6 0 5001 0 0] ⟨[.v4 0xC0A80105 1, .v4 0xCB007109 62000], ["https://relay.test./"]⟩
        [.v4 0xC0A80105, .v6 0x20010DB8000000000000000000000005] = .ok config := ⟨_, rfl⟩
  obtain ⟨directs, hevent, -⟩ := advertised_record (U := String) ⟨Except.ok, id, Function.injective_id,
    fun _ => none, fun _ => "", some, id⟩ (by decide) (by decide) (by decide) h
  exact ⟨config, directs, h, hevent⟩

end
end IrohHttp.Discovery
