/-
The advertisement of an iroh peer, `iroh-http-discovery/src/lib.rs`: from the addresses
of the endpoint, its bound sockets and the inventory of the interfaces to one SRV port,
the IP addresses that have it, and the TXT properties.

Nothing says of an address of the endpoint whether it is a local one or was seen by a
relay. One that some inventory has listed counts as local, and goes with its interface.

What a reader gets of all this is `txt_addresses`, one TXT entry of at most 255 bytes
split at its commas, and the SRV addresses. `peer_direct_addresses` says what should be
in the entry, `fitted` what has room.
-/
import IrohHttp.PeerDiscovery

set_option autoImplicit false

namespace IrohHttp.Discovery

/-! ## IP addresses -/

/-- `std::net::IpAddr`, with the address as a number. -/
inductive IpAddr
  | v4 (ip : ℕ)
  | v6 (ip : ℕ)
  deriving DecidableEq, Repr

/-- `SocketAddr::ip` -/
def SocketAddr.ip : SocketAddr → IpAddr
  | .v4 ip _ => .v4 ip
  | .v6 ip _ _ _ => .v6 ip

/-- `SocketAddr::new`. -/
def IpAddr.socket (port : ℕ) : IpAddr → SocketAddr
  | .v4 ip => .v4 ip port
  | .v6 ip => .v6 ip port 0 0

/-- `IpAddr::is_ipv6` -/
def IpAddr.is_ipv6 : IpAddr → Bool
  | .v4 _ => false
  | .v6 _ => true

/-- `IpAddr::is_unspecified` -/
def IpAddr.is_unspecified : IpAddr → Bool
  | .v4 ip => ip == 0
  | .v6 ip => ip == 0

/-- `127.0.0.0/8` and `::1`. -/
def IpAddr.is_loopback : IpAddr → Bool
  | .v4 ip => ip / 2 ^ 24 == 127
  | .v6 ip => ip == 1

/-- `169.254.0.0/16` and `fe80::/10`. -/
def IpAddr.is_link_local : IpAddr → Bool
  | .v4 ip => ip / 2 ^ 16 == 169 * 2 ^ 8 + 254
  | .v6 ip => is_unicast_link_local ip

/-- `is_routable_ip` -/
def is_routable_ip (ip : IpAddr) : Bool :=
  if ip.is_loopback || ip.is_unspecified then false else !ip.is_link_local

/-- The ports that stand for none. -/
def is_placeholder_port (port : ℕ) : Bool := port == 0 || port == 1

@[simp] theorem socket_ip (ip : IpAddr) (port : ℕ) : (ip.socket port).ip = ip := by
  cases ip with
  | v4 ip => rfl
  | v6 ip => rfl

/-! ## As text

`Display` of the standard library: decimal and dotted, or hexadecimal with the longest
run of zeroes left out. -/

/-- `{:x}` of a number. -/
def hex (n : ℕ) : String := String.ofList (Nat.toDigits 16 n)

/-- `Ipv4Addr::fmt` -/
def ipv4_to_string (ip : ℕ) : String :=
  ".".intercalate ([24, 16, 8, 0].map fun shift => toString (ip / 2 ^ shift % 2 ^ 8))

/-- `Ipv6Addr::segments` -/
def segments (ip : ℕ) : List ℕ :=
  [112, 96, 80, 64, 48, 32, 16, 0].map fun shift => ip / 2 ^ shift % 2 ^ 16

/-- A run of segments. -/
structure Span where
  start : ℕ := 0
  len : ℕ := 0

/-- The first of the longest runs of zeroes. -/
def longest_zeroes (segments : List ℕ) : Span :=
  (segments.zipIdx.foldl (fun (spans : Span × Span) segment =>
    if segment.1 = 0 then
      let current : Span :=
        { start := if spans.2.len = 0 then segment.2 else spans.2.start, len := spans.2.len + 1 }
      (if spans.1.len < current.len then current else spans.1, current)
    else (spans.1, {})) ({}, {})).1

/-- Segments between colons. -/
def fmt_subslice (chunk : List ℕ) : String := ":".intercalate (chunk.map hex)

/-- `Ipv6Addr::fmt`: the longest run of zeros is compressed. -/
def ipv6_to_string (ip : ℕ) : String :=
  -- an IPv4 address mapped into IPv6
  if ip / 2 ^ 32 = 0xffff then "::ffff:" ++ ipv4_to_string ip
  else
    let zeroes := longest_zeroes (segments ip)
    if 1 < zeroes.len then
      fmt_subslice ((segments ip).take zeroes.start) ++ "::" ++
        fmt_subslice ((segments ip).drop (zeroes.start + zeroes.len))
    else fmt_subslice (segments ip)

/-- `SocketAddr::fmt` -/
def SocketAddr.to_string : SocketAddr → String
  | .v4 ip port => ipv4_to_string ip ++ ":" ++ toString port
  | .v6 ip port _ scope_id =>
    if scope_id = 0 then "[" ++ ipv6_to_string ip ++ "]:" ++ toString port
    else "[" ++ ipv6_to_string ip ++ "%" ++ toString scope_id ++ "]:" ++ toString port

theorem comma_notMem_toDigits (b n : ℕ) (hb : 1 < b) : ',' ∉ Nat.toDigits b n := by
  induction n using Nat.strongRecOn with
  | ind n ih =>
      intro hmem
      rw [Nat.toDigits_eq_if hb] at hmem
      split at hmem
      · rw [List.mem_singleton] at hmem
        exact Nat.digitChar_ne ',' rfl hmem.symm
      · next hle =>
        rw [List.mem_append, List.mem_singleton] at hmem
        have hlt : n / b < n := Nat.div_lt_self (by omega) hb
        rcases hmem with hmem | hmem
        · exact ih _ hlt hmem
        · exact Nat.digitChar_ne ',' rfl hmem.symm

theorem comma_notMem_toString (n : ℕ) : ',' ∉ (toString n).toList := by
  rw [Nat.toString_eq_repr, Nat.repr_eq_ofList_toDigits, String.toList_ofList]
  exact comma_notMem_toDigits 10 n (by omega)

theorem comma_notMem_hex (n : ℕ) : ',' ∉ (hex n).toList := by
  rw [hex, String.toList_ofList]
  exact comma_notMem_toDigits 16 n (by omega)

theorem notMem_intercalate {α : Type} {x : α} {sep : List α} (hsep : x ∉ sep) {l : List (List α)}
    (hl : ∀ t ∈ l, x ∉ t) : x ∉ sep.intercalate l := by
  induction l with
  | nil => exact List.not_mem_nil
  | cons t l ih =>
      have ht := hl t List.mem_cons_self
      have hrest := ih fun u hu => hl u (List.mem_cons_of_mem t hu)
      cases l with
      | nil =>
          rw [List.intercalate_singleton]
          exact ht
      | cons u l =>
          rw [List.intercalate_cons_cons, List.mem_append, List.mem_append]
          rintro ((hx | hx) | hx)
          · exact ht hx
          · exact hsep hx
          · exact hrest hx

theorem comma_notMem_ipv4 (ip : ℕ) : ',' ∉ (ipv4_to_string ip).toList := by
  rw [ipv4_to_string, String.toList_intercalate]
  apply notMem_intercalate (by decide)
  intro t ht
  simp only [List.map_map, List.mem_map, Function.comp_apply] at ht
  obtain ⟨shift, -, rfl⟩ := ht
  exact comma_notMem_toString _

theorem comma_notMem_fmt_subslice (chunk : List ℕ) : ',' ∉ (fmt_subslice chunk).toList := by
  rw [fmt_subslice, String.toList_intercalate]
  apply notMem_intercalate (by decide)
  intro t ht
  simp only [List.map_map, List.mem_map, Function.comp_apply] at ht
  obtain ⟨n, -, rfl⟩ := ht
  exact comma_notMem_hex n

theorem comma_notMem_ipv6 (ip : ℕ) : ',' ∉ (ipv6_to_string ip).toList := by
  simp only [ipv6_to_string]
  split
  · simp only [String.toList_append, List.mem_append, comma_notMem_ipv4, or_false]
    decide
  · split
    · simp only [String.toList_append, List.mem_append, comma_notMem_fmt_subslice, or_false,
        false_or]
      decide
    · exact comma_notMem_fmt_subslice _

/-- No comma is in the text of an address. -/
theorem comma_notMem_to_string (a : SocketAddr) : ',' ∉ a.to_string.toList := by
  cases a with
  | v4 ip port =>
      simp only [SocketAddr.to_string, String.toList_append, List.mem_append, comma_notMem_ipv4,
        comma_notMem_toString, or_false, false_or]
      decide
  | v6 ip port flowinfo scope_id =>
      simp only [SocketAddr.to_string]
      split
      · simp only [String.toList_append, List.mem_append, comma_notMem_ipv6,
          comma_notMem_toString, or_false]
        decide
      · simp only [String.toList_append, List.mem_append, comma_notMem_ipv6,
          comma_notMem_toString, or_false]
        decide

theorem to_string_ne_empty (a : SocketAddr) : a.to_string ≠ "" := by
  intro hempty
  have hcolon : ':' ∈ a.to_string.toList := by
    cases a with
    | v4 ip port => simp [SocketAddr.to_string]
    | v6 ip port flowinfo scope_id =>
        simp only [SocketAddr.to_string]
        split
        · simp
        · simp
  rw [hempty] at hcolon
  exact List.not_mem_nil hcolon

/-! ## One TXT entry -/

/-- The longest entry of a TXT record. -/
def DNS_SD_TXT_ENTRY_MAX_BYTES : ℕ := 255

/-- The body of the loop of `fit_txt_values`. Lengths are in bytes; sums of lengths of
strings in memory do not overflow. -/
def fit_txt_value (value_budget : ℕ) (joined value : String) : String :=
  let separator_len := if joined ≠ "" then 1 else 0
  if value_budget < joined.utf8ByteSize + separator_len + value.utf8ByteSize then joined
  else (if separator_len ≠ 0 then joined ++ "," else joined) ++ value

/-- `fit_txt_values`: as many values as fit behind the key. -/
def fit_txt_values (key : String) (values : List String) : Option String :=
  let prefix_len := key.utf8ByteSize + 1
  if DNS_SD_TXT_ENTRY_MAX_BYTES < prefix_len then none
  else
    let value_budget := DNS_SD_TXT_ENTRY_MAX_BYTES - prefix_len
    let joined := (values.filter (· ≠ "")).foldl (fit_txt_value value_budget) ""
    if joined = "" then none else some joined

/-- The texts that `fit_txt_values` takes, from `l` after those in `kept`. -/
def fitted (value_budget : ℕ) : List String → List String → List String
  | kept, [] => kept
  | kept, value :: l =>
    if value_budget < (",".intercalate (kept ++ [value])).utf8ByteSize then fitted value_budget kept l
    else fitted value_budget (kept ++ [value]) l

theorem fitted_cons (value_budget : ℕ) (kept : List String) (value : String) (l : List String) :
    fitted value_budget kept (value :: l) =
      if value_budget < (",".intercalate (kept ++ [value])).utf8ByteSize then
        fitted value_budget kept l
      else fitted value_budget (kept ++ [value]) l := rfl

theorem intercalate_ne_empty {sep : String} {l : List String} (hne : l ≠ [])
    (hl : ∀ t ∈ l, t ≠ "") : sep.intercalate l ≠ "" := by
  cases l with
  | nil => exact absurd rfl hne
  | cons t l =>
      have ht := hl t List.mem_cons_self
      rcases eq_or_ne l [] with rfl | hrest
      · rw [String.intercalate_singleton]
        exact ht
      · rw [String.intercalate_cons_of_ne_nil hrest]
        intro hempty
        rw [String.append_eq_empty_iff, String.append_eq_empty_iff] at hempty
        exact ht hempty.1.1

theorem intercalate_concat {kept : List String} (hkept : kept ≠ []) (value : String) :
    ",".intercalate (kept ++ [value]) = ",".intercalate kept ++ "," ++ value := by
  rw [String.intercalate_append_of_ne_nil hkept (List.cons_ne_nil _ _),
    String.intercalate_singleton]

/-- A value is pushed with its separator, if there is room for both. -/
theorem fit_txt_value_intercalate (value_budget : ℕ) {kept : List String}
    (hkept : ∀ t ∈ kept, t ≠ "") (value : String) :
    fit_txt_value value_budget (",".intercalate kept) value =
      if value_budget < (",".intercalate (kept ++ [value])).utf8ByteSize then ",".intercalate kept
      else ",".intercalate (kept ++ [value]) := by
  by_cases hnil : kept = []
  · subst hnil
    simp only [fit_txt_value, String.intercalate_nil, List.nil_append, String.intercalate_singleton,
      ne_eq, not_true_eq_false, if_false, String.utf8ByteSize_empty, Nat.zero_add,
      String.empty_append]
  · have hne : ",".intercalate kept ≠ "" := intercalate_ne_empty hnil hkept
    rw [intercalate_concat hnil]
    simp only [fit_txt_value, ne_eq, hne, not_false_eq_true, if_true, one_ne_zero,
      String.utf8ByteSize_append]
    rfl

/-- The fold carries the joined text of the values chosen so far. -/
theorem foldl_fit_txt_value (value_budget : ℕ) {kept l : List String} (hkept : ∀ t ∈ kept, t ≠ "")
    (hl : ∀ t ∈ l, t ≠ "") : l.foldl (fit_txt_value value_budget) (",".intercalate kept) =
      ",".intercalate (fitted value_budget kept l) := by
  induction l generalizing kept with
  | nil => rfl
  | cons value l ih =>
      have hvalue := hl value List.mem_cons_self
      have hrest : ∀ t ∈ l, t ≠ "" := fun t ht => hl t (List.mem_cons_of_mem value ht)
      rw [List.foldl_cons, fit_txt_value_intercalate value_budget hkept, fitted_cons]
      split
      · exact ih hkept hrest
      · apply ih _ hrest
        intro t ht
        rcases List.mem_append.mp ht with ht | ht
        · exact hkept t ht
        · rw [List.mem_singleton.mp ht]
          exact hvalue

/-- A value that was kept stays. -/
theorem prefix_fitted (value_budget : ℕ) (kept l : List String) :
    kept <+: fitted value_budget kept l := by
  induction l generalizing kept with
  | nil => exact List.prefix_rfl
  | cons value l ih =>
      rw [fitted_cons]
      split
      · exact ih kept
      · exact (List.prefix_append kept [value]).trans (ih _)

/-- The values that fit are in the order they came. -/
theorem sublist_fitted (value_budget : ℕ) (kept l : List String) :
    (fitted value_budget kept l).Sublist (kept ++ l) := by
  induction l generalizing kept with
  | nil =>
      rw [List.append_nil]
      exact List.Sublist.refl kept
  | cons value l ih =>
      rw [fitted_cons]
      split
      · exact (ih kept).trans ((List.sublist_cons_self value l).append_left kept)
      · have h := ih (kept ++ [value])
        rw [List.append_assoc, List.singleton_append] at h
        exact h

theorem size_intercalate_concat_le {kept more : List String} (hpre : kept <+: more)
    (value : String) : (",".intercalate (kept ++ [value])).utf8ByteSize ≤
      (",".intercalate (more ++ [value])).utf8ByteSize := by
  obtain ⟨rest, rfl⟩ := hpre
  rcases eq_or_ne rest [] with rfl | hrest
  · rw [List.append_nil]
  · rcases eq_or_ne kept [] with rfl | hkept
    · rw [List.nil_append, List.nil_append, intercalate_concat hrest, String.intercalate_singleton]
      simp only [String.utf8ByteSize_append]
      omega
    · rw [intercalate_concat hkept, intercalate_concat (by simp [hkept]),
        String.intercalate_append_of_ne_nil hkept hrest]
      simp only [String.utf8ByteSize_append]
      omega

/-- A value is left out only where there is no room for it, even after all others. -/
theorem mem_fitted (value_budget : ℕ) (kept l : List String) {value : String} (hv : value ∈ l) :
    value ∈ fitted value_budget kept l ∨
      value_budget < (",".intercalate (fitted value_budget kept l ++ [value])).utf8ByteSize := by
  induction l generalizing kept with
  | nil => exact absurd hv List.not_mem_nil
  | cons head l ih =>
      rw [fitted_cons]
      split
      · next hfull =>
        rcases List.mem_cons.mp hv with rfl | hv
        · right
          have hle := size_intercalate_concat_le (prefix_fitted value_budget kept l) value
          omega
        · exact ih kept hv
      · rcases List.mem_cons.mp hv with rfl | hv
        · left
          apply (prefix_fitted value_budget (kept ++ [value]) l).subset
          exact List.mem_append_right kept List.mem_cons_self
        · exact ih (kept ++ [head]) hv

/-- The text of one entry. -/
def joined_txt (values : List String) : Option String :=
  if values = [] then none else some (",".intercalate values)

/-- `fit_txt_values` joins a greedy choice of the values. -/
theorem fit_txt_values_eq {key : String} {values : List String} (hvalues : ∀ t ∈ values, t ≠ "")
    (hkey : key.utf8ByteSize + 1 ≤ DNS_SD_TXT_ENTRY_MAX_BYTES) :
    fit_txt_values key values =
      joined_txt (fitted (DNS_SD_TXT_ENTRY_MAX_BYTES - (key.utf8ByteSize + 1)) [] values) := by
  have hfilter : values.filter (· ≠ "") = values := by
    rw [List.filter_eq_self]
    intro t ht
    exact decide_eq_true (hvalues t ht)
  have hjoined := foldl_fit_txt_value (DNS_SD_TXT_ENTRY_MAX_BYTES - (key.utf8ByteSize + 1))
    (fun t ht => absurd ht List.not_mem_nil) hvalues
  rw [String.intercalate_nil] at hjoined
  rw [fit_txt_values, if_neg (by omega), hfilter]
  simp only [hjoined]
  have hkept : ∀ t ∈ fitted (DNS_SD_TXT_ENTRY_MAX_BYTES - (key.utf8ByteSize + 1)) [] values,
      t ≠ "" := by
    intro t ht
    exact hvalues t ((sublist_fitted _ [] values).subset ht)
  by_cases hnil : fitted (DNS_SD_TXT_ENTRY_MAX_BYTES - (key.utf8ByteSize + 1)) [] values = []
  · rw [joined_txt, if_pos hnil, hnil, String.intercalate_nil, if_pos rfl]
  · rw [joined_txt, if_neg hnil, if_neg (intercalate_ne_empty hnil hkept)]

/-! ## Direct candidates -/

/-- `if !list.contains(&x) { list.push(x) }`. -/
def push_new {α : Type} [DecidableEq α] (list : List α) (x : α) : List α :=
  if x ∈ list then list else list ++ [x]

theorem mem_push_new {α : Type} [DecidableEq α] {list : List α} {x y : α} :
    y ∈ push_new list x ↔ y ∈ list ∨ y = x := by
  rw [push_new]
  split
  · next hx =>
    constructor
    · exact Or.inl
    · rintro (hy | rfl)
      · exact hy
      · exact hx
  · rw [List.mem_append, List.mem_singleton]

theorem mem_foldl_push_new {α : Type} [DecidableEq α] {list l : List α} {y : α} :
    y ∈ l.foldl push_new list ↔ y ∈ list ∨ y ∈ l := by
  induction l generalizing list with
  | nil => simp only [List.foldl_nil, List.not_mem_nil, or_false]
  | cons x l ih => rw [List.foldl_cons, ih, mem_push_new, List.mem_cons, or_assoc]

/-- A socket that listens on the address. -/
def listens_on (bound : SocketAddr) (ip : IpAddr) : Bool :=
  bound.ip.is_ipv6 == ip.is_ipv6 && (bound.ip.is_unspecified || bound.ip == ip)

/-- The first bound socket that listens on the address and has a real port. -/
def compatible_bound (bound_sockets : List SocketAddr) (ip : IpAddr) : Option SocketAddr :=
  bound_sockets.find? fun bound => listens_on bound ip && !is_placeholder_port bound.port

/-- What is dialed for an endpoint candidate, if anything. -/
def dialed_address (bound_sockets : List SocketAddr) (addr : SocketAddr) : Option SocketAddr :=
  if is_placeholder_port addr.port then
    (compatible_bound bound_sockets addr.ip).map fun bound => addr.ip.socket bound.port
  else some addr

/-- An address of an interface with the port of its socket. -/
def interface_address (bound_sockets : List SocketAddr) (ip : IpAddr) : Option SocketAddr :=
  (compatible_bound bound_sockets ip).map fun bound => ip.socket bound.port

/-- `peer_direct_addresses`: the endpoint's own, then those of the interfaces, each once. -/
def peer_direct_addresses (ip_addrs bound_sockets : List SocketAddr)
    (interface_ips : List IpAddr) : List SocketAddr :=
  let selected := ((ip_addrs.filter fun addr => is_routable_ip addr.ip).filterMap
    (dialed_address bound_sockets)).foldl push_new []
  ((interface_ips.filter is_routable_ip).filterMap
    (interface_address bound_sockets)).foldl push_new selected

/-- The addresses a service advertises come from the endpoint's own, and from its interfaces. -/
theorem mem_peer_direct_addresses {ip_addrs bound_sockets : List SocketAddr}
    {interface_ips : List IpAddr} {a : SocketAddr} :
    a ∈ peer_direct_addresses ip_addrs bound_sockets interface_ips ↔
      (∃ addr ∈ ip_addrs, is_routable_ip addr.ip = true ∧ dialed_address bound_sockets addr = some a) ∨
      ∃ ip ∈ interface_ips, is_routable_ip ip = true ∧ interface_address bound_sockets ip = some a := by
  simp only [peer_direct_addresses, mem_foldl_push_new, List.not_mem_nil, false_or,
    List.mem_filterMap, List.mem_filter, and_assoc]

theorem dialed_address_ip {bound_sockets : List SocketAddr} {addr a : SocketAddr}
    (h : dialed_address bound_sockets addr = some a) : a.ip = addr.ip := by
  rw [dialed_address] at h
  split at h
  · rw [Option.map_eq_some_iff] at h
    obtain ⟨bound, -, rfl⟩ := h
    exact socket_ip _ _
  · cases h
    rfl

theorem interface_address_ip {bound_sockets : List SocketAddr} {ip : IpAddr} {a : SocketAddr}
    (h : interface_address bound_sockets ip = some a) : a.ip = ip := by
  rw [interface_address, Option.map_eq_some_iff] at h
  obtain ⟨bound, -, rfl⟩ := h
  exact socket_ip _ _

/-! ## The service -/

/-- What the advertisement reads of `iroh::EndpointAddr`: addresses and relay URLs in the
order of its set, the URLs by their text. -/
structure EndpointAddr where
  ip_addrs : List SocketAddr
  relay_urls : List String
  deriving DecidableEq, Repr

/-- `protocol` is `Udp` for every peer. -/
structure ServiceConfig where
  service_name : String
  instance_name : String
  port : ℕ
  addrs : List IpAddr
  txt : List (String × String)
  deriving DecidableEq, Repr

/-- Endpoint candidates without those whose local address is gone. -/
def reconciled (ip_addrs : List SocketAddr) (interface_ips known_local_ips : List IpAddr) :
    List SocketAddr :=
  ip_addrs.filter fun address => !known_local_ips.contains address.ip || interface_ips.contains address.ip

/-- Whether an interface may stand in the record. -/
def interface_is_eligible (direct_sockets : List SocketAddr) (ip : IpAddr) (bound : SocketAddr) :
    Bool :=
  is_routable_ip ip && listens_on bound ip &&
    !direct_sockets.any fun candidate => candidate.ip == ip && candidate.port != bound.port

/-- The one SRV port: that of the first bound socket with an eligible interface, or with a
direct candidate, or of the first bound socket. -/
def select_port (bound_sockets direct_sockets : List SocketAddr) (interface_ips : List IpAddr) :
    Option ℕ :=
  let dialable := bound_sockets.filter fun bound => !is_placeholder_port bound.port
  (((dialable.find? fun bound =>
      interface_ips.any fun ip => interface_is_eligible direct_sockets ip bound).or
    (dialable.find? fun bound => direct_sockets.any fun candidate =>
      candidate.port == bound.port && listens_on bound candidate.ip)).or
    dialable.head?).map SocketAddr.port

/-- `select_addrs` -/
def select_addrs (bound_sockets direct_sockets : List SocketAddr) (interface_ips : List IpAddr)
    (port : ℕ) : List IpAddr :=
  let addrs := (interface_ips.filter fun ip => bound_sockets.any fun bound =>
    bound.port == port && interface_is_eligible direct_sockets ip bound).foldl push_new []
  -- no inventory at hand: the endpoint's own addresses, on a port and a family it has
  if addrs = [] then
    ((direct_sockets.filter fun address => address.port == port && bound_sockets.any fun bound =>
      bound.port == address.port && listens_on bound address.ip).map SocketAddr.ip).foldl push_new []
  else addrs

/-- An error is `DiscoveryError::Setup`, by its message. -/
def peer_service_config_from_reconciled_snapshot (service_name instance_name : String)
    (bound_sockets : List SocketAddr) (node_addr : EndpointAddr)
    (interface_ips known_local_ips : List IpAddr) : Except String ServiceConfig :=
  let socket_addrs := reconciled node_addr.ip_addrs interface_ips known_local_ips
  let direct_sockets := peer_direct_addresses socket_addrs bound_sockets interface_ips
  let direct := direct_sockets.map SocketAddr.to_string
  match select_port bound_sockets direct_sockets interface_ips with
  | none => .error "endpoint has no dialable bound socket"
  | some port =>
    .ok {
      service_name, instance_name, port
      addrs := select_addrs bound_sockets direct_sockets interface_ips port
      txt := [(TXT_PK, instance_name)] ++
        (node_addr.relay_urls.head?.map fun relay => (TXT_RELAY, relay)).toList ++
        ((fit_txt_values TXT_ADDRESS direct).map fun direct => (TXT_ADDRESS, direct)).toList }

/-! ## What a reader gets -/

/-- The value of a TXT key. -/
def ServiceConfig.txt_value (config : ServiceConfig) (key : String) : Option String :=
  (config.txt.find? fun p => p.1 = key).map Prod.snd

/-- The members of the `address` property, split as `txt_addrs` does. -/
def ServiceConfig.txt_addresses (config : ServiceConfig) : List String :=
  match config.txt_value TXT_ADDRESS with
  | none => []
  | some addresses => (addresses.toList.splitOn ',').map String.ofList

/-- An entry of the `address` property with these members. -/
def address_entry_size (addresses : List String) : ℕ :=
  TXT_ADDRESS.utf8ByteSize + 1 + (",".intercalate addresses).utf8ByteSize

/-- What may be advertised: what the inventory lists, and candidates of the endpoint that
none has listed so far. -/
def live (known_local_ips : List IpAddr) (node_addr : EndpointAddr) (interface_ips : List IpAddr)
    (ip : IpAddr) : Prop :=
  ip ∈ interface_ips ∨ ip ∉ known_local_ips ∧ ∃ a ∈ node_addr.ip_addrs, a.ip = ip

/-- An address is dropped when its IP is known to be local and is on no interface any more. -/
theorem mem_reconciled {ip_addrs : List SocketAddr} {interface_ips known_local_ips : List IpAddr}
    {a : SocketAddr} : a ∈ reconciled ip_addrs interface_ips known_local_ips ↔
      a ∈ ip_addrs ∧ (a.ip ∈ known_local_ips → a.ip ∈ interface_ips) := by
  simp only [reconciled, List.mem_filter, Bool.or_eq_true, Bool.not_eq_true', List.contains_iff_mem,
    ← Bool.not_eq_true, imp_iff_not_or]

/-- An advertised address is live: on an interface, or never known as local. -/
theorem live_of_mem_direct {bound_sockets : List SocketAddr} {node_addr : EndpointAddr}
    {interface_ips known_local_ips : List IpAddr} {a : SocketAddr}
    (ha : a ∈ peer_direct_addresses (reconciled node_addr.ip_addrs interface_ips known_local_ips)
      bound_sockets interface_ips) : live known_local_ips node_addr interface_ips a.ip := by
  rcases mem_peer_direct_addresses.mp ha with ⟨addr, haddr, -, hdial⟩ | ⟨ip, hip, -, hdial⟩
  · obtain ⟨hmem, hknown⟩ := mem_reconciled.mp haddr
    have hip := dialed_address_ip hdial
    rw [live, hip]
    by_cases h : addr.ip ∈ known_local_ips
    · exact Or.inl (hknown h)
    · exact Or.inr ⟨h, addr, hmem, rfl⟩
  · left
    rw [interface_address_ip hdial]
    exact hip

/-- The addresses of the A and AAAA records are on an interface, or among the direct ones. -/
theorem mem_select_addrs {bound_sockets direct_sockets : List SocketAddr}
    {interface_ips : List IpAddr} {port : ℕ} {ip : IpAddr}
    (h : ip ∈ select_addrs bound_sockets direct_sockets interface_ips port) :
    ip ∈ interface_ips ∨ ∃ a ∈ direct_sockets, a.ip = ip := by
  simp only [select_addrs] at h
  split at h
  · rw [mem_foldl_push_new, List.mem_map] at h
    rcases h with h | ⟨a, ha, hip⟩
    · exact absurd h List.not_mem_nil
    · exact Or.inr ⟨a, List.mem_of_mem_filter ha, hip⟩
  · rw [mem_foldl_push_new] at h
    rcases h with h | h
    · exact absurd h List.not_mem_nil
    · exact Or.inl (List.mem_of_mem_filter h)

/-- What a configuration that is made holds. -/
theorem peer_service_config_ok {service_name instance_name : String}
    {bound_sockets : List SocketAddr} {node_addr : EndpointAddr}
    {interface_ips known_local_ips : List IpAddr} {c : ServiceConfig}
    (h : peer_service_config_from_reconciled_snapshot service_name instance_name bound_sockets
      node_addr interface_ips known_local_ips = .ok c) :
    let direct_sockets := peer_direct_addresses
      (reconciled node_addr.ip_addrs interface_ips known_local_ips) bound_sockets interface_ips
    c.addrs = select_addrs bound_sockets direct_sockets interface_ips c.port ∧
      c.txt_value TXT_ADDRESS = fit_txt_values TXT_ADDRESS (direct_sockets.map SocketAddr.to_string) := by
  simp only [peer_service_config_from_reconciled_snapshot] at h
  split at h
  · cases h
  · next port hport =>
    cases h
    refine ⟨rfl, ?_⟩
    have hpk : TXT_PK ≠ TXT_ADDRESS := by decide
    have hrelay : TXT_RELAY ≠ TXT_ADDRESS := by decide
    simp only [ServiceConfig.txt_value, List.find?_append, List.find?_cons, hpk, decide_false,
      List.find?_nil, Option.none_or]
    cases node_addr.relay_urls.head? with
    | none =>
        cases fit_txt_values TXT_ADDRESS _ with
        | none => rfl
        | some value => simp
    | some relay =>
        cases fit_txt_values TXT_ADDRESS _ with
        | none => simp [hrelay]
        | some value => simp [hrelay]

/-- A reader splits the property into the texts that were joined. -/
theorem txt_addresses_eq {c : ServiceConfig} {values : List String}
    (hvalues : ∀ t ∈ values, ',' ∉ t.toList) (h : c.txt_value TXT_ADDRESS = joined_txt values) :
    c.txt_addresses = values := by
  rw [joined_txt] at h
  split at h
  · next hnil =>
    rw [ServiceConfig.txt_addresses, h, hnil]
  · next hne =>
    have hsplit : (",".intercalate values).toList.splitOn ',' = values.map String.toList := by
      rw [String.toList_intercalate]
      apply List.splitOn_intercalate
      · intro t ht
        obtain ⟨v, hv, rfl⟩ := List.mem_map.mp ht
        exact hvalues v hv
      · intro hmap
        exact hne (List.map_eq_nil_iff.mp hmap)
    rw [ServiceConfig.txt_addresses, h]
    dsimp only
    rw [hsplit, List.map_map]
    have hid : String.ofList ∘ String.toList = id := by
      funext t
      exact String.ofList_toList
    rw [hid, List.map_id]

/-- The bytes that are left for the addresses. -/
def value_budget : ℕ := DNS_SD_TXT_ENTRY_MAX_BYTES - (TXT_ADDRESS.utf8ByteSize + 1)

/-- The addresses in its TXT entry are a greedy choice of the direct ones. -/
theorem peer_service_config_txt_addresses {service_name instance_name : String}
    {bound_sockets : List SocketAddr} {node_addr : EndpointAddr}
    {interface_ips known_local_ips : List IpAddr} {c : ServiceConfig}
    (h : peer_service_config_from_reconciled_snapshot service_name instance_name bound_sockets
      node_addr interface_ips known_local_ips = .ok c) :
    c.txt_addresses = fitted value_budget [] ((peer_direct_addresses
      (reconciled node_addr.ip_addrs interface_ips known_local_ips) bound_sockets
        interface_ips).map SocketAddr.to_string) := by
  obtain ⟨-, htxt⟩ := peer_service_config_ok h
  rw [fit_txt_values_eq (fun t ht => ?_) (by decide)] at htxt
  · apply txt_addresses_eq _ htxt
    intro t ht
    have hmem := (sublist_fitted _ [] _).subset ht
    rw [List.nil_append] at hmem
    obtain ⟨a, -, rfl⟩ := List.mem_map.mp hmem
    exact comma_notMem_to_string a
  · obtain ⟨a, -, rfl⟩ := List.mem_map.mp ht
    exact to_string_ne_empty a

/-- The property has members of `direct_sockets` only, and all that there is room for. -/
theorem peer_service_config_txt {service_name instance_name : String}
    {bound_sockets : List SocketAddr} {node_addr : EndpointAddr}
    {interface_ips known_local_ips : List IpAddr} {c : ServiceConfig}
    (h : peer_service_config_from_reconciled_snapshot service_name instance_name bound_sockets
      node_addr interface_ips known_local_ips = .ok c) :
    let direct_sockets := peer_direct_addresses
      (reconciled node_addr.ip_addrs interface_ips known_local_ips) bound_sockets interface_ips
    (∀ text ∈ c.txt_addresses, ∃ a ∈ direct_sockets, a.to_string = text) ∧
      ∀ a ∈ direct_sockets, a.to_string ∈ c.txt_addresses ∨
        DNS_SD_TXT_ENTRY_MAX_BYTES < address_entry_size (c.txt_addresses ++ [a.to_string]) := by
  intro direct_sockets
  have hsub := sublist_fitted value_budget [] (direct_sockets.map SocketAddr.to_string)
  rw [List.nil_append] at hsub
  rw [peer_service_config_txt_addresses h]
  constructor
  · intro text ht
    exact List.mem_map.mp (hsub.subset ht)
  · intro a ha
    rcases mem_fitted value_budget [] (direct_sockets.map SocketAddr.to_string)
      (List.mem_map_of_mem ha) with hin | hfull
    · exact Or.inl hin
    · right
      have hbudget : DNS_SD_TXT_ENTRY_MAX_BYTES = TXT_ADDRESS.utf8ByteSize + 1 + value_budget := by
        decide
      rw [address_entry_size, hbudget]
      exact Nat.add_lt_add_left hfull _

/-- The configuration depends on what has been listed only as a set. -/
theorem peer_service_config_congr {known known' : List IpAddr} (hsame : ∀ ip, ip ∈ known ↔ ip ∈ known')
    (service_name instance_name : String) (bound_sockets : List SocketAddr)
    (node_addr : EndpointAddr) (interface_ips : List IpAddr) :
    peer_service_config_from_reconciled_snapshot service_name instance_name bound_sockets node_addr
      interface_ips known =
    peer_service_config_from_reconciled_snapshot service_name instance_name bound_sockets node_addr
      interface_ips known' := by
  have hrec : reconciled node_addr.ip_addrs interface_ips known =
      reconciled node_addr.ip_addrs interface_ips known' := by
    apply List.filter_congr
    intro a _
    have hcontains : known.contains a.ip = known'.contains a.ip := by
      rw [Bool.eq_iff_iff, List.contains_iff_mem, List.contains_iff_mem]
      exact hsame a.ip
    rw [hcontains]
  rw [peer_service_config_from_reconciled_snapshot, hrec]
  rfl

end IrohHttp.Discovery
