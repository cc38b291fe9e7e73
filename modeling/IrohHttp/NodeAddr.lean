/-
Node addresses on their way through the adapter: `nodeAddrWithRelay` (`shared/src/utils.ts`) and
`node_ticket` (`iroh-http-core/src/addr.rs`) write them, `validate_node_id`
(`iroh-http-adapter/src/lib.rs`) lets them in, and `parse_node_addr` reads them.

The adapter has one bound on the length for node ids and tickets alike. The parser takes an
address for a relay URL if it has a `://`, and for a socket address otherwise; the text of a
socket address has no flow information.
-/
import IrohHttp.DialableAddresses
import IrohHttp.HeaderRows
import IrohHttp.Json
import IrohHttp.NodeIdText

set_option autoImplicit false

namespace IrohHttp.Addr

open IrohHttp.Discovery IrohHttp.Http IrohHttp.Shared

/-! ## Data -/

/-- Serialisable node address: node ID + relay and direct addresses. -/
structure NodeAddrInfo where
  id : String
  addrs : List String
  deriving DecidableEq, Repr

/-- `serde_json::to_string` of the structure, and `JSON.stringify` of an object with its fields. -/
def NodeAddrInfo.to_json (info : NodeAddrInfo) : String :=
  "\x7b\x22id\x22:" ++ Json.quote info.id ++ ",\x22addrs\x22:" ++ Json.array info.addrs ++ "\x7d"

/-- What `base32`, `serde_json` and `iroh` do for the parser. A public key has 32 bytes, and not
every 32 bytes are one. -/
structure AddrCrates (K U : Type) where
  /-- `base32::encode` and `base32::decode` with `Rfc4648Lower` and no padding. -/
  base32 : Base32.Codec
  /-- `serde_json::from_str::<NodeAddrInfo>` succeeds. -/
  from_str : String → Option NodeAddrInfo
  /-- What is serialised is read back. -/
  from_str_to_json : ∀ info, from_str info.to_json = some info
  /-- A structure is an object or an array, not a text without quotation marks. -/
  from_str_alphanumeric : ∀ s c, s.toList.head? = some c → c.isAlphanum = true → from_str s = none
  /-- `PublicKey::from_bytes`. -/
  from_bytes : Vector UInt8 32 → Except String K
  as_bytes : K → Vector UInt8 32
  from_bytes_as_bytes : ∀ key, from_bytes (as_bytes key) = .ok key
  /-- `str::parse::<RelayUrl>` succeeds. -/
  parse_relay_url : String → Option U
  relay_url_to_string : U → String
  /-- A URL is what its text says. -/
  parse_relay_url_to_string : ∀ url, parse_relay_url (relay_url_to_string url) = some url

/-- Parsed node address from a ticket string, bare node ID, or JSON address info. -/
structure ParsedNodeAddr (K U : Type) where
  node_id : K
  relay_urls : List U
  direct_addrs : List SocketAddr
  deriving DecidableEq, Repr

/-- What `node_addr` reads of an endpoint. -/
structure Endpoint (K U : Type) where
  id : K
  relay_urls : List U
  ip_addrs : List SocketAddr
  bound_sockets : List SocketAddr

section

variable {K U : Type} (crates : AddrCrates K U)

/-! ## Writing -/

/-- `base32_encode` of the bytes of a key. -/
def node_id_str (key : K) : String := crates.base32.encode (crates.as_bytes key).toList

/-- The candidates with the ports of the bound sockets. -/
def Endpoint.direct_socket_addrs (ep : Endpoint K U) : List SocketAddr :=
  reconcile_direct_addr_ports ep.ip_addrs ep.bound_sockets

/-- `node_addr`: the id, the relays and the direct addresses. -/
def Endpoint.node_addr (ep : Endpoint K U) : NodeAddrInfo where
  id := node_id_str crates ep.id
  addrs := ep.relay_urls.map crates.relay_url_to_string ++
    ep.direct_socket_addrs.map SocketAddr.to_string

/-- The serialisation of texts does not fail. -/
def node_ticket (ep : Endpoint K U) : Except CoreError String := .ok (ep.node_addr crates).to_json

/-- `relayUrl ? JSON.stringify({ id: nodeId, addrs: [relayUrl] }) : nodeId` -/
def node_addr_with_relay (node_id : String) (relay_url : Option String) : String :=
  match relay_url with
  | none => node_id
  | some relay_url => if relay_url = "" then node_id else NodeAddrInfo.to_json ⟨node_id, [relay_url]⟩

/-! ## The gate -/

/-- The longest node id that the adapters accept. -/
def MAX_NODE_ID_LEN : ℕ := 128

/-- `b'a'..=b'z' | b'2'..=b'7'` -/
def is_base32_byte (b : UInt8) : Bool := (97 ≤ b && b ≤ 122) || (50 ≤ b && b ≤ 55)

/-- `validate_node_id` -/
def validate_node_id (node_id : String) : Except AdapterInputError Unit := do
  validate_bounded_string "nodeId" node_id MAX_NODE_ID_LEN
  -- a ticket is left to the core
  if (node_id.toList.dropWhile is_whitespace).head? = some '\x7b' then return ()
  if !(Http.as_bytes node_id).all is_base32_byte then throw .InvalidNodeId

/-! ## Reading -/

/-- `parse_node_id` -/
def parse_node_id (s : String) : Except CoreError K :=
  match NodeIdText.Encoding.base32_decode crates.base32.decode s with
  | .error e => .error (CoreError.invalid_input e)
  | .ok bytes =>
    if h : bytes.length = 32 then
      (crates.from_bytes ⟨bytes.toArray, h⟩).mapError CoreError.invalid_input
    else .error (CoreError.invalid_input "node-id must be 32 bytes")

/-- `addr_str.contains("://")` -/
def has_scheme (addr_str : String) : Bool := decide ("://".toList <:+: addr_str.toList)

/-- The body of the loop of `parse_node_addr`. -/
def push_addr (parsed : List U × List SocketAddr) (addr_str : String) :
    Except CoreError (List U × List SocketAddr) :=
  if has_scheme addr_str then
    match crates.parse_relay_url addr_str with
    | none => .error (CoreError.invalid_input ("malformed relay URL: " ++ addr_str))
    | some url => .ok (parsed.1 ++ [url], parsed.2)
  else
    match parse_socket_addr addr_str with
    | none => .error (CoreError.invalid_input ("malformed address: " ++ addr_str))
    | some addr =>
      if addr.port = 0 then
        .error (CoreError.invalid_input ("direct address " ++ addr_str ++ " has no port (port 0)"))
      else .ok (parsed.1, parsed.2 ++ [addr])

/-- `parse_node_addr`: a ticket in JSON, or a bare node id. -/
def parse_node_addr (s : String) : Except CoreError (ParsedNodeAddr K U) :=
  match crates.from_str s with
  | some info => do
    let node_id ← parse_node_id crates info.id
    let (relay_urls, direct_addrs) ← info.addrs.foldlM (push_addr crates) ([], [])
    return ⟨node_id, relay_urls, direct_addrs⟩
  | none => do
    let node_id ← parse_node_id crates s
    return ⟨node_id, [], []⟩

end

/-! ## The gate, passed -/

section

variable {K U : Type} {crates : AddrCrates K U}

/-- What the gate asks of a character, by its byte. -/
def is_id_char (c : Char) : Bool :=
  decide (c.toNat < 128) && c.isAlphanum && is_base32_byte (UInt8.ofNat c.toNat)

/-- A node id is written in letters and digits of the base32 alphabet. -/
theorem node_id_str_char {key : K} {c : Char} (h : c ∈ (node_id_str crates key).toList) :
    c.toNat < 128 ∧ c.isAlphanum = true ∧ is_base32_byte (UInt8.ofNat c.toNat) = true := by
  have hall : Base32.alphabet.all is_id_char = true := by
    rw [Base32.alphabet_eq]
    decide
  have hchar := List.all_eq_true.mp hall c (crates.base32.mem_alphabet _ c h)
  rw [is_id_char, Bool.and_eq_true, Bool.and_eq_true, decide_eq_true_eq, and_assoc] at hchar
  exact hchar

theorem as_bytes_node_id_str (key : K) : Http.as_bytes (node_id_str crates key)
    = (node_id_str crates key).toList.map fun c => UInt8.ofNat c.toNat := by
  apply Utf8.toList_toUTF8_ascii
  exact fun c hc => (node_id_str_char hc).1

variable (crates) in
theorem length_node_id_str (key : K) : (node_id_str crates key).toList.length = 52 := by
  rw [String.length_toList, node_id_str, crates.base32.length_encode, Vector.length_toList, Base32.width]

variable (crates) in
/-- The first character of a node id. -/
theorem node_id_str_head (key : K) : ∃ c, (node_id_str crates key).toList.head? = some c ∧
    c ∈ (node_id_str crates key).toList := by
  cases hchars : (node_id_str crates key).toList with
  | nil =>
      have hlength := length_node_id_str crates key
      rw [hchars] at hlength
      cases hlength
  | cons c cs => exact ⟨c, rfl, List.mem_cons_self⟩

/-- The text of a node id passes the FFI's check. -/
theorem validate_node_id_str (key : K) : validate_node_id (node_id_str crates key) = .ok () := by
  have hbounded : validate_bounded_string "nodeId" (node_id_str crates key) MAX_NODE_ID_LEN = .ok () := by
    rw [validate_bounded_string_iff]
    refine ⟨?_, ?_, ?_⟩
    · intro hempty
      obtain ⟨c, hhead, -⟩ := node_id_str_head crates key
      rw [hempty] at hhead
      cases hhead
    · rw [as_bytes_node_id_str, List.length_map, length_node_id_str]
      decide
    · intro hnul
      have halpha := (node_id_str_char hnul).2.1
      revert halpha
      decide
  have hall : (Http.as_bytes (node_id_str crates key)).all is_base32_byte = true := by
    rw [as_bytes_node_id_str, List.all_map, List.all_eq_true]
    exact fun c hc => (node_id_str_char hc).2.2
  rw [validate_node_id, hbounded, hall]
  simp [bind, Except.bind, pure, Except.pure]

theorem to_json_head (info : NodeAddrInfo) : ∃ cs, info.to_json.toList = '\x7b' :: cs := by
  rw [NodeAddrInfo.to_json]
  simp only [String.toList_append, List.append_assoc]
  exact ⟨_, rfl⟩

theorem nul_notMem_to_json (info : NodeAddrInfo) : '\x00' ∉ info.to_json.toList := by
  rw [NodeAddrInfo.to_json]
  simp only [String.toList_append, List.mem_append, not_or]
  refine ⟨⟨⟨⟨?_, ?_⟩, ?_⟩, ?_⟩, ?_⟩
  · decide
  · exact fun hno => absurd (Json.quote_printable hno) (by decide)
  · decide
  · exact fun hno => absurd (Json.array_printable hno) (by decide)
  · decide

/-- Of a ticket only the length matters. -/
theorem validate_to_json (info : NodeAddrInfo) : validate_node_id info.to_json = .ok () ↔
    (Http.as_bytes info.to_json).length ≤ MAX_NODE_ID_LEN := by
  obtain ⟨cs, hcs⟩ := to_json_head info
  have hne : info.to_json ≠ "" := by
    intro hempty
    rw [hempty] at hcs
    cases hcs
  have hbrace : (info.to_json.toList.dropWhile is_whitespace).head? = some '\x7b' := by
    rw [hcs]
    rfl
  have hbounded := validate_bounded_string_iff "nodeId" info.to_json MAX_NODE_ID_LEN
  rw [and_iff_right hne, and_iff_left (nul_notMem_to_json info)] at hbounded
  rw [← hbounded, validate_node_id]
  cases validate_bounded_string "nodeId" info.to_json MAX_NODE_ID_LEN with
  | error e => exact iff_of_false (fun h => by cases h) fun h => by cases h
  | ok u => exact iff_of_true (by simp [bind, Except.bind, hbrace, pure, Except.pure]) rfl

/-! ## The parser -/

/-- A node id is read back from its text. -/
theorem parse_node_id_str (key : K) : parse_node_id crates (node_id_str crates key) = .ok key := by
  have hlength : (crates.as_bytes key).toList.length = 32 := Vector.length_toList
  have hself : (⟨(crates.as_bytes key).toList.toArray, hlength⟩ : Vector UInt8 32)
      = crates.as_bytes key := by
    apply Vector.toArray_inj.mp
    exact Vector.toArray_toList
  simp only [parse_node_id, node_id_str, NodeIdText.Encoding.base32_decode, crates.base32.decode_encode]
  rw [dif_pos hlength, hself, crates.from_bytes_as_bytes]
  rfl

/-- A bare node ID is no ticket. -/
theorem parse_bare (key : K) :
    parse_node_addr crates (node_id_str crates key) = .ok ⟨key, [], []⟩ := by
  obtain ⟨c, hhead, hmem⟩ := node_id_str_head crates key
  have hnone := crates.from_str_alphanumeric _ c hhead (node_id_str_char hmem).2.1
  rw [parse_node_addr, hnone]
  simp only [parse_node_id_str]
  rfl

theorem parse_to_json (key : K) (addrs : List String) (relay_urls : List U)
    (direct_addrs : List SocketAddr) :
    parse_node_addr crates (NodeAddrInfo.to_json ⟨node_id_str crates key, addrs⟩)
        = .ok ⟨key, relay_urls, direct_addrs⟩ ↔
      addrs.foldlM (push_addr crates) ([], []) = .ok (relay_urls, direct_addrs) := by
  rw [parse_node_addr, crates.from_str_to_json]
  simp only [parse_node_id_str]
  cases addrs.foldlM (push_addr crates) ([], []) with
  | error e => exact iff_of_false (fun h => by cases h) fun h => by cases h
  | ok parsed => simp [bind, Except.bind, pure, Except.pure, Prod.ext_iff]

/-- An address with a scheme is read as a relay. -/
theorem push_relay {text : String} {url : U} (h : has_scheme text = true)
    (hurl : crates.parse_relay_url text = some url) (parsed : List U × List SocketAddr) :
    push_addr crates parsed text = .ok (parsed.1 ++ [url], parsed.2) := by
  rw [push_addr, if_pos h, hurl]

/-- The text of a socket address is not taken for a URL. -/
theorem has_scheme_socket {a : SocketAddr} (h : a.InRange) : has_scheme a.to_string = false := by
  rw [has_scheme, decide_eq_false_iff_not]
  intro hscheme
  have htext := parse_socket_addr_eq_some.mp (parse_to_string h)
  exact htext.notMem (c := '/') (by decide) (hscheme.subset (by decide))

/-- A socket address is read back, but for its flow information. -/
theorem push_direct {a : SocketAddr} (h : a.InRange) (hport : a.port ≠ 0)
    (parsed : List U × List SocketAddr) :
    push_addr crates parsed a.to_string = .ok (parsed.1, parsed.2 ++ [a.without_flowinfo]) := by
  have hkept : a.without_flowinfo.port = a.port := by
    cases a with
    | v4 ip port => rfl
    | v6 ip port flowinfo scope_id => rfl
  rw [push_addr, has_scheme_socket h, if_neg Bool.false_ne_true, parse_to_string h]
  dsimp only
  rw [if_neg (by rw [hkept]; exact hport)]

/-- The relays of a list are read back in order. -/
theorem foldlM_relays {urls : List U}
    (h : ∀ url ∈ urls, has_scheme (crates.relay_url_to_string url) = true)
    (parsed : List U × List SocketAddr) :
    (urls.map crates.relay_url_to_string).foldlM (push_addr crates) parsed
      = .ok (parsed.1 ++ urls, parsed.2) := by
  induction urls generalizing parsed with
  | nil =>
      rw [List.append_nil]
      rfl
  | cons url urls ih =>
      have hurl := push_relay (h url List.mem_cons_self) (crates.parse_relay_url_to_string url) parsed
      rw [List.map_cons, List.foldlM_cons, hurl]
      have hrest := ih (fun url' hmem => h url' (List.mem_cons_of_mem url hmem))
        (parsed.1 ++ [url], parsed.2)
      rw [List.append_assoc, List.singleton_append] at hrest
      exact hrest

/-- The direct addresses of a list are read back in order. -/
theorem foldlM_directs {addrs : List SocketAddr} (h : ∀ a ∈ addrs, a.InRange ∧ a.port ≠ 0)
    (parsed : List U × List SocketAddr) :
    (addrs.map SocketAddr.to_string).foldlM (push_addr crates) parsed
      = .ok (parsed.1, parsed.2 ++ addrs.map SocketAddr.without_flowinfo) := by
  induction addrs generalizing parsed with
  | nil =>
      rw [List.map_nil, List.map_nil, List.append_nil]
      rfl
  | cons a addrs ih =>
      obtain ⟨hrange, hport⟩ := h a List.mem_cons_self
      rw [List.map_cons, List.foldlM_cons, push_direct hrange hport]
      have hrest := ih (fun a' hmem => h a' (List.mem_cons_of_mem a hmem))
        (parsed.1, parsed.2 ++ [a.without_flowinfo])
      rw [List.append_assoc, List.singleton_append] at hrest
      exact hrest

/-- Only an address with a scheme makes a relay. -/
theorem length_push_addr {parsed parsed' : List U × List SocketAddr} {text : String}
    (h : push_addr crates parsed text = .ok parsed') :
    parsed'.1.length = parsed.1.length + if has_scheme text = true then 1 else 0 := by
  rw [push_addr] at h
  by_cases hscheme : has_scheme text = true
  · rw [if_pos hscheme] at h ⊢
    cases hurl : crates.parse_relay_url text with
    | none =>
        rw [hurl] at h
        cases h
    | some url =>
        rw [hurl] at h
        cases h
        rw [List.length_append, List.length_singleton]
  · rw [if_neg hscheme] at h ⊢
    cases haddr : parse_socket_addr text with
    | none =>
        rw [haddr] at h
        cases h
    | some addr =>
        rw [haddr] at h
        dsimp only at h
        by_cases hport : addr.port = 0
        · rw [if_pos hport] at h
          cases h
        · rw [if_neg hport] at h
          cases h
          rfl

/-- There are as many relay URLs as there are texts with a scheme. -/
theorem length_foldlM {texts : List String} {parsed parsed' : List U × List SocketAddr}
    (h : texts.foldlM (push_addr crates) parsed = .ok parsed') :
    parsed'.1.length = parsed.1.length + texts.countP has_scheme := by
  induction texts generalizing parsed with
  | nil =>
      cases h
      rfl
  | cons text texts ih =>
      rw [List.foldlM_cons] at h
      cases hpush : push_addr crates parsed text with
      | error e =>
          rw [hpush] at h
          cases h
      | ok between =>
          rw [hpush] at h
          have hrest := ih h
          have hstep := length_push_addr hpush
          rw [List.countP_cons]
          omega

/-- A ticket is read as it was written, if each relay URL has a scheme and no address any flow
information; and not otherwise. -/
theorem foldlM_ticket {urls : List U} {addrs : List SocketAddr}
    (h : ∀ a ∈ addrs, a.InRange ∧ a.port ≠ 0) :
    (urls.map crates.relay_url_to_string ++ addrs.map SocketAddr.to_string).foldlM
    (push_addr crates)
        ([], []) = .ok (urls, addrs) ↔
      (∀ url ∈ urls, has_scheme (crates.relay_url_to_string url) = true) ∧
        ∀ a ∈ addrs, a.flowinfo = 0 := by
  have hread (hscheme : ∀ url ∈ urls, has_scheme (crates.relay_url_to_string url) = true) :
      (urls.map crates.relay_url_to_string ++ addrs.map SocketAddr.to_string).foldlM
        (push_addr crates) ([], []) = .ok (urls, addrs.map SocketAddr.without_flowinfo) := by
    rw [List.foldlM_append, foldlM_relays hscheme]
    exact foldlM_directs h (urls, [])
  constructor
  · intro hok
    have hlength := length_foldlM hok
    have hnone : (addrs.map SocketAddr.to_string).countP has_scheme = 0 := by
      rw [List.countP_eq_zero]
      intro text hmem
      obtain ⟨a, ha, rfl⟩ := List.mem_map.mp hmem
      rw [has_scheme_socket (h a ha).1]
      exact Bool.false_ne_true
    rw [List.countP_append, hnone] at hlength
    dsimp only at hlength
    rw [List.length_nil] at hlength
    -- as many texts with a scheme as URLs: every URL has one
    have hscheme : ∀ url ∈ urls, has_scheme (crates.relay_url_to_string url) = true := by
      intro url hmem
      have hall : (urls.map crates.relay_url_to_string).countP has_scheme
          = (urls.map crates.relay_url_to_string).length := by
        rw [List.length_map]
        omega
      exact List.countP_eq_length.mp hall _ (List.mem_map_of_mem hmem)
    refine ⟨hscheme, ?_⟩
    intro a ha
    rw [hread hscheme, Except.ok.injEq, Prod.mk.injEq] at hok
    have hself : addrs.map SocketAddr.without_flowinfo = addrs.map id := by
      rw [List.map_id]
      exact hok.2
    exact (without_flowinfo_eq a).mp (List.map_inj_left.mp hself a ha)
  · rintro ⟨hscheme, hflow⟩
    have hself : addrs.map SocketAddr.without_flowinfo = addrs := by
      rw [List.map_congr_left fun a ha => (without_flowinfo_eq a).mpr (hflow a ha), List.map_id']
    rw [hread hscheme, hself]

theorem ne_zero_of_real {port : ℕ} (h : is_placeholder_port port = false) : port ≠ 0 := by
  rintro rfl
  cases h

/-- The direct addresses of an endpoint have their ports put right. -/
theorem direct_socket_addrs_real {ep : Endpoint K U} (hcandidates : ∀ a ∈ ep.ip_addrs, a.InRange)
    (hbound : ∀ b ∈ ep.bound_sockets, b.InRange) :
    ∀ a ∈ ep.direct_socket_addrs, a.InRange ∧ a.port ≠ 0 := by
  intro a ha
  obtain ⟨candidate, hcandidate, hreconciled⟩ := List.mem_filterMap.mp ha
  have hrange := hcandidates candidate hcandidate
  rw [reconciled_address] at hreconciled
  split at hreconciled
  · next hreal =>
    cases hreconciled
    rw [Bool.not_eq_true'] at hreal
    exact ⟨hrange, ne_zero_of_real hreal⟩
  · rw [Option.map_eq_some_iff] at hreconciled
    obtain ⟨port, hborrow, rfl⟩ := hreconciled
    obtain ⟨hreal, bound, hmem, rfl⟩ := borrow_port_real hborrow
    refine ⟨inRange_set_port hrange (hbound bound hmem).port_lt, ?_⟩
    rw [set_port_port]
    exact ne_zero_of_real hreal

/-! ## What the adapter lets in, and what is read of it -/

/-- What becomes of a text that stands for a node address: when the adapter lets it in, and when
the parser gives the address. -/
structure Carried (crates : AddrCrates K U) (text : String) (addr : ParsedNodeAddr K U)
    (fits readable : Prop) : Prop where
  accepted : validate_node_id text = .ok () ↔ fits
  parsed : parse_node_addr crates text = .ok addr ↔ readable

/-- A ticket is let in if it is short enough. -/
def fits (text : String) : Prop := (Http.as_bytes text).length ≤ MAX_NODE_ID_LEN

/-- A bare node id is carried. -/
theorem carried_bare (key : K) :
    Carried crates (node_id_str crates key) ⟨key, [], []⟩ True True where
  accepted := iff_of_true (validate_node_id_str key) trivial
  parsed := iff_of_true (parse_bare key) trivial

theorem carried_relay (key : K) {relay_url : String} {url : U}
    (h : crates.parse_relay_url relay_url = some url) :
    Carried crates (node_addr_with_relay (node_id_str crates key) (some relay_url)) ⟨key, [url], []⟩
      (fits (node_addr_with_relay (node_id_str crates key) (some relay_url)))
      (has_scheme relay_url = true) := by
  rw [node_addr_with_relay]
  by_cases hempty : relay_url = ""
  · -- no relay is given at all
    rw [if_pos hempty, hempty]
    refine ⟨iff_of_true (validate_node_id_str key) ?_, iff_of_false ?_ (by decide)⟩
    · rw [fits, as_bytes_node_id_str, List.length_map, length_node_id_str]
      decide
    · rw [parse_bare]
      intro heq
      cases heq
  · rw [if_neg hempty]
    refine ⟨validate_to_json _, ?_⟩
    rw [parse_to_json]
    by_cases hscheme : has_scheme relay_url = true
    · rw [List.foldlM_cons, push_relay hscheme h]
      exact iff_of_true rfl hscheme
    · refine iff_of_false (fun hok => ?_) hscheme
      have hlength := length_foldlM hok
      rw [List.countP_cons_of_neg hscheme] at hlength
      cases hlength

/-- A ticket is carried when it fits, its relays have a scheme, and no address has flow information.
-/
theorem carried_ticket {ep : Endpoint K U} (hcandidates : ∀ a ∈ ep.ip_addrs, a.InRange)
    (hbound : ∀ b ∈ ep.bound_sockets, b.InRange) {ticket : String}
    (h : node_ticket crates ep = .ok ticket) :
    Carried crates ticket ⟨ep.id, ep.relay_urls, ep.direct_socket_addrs⟩ (fits ticket)
      ((∀ url ∈ ep.relay_urls, has_scheme (crates.relay_url_to_string url) = true) ∧
        ∀ a ∈ ep.direct_socket_addrs, a.flowinfo = 0) := by
  cases h
  refine ⟨validate_to_json _, ?_⟩
  rw [Endpoint.node_addr, parse_to_json]
  exact foldlM_ticket (direct_socket_addrs_real hcandidates hbound)

end

/-- **Node addresses, through the adapter.** A bare node ID always gets through. A ticket is let in
if it has at most 128 bytes, whatever is in it, and is read as the address it was made of if every
relay URL has a scheme and no direct address any flow information. -/
theorem node_addresses_carried {K U : Type} (crates : AddrCrates K U) :
    (∀ key, Carried crates (node_addr_with_relay (node_id_str crates key) none) ⟨key, [], []⟩
      True True) ∧
    (∀ key relay_url url, crates.parse_relay_url relay_url = some url →
      Carried crates (node_addr_with_relay (node_id_str crates key) (some relay_url)) ⟨key, [url], []⟩
        (fits (node_addr_with_relay (node_id_str crates key) (some relay_url)))
        (has_scheme relay_url = true)) ∧
    ∀ (ep : Endpoint K U) (ticket : String), (∀ a ∈ ep.ip_addrs, a.InRange) →
      (∀ b ∈ ep.bound_sockets, b.InRange) → node_ticket crates ep = .ok ticket →
      Carried crates ticket ⟨ep.id, ep.relay_urls, ep.direct_socket_addrs⟩ (fits ticket)
        ((∀ url ∈ ep.relay_urls, has_scheme (crates.relay_url_to_string url) = true) ∧
          ∀ a ∈ ep.direct_socket_addrs, a.flowinfo = 0) := by
  refine ⟨?_, ?_, ?_⟩
  · intro key
    exact carried_bare key
  · intro key relay_url url hurl
    exact carried_relay key hurl
  · intro ep ticket hcandidates hbound hticket
    exact carried_ticket hcandidates hbound hticket

/-! ## Length -/

section

variable {K U : Type} {crates : AddrCrates K U}

/-- No character of a text is escaped. -/
def is_plain (s : String) : Bool := s.toList.all fun c => Json.escape c == [c]

theorem length_as_bytes_append (s t : String) :
    (Http.as_bytes (s ++ t)).length = (Http.as_bytes s).length + (Http.as_bytes t).length := by
  rw [Http.as_bytes, Utf8.toList_toUTF8_append, List.length_append]
  rfl

/-- Quoting a text without escapes adds two bytes. -/
theorem length_quote_plain {s : String} (h : is_plain s = true) :
    (Http.as_bytes (Json.quote s)).length = (Http.as_bytes s).length + 2 := by
  have hplain : ∀ c ∈ s.toList, Json.escape c = [c] :=
    fun c hc => eq_of_beq (List.all_eq_true.mp h c hc)
  have hquote : Json.quote s = "\x22" ++ s ++ "\x22" := by
    rw [Json.quote, List.flatMap_congr hplain, List.flatMap_singleton']
    apply String.toList_inj.mp
    rw [String.toList_ofList, String.toList_append, String.toList_append]
    rfl
  have hmark : (Http.as_bytes "\x22").length = 1 := by decide
  rw [hquote, length_as_bytes_append, length_as_bytes_append, hmark]
  omega

theorem node_id_str_plain (key : K) : is_plain (node_id_str crates key) = true := by
  have hall : Base32.alphabet.all (fun c => Json.escape c == [c]) = true := by
    rw [Base32.alphabet_eq]
    decide
  apply List.all_eq_true.mpr
  exact fun c hc => List.all_eq_true.mp hall c (crates.base32.mem_alphabet _ c hc)

/-- With a relay URL in which nothing is escaped, there is room for 54 bytes of it. -/
theorem fits_relay_iff (key : K) {relay_url : String} (h : is_plain relay_url = true) :
    fits (NodeAddrInfo.to_json ⟨node_id_str crates key, [relay_url]⟩) ↔
      (Http.as_bytes relay_url).length ≤ 54 := by
  have hid : (Http.as_bytes (node_id_str crates key)).length = 52 := by
    rw [as_bytes_node_id_str, List.length_map, length_node_id_str]
  have hopen : (Http.as_bytes "\x7b\x22id\x22:").length = 6 := by decide
  have haddrs : (Http.as_bytes ",\x22addrs\x22:").length = 9 := by decide
  have hclose : (Http.as_bytes "\x7d").length = 1 := by decide
  have harray : (Http.as_bytes (Json.array [relay_url])).length = (Http.as_bytes relay_url).length + 4 := by
    have hbracket : (Http.as_bytes "[").length = 1 := by decide
    have hbracket' : (Http.as_bytes "]").length = 1 := by decide
    have hjoin : String.join ([].map fun item => "," ++ Json.quote item) = "" := rfl
    rw [Json.array, hjoin, length_as_bytes_append, length_as_bytes_append, length_as_bytes_append,
      length_quote_plain h, hbracket, hbracket']
    have hempty : (Http.as_bytes "").length = 0 := by decide
    omega
  rw [fits, MAX_NODE_ID_LEN, NodeAddrInfo.to_json, length_as_bytes_append, length_as_bytes_append,
    length_as_bytes_append, length_as_bytes_append, length_quote_plain (node_id_str_plain key), hid,
    hopen, haddrs, hclose, harray]
  omega

end

/-! ## A crate to try it with -/

/-- The addresses behind the id. -/
def read_addrs (id : List Char) : List Char → Option NodeAddrInfo
  | ',' :: '\x22' :: 'a' :: 'd' :: 'd' :: 'r' :: 's' :: '\x22' :: ':' :: rest => do
    let (addrs, rest) ← Json.read_array rest
    if rest = ['\x7d'] then some ⟨String.ofList id, addrs⟩ else none
  | _ => none

/-- Reads what `to_json` writes. -/
def read_info (s : String) : Option NodeAddrInfo :=
  match s.toList with
  | '\x7b' :: '\x22' :: 'i' :: 'd' :: '\x22' :: ':' :: '\x22' :: rest => do
    let (id, rest) ← Json.read_text rest
    read_addrs id rest
  | _ => none

theorem toList_to_json (info : NodeAddrInfo) : info.to_json.toList =
    "\x7b\x22id\x22:\x22".toList ++ (info.id.toList.flatMap Json.escape ++
      '\x22' :: (",\x22addrs\x22:".toList ++ ((Json.array info.addrs).toList ++ ['\x7d']))) := by
  rw [NodeAddrInfo.to_json]
  simp only [String.toList_append, List.append_assoc, Json.quote_append, List.cons_append]
  rfl

/-- The JSON of a node address is read back. -/
theorem read_info_to_json (info : NodeAddrInfo) : read_info info.to_json = some info := by
  have hread : read_info info.to_json = (Json.read_text (info.id.toList.flatMap Json.escape ++
      '\x22' :: (",\x22addrs\x22:".toList ++ ((Json.array info.addrs).toList ++ ['\x7d'])))).bind
        fun p => read_addrs p.1 p.2 := by
    rw [read_info, toList_to_json]
    rfl
  have haddrs : read_addrs info.id.toList (",\x22addrs\x22:".toList ++
      ((Json.array info.addrs).toList ++ ['\x7d'])) = some info := by
    have hpair := Json.read_array_array info.addrs ['\x7d']
    have hopen : ",\x22addrs\x22:".toList ++ ((Json.array info.addrs).toList ++ ['\x7d'])
        = ',' :: '\x22' :: 'a' :: 'd' :: 'd' :: 'r' :: 's' :: '\x22' :: ':' ::
          ((Json.array info.addrs).toList ++ ['\x7d']) := rfl
    rw [hopen, read_addrs, hpair]
    simp
  rw [hread, Json.read_text_quoted, Option.bind_some, haddrs]

/-- A text that starts with a letter or a digit is not read as JSON. -/
theorem read_info_alphanumeric (s : String) (c : Char) (hhead : s.toList.head? = some c)
    (h : c.isAlphanum = true) : read_info s = none := by
  rw [read_info]
  split
  · next rest heq =>
    rw [heq, List.head?_cons, Option.some.injEq] at hhead
    rw [← hhead] at h
    exact absurd h (by decide)
  · rfl

/-- Every 32 bytes are taken for a key and every text for a URL. -/
def sample_crates : AddrCrates (Vector UInt8 32) String where
  base32 := Base32.lowercase
  from_str := read_info
  from_str_to_json := read_info_to_json
  from_str_alphanumeric := read_info_alphanumeric
  from_bytes := .ok
  as_bytes := id
  from_bytes_as_bytes _ := rfl
  parse_relay_url := some
  relay_url_to_string := id
  parse_relay_url_to_string _ := rfl

/-- The generator of the group, as a key. -/
def sample_key : Vector UInt8 32 := ⟨(0x58 :: List.replicate 31 0x66).toArray, rfl⟩

/-- A relay URL of 55 bytes is too long for the adapter. -/
theorem long_relay_refused :
    ¬ ∀ (K U : Type) (crates : AddrCrates K U) (key : K) (relay_url : String) (url : U),
      crates.parse_relay_url relay_url = some url →
      validate_node_id (node_addr_with_relay (node_id_str crates key) (some relay_url)) = .ok () ∧
        parse_node_addr crates (node_addr_with_relay (node_id_str crates key) (some relay_url))
          = .ok ⟨key, [url], []⟩ := by
  intro h
  have hlet := (h _ _ sample_crates sample_key
    "https://eu-central-1.relay.infrastructure.example.net./" _ rfl).1
  have hfits : fits (NodeAddrInfo.to_json ⟨node_id_str sample_crates sample_key,
      ["https://eu-central-1.relay.infrastructure.example.net./"]⟩) := (validate_to_json _).mp hlet
  rw [fits_relay_iff sample_key (by decide)] at hfits
  revert hfits
  decide

/-- A node with one relay and one direct address. -/
def sample_endpoint : Endpoint (Vector UInt8 32) String :=
  ⟨sample_key, ["https://relay.example./"], [.v4 0xc0a80105 0], [.v4 0 5000]⟩

theorem node_addresses_carried_sample :
    validate_node_id (node_addr_with_relay (node_id_str sample_crates sample_key)
        (some "https://relay.example./")) = .ok () ∧
      parse_node_addr sample_crates (node_addr_with_relay (node_id_str sample_crates sample_key)
        (some "https://relay.example./")) = .ok ⟨sample_key, ["https://relay.example./"], []⟩ ∧
      parse_node_addr sample_crates (sample_endpoint.node_addr sample_crates).to_json
        = .ok ⟨sample_key, ["https://relay.example./"], [.v4 0xc0a80105 5000]⟩ := by
  obtain ⟨-, hrelay, hticket⟩ := node_addresses_carried sample_crates
  have hcarried := hrelay sample_key "https://relay.example./" "https://relay.example./" rfl
  refine ⟨hcarried.accepted.mpr ?_, hcarried.parsed.mpr (by decide), ?_⟩
  · exact (fits_relay_iff sample_key (by decide)).mpr (by decide)
  · exact (hticket sample_endpoint _ (by decide) (by decide) rfl).parsed.mpr (by decide)

end IrohHttp.Addr
