/-
Two readers of one record: `asIrohPeer` of `shared/src/discovery.ts` and
`peer_event_from_record` of `iroh-http-discovery/src/lib.rs`.

Both take the node from `pk` or from the instance label, and the direct addresses from the
`address` property, from the resolved addresses and, unchecked, from `relay`. They part on an
empty `pk`, on which white space is trimmed, on port 1, on link-local addresses, and on the
kinds of text that `AddressSanitiser.lean` tells apart. What one of them drops, another entry
of the record may still give.
-/
import IrohHttp.AdvertisedRecord
import IrohHttp.Uri

set_option autoImplicit false

open Digits

namespace IrohHttp.Discovery

variable {Id U : Type}

/-! ## `asIrohPeer` -/

/-- A record as the bindings hand it over: addresses by their texts, properties as an object. -/
structure JsServiceRecord where
  is_active : Bool
  instance_name : String
  addrs : List String
  txt : String → Option String

/-- `service_record_to_js`. Of two properties with one key, the last stays. -/
def service_record_to_js (rec : ServiceRecord) : JsServiceRecord where
  is_active := rec.is_active
  instance_name := rec.instance_name
  addrs := rec.addrs.map SocketAddr.to_string
  txt key := (rec.txt.reverse.find? fun p => p.1 = key).map Prod.snd

/-- The peer that the TypeScript side hands out. -/
structure DiscoveredPeer where
  node_id : String
  addrs : List String
  is_active : Bool
  deriving DecidableEq, Repr

/-- `WhiteSpace` and `LineTerminator` of ECMAScript. -/
def is_js_whitespace (c : Char) : Bool :=
  let n := c.toNat
  (9 ≤ n && n ≤ 13) || n == 0x20 || n == 0xa0 || n == 0x1680 || (0x2000 ≤ n && n ≤ 0x200a) ||
    n == 0x2028 || n == 0x2029 || n == 0x202f || n == 0x205f || n == 0x3000 || n == 0xfeff

/-- Characters that meet `p` are dropped at both ends. -/
def trim_by (p : Char → Bool) (cs : List Char) : List Char :=
  ((cs.dropWhile p).reverse.dropWhile p).reverse

/-- `String.prototype.trim` -/
def js_trim (s : String) : String := String.ofList (trim_by is_js_whitespace s.toList)

/-- `/^(https?|relay):\/\//i` -/
def is_relay_url (s : String) : Bool :=
  ["http://", "https://", "relay://"].any fun scheme =>
    scheme.toList.isPrefixOf (s.toList.map Char.toLower)

/-- A text is kept once, if it is a relay or can be dialled. -/
def push_addr (addrs : List String) (a : String) : List String :=
  if a = "" || addrs.contains a then addrs
  else if is_relay_url a || is_dialable_socket_addr a then addrs ++ [a]
  else addrs

/-- `asIrohPeer` -/
def as_iroh_peer (record : JsServiceRecord) : Option DiscoveredPeer :=
  let node_id := (record.txt TXT_PK).getD record.instance_name
  if node_id = "" then none
  else
    let addrs := (((record.txt TXT_ADDRESS).getD "").toList.splitOn ',').foldl
      (fun addrs a => push_addr addrs (js_trim (String.ofList a))) []
    let has_authoritative_direct_addr := addrs.any is_dialable_socket_addr
    let addrs := (record.txt TXT_RELAY).elim addrs (push_addr addrs)
    let addrs := record.addrs.foldl (fun addrs a =>
      if !has_authoritative_direct_addr || is_relay_url a then push_addr addrs a else addrs) addrs
    some ⟨node_id, addrs, record.is_active⟩

/-! ## Agreement of the two decoders -/

/-- The text, or another text of the same socket address. -/
def Occurs (t : String) (addrs : List String) : Prop :=
  t ∈ addrs ∨ ∃ a, parse_socket_addr t = some a ∧ ∃ e ∈ addrs, parse_socket_addr e = some a

/-- What both decoders make of a record: nothing, or the same peer with the same direct addresses.
-/
structure DecodersAgree (fmt : AddressFormats Id U) (rec : ServiceRecord) : Prop where
  null : as_iroh_peer (service_record_to_js rec) = none ↔ peer_event_from_record fmt.std rec = none
  same : ∀ peer event, as_iroh_peer (service_record_to_js rec) = some peer →
    peer_event_from_record fmt.std rec = some event →
      peer.node_id = event.node_id ∧ peer.is_active = event.is_active
  direct : ∀ peer event, as_iroh_peer (service_record_to_js rec) = some peer →
    peer_event_from_record fmt.std rec = some event → rec.is_active = true →
      ∀ t ∈ peer.addrs, is_dialable_socket_addr t = true → Occurs t event.addrs

/-- The members of the `address` property. -/
def members (rec : ServiceRecord) : List String :=
  ((rec.txt_value TXT_ADDRESS).map fun addresses =>
    (addresses.toList.splitOn ',').map String.ofList).getD []

/-- White space for JavaScript and not for Rust. -/
def byte_order_mark : Char := Char.ofNat 0xfeff

/-- White space for Rust and not for JavaScript. -/
def next_line : Char := Char.ofNat 0x85

/-- A valid member says the same. -/
def MemberGives (rec : ServiceRecord) (a : SocketAddr) : Prop := ∃ m ∈ members rec, reads_as m a

/-- No valid member has the host with another port. -/
def Uncontradicted (rec : ServiceRecord) (srv : SocketAddr) : Prop :=
  ∀ m ∈ members rec, ∀ a, reads_as m a → same_scoped_host a srv = true → a.port = srv.port

/-- A resolved address says the same, and stands. -/
def ResolvedGives (rec : ServiceRecord) (a : SocketAddr) : Prop :=
  ∃ srv ∈ rec.addrs, srv.without_flowinfo = a ∧ Uncontradicted rec srv

/-- The `relay` property is the text, or another text of the same socket address. -/
def RelayGives (rec : ServiceRecord) (t : String) : Prop :=
  ∃ relay, rec.txt_value TXT_RELAY = some relay ∧
    (relay = t ∨ ∃ a, parse_socket_addr t = some a ∧ parse_socket_addr relay = some a)

/-- What is asked of a member that the sanitiser takes: a socket address for the standard library
as well, not on port 1; if it is link-local, it is among the resolved addresses; if it has a byte
order mark around it, it is there without one, too. -/
def MemberAlike (rec : ServiceRecord) (m : String) : Prop :=
  ∃ a, parse_socket_addr (js_trim m) = some a ∧ a.port ≠ 1 ∧
    (is_ambiguous a = true → ResolvedGives rec a) ∧
    (byte_order_mark ∈ m.toList → MemberGives rec a ∨ ResolvedGives rec a)

/-- What is asked of a resolved address, if the sanitiser takes no member: not on port 1, and if a
valid member has its host with another port, another one has it. -/
def ResolvedAlike (rec : ServiceRecord) (srv : SocketAddr) : Prop :=
  srv.port ≠ 1 ∧ (Uncontradicted rec srv ∨ MemberGives rec srv.without_flowinfo)

/-- The condition on a record: its key, the texts of its list, and the relay. -/
structure ReadAlike (rec : ServiceRecord) : Prop where
  pk : rec.txt_value TXT_PK = some "" → rec.instance_name = ""
  members : rec.is_active = true → (rec.txt_value TXT_PK).getD rec.instance_name ≠ "" →
    ∀ m ∈ members rec, is_dialable_socket_addr (js_trim m) = true →
      RelayGives rec (js_trim m) ∨ MemberAlike rec m
  resolved : rec.is_active = true → (rec.txt_value TXT_PK).getD rec.instance_name ≠ "" →
    (∀ m ∈ Discovery.members rec, is_dialable_socket_addr (js_trim m) = false) →
    ∀ srv ∈ rec.addrs, srv.port ≠ 0 → srv.scope_id = 0 →
      RelayGives rec srv.to_string ∨ ResolvedAlike rec srv

/-! ## Trimming -/

section

variable {p q : Char → Bool} {cs : List Char}

theorem mem_dropWhile_or {c : Char} (h : c ∈ cs) : p c = true ∨ c ∈ cs.dropWhile p := by
  rw [← List.takeWhile_append_dropWhile (p := p) (l := cs), List.mem_append] at h
  rcases h with h | h
  · exact Or.inl (List.mem_takeWhile_imp h)
  · exact Or.inr h

/-- Trimming takes away only characters of the trimmed kind. -/
theorem mem_trim_by_or {c : Char} (h : c ∈ cs) : p c = true ∨ c ∈ trim_by p cs := by
  rcases mem_dropWhile_or (p := p) h with h | h
  · exact Or.inl h
  · rw [trim_by, List.mem_reverse]
    exact mem_dropWhile_or (List.mem_reverse.mpr h)

theorem dropWhile_agree (h : ∀ c ∈ cs, p c = q c) : cs.dropWhile p = cs.dropWhile q := by
  induction cs with
  | nil => rfl
  | cons c cs ih =>
      rw [List.dropWhile_cons, List.dropWhile_cons, h c List.mem_cons_self,
        ih fun d hd => h d (List.mem_cons_of_mem c hd)]

/-- Two trims agree on a text whose characters they class alike. -/
theorem trim_by_agree (h : ∀ c ∈ cs, p c = q c) : trim_by p cs = trim_by q cs := by
  have hrest : ∀ c ∈ (cs.dropWhile q).reverse, p c = q c := by
    intro c hc
    exact h c ((List.dropWhile_suffix q).subset (List.mem_reverse.mp hc))
  rw [trim_by, trim_by, dropWhile_agree h, dropWhile_agree hrest]

end

theorem trim_eq (s : String) : trim s = String.ofList (trim_by is_whitespace s.toList) := rfl

/-- The two alphabets of white space differ in two characters. -/
theorem is_whitespace_eq {c : Char} (hbom : c ≠ byte_order_mark) (hnel : c ≠ next_line) :
    is_js_whitespace c = is_whitespace c := by
  have hbom' : c.toNat ≠ 0xfeff := fun h => hbom (Char.ofNat_toNat c ▸ congrArg Char.ofNat h)
  have hnel' : c.toNat ≠ 0x85 := fun h => hnel (Char.ofNat_toNat c ▸ congrArg Char.ofNat h)
  simp only [is_js_whitespace, is_whitespace, beq_eq_false_iff_ne.mpr hbom',
    beq_eq_false_iff_ne.mpr hnel', Bool.or_false]

/-- A socket address between white space is the same for both, unless a byte order mark is
there. -/
theorem trim_of_js_trim {m : String} {a : SocketAddr} (h : parse_socket_addr (js_trim m) = some a) :
    parse_socket_addr (trim m) = some a ↔ byte_order_mark ∉ m.toList := by
  have htext := parse_socket_addr_eq_some.mp h
  have hclear : ∀ c ∈ m.toList, is_js_whitespace c = true ∨ is_socket_char c = true := by
    intro c hc
    rcases mem_trim_by_or (p := is_js_whitespace) hc with hspace | hmem
    · exact Or.inl hspace
    · right
      by_contra hno
      rw [Bool.not_eq_true] at hno
      rw [js_trim, String.toList_ofList] at htext
      exact htext.notMem hno hmem
  constructor
  · intro hparse hbom
    rcases mem_trim_by_or (p := is_whitespace) hbom with hspace | hmem
    · exact absurd hspace (by decide)
    · have htext' := parse_socket_addr_eq_some.mp hparse
      rw [trim_eq, String.toList_ofList] at htext'
      exact htext'.notMem (by decide) hmem
  · intro hbom
    have hagree : ∀ c ∈ m.toList, is_whitespace c = is_js_whitespace c := by
      intro c hc
      symm
      apply is_whitespace_eq
      · rintro rfl
        exact hbom hc
      · rintro rfl
        exact absurd (hclear _ hc) (by decide)
    rw [trim_eq, trim_by_agree hagree]
    exact h

/-! ## The Rust side -/

section

variable (fmt : AddressFormats Id U) {rec : ServiceRecord} {a : SocketAddr}

/-- The text of a parsed address is parsed as the same address. -/
theorem parse_of_parse {s : String} (h : parse_socket_addr s = some a) :
    a.without_flowinfo = a ∧ parse_socket_addr a.to_string = some a := by
  obtain ⟨hrange, hplain⟩ := (parse_socket_addr_eq_some.mp h).inRange
  have hparse := parse_to_string hrange
  rw [hplain] at hparse
  exact ⟨hplain, hparse⟩

/-- The addresses that the TXT entry gives. -/
theorem mem_authoritative_iff : a ∈ authoritative_addrs fmt rec ↔ MemberGives rec a := by
  rw [authoritative_addrs, MemberGives, members]
  cases rec.txt_value TXT_ADDRESS with
  | none => simp only [Option.map_none, Option.getD_none, List.not_mem_nil, false_and, exists_const]
  | some addresses =>
      rw [Option.map_some, Option.getD_some, Option.map_some, Option.getD_some]
      exact mem_txt_addrs fmt

/-- The SRV addresses that the TXT entry does not contradict. -/
theorem not_contradicted_iff {srv : SocketAddr} :
    is_contradicted fmt rec srv = false ↔ Uncontradicted rec srv := by
  rw [is_contradicted, List.any_eq_false]
  constructor
  · intro h m hm a hreads hhost
    have hno := h a ((mem_authoritative_iff fmt).mpr ⟨m, hm, hreads⟩)
    rw [hhost, Bool.true_and, bne_iff_ne, not_not] at hno
    exact hno
  · intro h a ha hno
    obtain ⟨m, hm, hreads⟩ := (mem_authoritative_iff fmt).mp ha
    rw [Bool.and_eq_true, bne_iff_ne] at hno
    exact hno.2 (h m hm a hreads hno.1)

theorem without_flowinfo_port (a : SocketAddr) : a.without_flowinfo.port = a.port := by
  cases a with
  | v4 ip port => rfl
  | v6 ip port flowinfo scope_id => rfl

theorem same_scoped_host_without_flowinfo (a srv : SocketAddr) :
    same_scoped_host a srv.without_flowinfo = same_scoped_host a srv := by
  cases srv with
  | v4 ip port => rfl
  | v6 ip port flowinfo scope_id =>
      cases a with
      | v4 ip' port' => rfl
      | v6 ip' port' flowinfo' scope_id' => rfl

/-- Flow information does not matter for whether an address stands. -/
theorem uncontradicted_without_flowinfo {srv : SocketAddr} :
    Uncontradicted rec srv.without_flowinfo ↔ Uncontradicted rec srv := by
  simp only [Uncontradicted, same_scoped_host_without_flowinfo, without_flowinfo_port]

theorem resolvedGives_self {srv : SocketAddr} (hsrv : srv ∈ rec.addrs) :
    ResolvedGives rec srv.without_flowinfo ↔ Uncontradicted rec srv := by
  constructor
  · rintro ⟨srv', -, hsame, hclear⟩
    rw [← uncontradicted_without_flowinfo, ← hsame, uncontradicted_without_flowinfo]
    exact hclear
  · exact fun h => ⟨srv, hsrv, rfl, h⟩

/-- **What a text needs** to occur among the addresses of the event. -/
theorem occurs_iff (haddrs : ∀ srv ∈ rec.addrs, srv.InRange) {t : String} :
    Occurs t (record_addrs fmt.std rec) ↔ RelayGives rec t ∨
      ∃ a, parse_socket_addr t = some a ∧ 1 < a.port ∧ (MemberGives rec a ∨ ResolvedGives rec a) := by
  obtain ⟨directs, heq, hmem⟩ := record_addrs_std fmt rec
  -- the texts among the direct addresses, by what they are the texts of
  have hdirects : ∀ e a, parse_socket_addr e = some a → e ∈ directs →
      1 < a.port ∧ (MemberGives rec a ∨ ResolvedGives rec a) := by
    intro e a hparse he
    rcases (hmem e).mp he with ⟨srv, hsrv, hport, hclear, rfl⟩ | ⟨b, hb, rfl⟩
    · rw [parse_to_string (haddrs srv hsrv), Option.some.injEq] at hparse
      rw [← hparse, without_flowinfo_port, resolvedGives_self hsrv]
      exact ⟨hport, Or.inr ((not_contradicted_iff fmt).mp hclear)⟩
    · obtain ⟨m, hm, hreads⟩ := (mem_authoritative_iff fmt).mp hb
      rw [(parse_of_parse hreads.1).2, Option.some.injEq] at hparse
      rw [← hparse]
      exact ⟨hreads.2.1, Or.inl ⟨m, hm, hreads⟩⟩
  have hparses : ∀ e ∈ directs, ∃ a, parse_socket_addr e = some a := by
    intro e he
    rcases (hmem e).mp he with ⟨srv, hsrv, -, -, rfl⟩ | ⟨b, hb, rfl⟩
    · exact ⟨_, parse_to_string (haddrs srv hsrv)⟩
    · obtain ⟨m, -, hreads⟩ := (mem_authoritative_iff fmt).mp hb
      exact ⟨b, (parse_of_parse hreads.1).2⟩
  rw [heq]
  constructor
  · rintro (ht | ⟨a, hparse, e, he, hsame⟩)
    · rcases List.mem_append.mp ht with ht | ht
      · obtain ⟨a, ha⟩ := hparses t ht
        exact Or.inr ⟨a, ha, hdirects t a ha ht⟩
      · exact Or.inl ⟨t, Option.mem_toList.mp ht, Or.inl rfl⟩
    · rcases List.mem_append.mp he with he | he
      · exact Or.inr ⟨a, hparse, hdirects e a hsame he⟩
      · exact Or.inl ⟨e, Option.mem_toList.mp he, Or.inr ⟨a, hparse, hsame⟩⟩
  · rintro (⟨relay, hrelay, hsame⟩ | ⟨a, hparse, hport, hgives⟩)
    · have hin : relay ∈ directs ++ (rec.txt_value TXT_RELAY).toList :=
        List.mem_append_right _ (Option.mem_toList.mpr hrelay)
      rcases hsame with rfl | ⟨a, hparse, hrelay⟩
      · exact Or.inl hin
      · exact Or.inr ⟨a, hparse, relay, hin, hrelay⟩
    · right
      refine ⟨a, hparse, a.to_string, List.mem_append_left _ ?_, (parse_of_parse hparse).2⟩
      rw [hmem]
      rcases hgives with hmember | ⟨srv, hsrv, rfl, hclear⟩
      · exact Or.inr ⟨a, (mem_authoritative_iff fmt).mpr hmember, rfl⟩
      · rw [without_flowinfo_port] at hport
        left
        exact ⟨srv, hsrv, hport, (not_contradicted_iff fmt).mpr hclear,
          (to_string_without_flowinfo srv).symm⟩

end

/-! ## The TypeScript side -/

/-- A dialable address has only digits, dots, colons and brackets in it. -/
theorem dialable_notMem {s : String} {c : Char} (h : is_dialable_socket_addr s = true)
    (hhex : is_digit 16 c = false) (hdot : c ≠ '.') (hcolon : c ≠ ':') (hopen : c ≠ '[')
    (hclose : c ≠ ']') : c ∉ s.toList := by
  have hdigit : is_digit 10 c = false := by
    rw [← Bool.not_eq_true]
    intro hno
    rw [is_digit_hex hno] at hhex
    exact Bool.false_ne_true hhex.symm
  obtain ⟨host, ds, hs, hport, hhost⟩ := is_dialable_iff.mp h
  rw [hs, List.mem_append, List.mem_cons, not_or, not_or]
  refine ⟨?_, hcolon, Numeral.notMem hport.text hdigit⟩
  rcases hhost with ⟨ip, hip⟩ | ⟨t, rfl, ht⟩
  · exact hip.notMem hdigit hdot
  · have hinner : c ∉ t := by
      rcases ht with ⟨ip, hip⟩ | ⟨ps, ns, hps, -, rfl⟩
      · exact hip.notMem hhex hdigit hdot hcolon
      · rw [List.mem_append, List.mem_cons, List.mem_singleton, not_or, not_or]
        refine ⟨?_, hcolon, hcolon⟩
        apply notMem_intercalate
        · rw [List.mem_singleton]
          exact hcolon
        · exact hps.notMem hhex hdigit hdot
    rw [List.mem_append, List.mem_cons, List.mem_singleton, not_or, not_or]
    exact ⟨⟨hopen, hinner⟩, hclose⟩

theorem dialable_port {s : String} {a : SocketAddr} (h : is_dialable_socket_addr s = true)
    (hparse : parse_socket_addr s = some a) : a.port ≠ 0 := by
  obtain ⟨host, ds, hs, hport, -⟩ := is_dialable_iff.mp h
  have htext := parse_socket_addr_eq_some.mp hparse
  generalize s.toList = cs at hs htext
  cases htext with
  | v4 hip hport' =>
      obtain ⟨-, rfl⟩ := port_unique hport' hport.text hs
      exact hport.pos
  | @v6 t z ds' ip scope_id hip hz hport' =>
      have hjoin : '[' :: t ++ z ++ ']' :: ':' :: ds' = ('[' :: t ++ z ++ [']']) ++ ':' :: ds' := by
        rw [List.append_assoc _ [']'], List.singleton_append]
      rw [hjoin] at hs
      obtain ⟨-, rfl⟩ := port_unique hport' hport.text hs
      exact hport.pos

/-- What the sanitiser takes of what `Display` writes. -/
theorem dialable_to_string {a : SocketAddr} (h : a.InRange) :
    is_dialable_socket_addr a.to_string = true ↔ a.port ≠ 0 ∧ a.scope_id = 0 := by
  constructor
  · intro hdialable
    constructor
    · have hport := dialable_port hdialable (parse_to_string h)
      rw [without_flowinfo_port] at hport
      exact hport
    · by_contra hscope
      cases a with
      | v4 ip port => exact hscope rfl
      | v6 ip port flowinfo scope_id =>
          rw [SocketAddr.scope_id] at hscope
          have hpercent : '%' ∈ (SocketAddr.v6 ip port flowinfo scope_id).to_string.toList := by
            simp [SocketAddr.to_string, hscope]
          exact dialable_notMem hdialable (by decide) (by decide) (by decide) (by decide) (by decide)
            hpercent
  · rintro ⟨hport, hscope⟩
    rw [is_dialable_iff]
    have hshort : ∀ {port : ℕ}, port < 2 ^ 16 → port ≠ 0 → ShortPort (Nat.toDigits 10 port) := by
      intro port hlt hne
      refine ⟨port_toDigits hlt, ?_, ?_⟩
      · rw [number_toDigits (by omega) (by omega)]
        exact hne
      · rw [Nat.length_toDigits_le_iff (by omega) (by omega)]
        omega
    cases a with
    | v4 ip port =>
        refine ⟨(ipv4_to_string ip).toList, Nat.toDigits 10 port, ?_, hshort h.2 hport,
          Or.inl ⟨_, ipv4Text_to_string ip⟩⟩
        simp only [SocketAddr.to_string, String.toList_append, toList_toString, List.append_assoc]
        rfl
    | v6 ip port flowinfo scope_id =>
        rw [SocketAddr.scope_id] at hscope
        refine ⟨'[' :: (ipv6_to_string ip).toList ++ [']'], Nat.toDigits 10 port, ?_,
          hshort h.2.1 hport, Or.inr ⟨_, rfl, Or.inl ⟨ip, ipv6Text_to_string h.1⟩⟩⟩
        simp only [SocketAddr.to_string, hscope, if_true, String.toList_append, toList_toString,
          List.append_assoc, List.cons_append]
        rfl

theorem dialable_ne_empty {s : String} (h : is_dialable_socket_addr s = true) : s ≠ "" := by
  rintro rfl
  exact absurd h (by decide)

/-- A dialable address is no relay URL. -/
theorem not_relay_of_dialable {s : String} (h : is_dialable_socket_addr s = true) :
    is_relay_url s = false := by
  rw [← Bool.not_eq_true, is_relay_url, List.any_eq_true]
  rintro ⟨scheme, hscheme, hpre⟩
  rw [List.isPrefixOf_iff_prefix] at hpre
  have hslash : ∀ scheme ∈ ["http://", "https://", "relay://"], '/' ∈ scheme.toList := by decide
  obtain ⟨c, hc, hlower⟩ := List.mem_map.mp (hpre.subset (hslash scheme hscheme))
  rw [Uri.toLower_eq hlower (by decide)] at hc
  exact dialable_notMem h (by decide) (by decide) (by decide) (by decide) (by decide) hc

section

variable {t : String} (ht : is_dialable_socket_addr t = true)
include ht

theorem mem_push_addr {addrs : List String} {a : String} :
    t ∈ push_addr addrs a ↔ t ∈ addrs ∨ a = t := by
  rw [push_addr]
  have hne := dialable_ne_empty ht
  split
  · next hskip =>
    rw [Bool.or_eq_true, decide_eq_true_eq, List.contains_iff_mem] at hskip
    constructor
    · exact Or.inl
    · rintro (hmem | rfl)
      · exact hmem
      · rcases hskip with hempty | hmem
        · exact absurd hempty hne
        · exact hmem
  · split
    · rw [List.mem_append, List.mem_singleton, eq_comm]
    · next hdrop =>
      constructor
      · exact Or.inl
      · rintro (hmem | rfl)
        · exact hmem
        · rw [ht, Bool.or_true] at hdrop
          exact absurd rfl hdrop

/-- The addresses that are in the list, or are pushed on it. -/
theorem mem_foldl_push_addr {α : Type} {f : α → String} {l : List α} {addrs : List String} :
    t ∈ l.foldl (fun addrs a => push_addr addrs (f a)) addrs ↔ t ∈ addrs ∨ ∃ a ∈ l, f a = t := by
  induction l generalizing addrs with
  | nil => simp only [List.foldl_nil, List.not_mem_nil, false_and, exists_false, or_false]
  | cons a l ih => rw [List.foldl_cons, ih, mem_push_addr ht, List.exists_mem_cons_iff, or_assoc]

/-- With a dialable member, nothing but relays is taken of the resolved addresses. -/
theorem mem_foldl_push_relays {l addrs : List String} :
    t ∈ l.foldl (fun addrs a => if is_relay_url a then push_addr addrs a else addrs) addrs ↔
      t ∈ addrs := by
  induction l generalizing addrs with
  | nil => rfl
  | cons a l ih =>
      rw [List.foldl_cons, ih]
      split
      · next hrelay =>
        rw [mem_push_addr ht]
        constructor
        · rintro (hmem | rfl)
          · exact hmem
          · rw [not_relay_of_dialable ht] at hrelay
            cases hrelay
        · exact Or.inl
      · rfl

end

/-! ## The two readers -/

section

variable {rec : ServiceRecord}

/-- With one property for each key, it does not matter which of them stays. -/
theorem txt_to_js (hkeys : (rec.txt.map Prod.fst).Nodup) (key : String) :
    (service_record_to_js rec).txt key = rec.txt_value key := by
  have hlookup : rec.txt.reverse.find? (fun p => p.1 = key) = rec.txt.find? fun p => p.1 = key := by
    cases hfind : rec.txt.find? fun p => p.1 = key with
    | none =>
        rw [List.find?_eq_none] at hfind ⊢
        exact fun p hp => hfind p (List.mem_reverse.mp hp)
    | some p =>
        have hmem := List.mem_of_find?_eq_some hfind
        have hkey := List.find?_some hfind
        rw [decide_eq_true_eq] at hkey
        cases hrev : rec.txt.reverse.find? fun p => p.1 = key with
        | none =>
            rw [List.find?_eq_none] at hrev
            exact absurd (decide_eq_true hkey) (hrev p (List.mem_reverse.mpr hmem))
        | some p' =>
            have hmem' := List.mem_reverse.mp (List.mem_of_find?_eq_some hrev)
            have hkey' := List.find?_some hrev
            rw [decide_eq_true_eq] at hkey'
            rw [List.inj_on_of_nodup_map hkeys hmem' hmem (hkey'.trans hkey.symm)]
  exact congrArg (Option.map Prod.snd) hlookup

/-- The TypeScript decoder gives no peer when the key, or the instance name in its place, is empty.
-/
theorem as_iroh_peer_eq_none (hkeys : (rec.txt.map Prod.fst).Nodup) :
    as_iroh_peer (service_record_to_js rec) = none ↔
      (rec.txt_value TXT_PK).getD rec.instance_name = "" := by
  simp only [as_iroh_peer, txt_to_js hkeys]
  split
  · next hempty => exact ⟨fun _ => hempty, fun _ => rfl⟩
  · next hne => exact ⟨fun hno => (by cases hno), fun hempty => absurd hempty hne⟩

theorem dialable_member_iff {t : String} (ht : is_dialable_socket_addr t = true) :
    (∃ a ∈ ((rec.txt_value TXT_ADDRESS).getD "").toList.splitOn ',', js_trim (String.ofList a) = t) ↔
      ∃ m ∈ members rec, js_trim m = t := by
  rw [members]
  cases rec.txt_value TXT_ADDRESS with
  | none =>
      rw [Option.getD_none, Option.map_none, Option.getD_none]
      constructor
      · rintro ⟨a, ha, rfl⟩
        -- the one member of an empty text
        rw [List.mem_singleton.mp ha] at ht
        exact absurd ht (by decide)
      · rintro ⟨m, hm, -⟩
        exact absurd hm List.not_mem_nil
  | some addresses =>
      rw [Option.getD_some, Option.map_some, Option.getD_some]
      simp only [List.mem_map, exists_exists_and_eq_and]

/-- **What TypeScript takes.** -/
theorem as_iroh_peer_eq_some (hkeys : (rec.txt.map Prod.fst).Nodup) {peer : DiscoveredPeer}
    (h : as_iroh_peer (service_record_to_js rec) = some peer) :
    peer.node_id = (rec.txt_value TXT_PK).getD rec.instance_name ∧ peer.is_active = rec.is_active ∧
      ∀ t, is_dialable_socket_addr t = true →
        (t ∈ peer.addrs ↔ (∃ m ∈ members rec, js_trim m = t) ∨ rec.txt_value TXT_RELAY = some t ∨
          (∀ m ∈ members rec, is_dialable_socket_addr (js_trim m) = false) ∧
            ∃ srv ∈ rec.addrs, srv.to_string = t) := by
  simp only [as_iroh_peer, txt_to_js hkeys] at h
  split at h
  · cases h
  · rw [Option.some.injEq] at h
    subst h
    refine ⟨rfl, rfl, fun t ht => ?_⟩
    dsimp only
    have haddrs : (service_record_to_js rec).addrs = rec.addrs.map SocketAddr.to_string := rfl
    rw [haddrs]
    -- the members, then the relay, then the resolved addresses
    have hmembers : ∀ u, is_dialable_socket_addr u = true →
        (u ∈ (((rec.txt_value TXT_ADDRESS).getD "").toList.splitOn ',').foldl
          (fun addrs a => push_addr addrs (js_trim (String.ofList a))) [] ↔
          ∃ m ∈ members rec, js_trim m = u) := by
      intro u hu
      rw [mem_foldl_push_addr hu, dialable_member_iff hu]
      simp only [List.not_mem_nil, false_or]
    generalize (((rec.txt_value TXT_ADDRESS).getD "").toList.splitOn ',').foldl
      (fun addrs a => push_addr addrs (js_trim (String.ofList a))) [] = addrs at hmembers
    have hrelay : t ∈ (rec.txt_value TXT_RELAY).elim addrs (push_addr addrs) ↔
        (∃ m ∈ members rec, js_trim m = t) ∨ rec.txt_value TXT_RELAY = some t := by
      cases rec.txt_value TXT_RELAY with
      | none => rw [Option.elim_none, hmembers t ht, eq_false (by simp : ¬ none = some t), or_false]
      | some relay => rw [Option.elim_some, mem_push_addr ht, hmembers t ht, Option.some.injEq]
    have hauthoritative : addrs.any is_dialable_socket_addr = true ↔
        ∃ m ∈ members rec, is_dialable_socket_addr (js_trim m) = true := by
      rw [List.any_eq_true]
      constructor
      · rintro ⟨u, hu, hdialable⟩
        obtain ⟨m, hm, rfl⟩ := (hmembers u hdialable).mp hu
        exact ⟨m, hm, hdialable⟩
      · rintro ⟨m, hm, hdialable⟩
        exact ⟨js_trim m, (hmembers _ hdialable).mpr ⟨m, hm, rfl⟩, hdialable⟩
    rw [← or_assoc, ← hrelay]
    cases hany : addrs.any is_dialable_socket_addr with
    | true =>
        obtain ⟨m, hm, hdialable⟩ := hauthoritative.mp hany
        simp only [Bool.not_true, Bool.false_or]
        rw [mem_foldl_push_relays ht]
        constructor
        · exact Or.inl
        · rintro (hmem | ⟨hnone, -⟩)
          · exact hmem
          · rw [hnone m hm] at hdialable
            cases hdialable
    | false =>
        have hnone : ∀ m ∈ members rec, is_dialable_socket_addr (js_trim m) = false := by
          intro m hm
          rw [← Bool.not_eq_true]
          intro hdialable
          rw [hauthoritative.mpr ⟨m, hm, hdialable⟩] at hany
          cases hany
        simp only [Bool.not_false, Bool.true_or, if_true]
        apply (mem_foldl_push_addr (f := fun a => a) ht).trans
        simp only [List.mem_map, exists_exists_and_eq_and, and_iff_right hnone]

/-- The Rust decoder gives no event when there is no key and no instance name. -/
theorem peer_event_eq_none (fmt : AddressFormats Id U) :
    peer_event_from_record fmt.std rec = none ↔
      (rec.txt_value TXT_PK).getD "" = "" ∧ rec.instance_name = "" := by
  rw [peer_event_from_record, Option.map_eq_none_iff, Option.or_eq_none_iff]
  apply and_congr
  · cases rec.txt_value TXT_PK with
    | none => simp
    | some pk => simp
  · simp

/-- What the event of the Rust decoder holds. -/
theorem peer_event_eq_some (fmt : AddressFormats Id U) {event : PeerDiscoveryEvent}
    (h : peer_event_from_record fmt.std rec = some event) :
    event.is_active = rec.is_active ∧
      (rec.txt_value TXT_PK ≠ some "" →
        event.node_id = (rec.txt_value TXT_PK).getD rec.instance_name) ∧
      (rec.is_active = true → event.addrs = record_addrs fmt.std rec) := by
  rw [peer_event_from_record, Option.map_eq_some_iff] at h
  obtain ⟨node_id, hnode, rfl⟩ := h
  have hid : rec.txt_value TXT_PK ≠ some "" →
      node_id = (rec.txt_value TXT_PK).getD rec.instance_name := by
    intro hpk
    cases hvalue : rec.txt_value TXT_PK with
    | none =>
        rw [hvalue, Option.filter_none, Option.none_or] at hnode
        split at hnode
        · cases hnode
        · exact (Option.some.inj hnode).symm
    | some pk =>
        have hne : pk ≠ "" := by
          rintro rfl
          exact hpk hvalue
        rw [hvalue, Option.filter_some, if_pos (decide_eq_true hne), Option.some_or] at hnode
        exact (Option.some.inj hnode).symm
  cases hactive : rec.is_active with
  | true => exact ⟨rfl, hid, fun _ => rfl⟩
  | false => exact ⟨rfl, hid, fun hno => (by cases hno)⟩

section

variable (fmt : AddressFormats Id U) (haddrs : ∀ srv ∈ rec.addrs, srv.InRange)
include haddrs

/-- A member that the sanitiser takes. -/
theorem member_occurs_iff {m : String} (hm : m ∈ members rec)
    (ht : is_dialable_socket_addr (js_trim m) = true) :
    Occurs (js_trim m) (record_addrs fmt.std rec) ↔
      RelayGives rec (js_trim m) ∨ MemberAlike rec m := by
  rw [occurs_iff fmt haddrs]
  apply or_congr_right
  constructor
  · rintro ⟨a, hparse, hport, hgives⟩
    refine ⟨a, hparse, by omega, ?_, fun _ => hgives⟩
    intro hambiguous
    rcases hgives with ⟨m', -, hreads⟩ | hresolved
    · rw [hreads.2.2] at hambiguous
      cases hambiguous
    · exact hresolved
  · rintro ⟨a, hparse, hport, hambiguous, hbom⟩
    have hpos := dialable_port ht hparse
    refine ⟨a, hparse, by omega, ?_⟩
    by_cases hmark : byte_order_mark ∈ m.toList
    · exact hbom hmark
    · cases hclear : is_ambiguous a with
      | true => exact Or.inr (hambiguous hclear)
      | false => exact Or.inl ⟨m, hm, (trim_of_js_trim hparse).mpr hmark, by omega, hclear⟩

/-- A resolved address that the sanitiser takes. -/
theorem resolved_occurs_iff {srv : SocketAddr} (hsrv : srv ∈ rec.addrs) (hport : srv.port ≠ 0) :
    Occurs srv.to_string (record_addrs fmt.std rec) ↔
      RelayGives rec srv.to_string ∨ ResolvedAlike rec srv := by
  rw [occurs_iff fmt haddrs]
  apply or_congr_right
  rw [parse_to_string (haddrs srv hsrv), ResolvedAlike]
  constructor
  · rintro ⟨a, hparse, hreal, hgives⟩
    rw [Option.some.injEq] at hparse
    subst hparse
    rw [without_flowinfo_port] at hreal
    rw [resolvedGives_self hsrv] at hgives
    exact ⟨by omega, hgives.symm⟩
  · rintro ⟨hreal, hgives⟩
    refine ⟨srv.without_flowinfo, rfl, ?_, ?_⟩
    · rw [without_flowinfo_port]
      omega
    · rw [resolvedGives_self hsrv]
      exact hgives.symm

/-- **The two readers agree** on a record if and only if it is `ReadAlike`. -/
theorem decoders_agree (hkeys : (rec.txt.map Prod.fst).Nodup) :
    DecodersAgree fmt rec ↔ ReadAlike rec := by
  have hboth (hpk : rec.txt_value TXT_PK = some "" → rec.instance_name = "") :
      as_iroh_peer (service_record_to_js rec) = none ↔ peer_event_from_record fmt.std rec = none := by
    rw [as_iroh_peer_eq_none hkeys, peer_event_eq_none]
    cases hvalue : rec.txt_value TXT_PK with
    | none => simp only [Option.getD_none, true_and]
    | some pk =>
        rw [Option.getD_some, Option.getD_some]
        constructor
        · rintro rfl
          exact ⟨rfl, hpk hvalue⟩
        · exact And.left
  constructor
  · intro h
    have hpk : rec.txt_value TXT_PK = some "" → rec.instance_name = "" := by
      intro hvalue
      have hnone := h.null
      rw [as_iroh_peer_eq_none hkeys, peer_event_eq_none, hvalue] at hnone
      exact (hnone.mp rfl).2
    -- of a named record both have an account
    have hevent (hactive : rec.is_active = true)
        (hnamed : (rec.txt_value TXT_PK).getD rec.instance_name ≠ "") :
        ∃ peer, as_iroh_peer (service_record_to_js rec) = some peer ∧
          ∀ t ∈ peer.addrs, is_dialable_socket_addr t = true →
            Occurs t (record_addrs fmt.std rec) := by
      rw [Ne, ← as_iroh_peer_eq_none hkeys] at hnamed
      obtain ⟨peer, hpeer⟩ := Option.ne_none_iff_exists'.mp hnamed
      rw [hboth hpk] at hnamed
      obtain ⟨event, hevent⟩ := Option.ne_none_iff_exists'.mp hnamed
      refine ⟨peer, hpeer, ?_⟩
      have hdirect := h.direct peer event hpeer hevent hactive
      rw [(peer_event_eq_some fmt hevent).2.2 hactive] at hdirect
      exact hdirect
    refine ⟨hpk, ?_, ?_⟩
    · intro hactive hnamed m hm ht
      obtain ⟨peer, hpeer, hoccurs⟩ := hevent hactive hnamed
      rw [← member_occurs_iff fmt haddrs hm ht]
      apply hoccurs _ _ ht
      rw [(as_iroh_peer_eq_some hkeys hpeer).2.2 _ ht]
      exact Or.inl ⟨m, hm, rfl⟩
    · intro hactive hnamed hnone srv hsrv hport hscope
      obtain ⟨peer, hpeer, hoccurs⟩ := hevent hactive hnamed
      have ht := (dialable_to_string (haddrs srv hsrv)).mpr ⟨hport, hscope⟩
      rw [← resolved_occurs_iff fmt haddrs hsrv hport]
      apply hoccurs _ _ ht
      rw [(as_iroh_peer_eq_some hkeys hpeer).2.2 _ ht]
      exact Or.inr (Or.inr ⟨hnone, srv, hsrv, rfl⟩)
  · intro h
    refine ⟨hboth h.pk, ?_, ?_⟩
    · intro peer event hpeer hevent
      obtain ⟨hid, hactive, -⟩ := as_iroh_peer_eq_some hkeys hpeer
      obtain ⟨hactive', hid', -⟩ := peer_event_eq_some fmt hevent
      have hpk : rec.txt_value TXT_PK ≠ some "" := by
        intro hvalue
        have hno := (as_iroh_peer_eq_none hkeys).mpr (by rw [hvalue, Option.getD_some])
        rw [hno] at hpeer
        cases hpeer
      exact ⟨hid.trans (hid' hpk).symm, hactive.trans hactive'.symm⟩
    · intro peer event hpeer hevent hactive t ht hdialable
      have hnamed : (rec.txt_value TXT_PK).getD rec.instance_name ≠ "" := by
        intro hempty
        rw [(as_iroh_peer_eq_none hkeys).mpr hempty] at hpeer
        cases hpeer
      rw [(peer_event_eq_some fmt hevent).2.2 hactive]
      rw [(as_iroh_peer_eq_some hkeys hpeer).2.2 t hdialable] at ht
      rcases ht with ⟨m, hm, rfl⟩ | hrelay | ⟨hnone, srv, hsrv, rfl⟩
      · rw [member_occurs_iff fmt haddrs hm hdialable]
        exact h.members hactive hnamed m hm hdialable
      · rw [occurs_iff fmt haddrs]
        exact Or.inl ⟨t, hrelay, Or.inl rfl⟩
      · obtain ⟨hport, hscope⟩ := (dialable_to_string (haddrs srv hsrv)).mp hdialable
        rw [resolved_occurs_iff fmt haddrs hsrv hport]
        exact h.resolved hactive hnamed hnone srv hsrv hport hscope

end

end

/-- An empty `pk` in front of an instance label. -/
theorem decoders_differ :
    ¬ (∀ (fmt : AddressFormats String String) (rec : ServiceRecord),
      (rec.txt.map Prod.fst).Nodup → (∀ srv ∈ rec.addrs, srv.InRange) → DecodersAgree fmt rec) := by
  intro h
  have hagree := h ⟨Except.ok, id, Function.injective_id, fun _ => none, fun _ => "", some, id⟩
    ⟨true, "peer", [], [(TXT_PK, "")]⟩ (by decide) (by decide)
  have hnull := hagree.null
  rw [as_iroh_peer_eq_none (by decide), peer_event_eq_none] at hnull
  revert hnull
  decide

/-- A member on port 1, which TypeScript keeps. -/
theorem decoders_differ_on_port_one :
    ¬ DecodersAgree (U := String) ⟨Except.ok, id, Function.injective_id, fun _ => none, fun _ => "",
        some, id⟩ ⟨true, "peer", [], [(TXT_ADDRESS, "192.168.1.5:1")]⟩ := by
  intro h
  have hdialable : is_dialable_socket_addr (js_trim "192.168.1.5:1") = true := by decide
  have hoccurs : Occurs (js_trim "192.168.1.5:1") _ :=
    h.direct _ _ rfl rfl rfl _ (by decide) hdialable
  rcases (member_occurs_iff _ (by decide) (by decide) hdialable).mp hoccurs with
    ⟨relay, hrelay, -⟩ | ⟨a, hparse, hport, -⟩
  · have hnone : ServiceRecord.txt_value ⟨true, "peer", [], [(TXT_ADDRESS, "192.168.1.5:1")]⟩
        TXT_RELAY = none := by decide
    rw [hnone] at hrelay
    cases hrelay
  · have hone : parse_socket_addr (js_trim "192.168.1.5:1") = some (.v4 0xC0A80105 1) := by decide
    rw [hone, Option.some.injEq] at hparse
    rw [← hparse] at hport
    exact hport rfl

/-- A record with a relay, two direct addresses that its resolved ones repeat, an empty member and one
that is no address. -/
def two_direct : ServiceRecord :=
  ⟨true, "peer", [.v4 0xC0A80105 443, .v4 0x0A000007 4433],
    [(TXT_PK, "abc"), (TXT_RELAY, "https://relay.example/"),
      (TXT_ADDRESS, "192.168.1.5:443, 10.0.0.7:4433,,nowhere")]⟩

theorem decoders_agree_on_two_addresses :
    DecodersAgree (U := String) ⟨Except.ok, id, Function.injective_id, fun _ => none, fun _ => "",
        some, id⟩ two_direct ∧
      as_iroh_peer (service_record_to_js two_direct) =
        some ⟨"abc", ["192.168.1.5:443", "10.0.0.7:4433", "https://relay.example/"], true⟩ := by
  have hmembers : members two_direct = ["192.168.1.5:443", " 10.0.0.7:4433", "", "nowhere"] := by decide
  have halike : ReadAlike two_direct := by
    refine ⟨by decide, fun _ _ m hm ht => .inr ?_, fun _ _ hnone => ?_⟩
    · have hcases : m = "192.168.1.5:443" ∨ m = " 10.0.0.7:4433" := by
        rw [hmembers] at hm
        revert ht
        rcases hm with _ | ⟨_, _ | ⟨_, _ | ⟨_, _ | ⟨_, _ | _⟩⟩⟩⟩
        all_goals decide
      rcases hcases with rfl | rfl
      · exact ⟨.v4 0xC0A80105 443, by decide, by decide, nofun, fun hmark => absurd hmark (by decide)⟩
      · exact ⟨.v4 0x0A000007 4433, by decide, by decide, nofun, fun hmark => absurd hmark (by decide)⟩
    · -- the sanitiser takes a member, so the resolved addresses are not asked
      have hfirst := hnone "192.168.1.5:443" (by rw [hmembers]; exact List.mem_cons_self)
      exact absurd hfirst (by decide)
  exact ⟨(decoders_agree _ (by decide) (by decide)).mpr halike, by decide⟩

end IrohHttp.Discovery
