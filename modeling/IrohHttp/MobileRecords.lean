/-
A DNS-SD record on its way over the mobile bridge: what `IrohHttpPlugin.kt` writes of a service that
Android has resolved, and what `raw_event_from_mobile` (`mobile_discovery_transport.rs`) reads.

The platform writes an address in any of the forms that the grammar of an IP address has, so an
`InetAddress` carries its text together with the number the text stands for.
-/
import IrohHttp.Http
import IrohHttp.NativeActors
import IrohHttp.NetParser

set_option autoImplicit false

open Digits

namespace IrohHttp.Mobile

open IrohHttp.Discovery IrohHttp.Http IrohHttp.NativeActors

/-! ## Addresses of the platform -/

/-- An IPv4 address of Java, with its text. -/
structure Inet4Address where
  host_address : String
  ip : ℕ
  text : Ipv4Text host_address.toList ip

/-- `getHostAddress` puts `zone` behind the literal: the name or the index of an interface, or
nothing. -/
structure Inet6Address where
  literal : String
  zone : String
  ip : ℕ
  scope_id : ℕ
  text : Ipv6Text literal.toList ip
  marked : zone.toList = [] ∨ zone.toList.head? = some '%'
  in_range : scope_id < 2 ^ 31

/-- An address of Java. -/
inductive InetAddress
  | v4 (a : Inet4Address)
  | v6 (a : Inet6Address)

/-- `getHostAddress` -/
def InetAddress.host_address : InetAddress → String
  | .v4 a => a.host_address
  | .v6 a => a.literal ++ a.zone

/-- `substringBefore`. -/
def substring_before (mark : Char) (s : String) : String :=
  String.ofList (s.toList.takeWhile (· ≠ mark))

/-- The address with a port, as Rust has it. -/
def InetAddress.socket (port : ℕ) : InetAddress → SocketAddr
  | .v4 a => .v4 a.ip port
  | .v6 a => .v6 a.ip port 0 a.scope_id

/-- `formatSocketAddr`. -/
def format_socket_addr (host : InetAddress) (port : ℕ) : String :=
  let literal := substring_before '%' host.host_address
  match host with
  | .v4 _ => literal ++ ":" ++ toString port
  | .v6 a =>
    let scope := if 0 < a.scope_id then "%" ++ toString a.scope_id else ""
    "[" ++ literal ++ scope ++ "]:" ++ toString port

/-! ## Records -/

/-- A record, as it goes from the plugin to Rust. -/
structure MobileServiceRecord where
  is_active : Bool
  service_type : String
  instance_name : String
  host : Option String
  port : ℕ
  addrs : List String
  txt : List (String × String)
  deriving DecidableEq, Repr

/-- What `onServiceResolved` reads of a service. An attribute may have no value; the bytes of one that
has are here the text that `String(bytes, UTF_8)` makes of them. -/
structure NsdServiceInfo where
  host : Option InetAddress
  port : ℕ
  attributes : List (String × Option String)
  distinct : (attributes.map Prod.fst).Nodup
  in_range : port < 2 ^ 16

/-- The record of `onServiceResolved`. No socket has a port of one at most. -/
def resolved_record (service_type instance_name : String) (resolved : NsdServiceInfo) :
    MobileServiceRecord where
  is_active := true
  service_type := service_type
  instance_name := instance_name
  host := resolved.host.map InetAddress.host_address
  port := resolved.port
  addrs :=
    match resolved.host with
    | some host =>
      if 1 < resolved.port then [format_socket_addr host resolved.port].filter (· ≠ "") else []
    | none => []
  txt := resolved.attributes.map fun property => (property.1, property.2.getD "")

/-- The record of `onServiceLost`. -/
def lost_record (service_type instance_name : String) : MobileServiceRecord where
  is_active := false
  service_type := service_type
  instance_name := instance_name
  host := none
  port := 0
  addrs := []
  txt := []

/-! ## Service types -/

/-- The protocols of DNS-SD. -/
inductive Protocol
  | Udp
  | Tcp
  deriving DecidableEq, Repr

/-- `Protocol::label` -/
def Protocol.label : Protocol → String
  | .Udp => "_udp"
  | .Tcp => "_tcp"

/-- The name under which a protocol goes to the plugin. -/
def Protocol.name : Protocol → String
  | .Udp => "udp"
  | .Tcp => "tcp"

/-- A name in an error text. Rust's `{:?}` would also escape what is in it. -/
def quoted (name : String) : String := "\"" ++ name ++ "\""

/-- The characters of a service name. -/
def is_service_char (c : Char) : Bool := c.isAlphanum || c == '-'

/-- `engine::service_type`. -/
def service_type (service_name : String) (protocol : Protocol) : Except String String :=
  if service_name = "" then .error "service name must not be empty"
  else if service_name.toList.all is_service_char then
    .ok ("_" ++ service_name ++ "." ++ protocol.label ++ ".local.")
  else .error (quoted service_name ++ " must contain only ASCII letters, digits, and '-'")

/-- `protoSuffix`, and the same test of the iOS plugin. -/
def proto_suffix (protocol : String) : String :=
  if eq_ignore_ascii_case protocol "tcp" then "_tcp" else "_udp"

/-- The type that either plugin gives to a browse session. -/
def session_service_type (service_name protocol : String) : String :=
  "_" ++ service_name ++ "." ++ proto_suffix protocol

/-- `trim_end_matches('.')`. -/
def trim_end_dots (cs : List Char) : List Char := (cs.reverse.dropWhile (· = '.')).reverse

/-- `short` of `equivalent_service_type`. -/
def short (value : String) : List Char :=
  let trimmed := trim_end_dots value.toList
  if ".local".toList.isSuffixOf trimmed then trimmed.take (trimmed.length - 6) else trimmed

/-- `equivalent_service_type`: whether two types differ in their case and in a `.local` at most. -/
def equivalent_service_type (native configured : String) : Bool :=
  (short native).map Char.toLower == (short configured).map Char.toLower

/-! ## Events -/

/-- `ServiceRecord` of the engine, with all its fields. -/
structure ServiceRecord where
  is_active : Bool
  service_type : String
  instance_name : String
  host : Option String
  port : ℕ
  addrs : List SocketAddr
  txt : List (String × String)
  deriving DecidableEq, Repr

/-- An event of the engine. -/
inductive RawEvent
  | Upsert (record : ServiceRecord)
  | Remove (service_type instance_name : String)
  deriving DecidableEq, Repr

/-- The pairs of a `HashMap`, in the order of their keys. -/
def sorted_txt (txt : List (String × String)) : List (String × String) :=
  txt.mergeSort fun left right => left.1 ≤ right.1

/-- The addresses, or an error at the first that does not parse. -/
def parse_addrs : List String → Except String (List SocketAddr)
  | [] => .ok []
  | address :: addresses =>
    match parse_socket_addr address with
    | none => .error ("native DNS-SD returned an invalid socket address: " ++ address)
    | some addr => (parse_addrs addresses).map (addr :: ·)

/-- `raw_event_from_mobile` -/
def raw_event_from_mobile (record : MobileServiceRecord) (service_type : String) :
    Except String RawEvent :=
  if equivalent_service_type record.service_type service_type = false then
    .error ("native DNS-SD returned service type " ++ quoted record.service_type ++ " for " ++
      quoted service_type)
  else if record.is_active = false then .ok (.Remove service_type record.instance_name)
  else
    (parse_addrs record.addrs).map fun addrs =>
      .Upsert
        { is_active := true, service_type := service_type, instance_name := record.instance_name,
          host := record.host, port := record.port, addrs := addrs, txt := sorted_txt record.txt }

/-! ## An address reads back -/

/-- What stands in front of a mark. -/
theorem takeWhile_literal {mark : Char} {front rest : List Char} (hfront : mark ∉ front)
    (hrest : rest = [] ∨ rest.head? = some mark) :
    (front ++ rest).takeWhile (· ≠ mark) = front := by
  have hall : ∀ c ∈ front, decide (c ≠ mark) = true := by
    intro c hc
    rw [decide_eq_true_iff]
    rintro rfl
    exact hfront hc
  rw [List.takeWhile_append_of_pos hall]
  have hstop : rest.takeWhile (· ≠ mark) = [] := by
    rcases hrest with hnil | hhead
    · rw [hnil, List.takeWhile_nil]
    · obtain ⟨tail, htail⟩ := List.head?_eq_some_iff.mp hhead
      rw [htail, List.takeWhile_cons_of_neg]
      simp only [ne_eq, not_true_eq_false, decide_false, Bool.false_eq_true, not_false_eq_true]
  rw [hstop, List.append_nil]

/-- An IPv4 address has no interface to cut off. -/
theorem literal_v4 (a : Inet4Address) :
    (substring_before '%' (InetAddress.v4 a).host_address).toList = a.host_address.toList := by
  have hmark : '%' ∉ a.host_address.toList := a.text.notMem (by decide) (by decide)
  have htake := takeWhile_literal hmark (.inl rfl)
  rw [List.append_nil] at htake
  rw [substring_before, String.toList_ofList]
  exact htake

/-- The interface is cut off. -/
theorem literal_v6 (a : Inet6Address) :
    (substring_before '%' (InetAddress.v6 a).host_address).toList = a.literal.toList := by
  have hmark : '%' ∉ a.literal.toList :=
    a.text.notMem (by decide) (by decide) (by decide) (by decide)
  rw [substring_before, String.toList_ofList, InetAddress.host_address, String.toList_append]
  exact takeWhile_literal hmark a.marked

theorem scope_toDigits {scope_id : ℕ} (h : scope_id < 2 ^ 31) :
    Numeral 0xffffffff 10 none true (Nat.toDigits 10 scope_id) :=
  numeral_toDigits (by omega) (by omega) (by omega) fun k hno => (by cases hno)

/-- What is written between the literal and the bracket. -/
theorem scopeText_written (a : Inet6Address) :
    ScopeText (if 0 < a.scope_id then "%" ++ toString a.scope_id else "").toList a.scope_id := by
  split
  · have htext := ScopeText.index (scope_toDigits a.in_range)
    rw [number_toDigits (by omega) (by omega)] at htext
    rw [String.toList_append, toList_toString]
    exact htext
  · next hzero =>
    have hscope : a.scope_id = 0 := by omega
    rw [hscope]
    exact .none

/-- **The round trip**: what Kotlin writes, Rust reads as that address. -/
theorem parse_format_socket_addr (host : InetAddress) {port : ℕ} (hport : port < 2 ^ 16) :
    parse_socket_addr (format_socket_addr host port) = some (host.socket port) := by
  have hnumber : number 10 (Nat.toDigits 10 port) = port := number_toDigits (by omega) (by omega) port
  rw [parse_socket_addr_eq_some]
  cases host with
  | v4 a =>
      have htext := SocketText.v4 a.text (port_toDigits hport)
      rw [hnumber] at htext
      simp only [format_socket_addr, String.toList_append, literal_v4, toList_toString,
        List.append_assoc]
      exact htext
  | v6 a =>
      have htext := SocketText.v6 a.text (scopeText_written a) (port_toDigits hport)
      rw [hnumber] at htext
      simp only [format_socket_addr, String.toList_append, literal_v6, toList_toString]
      simp only [List.append_assoc, List.cons_append] at htext ⊢
      exact htext

theorem format_socket_addr_ne_empty (host : InetAddress) (port : ℕ) :
    format_socket_addr host port ≠ "" := by
  intro hno
  have hlist := congrArg String.toList hno
  cases host with
  | v4 a =>
      simp only [format_socket_addr, String.toList_append] at hlist
      simp at hlist
  | v6 a =>
      simp only [format_socket_addr, String.toList_append] at hlist
      simp at hlist

/-! ## A service type matches its own -/

/-- Dots at the end are dropped. -/
theorem trim_end_dots_append {cs : List Char} (hcs : cs.getLast? ≠ some '.') (n : ℕ) :
    trim_end_dots (cs ++ List.replicate n '.') = cs := by
  have hdots : ∀ c ∈ List.replicate n '.', decide (c = '.') = true := by
    intro c hc
    rw [decide_eq_true_iff]
    exact (List.mem_replicate.mp hc).2
  rw [trim_end_dots, List.reverse_append, List.reverse_replicate,
    List.dropWhile_append_of_pos hdots]
  cases hlist : cs.reverse with
  | nil =>
      rw [List.reverse_eq_nil_iff] at hlist
      rw [hlist]
      rfl
  | cons c rest =>
      have hlast : cs.getLast? = some c := by
        rw [← List.head?_reverse, hlist, List.head?_cons]
      have hdot : c ≠ '.' := by
        rintro rfl
        exact hcs hlast
      rw [List.dropWhile_cons_of_neg (by rw [decide_eq_true_iff]; exact hdot), ← hlist,
        List.reverse_reverse]

/-- The type without its domain. -/
def base_type (service_name : String) (protocol : Protocol) : String :=
  "_" ++ service_name ++ "." ++ protocol.label

theorem proto_suffix_name (protocol : Protocol) : proto_suffix protocol.name = protocol.label := by
  cases protocol with
  | Udp => rfl
  | Tcp => rfl

/-- The plugin's type is the one without a domain. -/
theorem session_service_type_eq (service_name : String) (protocol : Protocol) :
    session_service_type service_name protocol.name = base_type service_name protocol := by
  rw [session_service_type, proto_suffix_name, base_type]

/-- Rust's type has the domain `local`. -/
theorem service_type_eq_ok {service_name full : String} {protocol : Protocol}
    (h : service_type service_name protocol = .ok full) :
    full = base_type service_name protocol ++ ".local." := by
  unfold service_type at h
  split at h
  · cases h
  · split at h
    · exact (Except.ok.inj h).symm
    · cases h

theorem getLast?_base_type (service_name : String) (protocol : Protocol) :
    (base_type service_name protocol).toList.getLast? = some 'p' := by
  rw [base_type, String.toList_append, List.getLast?_append]
  cases protocol with
  | Udp => rfl
  | Tcp => rfl

/-- A type without a domain stays as it is. -/
theorem short_base_type (service_name : String) (protocol : Protocol) :
    short (base_type service_name protocol) = (base_type service_name protocol).toList := by
  have hlast := getLast?_base_type service_name protocol
  have hdot : (base_type service_name protocol).toList.getLast? ≠ some '.' := by
    rw [hlast]
    decide
  have htrim := trim_end_dots_append hdot 0
  rw [List.replicate_zero, List.append_nil] at htrim
  have hsuffix : ".local".toList.isSuffixOf (base_type service_name protocol).toList = false := by
    rw [Bool.eq_false_iff, ne_eq, List.isSuffixOf_iff_suffix]
    rintro ⟨front, hfront⟩
    rw [← hfront, List.getLast?_append_of_ne_nil _ (by decide)] at hlast
    exact absurd hlast (by decide)
  simp only [short, htrim, hsuffix, Bool.false_eq_true, if_false]

/-- The domain is dropped. -/
theorem short_full_type (service_name : String) (protocol : Protocol) :
    short (base_type service_name protocol ++ ".local.") = (base_type service_name protocol).toList := by
  have hdot : ((base_type service_name protocol).toList ++ ".local".toList).getLast? ≠ some '.' := by
    rw [List.getLast?_append_of_ne_nil _ (by decide)]
    decide
  have htrim := trim_end_dots_append hdot 1
  have hfull : (base_type service_name protocol ++ ".local.").toList
      = (base_type service_name protocol).toList ++ ".local".toList ++ List.replicate 1 '.' := by
    rw [String.toList_append, List.append_assoc]
    rfl
  have hsuffix : ".local".toList.isSuffixOf
      ((base_type service_name protocol).toList ++ ".local".toList) = true := by
    rw [List.isSuffixOf_iff_suffix]
    exact List.suffix_append _ _
  have hlength : ((base_type service_name protocol).toList ++ ".local".toList).length - 6
      = (base_type service_name protocol).toList.length := by
    rw [List.length_append]
    exact Nat.add_sub_cancel _ 6
  simp only [short, hfull, htrim, hsuffix, if_true, hlength, List.take_left']

/-- A session's own type is the one it was configured with, whichever plugin named it. -/
theorem equivalent_own_type {service_name full : String} {protocol : Protocol}
    (h : service_type service_name protocol = .ok full) :
    equivalent_service_type (session_service_type service_name protocol.name) full = true := by
  rw [service_type_eq_ok h, session_service_type_eq, equivalent_service_type, short_base_type,
    short_full_type]
  exact beq_self_eq_true _

/-! ## Records decode -/

/-- An active record with addresses that can be read is an upsert. -/
theorem upsert_of_parsed {record : MobileServiceRecord} {service_type : String}
    {addrs : List SocketAddr}
    (htype : equivalent_service_type record.service_type service_type = true)
    (hactive : record.is_active = true) (haddrs : parse_addrs record.addrs = .ok addrs) :
    raw_event_from_mobile record service_type = .ok (.Upsert
      { is_active := true, service_type := service_type, instance_name := record.instance_name,
        host := record.host, port := record.port, addrs := addrs, txt := sorted_txt record.txt }) := by
  rw [raw_event_from_mobile, htype, hactive, haddrs, if_neg (by decide), if_neg (by decide)]
  rfl

/-- The event that a resolved service stands for. -/
def NsdServiceInfo.event (resolved : NsdServiceInfo) (service_type instance_name : String) :
    RawEvent :=
  .Upsert
    { is_active := true, service_type := service_type, instance_name := instance_name,
      host := resolved.host.map InetAddress.host_address, port := resolved.port,
      addrs := if 1 < resolved.port then (resolved.host.map (InetAddress.socket resolved.port)).toList
        else [],
      txt := sorted_txt (resolved.attributes.map fun property => (property.1, property.2.getD "")) }

/-- **The addresses of a record** can be read. -/
theorem parse_resolved_addrs (service_type instance_name : String) (resolved : NsdServiceInfo) :
    parse_addrs (resolved_record service_type instance_name resolved).addrs
      = .ok (if 1 < resolved.port then (resolved.host.map (InetAddress.socket resolved.port)).toList
          else []) := by
  unfold resolved_record
  cases hhost : resolved.host with
  | none =>
      simp only [Option.map_none, Option.toList_none, ite_self]
      rfl
  | some host =>
      simp only [Option.map_some, Option.toList_some]
      split
      · have hne := format_socket_addr_ne_empty host resolved.port
        have hkeep : [format_socket_addr host resolved.port].filter (· ≠ "")
            = [format_socket_addr host resolved.port] := by
          rw [List.filter_cons_of_pos (by rw [decide_eq_true_iff]; exact hne), List.filter_nil]
        rw [hkeep, parse_addrs, parse_format_socket_addr host resolved.in_range]
        rfl
      · rfl

/-- What the platform tells a browse session of an instance. -/
inductive Told
  | resolved (instance_name : String) (service : NsdServiceInfo)
  | lost (instance_name : String)

/-- The record that the plugin writes of it. -/
def Told.record (service_type : String) : Told → MobileServiceRecord
  | .resolved instance_name service => resolved_record service_type instance_name service
  | .lost instance_name => lost_record service_type instance_name

/-- The event that it should be. -/
def Told.event (service_type : String) : Told → RawEvent
  | .resolved instance_name service => service.event service_type instance_name
  | .lost instance_name => .Remove service_type instance_name

/-- **One record** is read as the event that it should be. -/
theorem raw_event_told {service_name full : String} {protocol : Protocol}
    (h : service_type service_name protocol = .ok full) (told : Told) :
    raw_event_from_mobile (told.record (session_service_type service_name protocol.name)) full
      = .ok (told.event full) := by
  have htype := equivalent_own_type h
  cases told with
  | resolved instance_name service =>
      exact upsert_of_parsed htype rfl (parse_resolved_addrs _ instance_name service)
  | lost instance_name =>
      rw [raw_event_from_mobile, Told.record, lost_record, htype, if_neg (by decide), if_pos rfl]
      rfl

/-- **What Android tells of services is read without an error and without a loss.** For every
session that the engine has configured and every batch of records, in whatever form the addresses
in it are written, the browse task converts them all: a resolved service to the event with its
address, port, interface and properties, a lost one to the removal of the instance. -/
theorem android_records_decode {service_name full : String} {protocol : Protocol}
    (h : service_type service_name protocol = .ok full) (batch : List Told) :
    convert_records (fun record => raw_event_from_mobile record full)
        (batch.map (Told.record (session_service_type service_name protocol.name)))
      = (batch.map (Told.event full), none) := by
  induction batch with
  | nil => rfl
  | cons told batch ih =>
      simp only [List.map_cons, convert_records, raw_event_told h told, ih]

/-- A link-local address, with the name of its interface behind the literal. -/
def sample_address (scope_id : ℕ) (h : scope_id < 2 ^ 31) : Inet6Address where
  literal := ipv6_to_string (0xfe80 * 2 ^ 112 + 1)
  zone := "%wlan0"
  ip := 0xfe80 * 2 ^ 112 + 1
  scope_id := scope_id
  text := ipv6Text_to_string (by decide)
  marked := .inr rfl
  in_range := h

/-- A service with a link-local address and an attribute without a value. -/
def sample_service : NsdServiceInfo where
  host := some (.v6 (sample_address 7 (by decide)))
  port := 4433
  attributes := [("pk", some "abc"), ("seen", none)]
  distinct := by decide
  in_range := by decide

/-- A service with a link-local address, and one that is lost. -/
theorem android_records_decode_scoped :
    convert_records (fun record => raw_event_from_mobile record "_demo._udp.local.")
        ([.resolved "a" sample_service, .lost "b"].map
          (Told.record (session_service_type "demo" Protocol.Udp.name)))
      = ([.resolved "a" sample_service, .lost "b"].map (Told.event "_demo._udp.local."), none) := by
  have hfull : service_type "demo" .Udp = .ok "_demo._udp.local." := rfl
  exact android_records_decode hfull _

end IrohHttp.Mobile
