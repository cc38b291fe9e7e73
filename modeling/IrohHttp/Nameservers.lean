/-
The nameservers of an endpoint on Android: `get_dns_servers` of `IrohHttpPlugin.kt`, which writes
the servers of the active networks as text, and `ConfiguredDns::configure` (`dns_nameservers.rs`),
which reads them.

A link-local server can be asked only over its interface. Android may leave the interface out of the
address and know it from the network; Rust takes no link-local address without one, and no name
of an interface.
-/
import IrohHttp.CoreError
import IrohHttp.MobileRecords

set_option autoImplicit false

open Digits

namespace IrohHttp.Nameservers

open IrohHttp.Discovery IrohHttp.Mobile

/-! ## The Android plugin -/

/-- `address.isLinkLocalAddress`, of an `Inet6Address`. -/
def is_link_local_address (a : Inet6Address) : Bool := is_unicast_link_local a.ip

/-- `takeIf { it > 0 }`. -/
def take_if_positive (n : ℕ) : Option ℕ := if 0 < n then some n else none

/-- `dnsServerLiteral`. -/
def dns_server_literal (address : InetAddress) (interface_index : Option ℕ) :
    Except String String :=
  let host := substring_before '%' address.host_address
  match address with
  | .v4 _ => .ok host
  | .v6 a =>
    let address_scope := take_if_positive a.scope_id
    let scope := address_scope.or (interface_index.bind take_if_positive)
    if is_link_local_address a then
      match scope with
      | some scope => .ok (host ++ "%" ++ toString scope)
      | none => .error ("link-local DNS server " ++ host ++ " has no resolvable interface scope")
    else
      match address_scope with
      | some scope => .ok (host ++ "%" ++ toString scope)
      | none => .ok host

/-- What `get_dns_servers` reads of a network. The index is a Java `int`. -/
structure LinkProperties where
  interface_index : Option ℕ
  dns_servers : List InetAddress
  in_range : ∀ index, interface_index = some index → index < 2 ^ 31

/-- The loop over the servers of all networks, with what it has collected. -/
def collect_servers :
    List (InetAddress × Option ℕ) → List String × List String → List String × List String
  | [], collected => collected
  | (address, index) :: rest, (servers, rejected) =>
    match dns_server_literal address index with
    | .ok literal => collect_servers rest (servers ++ [literal], rejected)
    | .error reason => collect_servers rest (servers, rejected ++ [reason])

/-- Every server with the interface of its network. -/
def all_servers (networks : List LinkProperties) : List (InetAddress × Option ℕ) :=
  networks.flatMap fun props => props.dns_servers.map fun address => (address, props.interface_index)

/-- `networks` has what Android gives of the active networks, up to a call that throws: `thrown` is the
message of that. What has been collected by then is good enough. -/
def get_dns_servers (networks : List LinkProperties) (thrown : Option String) :
    Except String (List String) :=
  let collected := collect_servers (all_servers networks) ([], [])
  if collected.1 = [] then
    .error (match thrown with
      | some message => "get_dns_servers failed: " ++ message
      | none =>
        if collected.2 = [] then "Android reported no DNS servers for any active network"
        else "all platform DNS servers were unusable: " ++ "; ".intercalate collected.2)
  else .ok collected.1

/-! ## The endpoint -/

/-- `str::parse::<u32>`. -/
def parse_u32 (cs : List Char) : Option ℕ :=
  let digits := if cs.head? = some '+' then cs.tail else cs
  match read_number 0xffffffff 10 none true digits with
  | some (n, []) => some n
  | _ => none

/-- `str::parse::<Ipv6Addr>`. -/
def parse_ipv6_addr (cs : List Char) : Option ℕ :=
  match read_ipv6_addr cs with
  | some (ip, []) => some ip
  | _ => none

/-- `str::parse::<IpAddr>`. -/
def parse_ip_addr (cs : List Char) : Option IpAddr :=
  match ((read_ipv4_addr cs).map fun read => (IpAddr.v4 read.1, read.2)).or
      ((read_ipv6_addr cs).map fun read => (IpAddr.v6 read.1, read.2)) with
  | some (ip, []) => some ip
  | _ => none

/-- `parse_dns_nameserver`: an address, with an interface behind `%` for IPv6. -/
def parse_dns_nameserver (value : String) : Except String SocketAddr :=
  match value.toList.dropWhile (· ≠ '%') with
  | _ :: scope =>
    match parse_ipv6_addr (value.toList.takeWhile (· ≠ '%')) with
    | none =>
      .error ("invalid scoped IPv6 DNS nameserver " ++ quoted value ++ ": invalid IPv6 address syntax")
    | some ip =>
      match parse_u32 scope with
      | none => .error ("IPv6 DNS nameserver " ++ quoted value ++ " must use a numeric interface scope")
      | some 0 => .error ("IPv6 DNS nameserver " ++ quoted value ++ " must use a non-zero interface scope")
      | some scope_id => .ok (.v6 ip 53 0 scope_id)
  | [] =>
    match parse_ip_addr value.toList with
    | none => .error ("invalid DNS nameserver " ++ quoted value ++ ": invalid IP address syntax")
    | some ip =>
      if ip.is_ipv6 && ip.is_link_local then
        .error ("link-local IPv6 DNS nameserver " ++ quoted value ++ " requires a numeric interface scope")
      else .ok (ip.socket 53)

/-- The loop of `configure`, with the servers that the resolver has got and the reasons against the
others. -/
def configure_loop (resolver_addr : String → SocketAddr → Except CoreError SocketAddr) :
    List String → List SocketAddr × List String → Except CoreError (List SocketAddr × List String)
  | [], collected => .ok collected
  | nameserver :: rest, (added, rejected) =>
    match parse_dns_nameserver nameserver with
    | .ok addr =>
      (resolver_addr nameserver addr).bind fun resolver_addr' =>
        configure_loop resolver_addr rest (added ++ [resolver_addr'], rejected)
    | .error reason => configure_loop resolver_addr rest (added, rejected ++ [reason])

/-- `ConfiguredDns::configure`: the servers of the resolver, or none for the default resolver.
`resolver_addr` may put a proxy in the place of an address. -/
def configure (resolver_addr : String → SocketAddr → Except CoreError SocketAddr)
    (nameservers : List String) : Except CoreError (Option (List SocketAddr)) :=
  if nameservers = [] then .ok none
  else
    (configure_loop resolver_addr nameservers ([], [])).bind fun collected =>
      if collected.1.length = 0 then
        .error (CoreError.invalid_input ("all " ++ toString collected.2.length ++
          " supplied dns_nameservers were invalid (expected IP addresses): " ++
          "; ".intercalate collected.2))
      else .ok (some collected.1)

/-! ## A literal reads back -/

/-- The server that the resolver should be given for an address, if there is one. -/
def nameserver (address : InetAddress) (interface_index : Option ℕ) : Option SocketAddr :=
  match address with
  | .v4 a => some (.v4 a.ip 53)
  | .v6 a =>
    let scope := (take_if_positive a.scope_id).or (interface_index.bind take_if_positive)
    if is_link_local_address a then scope.map (SocketAddr.v6 a.ip 53 0)
    else some (.v6 a.ip 53 0 a.scope_id)

theorem take_if_positive_eq_some {n k : ℕ} : take_if_positive n = some k ↔ 0 < n ∧ n = k := by
  unfold take_if_positive
  split
  · next hpos => simp only [Option.some.injEq, hpos, true_and]
  · next hzero => simp only [reduceCtorEq, hzero, false_and]

/-- A number in decimal digits is read back. -/
theorem parse_u32_toDigits {n : ℕ} (h : n < 2 ^ 31) : parse_u32 (Nat.toDigits 10 n) = some n := by
  have hhead : (Nat.toDigits 10 n).head? ≠ some '+' := by
    intro hplus
    have hdigit : is_digit 10 '+' = true :=
      is_digit_of_mem_toDigits (by omega) (by omega) n '+' (List.mem_of_mem_head? hplus)
    exact absurd hdigit (by decide)
  have hread : read_number 0xffffffff 10 none true (Nat.toDigits 10 n) = some (n, []) := by
    rw [read_number_eq_some (by omega)]
    refine ⟨Nat.toDigits 10 n, scope_toDigits h, (number_toDigits (by omega) (by omega) n).symm,
      (List.append_nil _).symm, stops_nil 10⟩
  rw [parse_u32, if_neg hhead, hread]

theorem ends_nil : Ends [] where
  stops := stops_nil 16
  no_dot := by rw [List.head?_nil]; decide
  no_group cs hcs := by cases hcs

/-- An IPv6 literal is read whole. -/
theorem parse_ipv6_addr_text {t : List Char} {ip : ℕ} (h : Ipv6Text t ip) :
    parse_ipv6_addr t = some ip := by
  have hread := read_ipv6_addr_complete h ends_nil
  rw [List.append_nil] at hread
  rw [parse_ipv6_addr, hread]

/-- A group and a colon do not begin an IPv4 address. -/
theorem read_ipv4_addr_colon {g rest : List Char} {n : ℕ} (hg : GroupText g n) :
    read_ipv4_addr (g ++ ':' :: rest) = none := by
  apply read_ipv4_addr_group hg
  · exact stops_cons.mpr (by decide)
  · rw [List.head?_cons]
    decide

/-- An IPv6 address does not begin with an IPv4 address. -/
theorem read_ipv4_addr_ipv6 {t : List Char} {ip : ℕ} (h : Ipv6Text t ip) :
    read_ipv4_addr t = none := by
  cases h with
  | @full dotted ps ns hps hlength =>
      cases hps with
      | nil => simp only [List.length_nil, Nat.reduceEqDiff] at hlength
      | dotted hip => simp only [List.length_cons, List.length_nil, Nat.reduceEqDiff] at hlength
      | @cons dotted g n ps ns hg hps =>
          cases ps with
          | nil =>
              cases hps
              simp only [List.length_cons, List.length_nil, Nat.reduceEqDiff] at hlength
          | cons p ps =>
              rw [intercalate_cons_eq_flatMap, List.flatMap_cons, List.cons_append]
              exact read_ipv4_addr_colon hg
  | @compressed dotted hs ps hns ns hhs hps hle =>
      cases hhs with
      | nil => exact read_ipv4_addr_stops (stops_cons.mpr (by decide))
      | @cons _ g n hs hns hg hhs =>
          rw [intercalate_cons_eq_flatMap, List.append_assoc]
          cases hs with
          | nil => exact read_ipv4_addr_colon hg
          | cons h hs =>
              rw [List.flatMap_cons, List.append_assoc, List.cons_append]
              exact read_ipv4_addr_colon hg

/-- An IPv4 literal is read whole. -/
theorem parse_ip_addr_v4 {t : List Char} {ip : ℕ} (h : Ipv4Text t ip) :
    parse_ip_addr t = some (.v4 ip) := by
  have hread : read_ipv4_addr t = some (ip, []) :=
    read_ipv4_addr_eq_some.mpr ⟨t, h, (List.append_nil t).symm, stops_nil 10⟩
  rw [parse_ip_addr, hread]
  rfl

/-- An IPv6 literal is read whole, and not as IPv4. -/
theorem parse_ip_addr_v6 {t : List Char} {ip : ℕ} (h : Ipv6Text t ip) :
    parse_ip_addr t = some (.v6 ip) := by
  have hread := read_ipv6_addr_complete h ends_nil
  rw [List.append_nil] at hread
  rw [parse_ip_addr, read_ipv4_addr_ipv6 h, hread]
  rfl

/-- What stands behind a mark. -/
theorem dropWhile_literal {mark : Char} {front rest : List Char} (hfront : mark ∉ front)
    (hrest : rest = [] ∨ rest.head? = some mark) :
    (front ++ rest).dropWhile (· ≠ mark) = rest := by
  have htake := takeWhile_literal hfront hrest
  have hsplit := List.takeWhile_append_dropWhile (p := fun c => decide (c ≠ mark)) (l := front ++ rest)
  rw [htake] at hsplit
  exact List.append_cancel_left hsplit

/-- A literal with an interface behind it. -/
theorem parse_scoped {host : String} {ip scope : ℕ} (htext : Ipv6Text host.toList ip)
    (hpos : 0 < scope) (hlt : scope < 2 ^ 31) :
    parse_dns_nameserver (host ++ "%" ++ toString scope) = .ok (.v6 ip 53 0 scope) := by
  have hmark : '%' ∉ host.toList := htext.notMem (by decide) (by decide) (by decide) (by decide)
  have hlist : (host ++ "%" ++ toString scope).toList
      = host.toList ++ '%' :: Nat.toDigits 10 scope := by
    rw [String.toList_append, String.toList_append, toList_toString, List.append_assoc]
    rfl
  have hhead : ('%' :: Nat.toDigits 10 scope).head? = some '%' := rfl
  obtain ⟨k, rfl⟩ := Nat.exists_eq_succ_of_ne_zero (Nat.ne_of_gt hpos)
  simp only [parse_dns_nameserver, hlist, dropWhile_literal hmark (.inr hhead),
    takeWhile_literal hmark (.inr hhead), parse_ipv6_addr_text htext, parse_u32_toDigits hlt]

/-- A literal alone. -/
theorem parse_plain {value : String} {ip : IpAddr} (hmark : '%' ∉ value.toList)
    (hparse : parse_ip_addr value.toList = some ip)
    (hlocal : (ip.is_ipv6 && ip.is_link_local) = false) :
    parse_dns_nameserver value = .ok (ip.socket 53) := by
  have hdrop := dropWhile_literal hmark (.inl rfl)
  rw [List.append_nil] at hdrop
  rw [parse_dns_nameserver, hdrop]
  simp only [hparse, hlocal, Bool.false_eq_true, if_false]

/-- **One server**: it has a text that is read as the server, or cannot be asked. -/
theorem dns_server_literal_eq_ok {address : InetAddress} {interface_index : Option ℕ}
    (hindex : ∀ index, interface_index = some index → index < 2 ^ 31) :
    (∃ reason, dns_server_literal address interface_index = .error reason ∧
      nameserver address interface_index = none) ∨
    ∃ literal server, dns_server_literal address interface_index = .ok literal ∧
      nameserver address interface_index = some server ∧
      parse_dns_nameserver literal = .ok server := by
  cases address with
  | v4 a =>
      refine .inr ⟨_, _, rfl, rfl, ?_⟩
      have hlist := literal_v4 a
      -- a literal has no zone, so the core reads all of it as the address
      have hmark : '%' ∉ a.host_address.toList := a.text.notMem (by decide) (by decide)
      rw [← hlist] at hmark
      exact parse_plain hmark (by rw [hlist]; exact parse_ip_addr_v4 a.text) rfl
  | v6 a =>
      have hlist := literal_v6 a
      have htext : Ipv6Text (substring_before '%' (InetAddress.v6 a).host_address).toList a.ip := by
        rw [hlist]
        exact a.text
      have hmark : '%' ∉ (substring_before '%' (InetAddress.v6 a).host_address).toList :=
        htext.notMem (by decide) (by decide) (by decide) (by decide)
      simp only [dns_server_literal, nameserver]
      split
      · -- it needs an interface, its own or that of its network
        cases hscope : (take_if_positive a.scope_id).or (interface_index.bind take_if_positive) with
        | none => exact .inl ⟨_, rfl, rfl⟩
        | some scope =>
            refine .inr ⟨_, _, rfl, rfl, ?_⟩
            have hbound : 0 < scope ∧ scope < 2 ^ 31 := by
              rcases Option.or_eq_some_iff.mp hscope with hown | ⟨-, hnetwork⟩
              · obtain ⟨hpos, rfl⟩ := take_if_positive_eq_some.mp hown
                exact ⟨hpos, a.in_range⟩
              · obtain ⟨index, hindex', htake⟩ := Option.bind_eq_some_iff.mp hnetwork
                obtain ⟨hpos, rfl⟩ := take_if_positive_eq_some.mp htake
                exact ⟨hpos, hindex index hindex'⟩
            exact parse_scoped htext hbound.1 hbound.2
      · next hlocal =>
        rw [Bool.not_eq_true] at hlocal
        cases hscope : take_if_positive a.scope_id with
        | none =>
            refine .inr ⟨_, _, rfl, rfl, ?_⟩
            have hzero : a.scope_id = 0 := by
              unfold take_if_positive at hscope
              split at hscope
              · cases hscope
              · omega
            rw [hzero]
            exact parse_plain hmark (parse_ip_addr_v6 htext) hlocal
        | some scope =>
            obtain ⟨hpos, rfl⟩ := take_if_positive_eq_some.mp hscope
            exact .inr ⟨_, _, rfl, rfl, parse_scoped htext hpos a.in_range⟩

/-! ## All of them -/

/-- The address under which a server of a network can be asked. -/
def asked (server : InetAddress × Option ℕ) : Option SocketAddr := nameserver server.1 server.2

/-- The servers of the networks that can be asked. -/
def usable_servers (networks : List LinkProperties) : List SocketAddr :=
  (all_servers networks).filterMap asked

/-- A text that the endpoint reads as this server. -/
def Reads (literal : String) (server : SocketAddr) : Prop :=
  parse_dns_nameserver literal = .ok server

/-- **All servers**: the texts are those of the usable ones, in order. -/
theorem collect_servers_reads {all : List (InetAddress × Option ℕ)}
    (hindex : ∀ server ∈ all, ∀ index, server.2 = some index → index < 2 ^ 31)
    (collected : List String × List String) :
    ∃ literals, (collect_servers all collected).1 = collected.1 ++ literals ∧
      List.Forall₂ Reads literals (all.filterMap asked) := by
  induction all generalizing collected with
  | nil => exact ⟨[], (List.append_nil _).symm, .nil⟩
  | cons server all ih =>
      have hrest := ih fun other hother => hindex other (List.mem_cons_of_mem _ hother)
      have hserver := hindex server List.mem_cons_self
      rcases dns_server_literal_eq_ok hserver with ⟨reason, hliteral, hnone⟩ |
          ⟨literal, addr, hliteral, hsome, hreads⟩
      · obtain ⟨literals, hcollected, hall⟩ := hrest (collected.1, collected.2 ++ [reason])
        rw [List.filterMap_cons_none (f := asked) hnone]
        refine ⟨literals, ?_, hall⟩
        simp only [collect_servers, hliteral]
        exact hcollected
      · obtain ⟨literals, hcollected, hall⟩ := hrest (collected.1 ++ [literal], collected.2)
        rw [List.filterMap_cons_some (f := asked) hsome]
        refine ⟨literal :: literals, ?_, .cons hreads hall⟩
        simp only [collect_servers, hliteral]
        rw [hcollected, List.append_assoc, List.singleton_append]

/-- A list that is mapped keeps its length. -/
theorem length_of_mapM_ok {α β ε : Type} {f : α → Except ε β} {l : List α} {l' : List β}
    (h : l.mapM f = .ok l') : l'.length = l.length := by
  induction l generalizing l' with
  | nil =>
      rw [List.mapM_nil] at h
      cases h
      rfl
  | cons a l ih =>
      rw [List.mapM_cons] at h
      cases hfirst : f a with
      | error error =>
          rw [hfirst] at h
          cases h
      | ok b =>
          cases hrest : l.mapM f with
          | error error =>
              rw [hfirst, hrest] at h
              cases h
          | ok bs =>
              rw [hfirst, hrest] at h
              rw [← Except.ok.inj h, List.length_cons, List.length_cons, ih hrest]

/-- The loop reads every text and rejects none. -/
theorem configure_loop_reads (resolver_addr : String → SocketAddr → Except CoreError SocketAddr)
    {literals : List String} {servers : List SocketAddr} (h : List.Forall₂ Reads literals servers)
    (added : List SocketAddr) (rejected : List String) :
    configure_loop resolver_addr literals (added, rejected)
      = ((literals.zip servers).mapM fun server => resolver_addr server.1 server.2).map
          fun addrs => (added ++ addrs, rejected) := by
  induction h generalizing added with
  | nil =>
      simp only [List.zip_nil_left, List.mapM_nil, configure_loop, pure, Except.pure, Except.map,
        List.append_nil]
  | @cons literal server literals servers hreads h ih =>
      rw [List.zip_cons_cons, List.mapM_cons, configure_loop, hreads]
      dsimp only
      cases hresolved : resolver_addr literal server with
      | error error => rfl
      | ok addr =>
          dsimp only [Except.bind]
          rw [ih (added ++ [addr])]
          cases hrest : (literals.zip servers).mapM fun server => resolver_addr server.1 server.2 with
          | error error => rfl
          | ok addrs =>
              simp only [bind, Except.bind, Except.map, pure, Except.pure, List.append_assoc,
                List.singleton_append]

/-- An interface index of Android is not negative. -/
theorem index_in_range {networks : List LinkProperties} :
    ∀ server ∈ all_servers networks, ∀ index, server.2 = some index → index < 2 ^ 31 := by
  intro server hserver index hindex
  obtain ⟨props, -, hmem⟩ := List.mem_flatMap.mp hserver
  obtain ⟨address, -, rfl⟩ := List.mem_map.mp hmem
  exact props.in_range index hindex

/-- **Every usable nameserver of the device reaches the resolver.** Whatever the networks, wherever
Android throws and however it writes their addresses: if it has given a server that can be asked, the
plugin answers with one text for each, in their order, and the endpoint reads each text as that very
server, with the interface of a link-local one, and rejects none. If there is no such server, the plugin
says so, and the endpoint does not fall back to the default resolver. -/
theorem android_nameservers_configured
    (resolver_addr : String → SocketAddr → Except CoreError SocketAddr)
    (networks : List LinkProperties)
    (thrown : Option String) :
    (∃ reason, get_dns_servers networks thrown = .error reason ∧ usable_servers networks = []) ∨
    ∃ literals, get_dns_servers networks thrown = .ok literals ∧ usable_servers networks ≠ [] ∧
      List.Forall₂ Reads literals (usable_servers networks) ∧
      configure resolver_addr literals
        = ((literals.zip (usable_servers networks)).mapM fun server =>
            resolver_addr server.1 server.2).map some := by
  obtain ⟨literals, hcollected, hreads⟩ := collect_servers_reads index_in_range ([], [])
  rw [List.nil_append] at hcollected
  by_cases hempty : literals = []
  · subst hempty
    refine .inl ⟨_, if_pos hcollected, ?_⟩
    exact List.forall₂_nil_left_iff.mp hreads
  · have hlength : literals.length = (usable_servers networks).length := hreads.length_eq
    have hpos : 0 < literals.length := List.length_pos_of_ne_nil hempty
    have hservers : usable_servers networks ≠ [] := by
      apply List.ne_nil_of_length_pos
      omega
    have hget : get_dns_servers networks thrown = .ok literals := by
      unfold get_dns_servers
      dsimp only
      rw [hcollected, if_neg hempty]
    refine .inr ⟨literals, hget, hservers, hreads, ?_⟩
    rw [configure, if_neg hempty, configure_loop_reads resolver_addr hreads [] []]
    -- the resolver has at least one server, unless a proxy has failed
    cases hresolved : (literals.zip (usable_servers networks)).mapM fun server =>
        resolver_addr server.1 server.2 with
    | error error =>
        rw [usable_servers] at hresolved
        rw [hresolved]
        rfl
    | ok addrs =>
        have haddrs := length_of_mapM_ok hresolved
        rw [List.length_zip] at haddrs
        have hne : addrs.length ≠ 0 := by omega
        rw [usable_servers] at hresolved
        rw [hresolved]
        simp only [Except.map, Except.bind, List.nil_append, if_neg hne]

/-- A network with a server on the same link, whose interface only the network knows, and one that Android
gives before it throws. -/
def sample_networks : List LinkProperties :=
  [⟨some 7, [.v6 (sample_address 0 (by decide))], by decide⟩,
    ⟨none, [.v6 (sample_address 0 (by decide)), .v6 (sample_address 3 (by decide))], by decide⟩]

example :
    get_dns_servers sample_networks (some "dead object") = .ok ["fe80::1%7", "fe80::1%3"] := by
  decide

end IrohHttp.Nameservers
