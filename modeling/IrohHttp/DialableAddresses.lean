/-
The dialable addresses of a node, selected twice: by the core, from the endpoint's
candidates with their ports put right (`endpoint/bind.rs`, `endpoint/observe.rs`), and by
the discovery crate from the same candidates (`peer_direct_addresses`).

Both leave out what is not routable, keep a real port, and borrow a bound one in place of
a placeholder. The core borrows the first port of the family and keeps the rest of the
address; discovery borrows from a socket that listens on the address, and makes a new one.
The core drops repeated texts, discovery repeated addresses. `is_routable_ip` and
`is_placeholder_port` are written out alike in both crates.
-/
import IrohHttp.NetParser

set_option autoImplicit false

namespace IrohHttp.Discovery

/-! ## The core -/

/-- `SocketAddr::set_port` -/
def SocketAddr.set_port (port : ℕ) : SocketAddr → SocketAddr
  | .v4 ip _ => .v4 ip port
  | .v6 ip _ flowinfo scope_id => .v6 ip port flowinfo scope_id

/-- The port of the first bound socket of the family that has a real one. -/
def borrow_port (bound_sockets : List SocketAddr) (ipv6 : Bool) : Option ℕ :=
  (bound_sockets.find? fun s => s.ip.is_ipv6 == ipv6 && !is_placeholder_port s.port).map
    SocketAddr.port

/-- The body of the loop of `reconcile_direct_addr_ports`. -/
def reconciled_address (bound_sockets : List SocketAddr) (addr : SocketAddr) : Option SocketAddr :=
  if !is_placeholder_port addr.port then some addr
  else (borrow_port bound_sockets addr.ip.is_ipv6).map fun port => addr.set_port port

/-- `reconcile_direct_addr_ports` -/
def reconcile_direct_addr_ports (candidates bound_sockets : List SocketAddr) : List SocketAddr :=
  candidates.filterMap (reconciled_address bound_sockets)

/-- `is_dialable_direct`: a routable address with a real port. -/
def is_dialable_direct (a : SocketAddr) : Bool := is_routable_ip a.ip && !is_placeholder_port a.port

/-- `select_dialable_direct`, the first one. -/
def select_dialable_direct (addrs : List SocketAddr) : Option String :=
  (addrs.find? is_dialable_direct).map SocketAddr.to_string

/-- `select_dialable_directs`, each text once. -/
def select_dialable_directs (addrs : List SocketAddr) : List String :=
  addrs.foldl (fun out a => if is_dialable_direct a then push_new out a.to_string else out) []

/-! ## Agreement of the two crates -/

/-- The two crates agree on a list of candidates. -/
structure Agree (candidates bound_sockets : List SocketAddr) : Prop where
  directs : select_dialable_directs (reconcile_direct_addr_ports candidates bound_sockets)
    = (peer_direct_addresses candidates bound_sockets []).map SocketAddr.to_string
  first : select_dialable_direct (reconcile_direct_addr_ports candidates bound_sockets)
    = (select_dialable_directs (reconcile_direct_addr_ports candidates bound_sockets)).head?

/-- The interface of an IPv6 address, zero for the others. -/
def SocketAddr.scope_id : SocketAddr → ℕ
  | .v4 _ _ => 0
  | .v6 _ _ _ scope_id => scope_id

/-- The flow label of an IPv6 address, zero for the others. -/
def SocketAddr.flowinfo : SocketAddr → ℕ
  | .v4 _ _ => 0
  | .v6 _ _ flowinfo _ => flowinfo

/-- A bound socket of the family, with a real port. -/
def of_family (ipv6 : Bool) (bound : SocketAddr) : Bool :=
  bound.ip.is_ipv6 == ipv6 && !is_placeholder_port bound.port

/-- A bound socket that listens on the address, with a real port. -/
def serves (ip : IpAddr) (bound : SocketAddr) : Bool :=
  listens_on bound ip && !is_placeholder_port bound.port

/-- In place of a placeholder, the first bound socket of the family has the port of the first that
listens on the address, and there is no interface index to lose. -/
def BorrowsAlike (bound_sockets : List SocketAddr) (addr : SocketAddr) : Prop :=
  is_placeholder_port addr.port = true →
    ∀ bound, bound_sockets.find? (of_family addr.ip.is_ipv6) = some bound →
      addr.scope_id = 0 ∧
        ∃ bound', bound_sockets.find? (serves addr.ip) = some bound' ∧ bound'.port = bound.port

instance (bound_sockets : List SocketAddr) (addr : SocketAddr) :
    Decidable (BorrowsAlike bound_sockets addr) :=
  inferInstanceAs (Decidable (is_placeholder_port addr.port = true →
    ∀ bound ∈ bound_sockets.find? (of_family addr.ip.is_ipv6), addr.scope_id = 0 ∧
      ∃ bound' ∈ bound_sockets.find? (serves addr.ip), bound'.port = bound.port))

/-- Every routable candidate borrows alike, and no two of them are one but for their flow
information: as they stand, or with the port that a placeholder borrows. -/
structure Alike (candidates bound_sockets : List SocketAddr) : Prop where
  borrows : ∀ addr ∈ candidates, is_routable_ip addr.ip = true → BorrowsAlike bound_sockets addr
  distinct : ∀ addr ∈ candidates, ∀ addr' ∈ candidates,
    is_routable_ip addr.ip = true → is_routable_ip addr'.ip = true →
    is_placeholder_port addr.port = false → is_placeholder_port addr'.port = false →
    addr.without_flowinfo = addr'.without_flowinfo → addr = addr'
  borrowed : ∀ addr ∈ candidates, ∀ addr' ∈ candidates,
    is_routable_ip addr.ip = true → is_routable_ip addr'.ip = true →
    is_placeholder_port addr.port = false → is_placeholder_port addr'.port = true →
    ∀ bound, bound_sockets.find? (serves addr'.ip) = some bound →
      addr.without_flowinfo = addr'.ip.socket bound.port → addr.flowinfo = 0

/-! ## Lists without repeats -/

theorem nodup_push_new {α : Type} [DecidableEq α] {list : List α} (h : list.Nodup) (x : α) :
    (push_new list x).Nodup := by
  rw [push_new]
  split
  · exact h
  · next hx =>
    rw [List.nodup_append]
    refine ⟨h, List.nodup_singleton x, ?_⟩
    rintro a ha b hb rfl
    rw [List.mem_singleton] at hb
    exact hx (hb ▸ ha)

/-- Pushing what is new keeps a list without duplicates. -/
theorem nodup_foldl_push_new {α : Type} [DecidableEq α] {list l : List α} (h : list.Nodup) :
    (l.foldl push_new list).Nodup := by
  induction l generalizing list with
  | nil => exact h
  | cons x l ih =>
      rw [List.foldl_cons]
      exact ih (nodup_push_new h x)

/-- What tells the members apart does not change which of them repeat. -/
theorem map_foldl_push_new {α β : Type} [DecidableEq α] [DecidableEq β] {f : α → β} {list l : List α}
    (hinj : ∀ x ∈ list ++ l, ∀ y ∈ list ++ l, f x = f y → x = y) :
    (l.foldl push_new list).map f = (l.map f).foldl push_new (list.map f) := by
  induction l generalizing list with
  | nil => rfl
  | cons x l ih =>
      have hstep : (push_new list x).map f = push_new (list.map f) (f x) := by
        have hmem : f x ∈ list.map f ↔ x ∈ list := by
          constructor
          · intro h
            obtain ⟨y, hy, heq⟩ := List.mem_map.mp h
            have hxy := hinj y (List.mem_append_left _ hy) x
              (List.mem_append_right _ List.mem_cons_self) heq
            exact hxy ▸ hy
          · exact fun h => List.mem_map.mpr ⟨x, h, rfl⟩
        rw [push_new, push_new]
        by_cases hx : x ∈ list
        · rw [if_pos hx, if_pos (hmem.mpr hx)]
        · rw [if_neg hx, if_neg (fun h => hx (hmem.mp h)), List.map_append, List.map_singleton]
      have hsub : ∀ y ∈ push_new list x ++ l, y ∈ list ++ x :: l := by
        intro y hy
        rw [List.mem_append, mem_push_new] at hy
        rw [List.mem_append, List.mem_cons]
        rcases hy with (hy | hy) | hy
        · exact Or.inl hy
        · exact Or.inr (Or.inl hy)
        · exact Or.inr (Or.inr hy)
      rw [List.foldl_cons, List.map_cons, List.foldl_cons, ← hstep]
      exact ih fun y hy z hz => hinj y (hsub y hy) z (hsub z hz)

/-- The first of both is the first. -/
theorem head?_foldl_push_new {α : Type} [DecidableEq α] (list l : List α) :
    (l.foldl push_new list).head? = (list ++ l).head? := by
  induction l generalizing list with
  | nil => rw [List.foldl_nil, List.append_nil]
  | cons x l ih =>
      rw [List.foldl_cons, ih, push_new]
      split
      · next hx =>
        -- something is in front already
        obtain ⟨y, ys, rfl⟩ := List.exists_cons_of_ne_nil (List.ne_nil_of_mem hx)
        rfl
      · rw [List.append_assoc, List.singleton_append]

/-! ## One candidate -/

/-- The text that the core has for a candidate. -/
def core_text (bound_sockets : List SocketAddr) (addr : SocketAddr) : Option String :=
  ((reconciled_address bound_sockets addr).filter is_dialable_direct).map SocketAddr.to_string

/-- The address that discovery has for it. -/
def discovery_address (bound_sockets : List SocketAddr) (addr : SocketAddr) : Option SocketAddr :=
  if is_routable_ip addr.ip then dialed_address bound_sockets addr else none

/-- The loop over the addresses is the loop over the texts of the dialable ones. -/
theorem foldl_select_directs (addrs : List SocketAddr) (out : List String) :
    addrs.foldl (fun out a => if is_dialable_direct a then push_new out a.to_string else out) out
      = ((addrs.filter is_dialable_direct).map SocketAddr.to_string).foldl push_new out := by
  rw [List.foldl_map, List.foldl_filter]

/-- **The core's list**, candidate by candidate. -/
theorem select_directs_eq (candidates bound_sockets : List SocketAddr) :
    select_dialable_directs (reconcile_direct_addr_ports candidates bound_sockets)
      = (candidates.filterMap (core_text bound_sockets)).foldl push_new [] := by
  rw [select_dialable_directs, foldl_select_directs, reconcile_direct_addr_ports,
    List.filter_filterMap, List.map_filterMap]
  rfl

/-- **The discovery crate's list**, candidate by candidate. -/
theorem peer_direct_addresses_eq (candidates bound_sockets : List SocketAddr) :
    peer_direct_addresses candidates bound_sockets []
      = (candidates.filterMap (discovery_address bound_sockets)).foldl push_new [] := by
  have hfilter : (candidates.filter fun addr => is_routable_ip addr.ip).filterMap
      (dialed_address bound_sockets) = candidates.filterMap (discovery_address bound_sockets) := by
    rw [List.filterMap_filter]
    rfl
  rw [peer_direct_addresses, hfilter]
  rfl

/-- **The single address is the first of the list.** -/
theorem select_dialable_direct_eq (addrs : List SocketAddr) :
    select_dialable_direct addrs = (select_dialable_directs addrs).head? := by
  rw [select_dialable_directs, foldl_select_directs, head?_foldl_push_new, List.nil_append,
    List.head?_map, List.head?_filter]
  rfl

theorem set_port_ip (addr : SocketAddr) (port : ℕ) : (addr.set_port port).ip = addr.ip := by
  cases addr with
  | v4 ip p => rfl
  | v6 ip p flowinfo scope_id => rfl

theorem set_port_port (addr : SocketAddr) (port : ℕ) : (addr.set_port port).port = port := by
  cases addr with
  | v4 ip p => rfl
  | v6 ip p flowinfo scope_id => rfl

/-- A port that is borrowed is real and that of a bound socket. -/
theorem borrow_port_real {bound_sockets : List SocketAddr} {ipv6 : Bool} {port : ℕ}
    (h : borrow_port bound_sockets ipv6 = some port) :
    is_placeholder_port port = false ∧ ∃ bound ∈ bound_sockets, bound.port = port := by
  rw [borrow_port, Option.map_eq_some_iff] at h
  obtain ⟨bound, hfind, rfl⟩ := h
  have hreal := List.find?_some hfind
  rw [Bool.and_eq_true, Bool.not_eq_true'] at hreal
  exact ⟨hreal.2, bound, List.mem_of_find?_eq_some hfind, rfl⟩

section

variable {bound_sockets : List SocketAddr} {addr : SocketAddr}

/-- An address that is not routable is left out. -/
theorem core_text_unroutable (h : is_routable_ip addr.ip = false) :
    core_text bound_sockets addr = none := by
  rw [core_text, Option.map_eq_none_iff, Option.filter_eq_none_iff]
  intro a ha hdialable
  rw [is_dialable_direct, Bool.and_eq_true] at hdialable
  have hip : a.ip = addr.ip := by
    rw [reconciled_address] at ha
    split at ha
    · rw [← Option.some.inj ha]
    · rw [Option.map_eq_some_iff] at ha
      obtain ⟨port, -, rfl⟩ := ha
      exact set_port_ip addr port
  rw [hip, h] at hdialable
  exact Bool.false_ne_true hdialable.1

/-- A real port is kept. -/
theorem core_text_real (hrouted : is_routable_ip addr.ip = true)
    (h : is_placeholder_port addr.port = false) :
    core_text bound_sockets addr = some addr.to_string := by
  have hdialable : is_dialable_direct addr = true := by
    rw [is_dialable_direct, hrouted, h]
    rfl
  rw [core_text, reconciled_address, h, Bool.not_false, if_pos rfl, Option.filter_some, hdialable,
    if_pos rfl, Option.map_some]

/-- A placeholder borrows a port of its family. -/
theorem core_text_placeholder (hrouted : is_routable_ip addr.ip = true)
    (h : is_placeholder_port addr.port = true) :
    core_text bound_sockets addr = (borrow_port bound_sockets addr.ip.is_ipv6).map fun port =>
      (addr.set_port port).to_string := by
  rw [core_text, reconciled_address, h, Bool.not_true, if_neg Bool.false_ne_true]
  cases hport : borrow_port bound_sockets addr.ip.is_ipv6 with
  | none => rfl
  | some port =>
      have hdialable : is_dialable_direct (addr.set_port port) = true := by
        rw [is_dialable_direct, set_port_ip, set_port_port, hrouted, (borrow_port_real hport).1]
        rfl
      rw [Option.map_some, Option.filter_some, hdialable, if_pos rfl, Option.map_some, Option.map_some]

/-- What is left of an address without an index in it, on another port. -/
theorem to_string_set_port (h : addr.scope_id = 0) (port : ℕ) :
    (addr.set_port port).to_string = (addr.ip.socket port).to_string := by
  cases addr with
  | v4 ip p => rfl
  | v6 ip p flowinfo scope_id =>
      rw [SocketAddr.scope_id] at h
      subst h
      rfl

/-- `BorrowsAlike`, in the words of the two crates. -/
theorem borrowsAlike_iff : BorrowsAlike bound_sockets addr ↔
    (is_placeholder_port addr.port = true →
      borrow_port bound_sockets addr.ip.is_ipv6
        = (compatible_bound bound_sockets addr.ip).map SocketAddr.port ∧
      (borrow_port bound_sockets addr.ip.is_ipv6 ≠ none → addr.scope_id = 0)) := by
  have hborrow : borrow_port bound_sockets addr.ip.is_ipv6
      = (bound_sockets.find? (of_family addr.ip.is_ipv6)).map SocketAddr.port := rfl
  have hcompatible : compatible_bound bound_sockets addr.ip
      = bound_sockets.find? (serves addr.ip) := rfl
  rw [BorrowsAlike, hborrow, hcompatible]
  apply imp_congr_right
  intro _
  cases hfamily : bound_sockets.find? (of_family addr.ip.is_ipv6) with
  | none =>
      -- a socket that listens is of the family
      have hserves : bound_sockets.find? (serves addr.ip) = none := by
        rw [List.find?_eq_none] at hfamily ⊢
        intro bound hbound hserves
        apply hfamily bound hbound
        rw [serves, listens_on, Bool.and_eq_true, Bool.and_eq_true] at hserves
        rw [of_family, Bool.and_eq_true]
        exact ⟨hserves.1.1, hserves.2⟩
      rw [hserves]
      exact ⟨fun _ => ⟨rfl, fun hno => absurd rfl hno⟩, fun _ bound hno => by cases hno⟩
  | some bound =>
      rw [Option.map_some]
      constructor
      · intro h
        obtain ⟨hscope, bound', hserves, hport⟩ := h bound rfl
        rw [hserves, Option.map_some, hport]
        exact ⟨rfl, fun _ => hscope⟩
      · rintro ⟨hsame, hscope⟩ b hb
        rw [← Option.some.inj hb]
        obtain ⟨bound', hserves, hport⟩ := Option.map_eq_some_iff.mp hsame.symm
        exact ⟨hscope (Option.some_ne_none _), bound', hserves, hport⟩

/-- Where both borrow alike, the core's text is that of the address that discovery dials. -/
theorem core_text_of_alike (hrouted : is_routable_ip addr.ip = true)
    (h : BorrowsAlike bound_sockets addr) :
    core_text bound_sockets addr = (dialed_address bound_sockets addr).map SocketAddr.to_string := by
  rw [dialed_address]
  by_cases hport : is_placeholder_port addr.port = true
  · obtain ⟨hsame, hscope⟩ := borrowsAlike_iff.mp h hport
    rw [core_text_placeholder hrouted hport, if_pos hport, hsame, Option.map_map, Option.map_map]
    cases hbound : compatible_bound bound_sockets addr.ip with
    | none => rfl
    | some bound =>
        rw [hsame, hbound] at hscope
        have hzero := hscope (Option.some_ne_none _)
        rw [Option.map_some, Option.map_some]
        exact congrArg some (to_string_set_port hzero bound.port)
  · rw [if_neg hport]
    rw [Bool.not_eq_true] at hport
    exact core_text_real hrouted hport

/-! ## Texts and addresses -/

/-- A text has no flow label. -/
theorem to_string_without_flowinfo (a : SocketAddr) :
    a.without_flowinfo.to_string = a.to_string := by
  cases a with
  | v4 ip port => rfl
  | v6 ip port flowinfo scope_id => rfl

theorem without_flowinfo_eq (a : SocketAddr) : a.without_flowinfo = a ↔ a.flowinfo = 0 := by
  cases a with
  | v4 ip port => exact ⟨fun _ => rfl, fun _ => rfl⟩
  | v6 ip port flowinfo scope_id =>
      rw [SocketAddr.without_flowinfo, SocketAddr.v6.injEq, SocketAddr.flowinfo]
      constructor
      · exact fun h => h.2.2.1.symm
      · exact fun h => ⟨rfl, rfl, h.symm, rfl⟩

theorem socket_flowinfo (ip : IpAddr) (port : ℕ) : (ip.socket port).flowinfo = 0 := by
  cases ip with
  | v4 ip => rfl
  | v6 ip => rfl

theorem socket_without_flowinfo (ip : IpAddr) (port : ℕ) :
    (ip.socket port).without_flowinfo = ip.socket port := by
  rw [without_flowinfo_eq]
  exact socket_flowinfo ip port

/-- Addresses of one text differ in their flow label at most. -/
theorem without_flowinfo_of_text {a a' : SocketAddr} (ha : a.InRange) (ha' : a'.InRange)
    (h : a.to_string = a'.to_string) : a.without_flowinfo = a'.without_flowinfo := by
  have hparse := parse_to_string ha
  rw [h, parse_to_string ha', Option.some.injEq] at hparse
  exact hparse.symm

instance (a : SocketAddr) : Decidable a.InRange :=
  match a with
  | .v4 ip port => inferInstanceAs (Decidable (ip < 2 ^ 32 ∧ port < 2 ^ 16))
  | .v6 ip port flowinfo scope_id =>
      inferInstanceAs (Decidable (ip < 2 ^ 128 ∧ port < 2 ^ 16 ∧ flowinfo < 2 ^ 32 ∧ scope_id < 2 ^ 32))

theorem SocketAddr.InRange.port_lt {a : SocketAddr} (h : a.InRange) : a.port < 2 ^ 16 := by
  cases a with
  | v4 ip port => exact h.2
  | v6 ip port flowinfo scope_id => exact h.2.1

/-- A port in range keeps an address in range. -/
theorem inRange_set_port (h : addr.InRange) {port : ℕ} (hport : port < 2 ^ 16) :
    (addr.set_port port).InRange := by
  cases addr with
  | v4 ip p => exact ⟨h.1, hport⟩
  | v6 ip p flowinfo scope_id => exact ⟨h.1, hport, h.2.2⟩

theorem inRange_socket (h : addr.InRange) {port : ℕ} (hport : port < 2 ^ 16) :
    (addr.ip.socket port).InRange := by
  cases addr with
  | v4 ip p => exact ⟨h.1, hport⟩
  | v6 ip p flowinfo scope_id => exact ⟨h.1, hport, by omega, by omega⟩

/-- A compatible socket is bound. -/
theorem compatible_bound_mem {ip : IpAddr} {bound : SocketAddr}
    (h : compatible_bound bound_sockets ip = some bound) : bound ∈ bound_sockets :=
  List.mem_of_find?_eq_some h

/-- Discovery keeps an address with a real port. -/
theorem dialed_real (h : is_placeholder_port addr.port = false) :
    dialed_address bound_sockets addr = some addr := by
  rw [dialed_address, h, if_neg Bool.false_ne_true]

/-- Discovery gives a placeholder the port of the socket that serves it. -/
theorem dialed_placeholder (h : is_placeholder_port addr.port = true) {bound : SocketAddr}
    (hserves : bound_sockets.find? (serves addr.ip) = some bound) :
    dialed_address bound_sockets addr = some (addr.ip.socket bound.port) := by
  have hcompatible : compatible_bound bound_sockets addr.ip = some bound := hserves
  rw [dialed_address, if_pos h, hcompatible, Option.map_some]

/-- How discovery comes to an address. -/
theorem dialed_cases {a : SocketAddr} (h : dialed_address bound_sockets addr = some a) :
    (is_placeholder_port addr.port = false ∧ addr = a) ∨
      (is_placeholder_port addr.port = true ∧ ∃ bound,
        bound_sockets.find? (serves addr.ip) = some bound ∧ addr.ip.socket bound.port = a) := by
  rw [dialed_address] at h
  split at h
  · next hport =>
    right
    exact ⟨hport, Option.map_eq_some_iff.mp h⟩
  · next hport =>
    left
    rw [Bool.not_eq_true] at hport
    exact ⟨hport, Option.some.inj h⟩

/-- What discovery dials is in range. -/
theorem inRange_dialed (hbound : ∀ b ∈ bound_sockets, b.InRange) (h : addr.InRange)
    {a : SocketAddr} (ha : dialed_address bound_sockets addr = some a) : a.InRange := by
  rw [dialed_address] at ha
  split at ha
  · rw [Option.map_eq_some_iff] at ha
    obtain ⟨bound, hcompatible, rfl⟩ := ha
    exact inRange_socket h (hbound bound (compatible_bound_mem hcompatible)).port_lt
  · rw [← Option.some.inj ha]
    exact h

/-- Where both have the same text, they borrow alike. -/
theorem borrowsAlike_of_text (hbound : ∀ b ∈ bound_sockets, b.InRange) (h : addr.InRange)
    (hrouted : is_routable_ip addr.ip = true)
    (htext : core_text bound_sockets addr = (dialed_address bound_sockets addr).map SocketAddr.to_string) :
    BorrowsAlike bound_sockets addr := by
  rw [borrowsAlike_iff]
  intro hport
  rw [core_text_placeholder hrouted hport, dialed_address, if_pos hport, Option.map_map] at htext
  cases hborrowed : borrow_port bound_sockets addr.ip.is_ipv6 with
  | none =>
      rw [hborrowed, Option.map_none] at htext
      rw [Option.map_eq_none_iff.mp htext.symm]
      exact ⟨rfl, fun hno => absurd rfl hno⟩
  | some port =>
      rw [hborrowed, Option.map_some] at htext
      obtain ⟨bound, hcompatible, heq⟩ := Option.map_eq_some_iff.mp htext.symm
      obtain ⟨-, bound', hbound', hlt⟩ := borrow_port_real hborrowed
      have hrange := inRange_set_port h (hlt ▸ (hbound bound' hbound').port_lt)
      have hrange' := inRange_socket h (hbound bound (compatible_bound_mem hcompatible)).port_lt
      have hsame := without_flowinfo_of_text hrange' hrange heq
      -- field by field
      rw [hcompatible, Option.map_some]
      cases addr with
      | v4 ip p =>
          rw [SocketAddr.ip, IpAddr.socket, SocketAddr.set_port, SocketAddr.without_flowinfo,
            SocketAddr.without_flowinfo, SocketAddr.v4.injEq] at hsame
          exact ⟨congrArg some hsame.2.symm, fun _ => rfl⟩
      | v6 ip p flowinfo scope_id =>
          rw [SocketAddr.ip, IpAddr.socket, SocketAddr.set_port, SocketAddr.without_flowinfo,
            SocketAddr.without_flowinfo, SocketAddr.v6.injEq] at hsame
          exact ⟨congrArg some hsame.2.1.symm, fun _ => hsame.2.2.2.symm⟩

end

/-! ## Lists of candidates -/

section

variable {candidates bound_sockets : List SocketAddr}

/-- Among the candidates of one list, a text is that of one dialed address. -/
theorem dialed_inj (h : Alike candidates bound_sockets) {addr addr' a a' : SocketAddr}
    (haddr : addr ∈ candidates) (haddr' : addr' ∈ candidates)
    (hrouted : is_routable_ip addr.ip = true) (hrouted' : is_routable_ip addr'.ip = true)
    (hdial : dialed_address bound_sockets addr = some a)
    (hdial' : dialed_address bound_sockets addr' = some a')
    (hsame : a.without_flowinfo = a'.without_flowinfo) : a = a' := by
  rcases dialed_cases hdial with ⟨hreal, rfl⟩ | ⟨hplaceholder, bound, hbound, rfl⟩
  · rcases dialed_cases hdial' with ⟨hreal', rfl⟩ | ⟨hplaceholder', bound', hbound', rfl⟩
    · exact h.distinct addr haddr addr' haddr' hrouted hrouted' hreal hreal' hsame
    · rw [socket_without_flowinfo] at hsame
      have hflow := h.borrowed addr haddr addr' haddr' hrouted hrouted' hreal hplaceholder' bound'
        hbound' hsame
      rw [← hsame]
      exact ((without_flowinfo_eq addr).mpr hflow).symm
  · rw [socket_without_flowinfo] at hsame
    rcases dialed_cases hdial' with ⟨hreal', rfl⟩ | ⟨hplaceholder', bound', hbound', rfl⟩
    · have hflow := h.borrowed addr' haddr' addr haddr hrouted' hrouted hreal' hplaceholder bound
        hbound hsame.symm
      rw [hsame]
      exact (without_flowinfo_eq addr').mpr hflow
    · rw [socket_without_flowinfo] at hsame
      exact hsame

/-- **Enough**: where both borrow alike and nothing is told apart by its flow label, the lists
agree. -/
theorem directs_of_alike (hcandidates : ∀ a ∈ candidates, a.InRange)
    (hbound : ∀ b ∈ bound_sockets, b.InRange) (h : Alike candidates bound_sockets) :
    Agree candidates bound_sockets := by
  refine ⟨?_, select_dialable_direct_eq _⟩
  -- no text is repeated where no address is
  have hinj : ∀ a ∈ [] ++ candidates.filterMap (discovery_address bound_sockets),
      ∀ a' ∈ [] ++ candidates.filterMap (discovery_address bound_sockets),
        a.to_string = a'.to_string → a = a' := by
    have hdialed : ∀ a ∈ [] ++ candidates.filterMap (discovery_address bound_sockets),
        ∃ addr ∈ candidates, is_routable_ip addr.ip = true ∧ dialed_address bound_sockets addr = some a := by
      intro a ha
      rw [List.nil_append, List.mem_filterMap] at ha
      obtain ⟨addr, haddr, ha⟩ := ha
      rw [discovery_address] at ha
      split at ha
      · next hrouted => exact ⟨addr, haddr, hrouted, ha⟩
      · cases ha
    intro a ha a' ha' htext
    obtain ⟨addr, haddr, hrouted, hdial⟩ := hdialed a ha
    obtain ⟨addr', haddr', hrouted', hdial'⟩ := hdialed a' ha'
    have hrange := inRange_dialed hbound (hcandidates addr haddr) hdial
    have hrange' := inRange_dialed hbound (hcandidates addr' haddr') hdial'
    exact dialed_inj h haddr haddr' hrouted hrouted' hdial hdial'
      (without_flowinfo_of_text hrange hrange' htext)
  have htexts : candidates.filterMap (core_text bound_sockets)
      = (candidates.filterMap (discovery_address bound_sockets)).map SocketAddr.to_string := by
    rw [List.map_filterMap]
    apply List.filterMap_congr
    intro addr haddr
    rw [discovery_address]
    by_cases hrouted : is_routable_ip addr.ip = true
    · rw [if_pos hrouted]
      exact core_text_of_alike hrouted (h.borrows addr haddr hrouted)
    · rw [if_neg hrouted]
      rw [Bool.not_eq_true] at hrouted
      exact core_text_unroutable hrouted
  rw [select_directs_eq, peer_direct_addresses_eq, htexts, map_foldl_push_new hinj, List.map_nil]

/-- **Needed**: where the lists agree for all parts of the candidates, both borrow alike. -/
theorem borrowsAlike_of_agree (hcandidates : ∀ a ∈ candidates, a.InRange)
    (hbound : ∀ b ∈ bound_sockets, b.InRange)
    (h : ∀ l, l ⊆ candidates → Agree l bound_sockets) {addr : SocketAddr}
    (haddr : addr ∈ candidates)
    (hrouted : is_routable_ip addr.ip = true) : BorrowsAlike bound_sockets addr := by
  apply borrowsAlike_of_text hbound (hcandidates addr haddr) hrouted
  -- the list of this candidate alone
  have hone := (h [addr] (List.cons_subset.mpr ⟨haddr, List.nil_subset _⟩)).directs
  rw [select_directs_eq, peer_direct_addresses_eq, List.filterMap_cons, List.filterMap_cons,
    List.filterMap_nil, List.filterMap_nil, discovery_address, if_pos hrouted] at hone
  cases hcore : core_text bound_sockets addr with
  | none =>
      cases hdialed : dialed_address bound_sockets addr with
      | none => rfl
      | some a =>
          rw [hcore, hdialed] at hone
          cases hone
  | some text =>
      cases hdialed : dialed_address bound_sockets addr with
      | none =>
          rw [hcore, hdialed] at hone
          cases hone
      | some a =>
          rw [hcore, hdialed] at hone
          exact congrArg some (List.cons.inj hone).1

/-- And no two addresses differ in their flow label alone. -/
theorem dialed_apart_of_agree (h : ∀ l, l ⊆ candidates → Agree l bound_sockets)
    {addr addr' a a' : SocketAddr} (haddr : addr ∈ candidates) (haddr' : addr' ∈ candidates)
    (hrouted : is_routable_ip addr.ip = true) (hrouted' : is_routable_ip addr'.ip = true)
    (hdial : dialed_address bound_sockets addr = some a)
    (hdial' : dialed_address bound_sockets addr' = some a')
    (hsame : a.without_flowinfo = a'.without_flowinfo) : a = a' := by
  by_contra hne
  -- the list of the two has two addresses and one text
  have htwo := (h [addr, addr'] (List.cons_subset.mpr
    ⟨haddr, List.cons_subset.mpr ⟨haddr', List.nil_subset _⟩⟩)).directs
  have hdialed : peer_direct_addresses [addr, addr'] bound_sockets [] = [a, a'] := by
    rw [peer_direct_addresses_eq, List.filterMap_cons, List.filterMap_cons, List.filterMap_nil,
      discovery_address, discovery_address, if_pos hrouted, if_pos hrouted', hdial, hdial']
    have hpush : push_new [a] a' = [a, a'] := by
      rw [push_new, if_neg]
      · rfl
      · rw [List.mem_singleton]
        exact fun hno => hne hno.symm
    exact hpush
  have htext : a.to_string = a'.to_string := by
    rw [← to_string_without_flowinfo a, hsame, to_string_without_flowinfo]
  have hnodup : (select_dialable_directs
      (reconcile_direct_addr_ports [addr, addr'] bound_sockets)).Nodup := by
    rw [select_directs_eq]
    exact nodup_foldl_push_new List.nodup_nil
  rw [htwo, hdialed, List.map_cons, List.map_cons, List.map_nil, htext, List.nodup_cons] at hnodup
  exact hnodup.1 List.mem_cons_self

/-- The two conditions together. -/
theorem alike_of_agree (hcandidates : ∀ a ∈ candidates, a.InRange)
    (hbound : ∀ b ∈ bound_sockets, b.InRange)
    (h : ∀ l, l ⊆ candidates → Agree l bound_sockets) : Alike candidates bound_sockets := by
  constructor
  · intro addr haddr hrouted
    exact borrowsAlike_of_agree hcandidates hbound h haddr hrouted
  · intro addr haddr addr' haddr' hrouted hrouted' hreal hreal' hsame
    exact dialed_apart_of_agree h haddr haddr' hrouted hrouted' (dialed_real hreal)
      (dialed_real hreal') hsame
  · intro addr haddr addr' haddr' hrouted hrouted' hreal hplaceholder bound hserves hsame
    have hsocket : (addr'.ip.socket bound.port).without_flowinfo = addr'.ip.socket bound.port :=
      socket_without_flowinfo _ _
    have heq := dialed_apart_of_agree h haddr haddr' hrouted hrouted' (dialed_real hreal)
      (dialed_placeholder hplaceholder hserves) (hsame.trans hsocket.symm)
    rw [heq]
    exact socket_flowinfo _ _

/-- **The core and discovery agree** on every list of the candidates if and only if each of them
borrows alike and no two are dialed alike but for the flow information. -/
theorem dialable_addresses_agree (hcandidates : ∀ a ∈ candidates, a.InRange)
    (hbound : ∀ b ∈ bound_sockets, b.InRange) :
    (∀ l, l ⊆ candidates → Agree l bound_sockets) ↔ Alike candidates bound_sockets := by
  constructor
  · exact alike_of_agree hcandidates hbound
  · intro h l hl
    apply directs_of_alike (fun a ha => hcandidates a (hl ha)) hbound
    -- the condition is about each candidate and each two of them
    constructor
    · exact fun addr haddr => h.borrows addr (hl haddr)
    · exact fun addr haddr addr' haddr' => h.distinct addr (hl haddr) addr' (hl haddr')
    · exact fun addr haddr addr' haddr' => h.borrowed addr (hl haddr) addr' (hl haddr')

/-- 192.168.1.5 and the address of a socket bound to 10.0.0.1 only. -/
theorem dialable_addresses_differ :
    ¬ (∀ candidates bound_sockets : List SocketAddr,
      (∀ a ∈ candidates, a.InRange) → (∀ b ∈ bound_sockets, b.InRange) →
        Agree candidates bound_sockets) := by
  intro h
  have hdirects := (h [.v4 0xC0A80105 0] [.v4 0x0A000001 5000] (by decide) (by decide)).directs
  revert hdirects
  decide

/-- Candidates of both families: two without a port of their own, one with it, and one that nobody can
route to. -/
def several : List SocketAddr :=
  [.v4 0xC0A80105 0, .v4 0x0A000007 4433, .v4 0x7F000001 80,
    .v6 0x20010DB8000000000000000000000001 0 0 0]

/-- A socket on every address of either family. -/
def wildcards : List SocketAddr := [.v4 0 5000, .v6 0 5001 0 0]

/-- Three candidates, two of which borrow the ports of wildcard sockets. -/
theorem dialable_addresses_agree_several :
    (∀ l, l ⊆ several → Agree l wildcards) ∧
      (peer_direct_addresses several wildcards []).map SocketAddr.to_string =
        ["192.168.1.5:5000", "10.0.0.7:4433", "[2001:db8::1]:5001"] := by
  have halike : Alike several wildcards := by
    constructor
    · decide
    · decide
    · decide
  exact ⟨(dialable_addresses_agree (by decide) (by decide)).mpr halike, by decide⟩

end
end IrohHttp.Discovery
