/-
`run_peer_advertisement_refresh`, `iroh-http-discovery/src/lib.rs`: the worker that
publishes a peer's advertisement again when its addresses change.

It wakes when the endpoint's address changes, and every few seconds for the inventory of
the interfaces, which nothing announces. A change of the address goes before the timer.
The inventory may fail; the worker then leaves the record as it is and waits again.

One step is one `select_biased!`, one inventory with what is made of it, or a result of
the session. Cancellation and the end of the endpoint may come at each select. The
watcher holds the newest address only, and whether it has been taken.
-/
import IrohHttp.Parties
import IrohHttp.PeerService

set_option autoImplicit false

open Machine

namespace IrohHttp.Discovery

/-! ## The worker -/

/-- One turn of the loop: the address that the watcher held when the worker woke, the
inventory it read, and the configuration that it published, if any. -/
structure Turn where
  newest : EndpointAddr
  inventory : Except String (List IpAddr)
  published : Option ServiceConfig

/-- `newest` is for the record only. -/
inductive RefreshPhase
  | waiting
  | reading (newest : EndpointAddr)
  | updating
  | draining (terminal : Bool)
  | returned (terminal : Bool)

/-- The refresh task: what it knows, what the watcher has for it, and the record of its turns. -/
structure Refresh where
  node_addr : EndpointAddr
  known_local_ips : List IpAddr
  phase : RefreshPhase := .waiting
  watched : EndpointAddr
  changed : Bool := false
  close_requests : ℕ := 0
  turns : List Turn := []

/-- What can happen to the task: a new address, a tick, the end of a party, and the answers that its
turn waits for. -/
inductive RefreshLabel
  | address (node_addr : EndpointAddr)
  | wake
  | watcher_gone
  | cancelled
  | endpoint_closed
  | inventory (result : Except String (List IpAddr))
  | update (result : Except String Bool)

/-- What the worker is started with. -/
structure RefreshConfig where
  service_name : String
  instance_name : String
  bound_sockets : List SocketAddr
  initial_interface_ips : List IpAddr

namespace RefreshConfig

/-- The watcher has been read just before the worker is started. -/
def start (cfg : RefreshConfig) (node_addr : EndpointAddr) : Refresh where
  node_addr
  known_local_ips := cfg.initial_interface_ips
  watched := node_addr

/-- The record that a turn publishes. -/
def config (cfg : RefreshConfig) (node_addr : EndpointAddr) (interface_ips known : List IpAddr) :
    Except String ServiceConfig :=
  peer_service_config_from_reconciled_snapshot cfg.service_name cfg.instance_name
    cfg.bound_sockets node_addr interface_ips known

/-- An inventory, up to the call of `update_advertisement`. -/
def inventory (cfg : RefreshConfig) (s : Refresh) (newest : EndpointAddr)
    (result : Except String (List IpAddr)) : Refresh :=
  match result with
  | .error _ =>
    { s with phase := .waiting, turns := s.turns ++ [⟨newest, result, none⟩] }
  | .ok interface_ips =>
    let known := interface_ips.foldl push_new s.known_local_ips
    let s := { s with known_local_ips := known }
    match cfg.config s.node_addr interface_ips known with
    | .error _ => { s with phase := .waiting, turns := s.turns ++ [⟨newest, result, none⟩] }
    | .ok config => { s with phase := .updating, turns := s.turns ++ [⟨newest, result, some config⟩] }

/-- Cancellation, or the end of the endpoint, at one of the selects. -/
def stop (s : Refresh) (terminal : Bool) : Option Refresh :=
  match s.phase with
  | .waiting => some { s with phase := .returned terminal }
  | .updating =>
    some { s with phase := .draining terminal, close_requests := s.close_requests + 1 }
  | _ => none

/-- One step of `refresh_advertisement`, `none` where the label is not enabled. -/
def step (cfg : RefreshConfig) (s : Refresh) : RefreshLabel → Option Refresh
  | .address node_addr => some { s with watched := node_addr, changed := true }
  | .wake =>
    match s.phase with
    | .waiting =>
      -- an update that is ready goes before the tick
      some { s with
        node_addr := if s.changed then s.watched else s.node_addr
        changed := false
        phase := .reading s.watched }
    | _ => none
  | .watcher_gone =>
    match s.phase with
    | .waiting => some { s with phase := .returned true }
    | _ => none
  | .cancelled => stop s false
  | .endpoint_closed => stop s true
  | .inventory result =>
    match s.phase with
    | .reading newest => some (cfg.inventory s newest result)
    | _ => none
  | .update result =>
    match s.phase, result with
    | .updating, .ok _ => some { s with phase := .waiting }
    | .updating, .error _ => some { s with phase := .returned true }
    | .draining terminal, _ => some { s with phase := .returned terminal }
    | _, _ => none

/-- Every IP address that the first inventory or one of these turns has listed. -/
def listed (cfg : RefreshConfig) (turns : List Turn) : List IpAddr :=
  cfg.initial_interface_ips ++ turns.flatMap fun turn => turn.inventory.toOption.getD []

/-- What a turn is to publish, after the turns before it. -/
def due (cfg : RefreshConfig) (earlier : List Turn) (turn : Turn) : Option ServiceConfig :=
  turn.inventory.toOption.bind fun interface_ips =>
    (cfg.config turn.newest interface_ips (cfg.listed earlier ++ interface_ips)).toOption

/-! ## Every turn -/

/-- What is known between two turns: the address is the newest one read, the known addresses are
those that an inventory has listed, and each turn published what was due. -/
structure Inv (cfg : RefreshConfig) (s : Refresh) : Prop where
  taken : s.changed = false → s.node_addr = s.watched
  reading : ∀ newest, s.phase = .reading newest → s.node_addr = newest
  known : ∀ ip, ip ∈ s.known_local_ips ↔ ip ∈ cfg.listed s.turns
  due : ∀ (i : ℕ) (turn : Turn), s.turns[i]? = some turn →
    turn.published = cfg.due (s.turns.take i) turn

theorem inv_start (cfg : RefreshConfig) (node_addr : EndpointAddr) :
    Inv cfg (cfg.start node_addr) where
  taken _ := rfl
  reading newest h := by cases h
  known ip := by
    rw [listed, start, List.flatMap_nil, List.append_nil]
  due i turn h := by
    rw [start, List.getElem?_nil] at h
    cases h

/-- A turn adds the addresses of its inventory. -/
theorem mem_listed_concat {cfg : RefreshConfig} {turns : List Turn} {turn : Turn} {ip : IpAddr} :
    ip ∈ cfg.listed (turns ++ [turn]) ↔
      ip ∈ cfg.listed turns ∨ ip ∈ turn.inventory.toOption.getD [] := by
  rw [listed, listed, List.flatMap_append, List.flatMap_singleton, ← List.append_assoc,
    List.mem_append]

/-- A turn that is added where it is due. -/
theorem due_concat {cfg : RefreshConfig} {turns : List Turn}
    (h : ∀ (i : ℕ) (turn : Turn), turns[i]? = some turn →
      turn.published = cfg.due (turns.take i) turn)
    {turn : Turn} (hturn : turn.published = cfg.due turns turn) :
    ∀ (i : ℕ) (turn' : Turn), (turns ++ [turn])[i]? = some turn' →
      turn'.published = cfg.due ((turns ++ [turn]).take i) turn' := by
  intro i turn' hi
  rcases Nat.lt_or_ge i turns.length with hlt | hge
  · rw [List.getElem?_append_left hlt] at hi
    rw [List.take_append_of_le_length (Nat.le_of_lt hlt)]
    exact h i turn' hi
  · have hlen := Parties.lt_of_getElem? hi
    rw [List.length_append, List.length_singleton] at hlen
    have hlast : i = turns.length := by omega
    subst hlast
    rw [List.getElem?_concat_length, Option.some.injEq] at hi
    rw [← hi, List.take_left]
    exact hturn

/-- Nothing of the worker's own changes but its phase. -/
theorem Inv.phase {cfg : RefreshConfig} {s s' : Refresh} (h : Inv cfg s)
    (hnode : s'.node_addr = s.node_addr) (hwatched : s'.watched = s.watched)
    (hchanged : s'.changed = s.changed) (hknown : s'.known_local_ips = s.known_local_ips)
    (hturns : s'.turns = s.turns) (hphase : ∀ newest, s'.phase ≠ .reading newest) : Inv cfg s' where
  taken := by
    rw [hnode, hwatched, hchanged]
    exact h.taken
  reading newest hr := absurd hr (hphase newest)
  known := by
    rw [hknown, hturns]
    exact h.known
  due := by
    rw [hturns]
    exact h.due

/-- The inventory of a turn: the record is built from the newest address and everything listed so
far. -/
theorem Inv.inventory {cfg : RefreshConfig} {s : Refresh} (h : Inv cfg s) {newest : EndpointAddr}
    (hreading : s.phase = .reading newest) (result : Except String (List IpAddr)) :
    Inv cfg (cfg.inventory s newest result) := by
  have hnode := h.reading newest hreading
  cases result with
  | error error =>
      refine ⟨h.taken, fun newest hr => (by cases hr), ?_, due_concat h.due rfl⟩
      intro ip
      rw [RefreshConfig.inventory, mem_listed_concat]
      simp only [Except.toOption, Option.getD_none, List.not_mem_nil, or_false]
      exact h.known ip
  | ok interface_ips =>
      have hknown : ∀ ip, ip ∈ interface_ips.foldl push_new s.known_local_ips ↔
          ip ∈ cfg.listed s.turns ++ interface_ips := by
        intro ip
        rw [mem_foldl_push_new, List.mem_append, h.known]
      have hconfig : cfg.config s.node_addr interface_ips
          (interface_ips.foldl push_new s.known_local_ips) =
          cfg.config newest interface_ips (cfg.listed s.turns ++ interface_ips) := by
        rw [config, config, hnode]
        exact peer_service_config_congr hknown _ _ _ _ _
      have hlisted : ∀ (published : Option ServiceConfig) ip,
          ip ∈ interface_ips.foldl push_new s.known_local_ips ↔
            ip ∈ cfg.listed (s.turns ++ [⟨newest, .ok interface_ips, published⟩]) := by
        intro published ip
        rw [hknown, mem_listed_concat, List.mem_append]
        rfl
      simp only [RefreshConfig.inventory]
      split
      · next error herror =>
        refine ⟨h.taken, fun newest hr => (by cases hr), hlisted none, due_concat h.due ?_⟩
        rw [hconfig] at herror
        simp only [RefreshConfig.due, Except.toOption, Option.bind_some, herror]
      · next config hok =>
        refine ⟨h.taken, fun newest hr => (by cases hr), hlisted (some config), due_concat h.due ?_⟩
        rw [hconfig] at hok
        simp only [RefreshConfig.due, Except.toOption, Option.bind_some, hok]

/-- A task that stops publishes nothing more. -/
theorem Inv.stop {cfg : RefreshConfig} {s s' : Refresh} (h : Inv cfg s) {terminal : Bool}
    (hstop : RefreshConfig.stop s terminal = some s') : Inv cfg s' := by
  simp only [RefreshConfig.stop] at hstop
  split at hstop
  · cases hstop
    refine h.phase rfl rfl rfl rfl rfl ?_
    intro newest hr
    cases hr
  · cases hstop
    refine h.phase rfl rfl rfl rfl rfl ?_
    intro newest hr
    cases hr
  · cases hstop

/-- **One step** keeps the invariant. -/
theorem inv_step {cfg : RefreshConfig} {s : Refresh} {a : RefreshLabel} {s' : Refresh}
    (h : Inv cfg s) (hstep : cfg.step s a = some s') : Inv cfg s' := by
  cases a with
  | address node_addr =>
      cases hstep
      exact ⟨fun hno => (by cases hno), h.reading, h.known, h.due⟩
  | wake =>
      simp only [step] at hstep
      split at hstep
      · cases hstep
        have hnewest : (if s.changed then s.watched else s.node_addr) = s.watched := by
          cases hchanged : s.changed with
          | false => exact h.taken hchanged
          | true => rfl
        refine ⟨fun _ => hnewest, ?_, h.known, h.due⟩
        intro newest hr
        cases hr
        exact hnewest
      · cases hstep
  | watcher_gone =>
      simp only [step] at hstep
      split at hstep
      · cases hstep
        refine h.phase rfl rfl rfl rfl rfl ?_
        intro newest hr
        cases hr
      · cases hstep
  | cancelled => exact h.stop hstep
  | endpoint_closed => exact h.stop hstep
  | inventory result =>
      simp only [step] at hstep
      split at hstep
      · next newest hphase =>
        cases hstep
        exact h.inventory hphase result
      · cases hstep
  | update result =>
      simp only [step] at hstep
      split at hstep
      · cases hstep
        refine h.phase rfl rfl rfl rfl rfl ?_
        intro newest hr
        cases hr
      · cases hstep
        refine h.phase rfl rfl rfl rfl rfl ?_
        intro newest hr
        cases hr
      · cases hstep
        refine h.phase rfl rfl rfl rfl rfl ?_
        intro newest hr
        cases hr
      · cases hstep

/-! ## What is published -/

/-- A configuration of current addresses, after `earlier` inventories. -/
structure Current (cfg : RefreshConfig) (earlier : List IpAddr) (newest : EndpointAddr)
    (interface_ips : List IpAddr) (c : ServiceConfig) : Prop where
  addrs : ∀ ip ∈ c.addrs, live earlier newest interface_ips ip
  txt : ∀ text ∈ c.txt_addresses, ∃ a : SocketAddr,
    a.to_string = text ∧ live earlier newest interface_ips a.ip
  keeps : ∀ a ∈ newest.ip_addrs, is_routable_ip a.ip = true →
    (a.ip ∈ earlier → a.ip ∈ interface_ips) →
    ∀ d, dialed_address cfg.bound_sockets a = some d → d.to_string ∈ c.txt_addresses ∨
      DNS_SD_TXT_ENTRY_MAX_BYTES < address_entry_size (c.txt_addresses ++ [d.to_string])

/-- What is live with this turn's inventory among the known addresses is live without it. -/
theorem live_of_listed {earlier : List IpAddr} {newest : EndpointAddr} {interface_ips : List IpAddr}
    {ip : IpAddr} (h : live (earlier ++ interface_ips) newest interface_ips ip) :
    live earlier newest interface_ips ip := by
  rcases h with h | ⟨hno, h⟩
  · exact Or.inl h
  · exact Or.inr ⟨fun hin => hno (List.mem_append_left _ hin), h⟩

/-- **What a turn publishes is current** for its address and its inventory. -/
theorem current_of_config {cfg : RefreshConfig} {earlier : List IpAddr} {newest : EndpointAddr}
    {interface_ips : List IpAddr} {c : ServiceConfig}
    (h : cfg.config newest interface_ips (earlier ++ interface_ips) = .ok c) :
    Current cfg earlier newest interface_ips c := by
  obtain ⟨haddrs, -⟩ := peer_service_config_ok h
  obtain ⟨hdirect, hroom⟩ := peer_service_config_txt h
  refine ⟨?_, ?_, ?_⟩
  · intro ip hip
    rw [haddrs] at hip
    rcases mem_select_addrs hip with hip | ⟨a, ha, rfl⟩
    · exact Or.inl hip
    · exact live_of_listed (live_of_mem_direct ha)
  · intro text ht
    obtain ⟨a, ha, rfl⟩ := hdirect text ht
    exact ⟨a, rfl, live_of_listed (live_of_mem_direct ha)⟩
  · intro a ha hroutable hknown d hd
    apply hroom
    rw [mem_peer_direct_addresses]
    refine Or.inl ⟨a, mem_reconciled.mpr ⟨ha, ?_⟩, hroutable, hd⟩
    intro hlisted
    rcases List.mem_append.mp hlisted with hin | hin
    · exact hknown hin
    · exact hin

/-- Each turn publishes what is due after the inventories before it, and what is due has
current addresses. A failed inventory is due nothing; the worker waits again and goes on
with the newest address and all that was listed. -/
theorem refresh_publishes_current (cfg : RefreshConfig) (node_addr : EndpointAddr)
    (l : List RefreshLabel) (s : Refresh) (hrun : run cfg.step (cfg.start node_addr) l = some s) :
    (∀ (i : ℕ) (turn : Turn), s.turns[i]? = some turn →
      turn.published = cfg.due (s.turns.take i) turn ∧
        ∀ interface_ips c, turn.inventory = .ok interface_ips → turn.published = some c →
          Current cfg (cfg.listed (s.turns.take i)) turn.newest interface_ips c) ∧
      ∀ error s', cfg.step s (.inventory (.error error)) = some s' →
        ∃ s'', cfg.step s' .wake = some s'' ∧ s''.phase = .reading s'.watched ∧
          s''.node_addr = s'.watched ∧ s''.known_local_ips = s.known_local_ips := by
  have h : Inv cfg s :=
    run_invariant (fun _ _ _ h hs => inv_step h hs) (inv_start cfg node_addr) hrun
  constructor
  · intro i turn hi
    have hdue := h.due i turn hi
    refine ⟨hdue, ?_⟩
    intro interface_ips c hinventory hc
    rw [hc, due, hinventory] at hdue
    simp only [Except.toOption, Option.bind_some] at hdue
    apply current_of_config
    split at hdue
    · next hok =>
      cases hdue
      exact hok
    · cases hdue
  · intro error s' hs'
    have h' := inv_step h hs'
    simp only [step] at hs'
    split at hs'
    · cases hs'
      refine ⟨_, rfl, rfl, ?_, rfl⟩
      cases hchanged : s.changed with
      | false =>
          simp only [RefreshConfig.inventory, hchanged]
          exact h.taken hchanged
      | true =>
          simp only [RefreshConfig.inventory, hchanged]
          rfl
    · cases hs'

/-- An IPv4 address by its octets. -/
def octets (a b c d : ℕ) : ℕ := a * 2 ^ 24 + b * 2 ^ 16 + c * 2 ^ 8 + d

/-- Two local addresses, one of which goes. -/
def home : RefreshConfig where
  service_name := "iroh-http"
  instance_name := "peer"
  bound_sockets := [.v4 0 53371]
  initial_interface_ips := [.v4 (octets 192 168 50 169), .v4 (octets 192 168 50 240)]

/-- Two addresses of a home network and a reflexive one. -/
def home_addr : EndpointAddr where
  ip_addrs := [.v4 (octets 192 168 50 240) 53371, .v4 (octets 192 168 50 169) 53371,
    .v4 (octets 203 0 113 10) 60097]
  relay_urls := []

/-- An inventory that fails publishes nothing; the next one has lost an address, and the record
loses it too. -/
theorem refresh_publishes_current_retracted :
    ∃ s c, run home.step (home.start home_addr) [.wake, .inventory (.error "temporary"), .wake,
        .inventory (.ok [.v4 (octets 192 168 50 169)]), .update (.ok true)] = some s ∧
      (s.turns.map Turn.published = [none, some c]) ∧
      c.txt_addresses = ["192.168.50.169:53371", "203.0.113.10:60097"] ∧
      Current home home.initial_interface_ips home_addr [.v4 (octets 192 168 50 169)] c := by
  obtain ⟨s, c, turn, hrun, hpub, hturn, hinv, hc, hnew, hlisted, htxt⟩ : ∃ s c turn,
      run home.step (home.start home_addr) [.wake, .inventory (.error "temporary"), .wake,
        .inventory (.ok [.v4 (octets 192 168 50 169)]), .update (.ok true)] = some s ∧
      (s.turns.map Turn.published = [none, some c]) ∧ s.turns[1]? = some turn ∧
      turn.inventory = .ok [.v4 (octets 192 168 50 169)] ∧ turn.published = some c ∧
      turn.newest = home_addr ∧ home.listed (s.turns.take 1) = home.initial_interface_ips ∧
      c.txt_addresses = ["192.168.50.169:53371", "203.0.113.10:60097"] :=
    ⟨_, _, _, rfl, rfl, rfl, rfl, rfl, rfl, rfl, by decide⟩
  have h := ((refresh_publishes_current home home_addr _ s hrun).1 1 turn hturn).2 _ c hinv hc
  rw [hnew, hlisted] at h
  exact ⟨s, c, hrun, hpub, htxt, h⟩

/-- Only IPv4 is bound. -/
def ipv4_only : RefreshConfig where
  service_name := "iroh-http"
  instance_name := "peer"
  bound_sockets := [.v4 0 53371]
  initial_interface_ips := []

/-- `2001:db8:1111:2222:3333:4444:5555:6660` and those after it. -/
def reflexive (n port : ℕ) : SocketAddr :=
  .v6 (0x20010db8111122223333444455556660 + n) port 0 0

/-- Six reflexive candidates, more than a record takes. -/
def six_candidates : EndpointAddr := ⟨(List.range 6).map fun n => reflexive n 60097, []⟩

/-- Two ways to lose a routable candidate that no inventory has listed: a placeholder port
with no socket to take its place, and a sixth long address. -/
theorem candidate_left_out :
    (∃ s c, run ipv4_only.step (ipv4_only.start ⟨[reflexive 0 1], []⟩)
        [.wake, .inventory (.ok [])] = some s ∧
      s.turns = [⟨⟨[reflexive 0 1], []⟩, .ok [], some c⟩] ∧
      is_routable_ip (reflexive 0 1).ip = true ∧ c.addrs = [] ∧ c.txt_addresses = []) ∧
    ∃ s c, run ipv4_only.step (ipv4_only.start six_candidates)
        [.wake, .inventory (.ok [])] = some s ∧
      s.turns = [⟨six_candidates, .ok [], some c⟩] ∧
      is_routable_ip (reflexive 5 60097).ip = true ∧ c.addrs = [] ∧
      c.txt_addresses = (List.range 5).map fun n => (reflexive n 60097).to_string := by
  constructor
  · exact ⟨_, _, rfl, rfl, by decide, by decide, by decide⟩
  · obtain ⟨s, c, hrun, hturns, hconfig, haddrs⟩ : ∃ s c,
        run ipv4_only.step (ipv4_only.start six_candidates) [.wake, .inventory (.ok [])] = some s ∧
        s.turns = [⟨six_candidates, .ok [], some c⟩] ∧
        ipv4_only.config six_candidates [] [] = .ok c ∧ c.addrs = [] :=
      ⟨_, _, rfl, rfl, rfl, by decide⟩
    refine ⟨s, c, hrun, hturns, by decide, haddrs, ?_⟩
    rw [peer_service_config_txt_addresses hconfig]
    decide +kernel

end RefreshConfig

end IrohHttp.Discovery
