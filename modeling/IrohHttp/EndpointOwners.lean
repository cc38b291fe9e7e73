/-
`iroh-http-tauri`: one live endpoint for each node id.

`create_endpoint` of `commands.rs` puts the new endpoint into the registry, makes it the
owner of its node id (`state.rs`), takes the endpoint it replaces out of the registry,
activates discovery for the new handle, and retires and closes the replaced one.
`close_endpoint` retires discovery for its handle, closes the endpoint and then takes
handle and endpoint out of both tables. Each of these is a critical section of its own,
and the calls interleave between any two of them.

The registry is a slot map, as in `ffi/registry.rs`: the interface of `SlotMap.lean` is
all that is used of it, and the value stored for an endpoint is its node id. Discovery
ownership is the state of `DiscoveryOwnership.lean`, whose other operations go on
meanwhile. The endpoints handed to a close are recorded by their keys.

What is proved of a state without a call in progress rests on two conditions: a handle
is activated before anybody retires it, and a close that finds an endpoint was given the
number that the registry issued for it. What key `from_ffi` makes of another number is
not specified, and the owner map and discovery know an endpoint only by the issued one.
-/
import IrohHttp.Parties
import IrohHttp.SlotMap
import IrohHttp.DiscoveryOwnership

set_option autoImplicit false

namespace IrohHttp.EndpointOwners

open IrohHttp.DiscoveryOwnership Parties SlotMap

/-! ## Calls -/

/-- Where a call is: the first five are `create_endpoint`, the next four
`close_endpoint`. -/
inductive Call
  | inserted (node_id : String) (handle : ℕ)
  | swapped (handle : ℕ) (old_handle : Option ℕ)
  | replaced (handle : ℕ) (replaced : Option ℕ)
  | activated (handle : ℕ) (replaced : Option ℕ)
  | retired (old_handle : ℕ)
  | closing (endpoint_handle : ℕ)
  | silenced (endpoint_handle : ℕ)
  | closed (endpoint_handle : ℕ)
  | disowned (endpoint_handle : ℕ)
  | done
  deriving DecidableEq

/-- What can happen: commands, the next step of a call, and other operations on the ownership. -/
inductive Label
  | create_endpoint (node_id : String)
  | close_endpoint (endpoint_handle : ℕ)
  | advance (call : ℕ)
  | discovery (op : OwnershipOp)

/-- The operation activates or retires endpoints. -/
def touches_endpoints : OwnershipOp → Bool
  | .activate_endpoint _ => true
  | .retire_endpoint _ => true
  | .retire_all => true
  | _ => false

section Plugin

variable {K : Type} {M : Type → Type} [SlotMap K M]

/-- The plugin: its endpoints, which of them owns a node id, the ownership state, what was closed,
and its calls. -/
structure Plugin (K : Type) (M : Type → Type) where
  registry : M String
  owners : String → Option ℕ
  ownership : OwnershipState
  closed : List K
  calls : List Call

namespace Plugin

/-- No endpoint yet. -/
def start : Plugin K M := ⟨with_key, fun _ => none, OwnershipState.default, [], []⟩

/-- The node id behind a handle. -/
def get_endpoint (s : Plugin K M) (handle : ℕ) : Option String :=
  SlotMap.get s.registry (from_ffi M handle)

/-- The handle and the registry of `insert_endpoint`. -/
def insert_endpoint (s : Plugin K M) (node_id : String) : ℕ × M String :=
  (as_ffi M (insert s.registry node_id).1, (insert s.registry node_id).2)

/-- `registry::remove_endpoint`. -/
def remove_endpoint (s : Plugin K M) (handle : ℕ) : Plugin K M :=
  { s with registry := remove s.registry (from_ffi M handle) }

/-- The handle owns its node id no more. -/
def remove_endpoint_owner (s : Plugin K M) (handle : ℕ) : Plugin K M :=
  { s with owners := fun node_id => (s.owners node_id).filter (· ≠ handle) }

/-- The endpoint is handed to `close` or `close_force`. -/
def close (s : Plugin K M) (handle : ℕ) : Plugin K M :=
  { s with closed := s.closed ++ [from_ffi M handle] }

/-- A call goes on. -/
def set_call (s : Plugin K M) (i : ℕ) (c : Call) : Plugin K M := { s with calls := s.calls.set i c }

/-- The next critical section of call `i`, which is at `c`. -/
def advance (s : Plugin K M) (i : ℕ) : Call → Option (Plugin K M)
  | .inserted node_id handle =>
    some ({ s with owners := Function.update s.owners node_id (some handle) }.set_call i
      (.swapped handle (s.owners node_id)))
  | .swapped handle old_handle =>
    match old_handle.filter (· ≠ handle) with
    | some old =>
      if (s.get_endpoint old).isSome then
        some ((s.remove_endpoint old).set_call i (.replaced handle (some old)))
      else some (s.set_call i (.replaced handle none))
    | none => some (s.set_call i (.replaced handle none))
  | .replaced handle replaced =>
    some ({ s with ownership := s.ownership.activate_endpoint handle }.set_call i
      (.activated handle replaced))
  | .activated _ (some old) =>
    some ({ s with ownership := (s.ownership.retire_endpoint old).2 }.set_call i (.retired old))
  | .activated _ none => some (s.set_call i .done)
  | .retired old => some ((s.close old).set_call i .done)
  | .closing handle =>
    some ({ s with ownership := (s.ownership.retire_endpoint handle).2 }.set_call i
      (.silenced handle))
  | .silenced handle => some ((s.close handle).set_call i (.closed handle))
  | .closed handle => some ((s.remove_endpoint_owner handle).set_call i (.disowned handle))
  | .disowned handle => some ((s.remove_endpoint handle).set_call i .done)
  | .done => none

/-- One step, `none` where the label is not enabled. -/
def step (s : Plugin K M) : Label → Option (Plugin K M)
  | .create_endpoint node_id =>
    let r := s.insert_endpoint node_id
    some { s with registry := r.2, calls := s.calls ++ [.inserted node_id r.1] }
  | .close_endpoint handle =>
    -- without an endpoint the command fails with `INVALID_HANDLE`
    if (s.get_endpoint handle).isSome then some { s with calls := s.calls ++ [.closing handle] }
    else some s
  | .advance i => (s.calls[i]?).bind (s.advance i)
  | .discovery op =>
    if touches_endpoints op then none
    else some { s with ownership := (s.ownership.perform op).2 }

end Plugin

/-- A handle is activated before it is retired, and a close that finds an endpoint has
its handle as issued. -/
def Meets (s : Plugin K M) : Label → Prop
  | .close_endpoint handle =>
    (s.get_endpoint handle).isSome = true → as_ffi M (from_ffi M handle) = handle
  | .advance i => ∀ handle replaced, s.calls[i]? = some (.replaced handle replaced) →
    s.ownership.endpoints handle = none
  | _ => True

/-- The call at `i` activates a handle that has an owner generation already. -/
def reactivates (s : Plugin K M) (i : ℕ) : Bool :=
  match s.calls[i]? with
  | some (.replaced handle _) => (s.ownership.endpoints handle).isSome
  | _ => false

omit [SlotMap K M] in
/-- When no retired endpoint is activated again. -/
theorem reactivates_eq_false (s : Plugin K M) (i : ℕ) : reactivates s i = false ↔
    ∀ handle replaced, s.calls[i]? = some (.replaced handle replaced) →
      s.ownership.endpoints handle = none := by
  unfold reactivates
  cases s.calls[i]? with
  | none => simp
  | some c => cases c <;> simp

instance (s : Plugin K M) (label : Label) : Decidable (Meets s label) :=
  match label with
  | .close_endpoint handle =>
    if hsome : (s.get_endpoint handle).isSome = true then
      decidable_of_iff (as_ffi M (from_ffi M handle) = handle) ⟨fun h _ => h, fun h => h hsome⟩
    else isTrue fun h => absurd h hsome
  | .advance i => decidable_of_iff (reactivates s i = false) (reactivates_eq_false s i)
  | .create_endpoint _ => isTrue trivial
  | .discovery _ => isTrue trivial

/-- No call is in progress. -/
def Quiet (s : Plugin K M) : Prop := ∀ c ∈ s.calls, c = .done

/-- One endpoint for each node id, which is the one the owner map names; what left the
registry was handed to a close; discovery is active only for what is in the registry. -/
structure OneLive (s : Plugin K M) : Prop where
  unique : ∀ k k' node_id, SlotMap.get s.registry k = some node_id → SlotMap.get s.registry k' = some node_id →
    k = k'
  owners : ∀ node_id handle, s.owners node_id = some handle →
    s.get_endpoint handle = some node_id
  owned : ∀ k node_id, SlotMap.get s.registry k = some node_id → s.owners node_id = some (as_ffi M k)
  closed : ∀ k, Issued s.registry k → SlotMap.get s.registry k = none → k ∈ s.closed
  active : ∀ handle owner, s.ownership.endpoints handle = some owner → owner.active = true →
    (s.get_endpoint handle).isSome = true

/-! ## What a call has still to do -/

namespace Call

/-- The handle whose creation has not been activated. -/
def creates : Call → Option ℕ
  | .inserted _ handle => some handle
  | .swapped handle _ => some handle
  | .replaced handle _ => some handle
  | _ => none

/-- The replaced handle that `create_endpoint` is to take out of the registry. -/
def takes : Call → Option ℕ
  | .swapped handle old_handle => old_handle.filter (· ≠ handle)
  | _ => none

/-- The handle that a call is to take out of the registry. -/
def removes : Call → Option ℕ
  | .disowned handle => some handle
  | c => c.takes

/-- The replaced handle that is still to be retired. -/
def retires : Call → Option ℕ
  | .replaced _ old => old
  | .activated _ old => old
  | _ => none

/-- The replaced handle that is still to be closed. -/
def hands : Call → Option ℕ
  | .retired old => some old
  | c => c.retires

/-- The handle that a close has retired. -/
def silences : Call → Option ℕ
  | .silenced handle => some handle
  | .closed handle => some handle
  | .disowned handle => some handle
  | _ => none

/-- The handle that a close has closed. -/
def has_closed : Call → Option ℕ
  | .closed handle => some handle
  | .disowned handle => some handle
  | _ => none

/-- All handles a call knows. -/
def handles : Call → List ℕ
  | .inserted _ handle => [handle]
  | .swapped handle old_handle => handle :: old_handle.toList
  | .replaced handle old => handle :: old.toList
  | .activated handle old => handle :: old.toList
  | .retired old => [old]
  | .closing handle => [handle]
  | .silenced handle => [handle]
  | .closed handle => [handle]
  | .disowned handle => [handle]
  | .done => []

theorem takes_removes {c : Call} {h : ℕ} (hc : c.takes = some h) : c.removes = some h := by
  cases c <;> simp_all [takes, removes]

end Call

/-! ## The invariant -/

/-- The number was issued for an endpoint. -/
def IsHandle (s : Plugin K M) (h : ℕ) : Prop :=
  Issued s.registry (from_ffi M h : K) ∧ as_ffi M (from_ffi M h) = h

/-- A call is creating a handle that has been retired already. Such a call cannot go on
under the condition. -/
def Doomed (s : Plugin K M) (h : ℕ) : Prop :=
  s.ownership.endpoints h ≠ none ∧ ∃ c ∈ s.calls, c.creates = some h

/-- A handle that is only in the registry so far. -/
structure Young (s : Plugin K M) (i : ℕ) (node_id : String) (h : ℕ) : Prop where
  owners : ∀ m, s.owners m ≠ some h
  takes : ∀ c ∈ s.calls, c.takes ≠ some h
  retires : ∀ c ∈ s.calls, c.retires ≠ some h
  alone : ∀ (j : ℕ) m, s.calls[j]? = some (.inserted m h) → j = i
  node : s.get_endpoint h = some node_id ∨ s.get_endpoint h = none

/-- The invariant: what calls and maps hold was issued, a young handle is nowhere yet, and each
endpoint has an owner, a creation or a removal to come. -/
structure Inv (s : Plugin K M) : Prop where
  handles : ∀ c ∈ s.calls, ∀ h ∈ c.handles, IsHandle s h
  issued : ∀ n h, s.owners n = some h → IsHandle s h
  known : ∀ h, s.ownership.endpoints h ≠ none → IsHandle s h
  young : ∀ (i : ℕ) n h, s.calls[i]? = some (.inserted n h) → Young s i n h
  accounted : ∀ h n, IsHandle s h → s.get_endpoint h = some n →
    s.owners n = some h ∨ .inserted n h ∈ s.calls ∨ ∃ c ∈ s.calls, c.removes = some h
  owner : ∀ n h, s.owners n = some h → s.get_endpoint h = some n ∨ Doomed s h
  removing : ∀ c ∈ s.calls, ∀ h, c.removes = some h → (∀ m, s.owners m ≠ some h) ∨ Doomed s h
  silenced : ∀ c ∈ s.calls, ∀ h, c.silences = some h →
    ∃ g, s.ownership.endpoints h = some ⟨g, false⟩
  gone : ∀ h, IsHandle s h → s.get_endpoint h = none →
    (∃ g, s.ownership.endpoints h = some ⟨g, false⟩) ∨ ∃ c ∈ s.calls, c.retires = some h
  handed : ∀ k, Issued s.registry k → SlotMap.get s.registry k = none →
    k ∈ s.closed ∨ ∃ c ∈ s.calls, ∃ h, c.hands = some h ∧ from_ffi M h = k
  closed : ∀ c ∈ s.calls, ∀ h, c.has_closed = some h → from_ffi M h ∈ s.closed

theorem inv_start : Inv (Plugin.start : Plugin K M) where
  handles _ hc := absurd hc List.not_mem_nil
  issued _ _ ho := by cases ho
  known _ hk := absurd rfl hk
  young _ _ _ hi := by simp [Plugin.start] at hi
  accounted h n hh _ := absurd hh.1 (issued_with_key _)
  owner _ _ ho := by cases ho
  removing _ hc := absurd hc List.not_mem_nil
  silenced _ hc := absurd hc List.not_mem_nil
  gone h hh _ := absurd hh.1 (issued_with_key _)
  handed k hk _ := absurd hk (issued_with_key _)
  closed _ hc := absurd hc List.not_mem_nil

/-- Where no call is in progress, the invariant comes down to `OneLive`. -/
theorem Inv.one_live {s : Plugin K M} (h : Inv s) (hquiet : Quiet s) : OneLive s := by
  have hno : ∀ {α : Type} {f : Call → Option α} {a : α}, f .done = none →
      ¬ ∃ c ∈ s.calls, f c = some a := by
    rintro α f a hf ⟨c, hc, hca⟩
    rw [hquiet c hc, hf] at hca
    cases hca
  have hdoomed : ∀ n, ¬ Doomed s n := fun n hn => hno rfl hn.2
  have howned : ∀ k n, SlotMap.get s.registry k = some n → s.owners n = some (as_ffi M k) := by
    intro k n hk
    have hissued := issued_of_get _ _ _ hk
    have hkey : from_ffi M (as_ffi M k) = k := from_as_ffi _ _ hissued
    have hhandle : IsHandle s (as_ffi M k) := by
      refine ⟨?_, ?_⟩
      · rw [hkey]
        exact hissued
      · rw [hkey]
    have hnode : s.get_endpoint (as_ffi M k) = some n := by
      rw [Plugin.get_endpoint, hkey]
      exact hk
    rcases h.accounted _ n hhandle hnode with ho | hins | hrem
    · exact ho
    · exact absurd (hquiet _ hins) (by simp)
    · exact absurd hrem (hno rfl)
  refine ⟨?_, ?_, howned, ?_, ?_⟩
  · intro k k' n hk hk'
    have heq : as_ffi M k = as_ffi M k' :=
      Option.some.inj ((howned k n hk).symm.trans (howned k' n hk'))
    rw [← from_as_ffi _ _ (issued_of_get _ _ _ hk), heq,
      from_as_ffi _ _ (issued_of_get _ _ _ hk')]
  · intro n handle ho
    exact (h.owner n handle ho).resolve_right (hdoomed handle)
  · intro k hk hnone
    rcases h.handed k hk hnone with hin | ⟨c, hc, o, hhands, -⟩
    · exact hin
    · exact absurd ⟨c, hc, hhands⟩ (hno rfl)
  · intro handle owner hown hactive
    by_contra habsent
    have hnone : s.get_endpoint handle = none := by simpa using habsent
    have hhandle := h.known handle (by simp [hown])
    rcases h.gone handle hhandle hnone with ⟨g, hg⟩ | hret
    · rw [hown, Option.some.injEq] at hg
      rw [hg] at hactive
      cases hactive
    · exact hno rfl hret

/-! ## Moving a call -/

/-- What a move may change: nothing in the registry is added, endpoints that discovery
knows stay known, and the call does not become a young one. -/
structure Moves (s s' : Plugin K M) (i : ℕ) (c c' : Call) : Prop where
  call : s.calls[i]? = some c
  calls : s'.calls = s.calls.set i c'
  issued : ∀ k, Issued s'.registry k ↔ Issued s.registry k
  settled : ∀ n h, c' ≠ .inserted n h
  known : ∀ h, s.ownership.endpoints h ≠ none → s'.ownership.endpoints h ≠ none

/-- A step of a call issues nothing. -/
theorem Moves.is_handle {s s' : Plugin K M} {i : ℕ} {c c' : Call} (m : Moves s s' i c c') {h : ℕ} :
    IsHandle s' h ↔ IsHandle s h := by
  simp only [IsHandle, m.issued]

/-- What is doomed stays so. -/
theorem Moves.doomed {s s' : Plugin K M} {i : ℕ} {c c' : Call} (m : Moves s s' i c c') {h : ℕ}
    (hd : Doomed s h) (hc : c.creates = some h → c'.creates = some h) : Doomed s' h := by
  refine ⟨m.known h hd.1, ?_⟩
  rw [m.calls]
  exact exists_set m.call hd.2 hc

/-- The invariant over a move, from what is new in it: each field says what the call
adds or what it no longer does. -/
theorem Inv.move {s s' : Plugin K M} {i : ℕ} {c c' : Call} (h : Inv s) (m : Moves s s' i c c')
    (hhandles : ∀ k ∈ c'.handles, IsHandle s k)
    (howners : ∀ n k, s'.owners n = some k → IsHandle s k)
    (hknown : ∀ k, s'.ownership.endpoints k ≠ none → IsHandle s k)
    (hyoung : ∀ (j : ℕ) n k, j ≠ i → s.calls[j]? = some (.inserted n k) → Young s j n k →
      (∀ n', s'.owners n' ≠ some k) ∧ c'.takes ≠ some k ∧ c'.retires ≠ some k ∧
        (s'.get_endpoint k = s.get_endpoint k ∨ s'.get_endpoint k = none))
    (haccounted : ∀ k n, IsHandle s k → s'.get_endpoint k = some n →
      s'.owners n = some k ∨ .inserted n k ∈ s'.calls ∨ ∃ d ∈ s'.calls, d.removes = some k)
    (howner : ∀ n k, s'.owners n = some k → s'.get_endpoint k = some n ∨ Doomed s' k)
    (hremoving : ∀ d ∈ s'.calls, ∀ k, d.removes = some k →
      (∀ n, s'.owners n ≠ some k) ∨ Doomed s' k)
    (hsilenced : ∀ d ∈ s'.calls, ∀ k, d.silences = some k →
      ∃ g, s'.ownership.endpoints k = some ⟨g, false⟩)
    (hgone : ∀ k, IsHandle s k → s'.get_endpoint k = none →
      (∃ g, s'.ownership.endpoints k = some ⟨g, false⟩) ∨ ∃ d ∈ s'.calls, d.retires = some k)
    (hhanded : ∀ k, Issued s.registry k → SlotMap.get s'.registry k = none →
      k ∈ s'.closed ∨ ∃ d ∈ s'.calls, ∃ o, d.hands = some o ∧ from_ffi M o = k)
    (hclosed : ∀ d ∈ s'.calls, ∀ k, d.has_closed = some k → from_ffi M k ∈ s'.closed) :
    Inv s' := by
  refine ⟨?_, fun n k hk => m.is_handle.mpr (howners n k hk),
    fun k hk => m.is_handle.mpr (hknown k hk), ?_,
    fun k n hk => haccounted k n (m.is_handle.mp hk), howner, hremoving, hsilenced,
    fun k hk => hgone k (m.is_handle.mp hk), fun k hk => hhanded k ((m.issued k).mp hk), hclosed⟩
  · intro d hd k hk
    rw [m.calls] at hd
    rw [m.is_handle]
    rcases List.mem_or_eq_of_mem_set hd with hd | rfl
    · exact h.handles d hd k hk
    · exact hhandles k hk
  · intro j n k hj
    rw [m.calls] at hj
    rcases getElem?_set_cases hj with ⟨-, hnew⟩ | ⟨hne, hold⟩
    · exact absurd hnew.symm (m.settled n k)
    · have hy := h.young j n k hold
      obtain ⟨ho, ht, hr, hn⟩ := hyoung j n k hne hold hy
      refine ⟨ho, ?_, ?_, ?_, ?_⟩
      · intro d hd
        rw [m.calls] at hd
        rcases List.mem_or_eq_of_mem_set hd with hd | rfl
        · exact hy.takes d hd
        · exact ht
      · intro d hd
        rw [m.calls] at hd
        rcases List.mem_or_eq_of_mem_set hd with hd | rfl
        · exact hy.retires d hd
        · exact hr
      · intro j' n' hj'
        rw [m.calls] at hj'
        rcases getElem?_set_cases hj' with ⟨-, hnew⟩ | ⟨-, hold'⟩
        · exact absurd hnew.symm (m.settled n' k)
        · exact hy.alone j' n' hold'
      · rcases hn with hn | hn
        · rw [hn]
          exact hy.node
        · exact .inr hn

/-! ## The steps of a call -/

/-- Discovery has nothing active for the handle. -/
def Inactive (s : Plugin K M) (h : ℕ) : Prop := ∃ g, s.ownership.endpoints h = some ⟨g, false⟩

/-- A move that leaves both tables alone. Discovery may retire a handle. -/
theorem Inv.quiet {s s' : Plugin K M} {i : ℕ} {c c' : Call} (h : Inv s) (m : Moves s s' i c c')
    (hregistry : s'.registry = s.registry) (howners : s'.owners = s.owners)
    (hends : ∀ k, s'.ownership.endpoints k = s.ownership.endpoints k ∨
      IsHandle s k ∧ Inactive s' k)
    (hclosed : ∀ k ∈ s.closed, k ∈ s'.closed) (hold : ∀ n k, c ≠ .inserted n k)
    (hhandles : ∀ k ∈ c'.handles, k ∈ c.handles)
    (hcreates : ∀ k, c.creates = some k → c'.creates = some k)
    (htakes : c'.takes = none) (hremoves : c'.removes = none)
    (hremoved : ∀ k, c.removes = some k → s.get_endpoint k = none)
    (hretires : ∀ k, c'.retires = some k → c.retires = some k)
    (hretired : ∀ k, c.retires = some k → c'.retires = some k ∨ Inactive s' k)
    (hsilences : ∀ k, c'.silences = some k → c.silences = some k ∨ Inactive s' k)
    (hhands : ∀ k, c.hands = some k → c'.hands = some k ∨ from_ffi M k ∈ s'.closed)
    (hhas : ∀ k, c'.has_closed = some k → from_ffi M k ∈ s'.closed) : Inv s' := by
  have hmem := List.mem_of_getElem? m.call
  -- the registry and the owners stay, so only what calls promise has to be carried over
  have hget : ∀ k, s'.get_endpoint k = s.get_endpoint k := by
    intro k
    rw [Plugin.get_endpoint, hregistry, Plugin.get_endpoint]
  have hinactive : ∀ k, Inactive s k → Inactive s' k := by
    rintro k ⟨g, hg⟩
    rcases hends k with heq | ⟨-, hin⟩
    · exact ⟨g, heq.trans hg⟩
    · exact hin
  have hdoomed : ∀ k, Doomed s k → Doomed s' k := fun k hk => m.doomed hk (hcreates k)
  refine h.move m (fun k hk => h.handles c hmem k (hhandles k hk)) ?_ ?_ ?_ ?_ ?_ ?_ ?_ ?_ ?_ ?_
  · intro n k hk
    rw [howners] at hk
    exact h.issued n k hk
  · intro k hk
    rcases hends k with heq | ⟨hin, -⟩
    · exact h.known k (heq ▸ hk)
    · exact hin
  · intro j n k _ _ hy
    rw [howners]
    refine ⟨hy.owners, by simp [htakes], ?_, .inl (hget k)⟩
    intro hk
    exact hy.retires c hmem (hretires k hk)
  · intro k n hk hn
    rw [hget] at hn
    rw [howners, m.calls]
    rcases h.accounted k n hk hn with ho | hins | hrem
    · exact .inl ho
    · exact .inr (.inl (mem_set_of_ne m.call hins (hold n k).symm))
    · refine .inr (.inr (exists_set m.call hrem ?_))
      intro hc
      rw [hremoved k hc] at hn
      cases hn
  · intro n k hk
    rw [howners] at hk
    rw [hget]
    exact (h.owner n k hk).imp_right (hdoomed k)
  · intro d hd k hk
    rw [howners]
    rw [m.calls] at hd
    rcases List.mem_or_eq_of_mem_set hd with hd | rfl
    · exact (h.removing d hd k hk).imp_right (hdoomed k)
    · simp [hremoves] at hk
  · intro d hd k hk
    rw [m.calls] at hd
    rcases List.mem_or_eq_of_mem_set hd with hd | rfl
    · exact hinactive k (h.silenced d hd k hk)
    · rcases hsilences k hk with hk | hin
      · exact hinactive k (h.silenced c hmem k hk)
      · exact hin
  · intro k hk hnone
    rw [hget] at hnone
    rw [m.calls]
    rcases h.gone k hk hnone with hin | hret
    · exact .inl (hinactive k hin)
    · by_cases hc : c.retires = some k
      · rcases hretired k hc with hc' | hin
        · exact .inr ⟨c', mem_set_self m.call, hc'⟩
        · exact .inl hin
      · exact .inr (exists_set m.call hret fun hc' => absurd hc' hc)
  · intro k hk hnone
    rw [hregistry] at hnone
    rw [m.calls]
    rcases h.handed k hk hnone with hin | ⟨d, hd, o, hhand, rfl⟩
    · exact .inl (hclosed _ hin)
    · by_cases hdc : d = c
      · subst hdc
        rcases hhands o hhand with hc' | hin
        · exact .inr ⟨c', mem_set_self m.call, o, hc', rfl⟩
        · exact .inl hin
      · exact .inr ⟨d, mem_set_of_ne m.call hd hdc, o, hhand, rfl⟩
  · intro d hd k hk
    rw [m.calls] at hd
    rcases List.mem_or_eq_of_mem_set hd with hd | rfl
    · exact hclosed _ (h.closed d hd k hk)
    · exact hhas k hk

/-- A removed endpoint is gone. -/
theorem get_removed_self (s : Plugin K M) (o : ℕ) : (s.remove_endpoint o).get_endpoint o = none :=
  get_remove_self _ _

/-- The others stay. -/
theorem get_removed_ne (s : Plugin K M) {o k : ℕ} (ho : IsHandle s o) (hk : IsHandle s k)
    (hne : k ≠ o) : (s.remove_endpoint o).get_endpoint k = s.get_endpoint k := by
  apply get_remove_of_ne
  intro heq
  apply hne
  rw [← hk.2, heq, ho.2]

/-- A move that takes `o` out of the registry. No one names it as the owner any more. -/
theorem Inv.remove {s s' : Plugin K M} {i o : ℕ} {c c' : Call} (h : Inv s) (m : Moves s s' i c c')
    (hc : c.removes = some o) (hoHandle : IsHandle s o)
    (hregistry : s'.registry = (s.remove_endpoint o).registry) (howners : s'.owners = s.owners)
    (hends : s'.ownership.endpoints = s.ownership.endpoints) (hclosed : s'.closed = s.closed)
    (hold : ∀ n k, c ≠ .inserted n k)
    (hhandles : ∀ k ∈ c'.handles, k ∈ c.handles)
    (hcreates : ∀ k, c.creates = some k → c'.creates = some k)
    (htakes : c'.takes = none) (hremoves : c'.removes = none) (hsilences : c'.silences = none)
    (hhas : c'.has_closed = none) (hretires : c.retires = none) (hhands : c.hands = none)
    (hretires' : ∀ k, c'.retires = some k → c.takes = some k)
    (hgone : c'.retires = some o ∨ Inactive s o)
    (hhanded : c'.hands = some o ∨ from_ffi M o ∈ s.closed) : Inv s' := by
  have hmem := List.mem_of_getElem? m.call
  -- only the entry `o` goes, so what holds of other handles is read off `s`
  have hself : s'.get_endpoint o = none := by
    rw [Plugin.get_endpoint, hregistry]
    exact get_removed_self s o
  have hget : ∀ k, IsHandle s k → k ≠ o → s'.get_endpoint k = s.get_endpoint k := by
    intro k hk hne
    rw [← get_removed_ne s hoHandle hk hne, Plugin.get_endpoint, hregistry, Plugin.get_endpoint]
  have hinactive : ∀ k, Inactive s k → Inactive s' k := by
    rintro k ⟨g, hg⟩
    exact ⟨g, (congrFun hends k).trans hg⟩
  have hdoomed : ∀ k, Doomed s k → Doomed s' k := fun k hk => m.doomed hk (hcreates k)
  refine h.move m (fun k hk => h.handles c hmem k (hhandles k hk)) ?_ ?_ ?_ ?_ ?_ ?_ ?_ ?_ ?_ ?_
  · intro n k hk
    rw [howners] at hk
    exact h.issued n k hk
  · intro k hk
    rw [hends] at hk
    exact h.known k hk
  · intro j n k _ hj hy
    rw [howners]
    refine ⟨hy.owners, by simp [htakes], ?_, ?_⟩
    · intro hk
      exact hy.takes c hmem (hretires' k hk)
    · by_cases hko : k = o
      · rw [hko]
        exact .inr hself
      · have hk : IsHandle s k := h.handles _ (List.mem_of_getElem? hj) k (by simp [Call.handles])
        exact .inl (hget k hk hko)
  · intro k n hk hn
    have hko : k ≠ o := by
      rintro rfl
      rw [hself] at hn
      cases hn
    rw [hget k hk hko] at hn
    rw [howners, m.calls]
    rcases h.accounted k n hk hn with ho | hins | hrem
    · exact .inl ho
    · exact .inr (.inl (mem_set_of_ne m.call hins (hold n k).symm))
    · refine .inr (.inr (exists_set m.call hrem ?_))
      intro hc'
      exact absurd (Option.some.inj (hc'.symm.trans hc)) hko
  · intro n k hk
    rw [howners] at hk
    by_cases hko : k = o
    · -- whoever removes it knows that it owns nothing
      subst hko
      rcases h.removing c hmem k hc with hfree | hd
      · exact absurd hk (hfree n)
      · exact .inr (hdoomed k hd)
    · rw [hget k (h.issued n k hk) hko]
      exact (h.owner n k hk).imp_right (hdoomed k)
  · intro d hd k hk
    rw [howners]
    rw [m.calls] at hd
    rcases List.mem_or_eq_of_mem_set hd with hd | rfl
    · exact (h.removing d hd k hk).imp_right (hdoomed k)
    · simp [hremoves] at hk
  · intro d hd k hk
    rw [m.calls] at hd
    rcases List.mem_or_eq_of_mem_set hd with hd | rfl
    · exact hinactive k (h.silenced d hd k hk)
    · simp [hsilences] at hk
  · intro k hk hnone
    rw [m.calls]
    by_cases hko : k = o
    · rw [hko]
      rcases hgone with hret | hin
      · exact .inr ⟨c', mem_set_self m.call, hret⟩
      · exact .inl (hinactive o hin)
    · rw [hget k hk hko] at hnone
      rcases h.gone k hk hnone with hin | hret
      · exact .inl (hinactive k hin)
      · exact .inr (exists_set m.call hret fun hc' => by simp [hretires] at hc')
  · intro k hk hnone
    rw [m.calls, hclosed]
    by_cases hko : k = from_ffi M o
    · rw [hko]
      rcases hhanded with hhand | hin
      · exact .inr ⟨c', mem_set_self m.call, o, hhand, rfl⟩
      · exact .inl hin
    · rw [hregistry, Plugin.remove_endpoint, get_remove_of_ne hko] at hnone
      rcases h.handed k hk hnone with hin | ⟨d, hd, o', hhand, rfl⟩
      · exact .inl hin
      · have hdc : d ≠ c := by
          rintro rfl
          simp [hhands] at hhand
        exact .inr ⟨d, mem_set_of_ne m.call hd hdc, o', hhand, rfl⟩
  · intro d hd k hk
    rw [hclosed]
    rw [m.calls] at hd
    rcases List.mem_or_eq_of_mem_set hd with hd | rfl
    · exact h.closed d hd k hk
    · simp [hhas] at hk

/-- The new handle becomes the owner of its node id, and the call has the old one to take
out of the registry. -/
theorem Inv.swap {s s' : Plugin K M} {i : ℕ} {n : String} {hd : ℕ} (h : Inv s)
    (hi : s.calls[i]? = some (.inserted n hd))
    (hstep : s.advance i (.inserted n hd) = some s') : Inv s' := by
  obtain rfl := Option.some.inj hstep
  have hy := h.young i n hd hi
  have hmem := List.mem_of_getElem? hi
  have hhd : IsHandle s hd := h.handles _ hmem hd (by simp [Call.handles])
  have m : Moves s ({ s with owners := Function.update s.owners n (some hd) }.set_call i
      (.swapped hd (s.owners n))) i (.inserted n hd) (.swapped hd (s.owners n)) :=
    ⟨hi, rfl, fun _ => Iff.rfl, fun _ _ => (by simp), fun _ hk => hk⟩
  have hdoomed : ∀ {k}, Doomed s k → Doomed ({ s with
      owners := Function.update s.owners n (some hd) }.set_call i (.swapped hd (s.owners n))) k :=
    fun hk => m.doomed hk (fun hc => hc)
  -- the owners, at the node id and elsewhere
  have howners : ∀ {n' k}, Function.update s.owners n (some hd) n' = some k →
      (n' = n ∧ k = hd) ∨ (n' ≠ n ∧ s.owners n' = some k) := by
    intro n' k hk
    by_cases hn : n' = n
    · subst hn
      rw [Function.update_self, Option.some.injEq] at hk
      exact .inl ⟨rfl, hk.symm⟩
    · rw [Function.update_of_ne hn] at hk
      exact .inr ⟨hn, hk⟩
  -- a handle that is owned twice is doomed
  have htwice : ∀ {n' k}, n' ≠ n → s.owners n' = some k → s.owners n = some k → Doomed s k := by
    intro n' k hne h₁ h₂
    rcases h.owner n' k h₁ with hn₁ | hd₁
    · rcases h.owner n k h₂ with hn₂ | hd₂
      · exact absurd (Option.some.inj (hn₁.symm.trans hn₂)) hne
      · exact hd₂
    · exact hd₁
  -- whoever closes the handle before it is swapped in has retired it
  have hearly : (∃ g, s.ownership.endpoints hd = some ⟨g, false⟩) → Doomed s hd := by
    rintro ⟨g, hg⟩
    exact ⟨by simp [hg], _, hmem, rfl⟩
  refine h.move m ?_ ?_ h.known ?_ ?_ ?_ ?_ ?_ ?_ ?_ ?_
  · intro k hk
    rcases List.mem_cons.mp hk with rfl | hk
    · exact hhd
    · exact h.issued n k (Option.mem_toList.mp hk)
  · intro n' k hk
    rcases howners hk with ⟨-, rfl⟩ | ⟨-, hold⟩
    · exact hhd
    · exact h.issued n' k hold
  · intro j n' k hne hj hy'
    have hkd : k ≠ hd := by
      rintro rfl
      exact hne (hy.alone j n' hj)
    refine ⟨?_, ?_, by simp [Call.retires], .inl rfl⟩
    · intro n'' hk
      rcases howners hk with ⟨-, rfl⟩ | ⟨-, hold⟩
      · exact hkd rfl
      · exact hy'.owners n'' hold
    · intro hk
      exact hy'.owners n (Option.filter_eq_some_iff.mp hk).1
  · intro k n' hk hn'
    rcases h.accounted k n' hk hn' with ho | hins | hrem
    · by_cases hn : n' = n
      · subst hn
        have hkd : k ≠ hd := by
          rintro rfl
          exact hy.owners n' ho
        refine .inr (.inr ⟨_, mem_set_self hi, ?_⟩)
        simp only [Call.removes, Call.takes, ho]
        exact Option.filter_eq_some_iff.mpr ⟨rfl, by simpa using hkd⟩
      · exact .inl ((Function.update_of_ne hn _ _).trans ho)
    · by_cases hkd : k = hd
      · subst hkd
        obtain rfl : n = n' := by
          obtain ⟨j, hj⟩ := List.mem_iff_getElem?.mp hins
          obtain rfl := hy.alone j n' hj
          rw [hi] at hj
          exact (Call.inserted.inj (Option.some.inj hj)).1
        exact .inl (Function.update_self _ _ _)
      · refine .inr (.inl (mem_set_of_ne hi hins ?_))
        intro heq
        exact hkd (Call.inserted.inj heq).2
    · exact .inr (.inr (exists_set hi hrem fun hc => by cases hc))
  · intro n' k hk
    rcases howners hk with ⟨rfl, rfl⟩ | ⟨-, hold⟩
    · rcases hy.node with hnode | hnone
      · exact .inl hnode
      · rcases h.gone k hhd hnone with hin | ⟨c, hc, hret⟩
        · exact .inr (hdoomed (hearly hin))
        · exact absurd hret (hy.retires c hc)
    · exact (h.owner n' k hold).imp_right hdoomed
  · intro d hd' k hk
    rcases List.mem_or_eq_of_mem_set hd' with hd' | rfl
    · by_cases hkd : k = hd
      · subst hkd
        cases d with
        | swapped a b => exact absurd hk (hy.takes _ hd')
        | disowned a =>
            obtain rfl := Option.some.inj hk
            exact .inr (hdoomed (hearly (h.silenced _ hd' a rfl)))
        | _ => cases hk
      · rcases h.removing d hd' k hk with hfree | hdm
        · left
          intro n' hn'
          rcases howners hn' with ⟨-, heq⟩ | ⟨-, hold⟩
          · exact hkd heq
          · exact hfree n' hold
        · exact .inr (hdoomed hdm)
    · -- the replaced handle
      obtain ⟨hold, hne⟩ := Option.filter_eq_some_iff.mp hk
      by_cases hdm : Doomed s k
      · exact .inr (hdoomed hdm)
      · left
        intro n' hn'
        rcases howners hn' with ⟨-, rfl⟩ | ⟨hne', hold'⟩
        · simp at hne
        · exact hdm (htwice hne' hold' hold)
  · intro d hd' k hk
    rcases List.mem_or_eq_of_mem_set hd' with hd' | rfl
    · exact h.silenced d hd' k hk
    · cases hk
  · intro k hk hnone
    rcases h.gone k hk hnone with hin | hret
    · exact .inl hin
    · exact .inr (exists_set hi hret fun hc => by cases hc)
  · intro k hk hnone
    rcases h.handed k hk hnone with hin | ⟨d, hd', o, hhand, heq⟩
    · exact .inl hin
    · refine .inr ⟨d, mem_set_of_ne hi hd' ?_, o, hhand, heq⟩
      rintro rfl
      cases hhand
  · intro d hd' k hk
    rcases List.mem_or_eq_of_mem_set hd' with hd' | rfl
    · exact h.closed d hd' k hk
    · cases hk

/-- A close takes its handle out of the owner map, and has the endpoint to remove. -/
theorem Inv.disown {s s' : Plugin K M} {i : ℕ} {hd : ℕ} (h : Inv s)
    (hi : s.calls[i]? = some (.closed hd)) (hstep : s.advance i (.closed hd) = some s') :
    Inv s' := by
  obtain rfl := Option.some.inj hstep
  have hmem := List.mem_of_getElem? hi
  have m : Moves s ((s.remove_endpoint_owner hd).set_call i (.disowned hd)) i (.closed hd)
      (.disowned hd) :=
    ⟨hi, rfl, fun _ => Iff.rfl, fun _ _ => (by simp), fun _ hk => hk⟩
  have hdoomed : ∀ {k}, Doomed s k →
      Doomed ((s.remove_endpoint_owner hd).set_call i (.disowned hd)) k :=
    fun hk => m.doomed hk (fun hc => by cases hc)
  -- an owner entry that stays was there, and is not the closed endpoint's
  have howners : ∀ {n k}, (s.owners n).filter (· ≠ hd) = some k → s.owners n = some k ∧ k ≠ hd := by
    intro n k hk
    obtain ⟨hold, hne⟩ := Option.filter_eq_some_iff.mp hk
    exact ⟨hold, by simpa using hne⟩
  refine h.move m (h.handles (.closed hd) hmem) ?_ h.known ?_ ?_ ?_ ?_ ?_ ?_ ?_ ?_
  · intro n k hk
    exact h.issued n k (howners hk).1
  · intro j n k _ _ hy
    refine ⟨?_, by simp [Call.takes], by simp [Call.retires], .inl rfl⟩
    intro n' hn'
    exact hy.owners n' (howners hn').1
  · intro k n hk hn
    rcases h.accounted k n hk hn with ho | hins | hrem
    -- the closed endpoint is no longer owned, and this call is to remove it
    · by_cases hkd : k = hd
      · rw [hkd]
        exact .inr (.inr ⟨_, mem_set_self hi, rfl⟩)
      · exact .inl (Option.filter_eq_some_iff.mpr ⟨ho, by simpa using hkd⟩)
    · exact .inr (.inl (mem_set_of_ne hi hins (by simp)))
    · exact .inr (.inr (exists_set hi hrem fun hc => by cases hc))
  · intro n k hk
    exact (h.owner n k (howners hk).1).imp_right hdoomed
  · intro d hd' k hk
    rcases List.mem_or_eq_of_mem_set hd' with hd' | rfl
    · rcases h.removing d hd' k hk with hfree | hdm
      · exact .inl fun n hn => hfree n (howners hn).1
      · exact .inr (hdoomed hdm)
    · left
      intro n hn
      exact (howners hn).2 (Option.some.inj hk).symm
  · intro d hd' k hk
    rcases List.mem_or_eq_of_mem_set hd' with hd' | rfl
    · exact h.silenced d hd' k hk
    · exact h.silenced _ hmem k hk
  · intro k hk hnone
    rcases h.gone k hk hnone with hin | hret
    · exact .inl hin
    · exact .inr (exists_set hi hret fun hc => by cases hc)
  · intro k hk hnone
    rcases h.handed k hk hnone with hin | ⟨d, hd', o, hhand, heq⟩
    · exact .inl hin
    · refine .inr ⟨d, mem_set_of_ne hi hd' ?_, o, hhand, heq⟩
      rintro rfl
      cases hhand
  · intro d hd' k hk
    rcases List.mem_or_eq_of_mem_set hd' with hd' | rfl
    · exact h.closed d hd' k hk
    · exact h.closed _ hmem k hk

/-- Activation makes an entry of the endpoint. -/
theorem activate_endpoints (s : OwnershipState) (h k : ℕ) :
    (s.activate_endpoint h).endpoints k ≠ none ↔ k = h ∨ s.endpoints k ≠ none := by
  simp only [OwnershipState.activate_endpoint, OwnershipState.bump_endpoint]
  by_cases hk : k = h
  · subst hk
    simp
  · rw [Function.update_of_ne hk]
    simp [hk]

/-- Discovery is activated for a handle that nobody has retired yet. -/
theorem Inv.activate {s s' : Plugin K M} {i hd : ℕ} {old : Option ℕ} (h : Inv s)
    (hi : s.calls[i]? = some (.replaced hd old)) (hfresh : s.ownership.endpoints hd = none)
    (hstep : s.advance i (.replaced hd old) = some s') : Inv s' := by
  obtain rfl := Option.some.inj hstep
  have hmem := List.mem_of_getElem? hi
  -- the endpoint was not known before, so nobody waits for its end and nobody has retired it
  have hne : ∀ {k}, k ≠ hd → (s.ownership.activate_endpoint hd).endpoints k =
      s.ownership.endpoints k := fun hk => Function.update_of_ne hk _ _
  have m : Moves s ({ s with ownership := s.ownership.activate_endpoint hd }.set_call i
      (.activated hd old)) i (.replaced hd old) (.activated hd old) := by
    refine ⟨hi, rfl, fun _ => Iff.rfl, fun _ _ => (by simp), ?_⟩
    intro k hk
    exact (activate_endpoints _ _ _).mpr (.inr hk)
  have hdoomed : ∀ {k}, Doomed s k → Doomed ({ s with
      ownership := s.ownership.activate_endpoint hd }.set_call i (.activated hd old)) k := by
    intro k hk
    refine m.doomed hk ?_
    intro hc
    obtain rfl := Option.some.inj hc
    exact absurd hfresh hk.1
  have hinactive : ∀ {k}, (∃ g, s.ownership.endpoints k = some ⟨g, false⟩) →
      ∃ g, (s.ownership.activate_endpoint hd).endpoints k = some ⟨g, false⟩ := by
    rintro k ⟨g, hg⟩
    have hk : k ≠ hd := by
      rintro rfl
      rw [hfresh] at hg
      cases hg
    exact ⟨g, (hne hk).trans hg⟩
  refine h.move m (h.handles (.replaced hd old) hmem) h.issued ?_ ?_ ?_ ?_ ?_ ?_ ?_ ?_ ?_
  · intro k hk
    rcases (activate_endpoints _ _ _).mp hk with rfl | hk
    · exact h.handles _ hmem k (by simp [Call.handles])
    · exact h.known k hk
  · intro j n k _ _ hy
    exact ⟨hy.owners, by simp [Call.takes], hy.retires (.replaced hd old) hmem, .inl rfl⟩
  · intro k n hk hn
    rcases h.accounted k n hk hn with ho | hins | hrem
    · exact .inl ho
    · exact .inr (.inl (mem_set_of_ne hi hins (by simp)))
    · exact .inr (.inr (exists_set hi hrem fun hc => by cases hc))
  · intro n k hk
    exact (h.owner n k hk).imp_right hdoomed
  · intro d hd' k hk
    rcases List.mem_or_eq_of_mem_set hd' with hd' | rfl
    · exact (h.removing d hd' k hk).imp_right hdoomed
    · cases hk
  · intro d hd' k hk
    rcases List.mem_or_eq_of_mem_set hd' with hd' | rfl
    · exact hinactive (h.silenced d hd' k hk)
    · cases hk
  · intro k hk hnone
    rcases h.gone k hk hnone with hin | hret
    · exact .inl (hinactive hin)
    · exact .inr (exists_set hi hret fun hc => hc)
  · intro k hk hnone
    rcases h.handed k hk hnone with hin | ⟨d, hd', o, hhand, heq⟩
    · exact .inl hin
    · by_cases hdc : d = .replaced hd old
      · subst hdc
        exact .inr ⟨_, mem_set_self hi, o, hhand, heq⟩
      · exact .inr ⟨d, mem_set_of_ne hi hd' hdc, o, hhand, heq⟩
  · intro d hd' k hk
    rcases List.mem_or_eq_of_mem_set hd' with hd' | rfl
    · exact h.closed d hd' k hk
    · cases hk

/-- Retirement leaves an entry that is not active. -/
theorem retire_endpoints (s : OwnershipState) (h : ℕ) :
    (∃ g, (s.retire_endpoint h).2.endpoints h = some ⟨g, false⟩) ∧
      ∀ k, k ≠ h → (s.retire_endpoint h).2.endpoints k = s.endpoints k := by
  have hends : (s.retire_endpoint h).2.endpoints = (s.bump_endpoint h false).endpoints := by
    simp only [OwnershipState.retire_endpoint, (OwnershipState.install_owner_cleanups_frame _ _).2.1,
      OwnershipState.take_matching]
  rw [hends]
  refine ⟨⟨_, Function.update_self _ _ _⟩, ?_⟩
  intro k hk
  exact Function.update_of_ne hk _ _

/-- A call retires a handle it knows. -/
theorem Inv.retire {s s' : Plugin K M} {i : ℕ} {c : Call} (h : Inv s)
    (hi : s.calls[i]? = some c) (o : ℕ) (c' : Call) (ho : o ∈ c.handles)
    (hs' : s' = { s with ownership := (s.ownership.retire_endpoint o).2 }.set_call i c')
    (hold : ∀ n k, c ≠ .inserted n k) (hnew : ∀ n k, c' ≠ .inserted n k)
    (hhandles : ∀ k ∈ c'.handles, k ∈ c.handles) (hcreates : c.creates = none)
    (hremoves : c.removes = none) (htakes' : c'.takes = none) (hremoves' : c'.removes = none)
    (hretires' : c'.retires = none) (hretires : ∀ k, c.retires = some k → k = o)
    (hsilences' : ∀ k, c'.silences = some k → k = o)
    (hhands : ∀ k, c.hands = some k → c'.hands = some k)
    (hhas' : c'.has_closed = none) : Inv s' := by
  subst hs'
  obtain ⟨hself, hne⟩ := retire_endpoints s.ownership o
  have hmem := List.mem_of_getElem? hi
  have m : Moves s ({ s with ownership := (s.ownership.retire_endpoint o).2 }.set_call i c') i c c' := by
    refine ⟨hi, rfl, fun _ => Iff.rfl, hnew, ?_⟩
    intro k hk
    by_cases hko : k = o
    · subst hko
      obtain ⟨g, hg⟩ := hself
      simp [Plugin.set_call, hg]
    · simpa only [Plugin.set_call, hne k hko] using hk
  refine h.quiet m rfl rfl ?_ (fun _ hk => hk) hold hhandles (by simp [hcreates]) htakes' hremoves'
    (by simp [hremoves]) (by simp [hretires']) ?_ ?_ (fun k hk => .inl (hhands k hk))
    (by simp [hhas'])
  · intro k
    by_cases hko : k = o
    · subst hko
      exact .inr ⟨h.handles c hmem k ho, hself⟩
    · exact .inl (hne k hko)
  · intro k hk
    rw [hretires k hk]
    exact .inr hself
  · intro k hk
    rw [hsilences' k hk]
    exact .inr hself

/-- Each critical section of a call, under the condition, keeps the invariant. -/
theorem Inv.advance {s s' : Plugin K M} {i : ℕ} {c : Call} (h : Inv s)
    (hi : s.calls[i]? = some c) (hmeets : Meets s (.advance i))
    (hstep : s.advance i c = some s') : Inv s' := by
  have hmem := List.mem_of_getElem? hi
  cases c with
  | inserted n hd => exact h.swap hi hstep
  | swapped hd old =>
      -- when the old endpoint is gone already, the call only forgets it
      have hquiet : ∀ {k}, (∀ o, (Call.swapped hd old).removes = some o → s.get_endpoint o = none) →
          some (s.set_call i (.replaced hd none)) = some k → Inv k := by
        rintro k hremoved hk
        obtain rfl := Option.some.inj hk
        refine h.quiet ⟨hi, rfl, fun _ => Iff.rfl, fun _ _ => (by simp), fun _ hk => hk⟩ rfl rfl
          (fun _ => .inl rfl) (fun _ hk => hk) (fun _ _ => (by simp)) ?_ (fun _ hc => hc) rfl rfl
          hremoved (fun _ hk => hk) (fun _ hk => .inl hk) (fun _ hk => .inl hk)
          (fun _ hk => .inl hk) (fun _ hk => by cases hk)
        intro k hk
        simp only [Call.handles, Option.toList_none, List.mem_singleton] at hk
        simp [Call.handles, hk]
      simp only [Plugin.advance] at hstep
      cases hold : old.filter (· ≠ hd) with
      | none =>
          rw [hold] at hstep
          refine hquiet ?_ hstep
          intro o ho
          have htakes : old.filter (· ≠ hd) = some o := ho
          rw [hold] at htakes
          cases htakes
      | some o =>
          rw [hold] at hstep
          have htakes : (Call.swapped hd old).takes = some o := hold
          have hold' := (Option.filter_eq_some_iff.mp hold).1
          dsimp only at hstep
          split at hstep
          · obtain rfl := Option.some.inj hstep
            refine h.remove ⟨hi, rfl, fun k => issued_remove _ _ _, fun _ _ => (by simp),
              fun _ hk => hk⟩ (Call.takes_removes htakes)
              (h.handles _ hmem o (by simp [Call.handles, hold'])) rfl rfl rfl rfl
              (fun _ _ => (by simp)) ?_ (fun _ hc => hc) rfl rfl rfl rfl rfl rfl ?_ (.inl rfl)
              (.inl rfl)
            · intro k hk
              simpa [Call.handles, hold'] using hk
            · intro k hk
              rw [htakes]
              exact hk
          · next hnone =>
            refine hquiet ?_ hstep
            intro o' ho'
            obtain rfl : o = o' := Option.some.inj (htakes.symm.trans ho')
            simpa using hnone
  -- the step the condition is about: the endpoint that is activated must still be the node's
  | replaced hd old => exact h.activate hi (hmeets hd old hi) hstep
  | activated hd old =>
      cases old with
      | none =>
          obtain rfl := Option.some.inj hstep
          exact h.quiet ⟨hi, rfl, fun _ => Iff.rfl, fun _ _ => (by simp), fun _ hk => hk⟩ rfl rfl
            (fun _ => .inl rfl) (fun _ hk => hk) (fun _ _ => (by simp))
            (fun _ hk => absurd hk List.not_mem_nil) (fun _ hc => by cases hc) rfl rfl
            (fun _ hk => by cases hk) (fun _ hk => by cases hk) (fun _ hk => by cases hk)
            (fun _ hk => by cases hk) (fun _ hk => by cases hk) (fun _ hk => by cases hk)
      | some o =>
          apply h.retire hi o (.retired o) (by simp [Call.handles])
            (Option.some.inj hstep).symm
          all_goals simp [Call.handles, Call.creates, Call.removes, Call.takes, Call.retires,
            Call.silences, Call.hands, Call.has_closed]
  | retired o =>
      obtain rfl := Option.some.inj hstep
      refine h.quiet ⟨hi, rfl, fun _ => Iff.rfl, fun _ _ => (by simp), fun _ hk => hk⟩ rfl rfl
        (fun _ => .inl rfl) (fun _ hk => List.mem_append_left _ hk) (fun _ _ => (by simp))
        (fun _ hk => absurd hk List.not_mem_nil) (fun _ hc => by cases hc) rfl rfl
        (fun _ hk => by cases hk) (fun _ hk => by cases hk) (fun _ hk => by cases hk)
        (fun _ hk => by cases hk) ?_ (fun _ hk => by cases hk)
      intro k hk
      obtain rfl := Option.some.inj hk
      exact .inr (List.mem_append_right _ (List.mem_singleton_self _))
  | closing hd =>
      apply h.retire hi hd (.silenced hd) (by simp [Call.handles])
        (Option.some.inj hstep).symm
      all_goals simp [Call.handles, Call.creates, Call.removes, Call.takes, Call.retires,
        Call.silences, Call.hands, Call.has_closed]
  | silenced hd =>
      obtain rfl := Option.some.inj hstep
      refine h.quiet ⟨hi, rfl, fun _ => Iff.rfl, fun _ _ => (by simp), fun _ hk => hk⟩ rfl rfl
        (fun _ => .inl rfl) (fun _ hk => List.mem_append_left _ hk) (fun _ _ => (by simp))
        (fun _ hk => hk) (fun _ hc => by cases hc) rfl rfl
        (fun _ hk => by cases hk) (fun _ hk => by cases hk) (fun _ hk => by cases hk)
        (fun _ hk => .inl hk) (fun _ hk => by cases hk) ?_
      intro k hk
      obtain rfl := Option.some.inj hk
      exact List.mem_append_right _ (List.mem_singleton_self _)
  | closed hd => exact h.disown hi hstep
  -- the entry goes last: the endpoint is silent by then, and its close handed out
  | disowned hd =>
      obtain rfl := Option.some.inj hstep
      exact h.remove ⟨hi, rfl, fun k => issued_remove _ _ _, fun _ _ => (by simp),
        fun _ hk => hk⟩ (o := hd) rfl (h.handles _ hmem hd (by simp [Call.handles])) rfl rfl rfl rfl
        (fun _ _ => (by simp)) (fun _ hk => absurd hk List.not_mem_nil) (fun _ hc => by cases hc)
        rfl rfl rfl rfl rfl rfl (fun _ hk => by cases hk) (.inr (h.silenced _ hmem hd rfl))
        (.inr (h.closed _ hmem hd rfl))
  | done => cases hstep

/-! ## The steps that begin a call -/

/-- The handles of a registry with one more endpoint. -/
theorem insert_handles (s : Plugin K M) (node_id : String) (calls : List Call) :
    ∀ h, IsHandle { s with registry := (s.insert_endpoint node_id).2, calls := calls } h ↔
      h = (s.insert_endpoint node_id).1 ∨ IsHandle s h := by
  have hkey : from_ffi M (s.insert_endpoint node_id).1 = (SlotMap.insert s.registry node_id).1 :=
    from_as_ffi (SlotMap.insert s.registry node_id).2 _ ((issued_insert _ _ _).mpr (.inl rfl))
  intro h
  simp only [IsHandle, Plugin.insert_endpoint, issued_insert]
  constructor
  · rintro ⟨hnew | hold, hffi⟩
    · left
      rw [← hffi, hnew]
    · exact .inr ⟨hold, hffi⟩
  · rintro (rfl | ⟨hold, hffi⟩)
    · refine ⟨.inl hkey, ?_⟩
      exact congrArg (as_ffi M) hkey
    · exact ⟨.inr hold, hffi⟩

/-- **A creation** issues a young handle. -/
theorem Inv.create {s : Plugin K M} (h : Inv s) (node_id : String) :
    Inv { s with
      registry := (s.insert_endpoint node_id).2
      calls := s.calls ++ [.inserted node_id (s.insert_endpoint node_id).1] } := by
  have hkey : from_ffi M (s.insert_endpoint node_id).1 = (SlotMap.insert s.registry node_id).1 :=
    from_as_ffi (SlotMap.insert s.registry node_id).2 _ ((issued_insert _ _ _).mpr (.inl rfl))
  -- the new handle was never issued, so no call and no owner can name it
  have hfresh : ¬ IsHandle s (s.insert_endpoint node_id).1 := by
    intro hh
    have hissued := hh.1
    rw [hkey] at hissued
    exact insert_fresh _ _ hissued
  have hhandles := insert_handles s node_id
    (s.calls ++ [.inserted node_id (s.insert_endpoint node_id).1])
  have hne : ∀ {k}, IsHandle s k → from_ffi M k ≠ (SlotMap.insert s.registry node_id).1 := by
    intro k hk heq
    exact insert_fresh _ _ (heq ▸ hk.1)
  have hget : ∀ {k}, IsHandle s k → SlotMap.get (s.insert_endpoint node_id).2 (from_ffi M k) =
      s.get_endpoint k := fun hk => get_insert_of_ne (hne hk)
  have hself : SlotMap.get (s.insert_endpoint node_id).2
      (from_ffi M (s.insert_endpoint node_id).1) = some node_id := by
    rw [hkey]
    exact get_insert_self _ _
  have hyoung_handle : ∀ {j : ℕ} {n k}, s.calls[j]? = some (.inserted n k) → IsHandle s k :=
    fun hj => h.handles _ (List.mem_of_getElem? hj) _ (by simp [Call.handles])
  -- the new endpoint is young and accounted for by its own call; all else is as it was
  refine ⟨?_, ?_, ?_, ?_, ?_, ?_, ?_, ?_, ?_, ?_, ?_⟩
  · intro c hc k hk
    rw [hhandles]
    rcases mem_concat_cases hc with hc | rfl
    · exact .inr (h.handles c hc k hk)
    · simp only [Call.handles, List.mem_singleton] at hk
      exact .inl hk
  · intro n k hk
    exact (hhandles k).mpr (.inr (h.issued n k hk))
  · intro k hk
    exact (hhandles k).mpr (.inr (h.known k hk))
  · intro j n k hj
    rcases getElem?_concat_cases hj with ⟨rfl, heq⟩ | hj
    · obtain ⟨rfl, rfl⟩ := Call.inserted.inj heq
      refine ⟨?_, ?_, ?_, ?_, .inl hself⟩
      · intro m hm
        exact hfresh (h.issued m _ hm)
      · intro c hc hk
        rcases mem_concat_cases hc with hc | rfl
        · apply hfresh
          apply h.handles c hc
          cases c <;> simp_all [Call.takes, Call.handles, Option.filter_eq_some_iff]
        · cases hk
      · intro c hc hk
        rcases mem_concat_cases hc with hc | rfl
        · apply hfresh
          apply h.handles c hc
          cases c <;> simp_all [Call.retires, Call.handles]
        · cases hk
      · intro j' m hj'
        rcases getElem?_concat_cases hj' with ⟨hj', -⟩ | hj'
        · exact hj'
        · exact absurd (hyoung_handle hj') hfresh
    · have hy := h.young j n k hj
      have hk := hyoung_handle hj
      refine ⟨hy.owners, ?_, ?_, ?_, ?_⟩
      · intro c hc
        rcases mem_concat_cases hc with hc | rfl
        · exact hy.takes c hc
        · simp [Call.takes]
      · intro c hc
        rcases mem_concat_cases hc with hc | rfl
        · exact hy.retires c hc
        · simp [Call.retires]
      · intro j' m hj'
        rcases getElem?_concat_cases hj' with ⟨-, heq'⟩ | hj'
        · rw [(Call.inserted.inj heq').2] at hk
          exact absurd hk hfresh
        · exact hy.alone j' m hj'
      · have hnode : ({ s with
            registry := (s.insert_endpoint node_id).2
            calls := s.calls ++ [.inserted node_id (s.insert_endpoint node_id).1] } :
              Plugin K M).get_endpoint k = s.get_endpoint k := hget hk
        rw [hnode]
        exact hy.node
  -- the registry has one entry more, and the call that made it accounts for it
  · intro k n hk hn
    rcases (hhandles k).mp hk with rfl | hk
    · obtain rfl : node_id = n := Option.some.inj (hself.symm.trans hn)
      exact .inr (.inl (List.mem_append_right _ (List.mem_singleton_self _)))
    · rcases h.accounted k n hk ((hget hk).symm.trans hn) with ho | hins | hrem
      · exact .inl ho
      · exact .inr (.inl (List.mem_append_left _ hins))
      · exact .inr (.inr (exists_concat hrem))
  · intro n k hk
    rcases h.owner n k hk with hn | ⟨hends, hc⟩
    · exact .inl ((hget (h.issued n k hk)).trans hn)
    · exact .inr ⟨hends, exists_concat hc⟩
  · intro c hc k hk
    rcases mem_concat_cases hc with hc | rfl
    · exact (h.removing c hc k hk).imp_right fun hd => ⟨hd.1, exists_concat hd.2⟩
    · cases hk
  · intro c hc k hk
    rcases mem_concat_cases hc with hc | rfl
    · exact h.silenced c hc k hk
    · cases hk
  · intro k hk hnone
    rcases (hhandles k).mp hk with rfl | hk
    · rw [Plugin.get_endpoint, hself] at hnone
      cases hnone
    · exact (h.gone k hk ((hget hk).symm.trans hnone)).imp_right exists_concat
  · intro k hk hnone
    rcases (issued_insert _ _ _).mp hk with rfl | hk
    · have hsome := get_insert_self s.registry node_id
      rw [show SlotMap.get (SlotMap.insert s.registry node_id).2 _ = none from hnone] at hsome
      cases hsome
    · have hkne : k ≠ (SlotMap.insert s.registry node_id).1 := by
        rintro rfl
        exact insert_fresh _ _ hk
      exact (h.handed k hk ((get_insert_of_ne hkne).symm.trans hnone)).imp_right exists_concat
  · intro c hc k hk
    rcases mem_concat_cases hc with hc | rfl
    · exact h.closed c hc k hk
    · cases hk

/-- A close that found its endpoint joins the calls. -/
theorem Inv.close_begins {s : Plugin K M} (h : Inv s) {hd : ℕ} (hhd : IsHandle s hd) :
    Inv { s with calls := s.calls ++ [.closing hd] } := by
  have hplace : ∀ {j : ℕ} {n k}, (s.calls ++ [.closing hd])[j]? = some (.inserted n k) →
      s.calls[j]? = some (.inserted n k) := by
    intro j n k hj
    rcases getElem?_concat_cases hj with ⟨-, heq⟩ | hj
    · cases heq
    · exact hj
  refine ⟨?_, h.issued, h.known, ?_, ?_, ?_, ?_, ?_, ?_, ?_, ?_⟩
  · intro c hc k hk
    rcases mem_concat_cases hc with hc | rfl
    · exact h.handles c hc k hk
    · obtain rfl := List.mem_singleton.mp hk
      exact hhd
  · intro j n k hj
    have hy := h.young j n k (hplace hj)
    refine ⟨hy.owners, ?_, ?_, fun j' m hj' => hy.alone j' m (hplace hj'), hy.node⟩
    · intro c hc
      rcases mem_concat_cases hc with hc | rfl
      · exact hy.takes c hc
      · simp [Call.takes]
    · intro c hc
      rcases mem_concat_cases hc with hc | rfl
      · exact hy.retires c hc
      · simp [Call.retires]
  · intro k n hk hn
    rcases h.accounted k n hk hn with ho | hins | hrem
    · exact .inl ho
    · exact .inr (.inl (List.mem_append_left _ hins))
    · exact .inr (.inr (exists_concat hrem))
  · intro n k hk
    exact (h.owner n k hk).imp_right fun hd' => ⟨hd'.1, exists_concat hd'.2⟩
  · intro c hc k hk
    rcases mem_concat_cases hc with hc | rfl
    · exact (h.removing c hc k hk).imp_right fun hd' => ⟨hd'.1, exists_concat hd'.2⟩
    · cases hk
  · intro c hc k hk
    rcases mem_concat_cases hc with hc | rfl
    · exact h.silenced c hc k hk
    · cases hk
  · intro k hk hnone
    exact (h.gone k hk hnone).imp_right exists_concat
  · intro k hk hnone
    exact (h.handed k hk hnone).imp_right exists_concat
  · intro c hc k hk
    rcases mem_concat_cases hc with hc | rfl
    · exact h.closed c hc k hk
    · cases hk

/-- The other operations of discovery leave the endpoints alone. -/
theorem endpoints_perform {s : OwnershipState} {op : OwnershipOp}
    (hop : touches_endpoints op = false) : (s.perform op).2.endpoints = s.endpoints := by
  funext k
  apply OwnershipState.endpoint_kept
  · cases op <;> simp_all [touches_endpoints, OwnershipOp.activates]
  · cases op <;> simp_all [touches_endpoints, OwnershipOp.retires_endpoint]

/-- Operations on the ownership that leave the endpoints alone keep the invariant. -/
theorem Inv.discovery {s : Plugin K M} (h : Inv s) {ownership : OwnershipState}
    (hends : ownership.endpoints = s.ownership.endpoints) :
    Inv { s with ownership := ownership } := by
  have hdoomed : ∀ k, Doomed s k → Doomed { s with ownership := ownership } k :=
    fun k hk => ⟨by rw [hends]; exact hk.1, hk.2⟩
  refine ⟨h.handles, h.issued, ?_, ?_, h.accounted, ?_, ?_, ?_, ?_, h.handed, h.closed⟩
  · intro k hk
    rw [hends] at hk
    exact h.known k hk
  · intro j n k hj
    have hy := h.young j n k hj
    exact ⟨hy.owners, hy.takes, hy.retires, hy.alone, hy.node⟩
  · intro n k hk
    exact (h.owner n k hk).imp_right (hdoomed k)
  · intro c hc k hk
    exact (h.removing c hc k hk).imp_right (hdoomed k)
  · rw [hends]
    exact h.silenced
  · rw [hends]
    exact h.gone

/-- **One step** keeps the invariant where it meets the condition. -/
theorem inv_step {s s' : Plugin K M} {a : Label} (h : Inv s) (hmeets : Meets s a)
    (hstep : s.step a = some s') : Inv s' := by
  cases a with
  | create_endpoint node_id =>
      obtain rfl := Option.some.inj hstep
      exact h.create node_id
  | close_endpoint hd =>
      simp only [Plugin.step] at hstep
      split at hstep
      · next hsome =>
        obtain rfl := Option.some.inj hstep
        obtain ⟨n, hn⟩ := Option.isSome_iff_exists.mp hsome
        exact h.close_begins ⟨issued_of_get _ _ _ hn, hmeets hsome⟩
      · obtain rfl := Option.some.inj hstep
        exact h
  | advance i =>
      obtain ⟨c, hi, hstep⟩ := Option.bind_eq_some_iff.mp hstep
      exact h.advance hi hmeets hstep
  | discovery op =>
      simp only [Plugin.step] at hstep
      split at hstep
      · cases hstep
      · next hop =>
        obtain rfl := Option.some.inj hstep
        exact h.discovery (endpoints_perform (by simpa using hop))

/-- **One live endpoint for each node id.** In every run in which no handle is retired
before its creation has activated it, and no close that finds an endpoint is given
another number for it than was issued, every state without a call in progress has at most one
endpoint for a node id, named by the owner map; every endpoint that left the registry
was handed to a close, and discovery is active only for endpoints in the registry. -/
theorem one_live_endpoint (l : List Label) {s : Plugin K M}
    (hrun : Machine.run Plugin.step Plugin.start l = some s)
    (hmeets : Machine.Along Plugin.step Meets (Plugin.start : Plugin K M) l) :
    Quiet s → OneLive s :=
  (Machine.along_invariant (fun _ _ _ h hm hs => inv_step h hm hs) inv_start hmeets hrun).one_live

end Plugin

/-! ## Runs on the free-list map -/

/-- A page is reloaded and then left: while the first creation has still to return, a
second replaces its endpoint, which it has activated, and closes it; the page of
another node is created meanwhile; and the second endpoint is closed. -/
def reload_and_close : List Label :=
  [.create_endpoint "n", .advance 0, .advance 0, .advance 0, .create_endpoint "n", .advance 1,
    .advance 1, .create_endpoint "m", .advance 0, .advance 1, .advance 1, .advance 2, .advance 1,
    .advance 2, .close_endpoint (as_ffi Slots ⟨2, 1⟩), .advance 2, .advance 3, .advance 3, .advance 2,
    .advance 3, .advance 3]

/-- The other node's endpoint is left, and the two of the reloaded page were closed. -/
theorem one_live_endpoint_reloaded : ∃ s : Plugin SlotKey Slots,
    Machine.run Plugin.step Plugin.start reload_and_close = some s ∧ Quiet s ∧ OneLive s ∧
      s.owners "n" = none ∧ s.owners "m" = some (as_ffi Slots ⟨1, 3⟩) ∧
      s.closed = [⟨1, 1⟩, ⟨2, 1⟩] := by
  obtain ⟨s, hrun, hcalls, hn, hm, hclosed⟩ : ∃ s : Plugin SlotKey Slots,
      Machine.run Plugin.step Plugin.start reload_and_close = some s ∧
        s.calls = [.done, .done, .done, .done] ∧ s.owners "n" = none ∧
        s.owners "m" = some (as_ffi Slots ⟨1, 3⟩) ∧ s.closed = [⟨1, 1⟩, ⟨2, 1⟩] :=
    ⟨_, rfl, rfl, rfl, rfl, rfl⟩
  have hquiet : Quiet s := by
    intro c hc
    rw [hcalls] at hc
    simpa using hc
  have hguarded : (Machine.run (fun s label => if Meets s label then Plugin.step s label else none)
      (Plugin.start : Plugin SlotKey Slots) reload_and_close).isSome = true := by decide +kernel
  obtain ⟨t, ht⟩ := Option.isSome_iff_exists.mp hguarded
  have hmeets : Machine.Along Plugin.step Meets (Plugin.start : Plugin SlotKey Slots)
      reload_and_close := Machine.along_of_guarded ht
  exact ⟨s, hrun, hquiet, one_live_endpoint reload_and_close hrun hmeets hquiet, hn, hm, hclosed⟩

/-- A second creation replaces and retires the endpoint of the first before the first
has activated it. Discovery stays active for an endpoint that is gone. -/
theorem late_activation : ∃ (s : Plugin SlotKey Slots) (handle : ℕ) (owner : OwnerGeneration),
    Machine.run Plugin.step Plugin.start [.create_endpoint "n", .advance 0, .advance 0,
      .create_endpoint "n", .advance 1, .advance 1, .advance 1, .advance 1, .advance 1,
      .advance 0, .advance 0] = some s ∧ Quiet s ∧
    s.ownership.endpoints handle = some owner ∧ owner.active = true ∧
    s.get_endpoint handle = none ∧ ¬ OneLive s := by
  obtain ⟨s, owner, hrun, hcalls, howner, hactive, hnone⟩ : ∃ (s : Plugin SlotKey Slots)
      (owner : OwnerGeneration),
      Machine.run Plugin.step Plugin.start [.create_endpoint "n", .advance 0, .advance 0,
        .create_endpoint "n", .advance 1, .advance 1, .advance 1, .advance 1, .advance 1,
        .advance 0, .advance 0] = some s ∧ s.calls = [.done, .done] ∧
      s.ownership.endpoints (as_ffi Slots ⟨1, 1⟩) = some owner ∧ owner.active = true ∧
      s.get_endpoint (as_ffi Slots ⟨1, 1⟩) = none := ⟨_, _, rfl, rfl, rfl, rfl, rfl⟩
  refine ⟨s, _, owner, hrun, ?_, howner, hactive, hnone, ?_⟩
  · intro c hc
    rw [hcalls] at hc
    simpa using hc
  · intro hlive
    have hsome := hlive.active _ owner howner hactive
    rw [hnone] at hsome
    cases hsome

end IrohHttp.EndpointOwners
