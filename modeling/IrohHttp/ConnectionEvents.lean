/-
Connections of a served endpoint: counts and events, over
`iroh-http-core/src/http/server/lifecycle.rs`.

`ConnectionAdmission::acquire` and the drop of a `ConnectionTracker` each have a
critical section under the `counts` mutex (`Lifecycle.lean`) and, after it is
released, a callback. The two are separate steps here, and a tracker exists only
once its `acquire` has come back from the callback: until then no one can drop it.

Two results: the counts are exact in every reachable state, and the events of a
peer are in order exactly when the callbacks run in the order of the critical
sections that decided them, which nothing in the source arranges.
-/
import Mathlib.Algebra.BigOperators.Finprod
import Mathlib.Data.List.Perm.Basic
import Mathlib.Data.List.Chain
import IrohHttp.Machine
import IrohHttp.Lifecycle

set_option autoImplicit false

open Machine

namespace IrohHttp.Serve

/-! ## What a critical section does to the counts -/

namespace ConnectionAdmission

variable {K : Type} [DecidableEq K] {a a' : ConnectionAdmission K} {peer : K}

/-- The peer's count; a peer without an entry has none. -/
def held (a : ConnectionAdmission K) (peer : K) : ℕ := (a.counts peer).getD 0

/-- **What `acquire` does**, by outcome. -/
theorem acquire_spec (a : ConnectionAdmission K) (peer : K) :
    (a.max_total ≤ a.total ∧ a.acquire peer = (.error .total, a)) ∨
    (a.max_per_peer ≤ a.held peer ∧ a.acquire peer =
      (.error .peer, { a with counts := Function.update a.counts peer (some (a.held peer)) })) ∨
    (a.total < a.max_total ∧ a.held peer < a.max_per_peer ∧ a.acquire peer =
      (.ok (a.held peer == 0),
        { a with
          counts := Function.update a.counts peer (some (a.held peer + 1))
          total := a.total + 1 })) := by
  unfold acquire held
  split
  · next h => exact .inl ⟨h, rfl⟩
  · next ht =>
    simp only
    split
    · next h => exact .inr (.inl ⟨h, rfl⟩)
    · next h => exact .inr (.inr ⟨not_le.mp ht, not_le.mp h, rfl⟩)

/-- **What the drop does** while the peer is counted: the last connection takes
the entry away. -/
theorem release_spec {n : ℕ} (h : a.counts peer = some (n + 1)) :
    a.release peer =
      (n == 0,
        { a with
          counts := Function.update a.counts peer (if n = 0 then none else some n)
          total := a.total - 1 }) := by
  unfold release
  simp only [h, Nat.add_sub_cancel]
  by_cases hn : n = 0
  · simp only [hn, if_true, beq_self_eq_true]
  · simp only [hn, if_false, beq_eq_false_iff_ne.mpr hn]

/-- The count of a peer is the one that was written for it. -/
theorem held_update (a : ConnectionAdmission K) (peer p : K) (o : Option ℕ) (t : ℕ) :
    held { a with counts := Function.update a.counts peer o, total := t } p
      = if p = peer then o.getD 0 else a.held p := by
  by_cases hp : p = peer
  · simp only [held, hp, Function.update_self, if_true]
  · simp only [held, Function.update_of_ne hp, hp, if_false]

omit [DecidableEq K] in
/-- A peer that is counted has an entry. -/
theorem counts_eq_of_held_pos (h : 0 < a.held peer) : a.counts peer = some (a.held peer) := by
  unfold held at h ⊢
  cases hc : a.counts peer with
  | none =>
      rw [hc] at h
      exact absurd h (lt_irrefl 0)
  | some n => rfl

end ConnectionAdmission

/-! ## Calls and their callbacks -/

/-- What the callback is given. -/
structure ConnectionEvent (K : Type) where
  peer : K
  connected : Bool
  deriving DecidableEq, Repr

/-- A call after its critical section: an `acquire` (`connected`) or the drop of
a tracker, and whether its callback is due. -/
structure ConnectionCall (K : Type) where
  peer : K
  connected : Bool
  fires : Bool
  deriving DecidableEq, Repr

/-- `trackers` has the peer of every tracker that an `acquire` returned and no one
dropped. `calls` is in the order of the critical sections. -/
structure Connections (K : Type) where
  admission : ConnectionAdmission K
  trackers : List K
  calls : List (ConnectionCall K)
  delivered : List (ConnectionEvent K)

/-- What can happen: a critical section, or the callback of a call that has left one. -/
inductive ConnectionStep (K : Type)
  /-- the critical section of `acquire` -/
  | acquire (peer : K)
  /-- the critical section of the drop of one of the peer's trackers -/
  | drop (peer : K)
  /-- the `i`-th call under way fires its callback if it is due, and returns -/
  | finish (i : ℕ)
  deriving DecidableEq, Repr

namespace Connections

variable {K : Type} [DecidableEq K]

/-- An endpoint without connections. -/
def init (max_per_peer max_total : ℕ) : Connections K where
  admission := .new max_per_peer max_total 0
  trackers := []
  calls := []
  delivered := []

/-- One step, `none` where the label is not enabled. -/
def step (s : Connections K) : ConnectionStep K → Option (Connections K)
  | .acquire peer =>
    match s.admission.acquire peer with
    -- a refused peer gets no tracker and no event, but the map may have been written
    | (.error _, admission) => some { s with admission }
    | (.ok was_zero, admission) =>
      some { s with admission, calls := s.calls ++ [⟨peer, true, was_zero⟩] }
  | .drop peer =>
    if peer ∈ s.trackers then
      some { s with
        admission := (s.admission.release peer).2
        trackers := s.trackers.erase peer
        calls := s.calls ++ [⟨peer, false, (s.admission.release peer).1⟩] }
    else none
  | .finish i =>
    match s.calls[i]? with
    | none => none
    | some c =>
      some { s with
        trackers := if c.connected then c.peer :: s.trackers else s.trackers
        calls := s.calls.eraseIdx i
        delivered := if c.fires then s.delivered ++ [⟨c.peer, c.connected⟩] else s.delivered }

/-- The peers of the live connections, one entry each: the trackers, and those
that an `acquire` is about to return. -/
def live (s : Connections K) : List K :=
  s.trackers ++ (s.calls.filter (·.connected)).map (·.peer)

/-- What was delivered for one peer, oldest first. -/
def eventsOf (s : Connections K) (peer : K) : List Bool :=
  (s.delivered.filter (·.peer = peer)).map (·.connected)

/-- What is decided for one peer and not delivered, in the order of the decisions. -/
def dueOf (s : Connections K) (peer : K) : List Bool :=
  (s.calls.filter fun c => c.fires ∧ c.peer = peer).map (·.connected)

/-! ## The counts are exact -/

/-- What the mutex guards counts the live connections. -/
structure Counted (s : Connections K) : Prop where
  held : ∀ p, s.admission.held p = s.live.count p
  total : s.admission.total = s.live.length

theorem counted_init (m t : ℕ) : Counted (init m t : Connections K) where
  held _ := rfl
  total := rfl

/-- Returning a tracker moves a connection from the calls to the trackers. -/
theorem live_finish_perm {s s' : Connections K} {i : ℕ} (h : s.step (.finish i) = some s') :
    s'.live.Perm s.live := by
  simp only [step] at h
  split at h
  · cases h
  · next c hc =>
    cases h
    obtain ⟨hi, rfl⟩ := List.getElem?_eq_some_iff.mp hc
    -- the call is in `live` for an acquire until the tracker is
    have hcalls := List.getElem_cons_eraseIdx_perm hi
    have hconn := ((hcalls.filter (·.connected)).map (·.peer)).append_left s.trackers
    refine List.Perm.trans ?_ hconn
    unfold live
    cases hb : s.calls[i].connected with
    | true =>
        simp only [if_true, List.filter_cons_of_pos hb, List.map_cons]
        exact List.perm_middle.symm
    | false =>
        rw [List.filter_cons_of_neg (by rw [hb]; exact Bool.false_ne_true)]
        exact List.Perm.refl _

omit [DecidableEq K] in
/-- An acquisition under way counts for its peer. -/
theorem live_acquire (s : Connections K) (a : ConnectionAdmission K) (peer : K) (b : Bool) :
    live { s with admission := a, calls := s.calls ++ [⟨peer, true, b⟩] } = s.live ++ [peer] := by
  simp only [live, List.filter_append, List.map_append, List.append_assoc]
  rfl

/-- A drop takes one of the peer's connections out. -/
theorem live_drop {s : Connections K} {peer : K} (hp : peer ∈ s.trackers)
    (a : ConnectionAdmission K) (b : Bool) :
    live { s with
        admission := a
        trackers := s.trackers.erase peer
        calls := s.calls ++ [⟨peer, false, b⟩] } = s.live.erase peer := by
  simp only [live, List.filter_append, List.erase_append_left _ hp]
  simp

omit [DecidableEq K] in
theorem mem_live_of_tracker {s : Connections K} {peer : K} (hp : peer ∈ s.trackers) :
    peer ∈ s.live :=
  List.mem_append_left _ hp

/-- The count that a dropped tracker finds. -/
theorem Counted.counts_eq {s : Connections K} (h : Counted s) {peer : K} (hp : peer ∈ s.live) :
    s.admission.counts peer = some (s.live.count peer) := by
  have hpos : 0 < s.admission.held peer := by
    rw [h.held]
    exact List.count_pos_iff.mpr hp
  rw [ConnectionAdmission.counts_eq_of_held_pos hpos, h.held]

/-- **What one step can do**: nothing but an entry at its own value, one more
connection, one connection less, or a call coming back. -/
theorem step_cases {s s' : Connections K} {x : ConnectionStep K} (hc : Counted s)
    (h : s.step x = some s') :
    (∃ peer, x = .acquire peer ∧ s.admission.max_total ≤ s.admission.total ∧ s' = s) ∨
    (∃ peer, x = .acquire peer ∧ s.admission.max_per_peer ≤ s.live.count peer ∧
      s' = { s with admission := { s.admission with
        counts := Function.update s.admission.counts peer (some (s.live.count peer)) } }) ∨
    (∃ peer, x = .acquire peer ∧ s.admission.total < s.admission.max_total ∧
      s.live.count peer < s.admission.max_per_peer ∧
      s' = { s with
        admission := { s.admission with
          counts := Function.update s.admission.counts peer (some (s.live.count peer + 1))
          total := s.admission.total + 1 }
        calls := s.calls ++ [⟨peer, true, s.live.count peer == 0⟩] }) ∨
    (∃ peer n, x = .drop peer ∧ peer ∈ s.trackers ∧ s.live.count peer = n + 1 ∧
      s' = { s with
        admission := { s.admission with
          counts := Function.update s.admission.counts peer (if n = 0 then none else some n)
          total := s.admission.total - 1 }
        trackers := s.trackers.erase peer
        calls := s.calls ++ [⟨peer, false, n == 0⟩] }) ∨
    (∃ i c, x = .finish i ∧ s.calls[i]? = some c ∧
      s' = { s with
        trackers := if c.connected then c.peer :: s.trackers else s.trackers
        calls := s.calls.eraseIdx i
        delivered := if c.fires then s.delivered ++ [⟨c.peer, c.connected⟩] else s.delivered }) := by
  cases x with
  | acquire peer =>
      rcases s.admission.acquire_spec peer with ⟨ht, heq⟩ | ⟨hp, heq⟩ | ⟨ht, hp, heq⟩
      · simp only [step, heq, Option.some.injEq] at h
        exact .inl ⟨peer, rfl, ht, h.symm⟩
      · simp only [step, heq, Option.some.injEq] at h
        rw [hc.held] at hp h
        exact .inr (.inl ⟨peer, rfl, hp, h.symm⟩)
      · simp only [step, heq, Option.some.injEq] at h
        rw [hc.held] at hp h
        exact .inr (.inr (.inl ⟨peer, rfl, ht, hp, h.symm⟩))
  | drop peer =>
      simp only [step] at h
      split at h
      · next hp =>
        -- the dropped tracker is itself counted, so neither subtraction saturates
        have hlive := mem_live_of_tracker hp
        obtain ⟨n, hn⟩ := Nat.exists_eq_add_of_lt (List.count_pos_iff.mpr hlive)
        rw [Nat.zero_add] at hn
        have hcounts : s.admission.counts peer = some (n + 1) := by
          rw [hc.counts_eq hlive, hn]
        rw [ConnectionAdmission.release_spec hcounts, Option.some.injEq] at h
        exact .inr (.inr (.inr (.inl ⟨peer, n, rfl, hp, hn, h.symm⟩)))
      · cases h
  | finish i =>
      simp only [step] at h
      split at h
      · cases h
      · next c hcall =>
        cases h
        exact .inr (.inr (.inr (.inr ⟨i, c, rfl, hcall, rfl⟩)))

/-- Every step keeps the counts exact. -/
theorem counted_step (s : Connections K) (x : ConnectionStep K) (s' : Connections K)
    (hc : Counted s) (h : s.step x = some s') : Counted s' := by
  rcases step_cases hc h with ⟨peer, -, -, rfl⟩ | ⟨peer, -, -, rfl⟩ | ⟨peer, -, -, -, rfl⟩ |
    ⟨peer, n, -, hp, hn, rfl⟩ | ⟨i, c, rfl, -, rfl⟩
  · exact hc
  · refine ⟨fun p => ?_, hc.total⟩
    rw [ConnectionAdmission.held_update]
    split
    · next hpeer => rw [hpeer]; rfl
    · exact hc.held p
  · constructor
    · intro p
      rw [ConnectionAdmission.held_update, live_acquire, List.count_append, List.count_singleton]
      by_cases hpeer : p = peer
      · simp [hpeer]
      · rw [if_neg hpeer, hc.held p]
        simp [Ne.symm hpeer]
    · rw [live_acquire, List.length_append]
      exact congrArg (· + 1) hc.total
  · have hlive := mem_live_of_tracker hp
    constructor
    · intro p
      rw [ConnectionAdmission.held_update, live_drop hp]
      by_cases hpeer : p = peer
      · rw [if_pos hpeer, hpeer, List.count_erase_self, hn, Nat.add_sub_cancel]
        by_cases hz : n = 0
        · rw [if_pos hz, hz]; rfl
        · rw [if_neg hz]; rfl
      · rw [if_neg hpeer, List.count_erase_of_ne hpeer, hc.held p]
    · rw [live_drop hp, List.length_erase_of_mem hlive]
      exact congrArg (· - 1) hc.total
  · have hperm := live_finish_perm h
    exact ⟨fun p => (hc.held p).trans (hperm.count_eq p).symm, hc.total.trans hperm.length_eq.symm⟩

/-- The limits of `m` connections a peer and `t` in all are kept, and no entry is
left at zero. -/
structure Within (m t : ℕ) (s : Connections K) : Prop where
  counted : Counted s
  max_per_peer : s.admission.max_per_peer = m
  max_total : s.admission.max_total = t
  entry : ∀ p, s.admission.counts p ≠ some 0
  peer_le : ∀ p, s.live.count p ≤ m
  total_le : s.admission.total ≤ t

theorem within_init (m t : ℕ) : Within m t (init m t : Connections K) where
  counted := counted_init m t
  max_per_peer := rfl
  max_total := rfl
  entry _ := nofun
  peer_le _ := Nat.zero_le m
  total_le := Nat.zero_le t

/-- A peer that is turned away for its own limit has an entry already, so the
entry the check writes is the one that is there. -/
theorem Within.update_self {m t : ℕ} {s : Connections K} (h : Within m t s) (hm : 1 ≤ m) {peer : K}
    (hp : s.admission.max_per_peer ≤ s.live.count peer) :
    Function.update s.admission.counts peer (some (s.live.count peer)) = s.admission.counts := by
  have hmem : peer ∈ s.live := by
    rw [h.max_per_peer] at hp
    exact List.count_pos_iff.mp (lt_of_lt_of_le hm hp)
  rw [← h.counted.counts_eq hmem, Function.update_eq_self]

/-- **One step** keeps the counts exact and within their limits. -/
theorem within_step {m t : ℕ} (hm : 1 ≤ m) (s : Connections K) (x : ConnectionStep K)
    (s' : Connections K) (hw : Within m t s) (h : s.step x = some s') : Within m t s' := by
  have hc' := counted_step s x s' hw.counted h
  rcases step_cases hw.counted h with ⟨peer, -, -, rfl⟩ | ⟨peer, -, hp, rfl⟩ |
    ⟨peer, -, htot, hp, rfl⟩ | ⟨peer, n, -, hp, hn, rfl⟩ | ⟨i, c, rfl, -, rfl⟩
  · exact hw
  · rw [hw.update_self hm hp]
    exact hw
  · refine ⟨hc', hw.max_per_peer, hw.max_total, fun p => ?_, fun p => ?_, ?_⟩
    · by_cases hpeer : p = peer
      · simp [hpeer]
      · simpa [Function.update_of_ne hpeer] using hw.entry p
    · rw [live_acquire, List.count_append, List.count_singleton]
      have hle := hw.peer_le p
      have hlim := hw.max_per_peer
      by_cases hpeer : peer = p
      · subst hpeer
        simp only [beq_self_eq_true, if_true]
        omega
      · simpa [hpeer] using hle
    · have hlim := hw.max_total
      show s.admission.total + 1 ≤ t
      omega
  · refine ⟨hc', hw.max_per_peer, hw.max_total, fun p => ?_, fun p => ?_, ?_⟩
    · by_cases hpeer : p = peer
      · by_cases hz : n = 0 <;> simp [hpeer, hz]
      · simpa [Function.update_of_ne hpeer] using hw.entry p
    · rw [live_drop hp]
      exact le_trans (List.erase_sublist.count_le p) (hw.peer_le p)
    · exact le_trans (Nat.sub_le _ _) hw.total_le
  · refine ⟨hc', hw.max_per_peer, hw.max_total, hw.entry, fun p => ?_, hw.total_le⟩
    rw [(live_finish_perm h).count_eq p]
    exact hw.peer_le p

/-- The sum of the counts over all peers is the number of live connections. -/
theorem Counted.finsum_held {s : Connections K} (h : Counted s) :
    ∑ᶠ peer, s.admission.held peer = s.live.length := by
  -- only the peers with live connections contribute
  have hsupp : Function.support s.admission.held ⊆ (s.live.toFinset : Set K) := by
    intro p hp
    rw [Function.mem_support, h.held] at hp
    have hmem : p ∈ s.live := List.count_pos_iff.mp (Nat.pos_of_ne_zero hp)
    exact List.mem_toFinset.mpr hmem
  rw [finsum_eq_sum_of_support_subset _ hsupp, ← List.sum_toFinset_count_eq_length]
  exact Finset.sum_congr rfl fun p _ => h.held p

/-- **Admission is exact.** In every reachable state a peer has an entry exactly
when it has a live connection, the entry counts those and is at most the peer's
limit, the total is the sum of the entries and at most the overall limit, and an
`acquire` that is refused changes nothing. -/
theorem admission_exact {m t : ℕ} (hm : 1 ≤ m) (l : List (ConnectionStep K)) (s : Connections K)
    (h : run step (init m t) l = some s) :
    (∀ peer, s.admission.counts peer =
      if s.live.count peer = 0 then none else some (s.live.count peer)) ∧
    (∀ peer n, s.admission.counts peer = some n → 1 ≤ n ∧ n ≤ m) ∧
    s.admission.total = ∑ᶠ peer, (s.admission.counts peer).getD 0 ∧
    s.admission.total ≤ t ∧
    ∀ peer e, (s.admission.acquire peer).1 = .error e →
      (s.admission.acquire peer).2 = s.admission := by
  have hw : Within m t s := run_invariant (within_step hm) (within_init m t) h
  have hcounts : ∀ peer, s.admission.counts peer =
      if s.live.count peer = 0 then none else some (s.live.count peer) := by
    intro peer
    by_cases hz : s.live.count peer = 0
    · rw [if_pos hz]
      cases hcase : s.admission.counts peer with
      | none => rfl
      | some n =>
          -- an entry of a peer without connections would be at zero
          have hheld := hw.counted.held peer
          rw [ConnectionAdmission.held, hcase, hz, Option.getD_some] at hheld
          exact absurd (hheld ▸ hcase) (hw.entry peer)
    · rw [if_neg hz]
      exact hw.counted.counts_eq (List.count_pos_iff.mp (Nat.pos_of_ne_zero hz))
  refine ⟨hcounts, ?_, hw.counted.total.trans hw.counted.finsum_held.symm, hw.total_le, ?_⟩
  · intro peer n hn
    rw [hcounts] at hn
    by_cases hz : s.live.count peer = 0
    · simp [hz] at hn
    · rw [if_neg hz, Option.some.injEq] at hn
      exact hn ▸ ⟨Nat.pos_of_ne_zero hz, hw.peer_le peer⟩
  · intro peer e he
    rcases s.admission.acquire_spec peer with ⟨-, heq⟩ | ⟨hp, heq⟩ | ⟨-, -, heq⟩
    · rw [heq]
    · rw [hw.counted.held] at hp heq
      rw [heq, hw.update_self hm hp]
    · rw [heq] at he
      cases he

/-- Two connections of one peer and one of another, with the first dropped. -/
theorem admission_exact_two_peers :
    ∃ s : Connections ℕ,
      run step (init 2 3) [.acquire 7, .finish 0, .acquire 7, .acquire 8, .drop 7] = some s ∧
      s.live = [7, 8] ∧ s.admission.total = 2 ∧
      s.admission.total = ∑ᶠ peer, (s.admission.counts peer).getD 0 :=
  ⟨_, rfl, rfl, rfl,
    (admission_exact (m := 2) (t := 3) (by decide)
      [.acquire 7, .finish 0, .acquire 7, .acquire 8, .drop 7] _ rfl).2.2.1⟩

/-! ## The events of a peer

The sequence that the critical sections decide alternates by itself. What is
delivered is that sequence only as far as the callbacks keep its order. -/

/-- Strictly in turns, `true` first. -/
def Alternating (l : List Bool) : Prop := l.IsChain (· ≠ ·) ∧ l.head? ≠ some false

theorem alternating_nil : Alternating [] := ⟨.nil, nofun⟩

/-- A part in front of an alternating list alternates. -/
theorem Alternating.left {l₁ l₂ : List Bool} (h : Alternating (l₁ ++ l₂)) : Alternating l₁ := by
  refine ⟨h.1.left_of_append, fun hhead => h.2 ?_⟩
  rw [List.head?_append, hhead]
  rfl

/-- The next in turn is `false` exactly after a `true`. -/
theorem Alternating.snoc {l : List Bool} {x : Bool} (h : Alternating l)
    (hx : l.getLast? = some true ↔ x = false) : Alternating (l ++ [x]) := by
  constructor
  · rw [List.isChain_append]
    refine ⟨h.1, .singleton x, fun a ha b hb => ?_⟩
    rw [Option.mem_def] at ha hb
    cases hb
    cases a <;> cases x <;> simp_all
  · cases l with
    | nil =>
        rw [List.nil_append, List.head?_cons]
        intro hf
        exact nomatch hx.mpr (Option.some.inj hf)
    | cons y l => exact h.2

/-- The peer's events alternate, the first says connected, and with no call of
the peer under way the last says whether it has a connection. -/
def Reflects (s : Connections K) (peer : K) : Prop :=
  Alternating (s.eventsOf peer) ∧
  ((∀ c ∈ s.calls, c.peer ≠ peer) →
    ((s.eventsOf peer).getLast? = some true ↔ peer ∈ s.trackers))

/-- The callback of a step is the oldest that is due for its peer. -/
def InOrder (s : Connections K) : ConnectionStep K → Prop
  | .finish i => ∀ c, s.calls[i]? = some c → c.fires →
      ∀ d ∈ s.calls.take i, d.fires → d.peer ≠ c.peer
  | _ => True

/-- What is decided for one peer: delivered or due, in order. -/
def decided (s : Connections K) (peer : K) : List Bool := s.eventsOf peer ++ s.dueOf peer

/-- The decided events alternate and end with the peer's state, and a `connected`
that is due is the newest decision: its connection cannot be dropped yet. -/
structure Ordered (s : Connections K) : Prop where
  counted : Counted s
  alternating : ∀ p, Alternating (s.decided p)
  last : ∀ p, (s.decided p).getLast? = some true ↔ p ∈ s.live
  newest : ∀ p, true ∉ (s.dueOf p).dropLast

theorem ordered_init (m t : ℕ) : Ordered (init m t : Connections K) where
  counted := counted_init m t
  alternating _ := alternating_nil
  last _ := ⟨nofun, nofun⟩
  newest _ := nofun

/-- A new call adds the event that it owes. -/
theorem dueOf_snoc (s : Connections K) (a : ConnectionAdmission K) (tr : List K)
    (c : ConnectionCall K) (p : K) :
    dueOf { s with admission := a, trackers := tr, calls := s.calls ++ [c] } p =
      s.dueOf p ++ if c.fires ∧ c.peer = p then [c.connected] else [] := by
  simp only [dueOf, List.filter_append, List.map_append]
  by_cases hc : c.fires ∧ c.peer = p
  · rw [if_pos hc, List.filter_cons_of_pos (by simpa using hc)]
    rfl
  · rw [if_neg hc, List.filter_cons_of_neg (by simpa using hc)]
    rfl

/-- One more decision for a peer, with no `connected` of it still due. -/
theorem Ordered.decide_snoc {s s' : Connections K} (h : Ordered s) {p : K} {x : Bool}
    (hdue : s'.dueOf p = s.dueOf p ++ [x]) (hev : s'.eventsOf p = s.eventsOf p)
    (hlast : p ∈ s.live ↔ x = false) (hnone : true ∉ s.dueOf p) :
    Alternating (s'.decided p) ∧ (s'.decided p).getLast? = some x ∧ true ∉ (s'.dueOf p).dropLast := by
  have hdec : s'.decided p = s.decided p ++ [x] := by
    rw [decided, hdue, hev, ← List.append_assoc, ← decided]
  rw [hdec, hdue, List.getLast?_concat, List.dropLast_concat]
  exact ⟨(h.alternating p).snoc ((h.last p).trans hlast), rfl, hnone⟩

/-- A `connected` that is due stands for a connection beside the trackers. -/
theorem mem_calls_of_due {s : Connections K} {p : K} (h : true ∈ s.dueOf p) :
    p ∈ (s.calls.filter (·.connected)).map (·.peer) := by
  obtain ⟨c, hc, hconn⟩ := List.mem_map.mp h
  obtain ⟨hmem, hdue⟩ := List.mem_filter.mp hc
  have hpeer : c.fires = true ∧ c.peer = p := by simpa using hdue
  exact List.mem_map.mpr ⟨c, List.mem_filter.mpr ⟨hmem, hconn⟩, hpeer.2⟩

/-- No decision for the peer: the peer's part of the invariant is carried over. -/
theorem Ordered.decide_same {s s' : Connections K} (h : Ordered s) {p : K}
    (hdue : s'.dueOf p = s.dueOf p) (hev : s'.eventsOf p = s.eventsOf p)
    (hlive : p ∈ s'.live ↔ p ∈ s.live) :
    Alternating (s'.decided p) ∧ ((s'.decided p).getLast? = some true ↔ p ∈ s'.live) ∧
      true ∉ (s'.dueOf p).dropLast := by
  rw [decided, hdue, hev, ← decided, hlive]
  exact ⟨h.alternating p, h.last p, h.newest p⟩

/-- Order is a matter of each peer. -/
theorem ordered_of_forall {s : Connections K} (hc : Counted s)
    (h : ∀ p, Alternating (s.decided p) ∧ ((s.decided p).getLast? = some true ↔ p ∈ s.live) ∧
      true ∉ (s.dueOf p).dropLast) : Ordered s :=
  ⟨hc, fun p => (h p).1, fun p => (h p).2.1, fun p => (h p).2.2⟩

/-- The first connection of a peer is decided when no event of it is due that
says connected; a further one decides nothing. -/
theorem ordered_acquire {s : Connections K} (h : Ordered s) (a : ConnectionAdmission K) (peer : K)
    (hc : Counted { s with
      admission := a, calls := s.calls ++ [⟨peer, true, s.live.count peer == 0⟩] }) :
    Ordered { s with
      admission := a, calls := s.calls ++ [⟨peer, true, s.live.count peer == 0⟩] } := by
  refine ordered_of_forall hc fun p => ?_
  have hdue := dueOf_snoc s a s.trackers ⟨peer, true, s.live.count peer == 0⟩ p
  have hlive := live_acquire s a peer (s.live.count peer == 0)
  by_cases hfire : s.live.count peer = 0 ∧ peer = p
  · obtain ⟨hzero, rfl⟩ := hfire
    -- an earlier `connected` of the peer is not due: it would be a live connection
    have hnot : peer ∉ s.live := List.count_eq_zero.mp hzero
    rw [if_pos ⟨by simpa using hzero, rfl⟩] at hdue
    have hnone : true ∉ s.dueOf peer := fun hmem =>
      hnot (List.mem_append_right _ (mem_calls_of_due hmem))
    obtain ⟨halt, hlast, hnew⟩ := h.decide_snoc hdue rfl (by simpa using hnot) hnone
    refine ⟨halt, ?_, hnew⟩
    rw [hlast, hlive]
    simp
  · rw [if_neg (by simpa using hfire), List.append_nil] at hdue
    refine h.decide_same hdue rfl ?_
    rw [hlive, List.mem_append, List.mem_singleton]
    refine or_iff_left_of_imp ?_
    rintro rfl
    by_contra hnot
    exact hfire ⟨List.count_eq_zero.mpr hnot, rfl⟩

/-- Only the drop of the last connection decides an event. -/
theorem ordered_drop {s : Connections K} (h : Ordered s) (a : ConnectionAdmission K) {peer : K}
    {n : ℕ} (hp : peer ∈ s.trackers) (hn : s.live.count peer = n + 1)
    (hc : Counted { s with
      admission := a
      trackers := s.trackers.erase peer
      calls := s.calls ++ [⟨peer, false, n == 0⟩] }) :
    Ordered { s with
      admission := a
      trackers := s.trackers.erase peer
      calls := s.calls ++ [⟨peer, false, n == 0⟩] } := by
  refine ordered_of_forall hc fun p => ?_
  have hdue := dueOf_snoc s a (s.trackers.erase peer) ⟨peer, false, n == 0⟩ p
  have hlive := live_drop hp a (n == 0)
  by_cases hfire : n = 0 ∧ peer = p
  · obtain ⟨rfl, rfl⟩ := hfire
    rw [if_pos ⟨by simp, rfl⟩] at hdue
    have hnone : true ∉ s.dueOf peer := by
      -- it would be a second live connection
      intro hmem
      have h₁ : 0 < s.trackers.count peer := List.count_pos_iff.mpr hp
      have h₂ := List.count_pos_iff.mpr (mem_calls_of_due hmem)
      rw [live, List.count_append] at hn
      omega
    obtain ⟨halt, hlast, hnew⟩ :=
      h.decide_snoc hdue rfl (by simpa using mem_live_of_tracker hp) hnone
    refine ⟨halt, ?_, hnew⟩
    rw [hlast, hlive]
    have hgone : peer ∉ s.live.erase peer := by
      rw [← List.count_eq_zero, List.count_erase_self, hn]
    simp [hgone]
  · rw [if_neg (by simpa using hfire), List.append_nil] at hdue
    refine h.decide_same hdue rfl ?_
    rw [hlive]
    by_cases hpeer : p = peer
    · subst hpeer
      have hpos : n ≠ 0 := fun hz => hfire ⟨hz, rfl⟩
      refine iff_of_true ?_ (mem_live_of_tracker hp)
      rw [← List.count_pos_iff, List.count_erase_self, hn]
      omega
    · exact List.mem_erase_of_ne hpeer

omit [DecidableEq K] in
/-- The call that comes back, between the calls decided before it and after. -/
theorem calls_split {s : Connections K} {i : ℕ} {c : ConnectionCall K} (h : s.calls[i]? = some c) :
    s.calls = s.calls.take i ++ c :: s.calls.drop (i + 1) ∧
      s.calls.eraseIdx i = s.calls.take i ++ s.calls.drop (i + 1) := by
  obtain ⟨hi, rfl⟩ := List.getElem?_eq_some_iff.mp h
  refine ⟨?_, List.eraseIdx_eq_take_drop_succ _ _⟩
  rw [← List.drop_eq_getElem_cons hi, List.take_append_drop]

/-- The state after a call has come back. -/
def finished (s : Connections K) (i : ℕ) (c : ConnectionCall K) : Connections K where
  admission := s.admission
  trackers := if c.connected then c.peer :: s.trackers else s.trackers
  calls := s.calls.eraseIdx i
  delivered := if c.fires then s.delivered ++ [⟨c.peer, c.connected⟩] else s.delivered

/-- A callback that has run has delivered its event. -/
theorem eventsOf_finished (s : Connections K) (i : ℕ) (c : ConnectionCall K) (p : K) :
    (s.finished i c).eventsOf p =
      s.eventsOf p ++ if c.fires ∧ c.peer = p then [c.connected] else [] := by
  unfold eventsOf finished
  by_cases hf : c.fires
  · by_cases hp : c.peer = p <;> simp [hf, hp]
  · simp [hf]

/-- The due events of a peer, cut at a call under way. -/
theorem dueOf_split {s : Connections K} {i : ℕ} {c : ConnectionCall K} (hcall : s.calls[i]? = some c)
    (p : K) :
    ∃ d₁ d₂, s.dueOf p = d₁ ++ (if c.fires ∧ c.peer = p then [c.connected] else []) ++ d₂ ∧
      (s.finished i c).dueOf p = d₁ ++ d₂ ∧
      d₁ = ((s.calls.take i).filter fun c => c.fires ∧ c.peer = p).map (·.connected) := by
  obtain ⟨hcalls, herase⟩ := calls_split hcall
  refine ⟨_, ((s.calls.drop (i + 1)).filter fun c => c.fires ∧ c.peer = p).map (·.connected), ?_, ?_,
    rfl⟩
  · rw [dueOf, hcalls]
    simp only [List.filter_append, List.map_append, List.append_assoc]
    congr 1
    · rw [← hcalls]
    · by_cases hf : c.fires ∧ c.peer = p
      · rw [if_pos hf, List.filter_cons_of_pos (by simpa using hf), ← hcalls]
        rfl
      · rw [if_neg hf, List.filter_cons_of_neg (by simpa using hf), ← hcalls]
        rfl
  · simp only [dueOf, finished, herase, List.filter_append, List.map_append]

/-- A callback in order moves the oldest due event over to the delivered ones. -/
theorem ordered_finish {s : Connections K} (h : Ordered s) {i : ℕ} {c : ConnectionCall K}
    (hcall : s.calls[i]? = some c) (hord : s.InOrder (.finish i)) (hc : Counted (s.finished i c))
    (hperm : (s.finished i c).live.Perm s.live) : Ordered (s.finished i c) := by
  refine ordered_of_forall hc fun p => ?_
  obtain ⟨d₁, d₂, hdue, hdue', hd₁⟩ := dueOf_split hcall p
  have hev := eventsOf_finished s i c p
  by_cases hf : c.fires ∧ c.peer = p
  · rw [if_pos hf] at hdue hev
    -- in order: nothing of the peer is due before this one
    have hnil : d₁ = [] := by
      rw [hd₁, List.map_eq_nil_iff, List.filter_eq_nil_iff]
      intro d hd
      have hne := hord c hcall hf.1 d hd
      simp only [decide_eq_true_eq, not_and]
      exact fun hfires => hf.2 ▸ hne hfires
    rw [hnil, List.nil_append] at hdue hdue'
    have hdec : (s.finished i c).decided p = s.decided p := by
      rw [decided, decided, hev, hdue', hdue, List.append_assoc]
    refine ⟨hdec ▸ h.alternating p, ?_, ?_⟩
    · rw [hdec, hperm.mem_iff]
      exact h.last p
    · have hnew := h.newest p
      rw [hdue']
      rw [hdue] at hnew
      cases d₂ with
      | nil => exact List.not_mem_nil
      | cons y d₂ => exact fun hmem => hnew (List.mem_cons_of_mem _ hmem)
  · rw [if_neg hf, List.append_nil] at hdue hev
    exact h.decide_same (hdue'.trans hdue.symm) hev hperm.mem_iff

/-- Every step whose callback is in order keeps the invariant. -/
theorem ordered_step (s : Connections K) (x : ConnectionStep K) (s' : Connections K)
    (ho : Ordered s) (hx : s.InOrder x) (h : s.step x = some s') : Ordered s' := by
  have hc' := counted_step s x s' ho.counted h
  rcases step_cases ho.counted h with ⟨peer, -, -, rfl⟩ | ⟨peer, -, -, rfl⟩ |
    ⟨peer, -, -, -, rfl⟩ | ⟨peer, n, -, hp, hn, rfl⟩ | ⟨i, c, rfl, hcall, rfl⟩
  · exact ho
  · exact ordered_of_forall hc' fun p => ho.decide_same rfl rfl Iff.rfl
  · exact ordered_acquire ho _ peer hc'
  · exact ordered_drop ho _ hp hn hc'
  · exact ordered_finish ho hcall hx hc' (live_finish_perm h)

/-- Events in order reflect what the peer has. -/
theorem Ordered.reflects {s : Connections K} (h : Ordered s) (peer : K) : Reflects s peer := by
  refine ⟨(h.alternating peer).left, fun hnone => ?_⟩
  -- at rest everything decided is delivered
  have hdue : s.dueOf peer = [] := by
    rw [dueOf, List.map_eq_nil_iff, List.filter_eq_nil_iff]
    intro c hc
    simp [hnone c hc]
  have hlive : peer ∈ s.live ↔ peer ∈ s.trackers := by
    refine ⟨fun hmem => ?_, mem_live_of_tracker⟩
    rcases List.mem_append.mp hmem with htr | hcall
    · exact htr
    · obtain ⟨c, hc, hpeer⟩ := List.mem_map.mp hcall
      exact absurd hpeer (hnone c (List.mem_of_mem_filter hc))
  have hlast := h.last peer
  rw [decided, hdue, List.append_nil] at hlast
  exact hlast.trans hlive

/-- Where the decided events alternate, one that overtakes another repeats the
last delivered: only a `connected` comes after a due event, and that one is the
peer's `disconnected`. -/
theorem not_alternating_of_overtaking {e d₁ d₂ : List Bool} {x : Bool}
    (h : Alternating (e ++ (d₁ ++ [x] ++ d₂))) (hne : d₁ ≠ [])
    (hnew : true ∉ (d₁ ++ [x] ++ d₂).dropLast) : ¬ Alternating (e ++ [x]) := by
  obtain ⟨y, d, rfl⟩ := List.exists_cons_of_ne_nil hne
  rw [List.append_assoc, List.dropLast_append_of_ne_nil (by simp)] at hnew
  have hy : y = false := by
    refine Bool.eq_false_iff.mpr fun hy => hnew ?_
    exact List.mem_append_left _ (hy ▸ List.mem_cons_self)
  subst hy
  have hchain := h.1
  -- the due event after a `false` is a `true`, and that is the newest
  have hd : d = [] := by
    cases d with
    | nil => rfl
    | cons z d =>
        have hz : z = false := by
          refine Bool.eq_false_iff.mpr fun hz => hnew ?_
          exact List.mem_append_left _ (hz ▸ List.mem_cons_of_mem _ List.mem_cons_self)
        have hrel := hchain.right_of_append
        simp [hz] at hrel
  subst hd
  have hx : x = true := by
    have hrel := hchain.right_of_append
    cases x with
    | true => rfl
    | false => simp at hrel
  subst hx
  have hlast : e.getLast? = some true := by
    cases he : e.getLast? with
    | none =>
        rw [List.getLast?_eq_none_iff] at he
        exact absurd rfl (he ▸ h.2)
    | some z =>
        have hrel := (List.isChain_append.mp hchain).2.2 z he false rfl
        cases z with
        | true => rfl
        | false => exact absurd rfl hrel
  intro hbad
  exact absurd rfl ((List.isChain_append.mp hbad.1).2.2 true hlast true rfl)

/-- A callback out of order puts the events of its peer out of turn. -/
theorem not_reflects_of_overtaking {s : Connections K} (h : Ordered s) {x : ConnectionStep K}
    (hx : ¬ s.InOrder x) : ∃ s' peer, s.step x = some s' ∧ ¬ Reflects s' peer := by
  cases x with
  | acquire peer => exact absurd trivial hx
  | drop peer => exact absurd trivial hx
  | finish i =>
      simp only [InOrder] at hx
      push Not at hx
      obtain ⟨c, hcall, hfires, d, hd, hdfires, hpeer⟩ := hx
      obtain ⟨d₁, d₂, hdue, -, hd₁⟩ := dueOf_split hcall c.peer
      rw [if_pos ⟨hfires, rfl⟩] at hdue
      have hne : d₁ ≠ [] := by
        rw [hd₁]
        refine List.ne_nil_of_mem (List.mem_map_of_mem (List.mem_filter.mpr ⟨hd, ?_⟩))
        simpa using ⟨hdfires, hpeer⟩
      have halt := h.alternating c.peer
      have hnew := h.newest c.peer
      rw [decided, hdue] at halt
      rw [hdue] at hnew
      refine ⟨s.finished i c, c.peer, ?_, fun hr => ?_⟩
      · simp only [step, hcall]
        rfl
      · have hev := eventsOf_finished s i c c.peer
        rw [if_pos ⟨hfires, rfl⟩] at hev
        exact not_alternating_of_overtaking halt hne hnew (hev ▸ hr.1)

/-- **When the events reflect reality.** The events of every peer alternate and
end with the peer's state, in every state of a run, exactly when every callback
of the run is the oldest that is due for its peer. -/
theorem events_reflect_iff (m t : ℕ) (l : List (ConnectionStep K)) :
    Along step InOrder (init m t) l ↔
      ∀ n s, run step (init m t) (l.take n) = some s → ∀ peer, Reflects s peer := by
  refine along_iff_forall_prefix ordered_step (fun s h => h.reflects) ?_ (ordered_init m t) l
  intro s x h hx
  obtain ⟨s', peer, hstep, hnot⟩ := not_reflects_of_overtaking h hx
  exact ⟨s', hstep, fun hall => hnot (hall peer)⟩

/-- A peer reconnects before the callback of its last drop has run: the new
connection is reported first, the old one's end after it, and the peer stays
reported as disconnected while its connection is live. -/
theorem reconnect_reported_disconnected :
    ¬ ∀ (l : List (ConnectionStep ℕ)) (s : Connections ℕ), run step (init 2 2) l = some s →
      ∀ peer, Reflects s peer := by
  intro hall
  have hr := hall [.acquire 7, .finish 0, .drop 7, .acquire 7, .finish 1, .finish 0] _ rfl 7
  have hlast := (hr.2 (by decide)).mpr (by decide)
  exact absurd hlast (by decide)

end Connections

end IrohHttp.Serve
