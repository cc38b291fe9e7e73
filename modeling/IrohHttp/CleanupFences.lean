/-
Who waits for which cleanup: the fences of `discovery_ownership.rs`, and the tasks
of `commands.rs` that finish them.

Every retirement publishes a fence for each label it concerns, and remembers the
fence it takes the place of. A task finishes it: it awaits the replaced fences, the
native teardown of every drained session and the starts that were in flight, keeps
the first error, and writes the outcome. A session's own cleanup does the same with
one fence, except that an error of the replaced fence wins over its own. A fence
that succeeds takes itself down, if it is still the newest. A start captures the
newest fence and awaits it before it touches the platform.

So fences wait for starts and starts for fences. What keeps the waits from closing
a circle is only that each goes to something older, and the fence numbers carry
that: a start is older than every fence published after it, `Lease.seen` says how
many there were before.
-/
import IrohHttp.DiscoveryOwnership
import Mathlib.Logic.Relation

set_option autoImplicit false

namespace IrohHttp.CleanupFences

open IrohHttp.DiscoveryOwnership IrohHttp.DiscoveryOwnership.OwnershipState

/-! ## Tasks -/

/-- One await of a finishing task: the fence that one of its own replaced, a native
teardown, or a start that was in flight. -/
inductive Await
  | previous (fence : WebviewCleanupRetirement)
  | native
  | start (id : ℕ)
  deriving DecidableEq

/-- Which error a task keeps: a retirement its first, a session's cleanup that of
the replaced fence, which it awaits last. -/
inductive Keeps
  | first
  | last
  deriving DecidableEq

/-- The outcome of a task after one more result: the first error or the last one. -/
def Keeps.combine : Keeps → Outcome → Outcome → Outcome
  | .first, .ok _, result => result
  | .first, .error e, _ => .error e
  | .last, _, .error e => .error e
  | .last, outcome, .ok _ => outcome

/-- A task that finishes `fences`. `unfinished` are those whose outcome is still to
be written, `unpublishing` is the one just written and still to be taken down. -/
structure Task where
  fences : List WebviewCleanupRetirement
  keeps : Keeps
  awaits : List Await
  outcome : Outcome
  unfinished : List WebviewCleanupRetirement
  unpublishing : Option WebviewCleanupRetirement

/-- The body that `retire_discovery_sessions`, `retire_mobile_webview_generation`
and `retire_endpoint_discovery_sessions` share. -/
def retire_sessions (fences : List WebviewCleanupRetirement) (r : DiscoveryRetirement) : Task where
  fences := fences
  keeps := .first
  awaits := fences.map .previous ++ (r.sessions.map fun _ => .native) ++ r.starts.map .start
  outcome := .ok ()
  unfinished := fences
  unpublishing := none

/-- `retire_discovery_sessions` -/
def retire_discovery_sessions (r : DiscoveryRetirement) : Task := retire_sessions r.owner_cleanups r

/-- `retire_endpoint_discovery_sessions` -/
def retire_endpoint_discovery_sessions (r : DiscoveryRetirement) : Task :=
  retire_sessions r.owner_cleanups r

/-- `retire_mobile_webview_generation` -/
def retire_mobile_webview_generation (r : DiscoveryRetirement) : Task :=
  retire_sessions r.webview_cleanup.toList r

/-- `SessionCleanup::finish`, with the native teardown its caller awaits first. -/
def finish_session (fence : WebviewCleanupRetirement) : Task where
  fences := [fence]
  keeps := .last
  awaits := [.native, .previous fence]
  outcome := .ok ()
  unfinished := [fence]
  unpublishing := none

/-! ## The system -/

/-- A start with the number of fences that were published before it and what its
`wait_for_cleanup` returned. -/
structure Lease where
  lease : StartLease
  seen : ℕ
  returned : Option Outcome

/-- The ownership state, and the fences, tasks and leases that exist. -/
structure System where
  state : OwnershipState
  fences : List WebviewCleanupRetirement
  tasks : List Task
  leases : List Lease

/-- Nothing has been started. -/
def start : System := ⟨OwnershipState.default, [], [], []⟩

/-- One step. `advance` moves a task on; `native` is how a native teardown ends, if
that is what it awaits. -/
inductive Label
  | activate_endpoint (endpoint_handle : ℕ)
  | begin_peer_start (endpoint_handle : ℕ) (webview_label : String)
  | begin_webview_start (webview_label : String)
  | wait_for_cleanup (id : ℕ)
  | arm_native_cleanup (id : ℕ)
  | track (id : ℕ) (kind : DiscoveryKind) (handle : ℕ)
  | finish_cleanup (id : ℕ) (outcome : Outcome)
  | drop (id : ℕ)
  | begin_session_cleanup (kind : DiscoveryKind) (handle : ℕ)
  | retire_endpoint (endpoint_handle : ℕ)
  | advance_webview (webview_label : String)
  | retire_webview (webview_label : String)
  | retire_all
  | advance (task : ℕ) (native : Outcome)

namespace System

/-- A capture that succeeded is a new lease. -/
def add_lease (s : System) (r : Option StartLease × OwnershipState) : System :=
  { s with
    state := r.2
    leases := s.leases ++ r.1.toList.map fun lease => ⟨lease, s.state.next_cleanup, none⟩ }

/-- A retirement publishes its fences and spawns its task. -/
def add_task (s : System) (state : OwnershipState) (fences : List WebviewCleanupRetirement)
    (task : Task) : System :=
  { s with state := state, fences := s.fences ++ fences, tasks := s.tasks ++ [task] }

/-- Write a lease and the state behind it. -/
def set_lease (s : System) (id : ℕ) (lease : Lease) (state : OwnershipState) : System :=
  { s with state := state, leases := s.leases.set id lease }

/-- What `StartLease::wait_for_cleanup` returns, once it does. -/
def cleanup_result (s : System) (prior_cleanup : Option ℕ) : Option Outcome :=
  match prior_cleanup with
  | some cleanup => s.state.cleanups cleanup
  | none => some (.ok ())

/-- What an await yields, once it does. -/
def result (s : System) (native : Outcome) : Await → Option Outcome
  | .previous fence => s.cleanup_result fence.previous
  | .native => some native
  | .start id => s.state.completions id

/-- One step of a task: what it waits for, then its fences, then its own entry of the map. -/
def advance_task (s : System) (task : Task) (native : Outcome) : Option (Task × OwnershipState) :=
  match task.unpublishing, task.awaits, task.unfinished with
  | some fence, _, _ => some ({ task with unpublishing := none }, s.state.unpublish fence)
  | none, await :: rest, _ =>
    (s.result native await).map fun outcome =>
      ({ task with awaits := rest, outcome := task.keeps.combine task.outcome outcome }, s.state)
  | none, [], fence :: rest =>
    some ({ task with
        unfinished := rest
        -- only a success takes the fence down
        unpublishing := if task.outcome.isOk then some fence else none },
      s.state.finish_cell fence.current task.outcome)
  | none, [], [] => none

/-- One step of the system, `none` where the label is not enabled. -/
def step (s : System) : Label → Option System
  | .activate_endpoint h => some { s with state := s.state.activate_endpoint h }
  | .begin_peer_start h w => some (s.add_lease (s.state.begin_peer_start h w))
  | .begin_webview_start w => some (s.add_lease (s.state.begin_webview_start w))
  | .wait_for_cleanup id =>
    (s.leases[id]?).bind fun l => (s.cleanup_result l.lease.prior_cleanup).map fun outcome =>
      s.set_lease id { l with returned := some outcome } s.state
  | .arm_native_cleanup id =>
    (s.leases[id]?).map fun l => s.set_lease id { l with lease := l.lease.arm_native_cleanup } s.state
  | .track id kind handle =>
    (s.leases[id]?).map fun l =>
      let r := l.lease.track s.state kind handle
      s.set_lease id { l with lease := r.2.1 } r.2.2
  | .finish_cleanup id outcome =>
    (s.leases[id]?).map fun l =>
      s.set_lease id { l with lease := { l.lease with active := false } }
        (l.lease.finish_cleanup s.state outcome)
  | .drop id =>
    (s.leases[id]?).map fun l =>
      s.set_lease id { l with lease := { l.lease with active := false } } (l.lease.drop s.state)
  | .begin_session_cleanup kind handle =>
    match s.state.begin_session_cleanup kind handle with
    | (none, state) => some { s with state := state }
    | (some r, state) => some (s.add_task state [r.2] (finish_session r.2))
  | .retire_endpoint h =>
    let r := s.state.retire_endpoint h
    some (s.add_task r.2 r.1.owner_cleanups (retire_endpoint_discovery_sessions r.1))
  | .advance_webview w =>
    let r := s.state.advance_webview w
    some (s.add_task r.2 r.1.webview_cleanup.toList (retire_mobile_webview_generation r.1))
  | .retire_webview w =>
    let r := s.state.retire_webview w
    some (s.add_task r.2 r.1.webview_cleanup.toList (retire_mobile_webview_generation r.1))
  | .retire_all =>
    let r := s.state.retire_all
    some (s.add_task r.2 r.1.owner_cleanups (retire_discovery_sessions r.1))
  | .advance i native =>
    (s.tasks[i]?).bind fun task => (s.advance_task task native).map fun r =>
      { s with state := r.2, tasks := s.tasks.set i r.1 }

end System

/-! ## Chains of fences -/

/-- Every fence published under `label` with a number below `n` has succeeded. -/
def AllOk (s : OwnershipState) (fences : List WebviewCleanupRetirement) (label : String)
    (n : ℕ) : Prop :=
  ∀ f ∈ fences, f.label = label → f.current < n → s.cleanups f.current = some (.ok ())

/-- `p` is the newest fence of `label` below `n`. -/
def Last (fences : List WebviewCleanupRetirement) (label : String) (p n : ℕ) : Prop :=
  (∃ f ∈ fences, f.label = label ∧ f.current = p) ∧ p < n ∧
    ∀ f ∈ fences, f.label = label → f.current < n → f.current ≤ p

/-- `prior` stands for all fences of `label` below `n`: it is the newest of them, or
none of them is left to wait for. -/
def Behind (s : OwnershipState) (fences : List WebviewCleanupRetirement) (label : String)
    (prior : Option ℕ) (n : ℕ) : Prop :=
  match prior with
  | some p => Last fences label p n
  | none => AllOk s fences label n

/-- The published fences form one chain for each label, and a fence succeeds after
those before it. -/
structure Chained (s : OwnershipState) (fences : List WebviewCleanupRetirement) : Prop where
  bound : ∀ f ∈ fences, f.current < s.next_cleanup
  distinct : ∀ f ∈ fences, ∀ g ∈ fences, f.current = g.current → f = g
  unset : ∀ i, s.next_cleanup ≤ i → s.cleanups i = none
  published : ∀ label, Behind s fences label (s.webview_cleanups label) s.next_cleanup
  previous : ∀ f ∈ fences, Behind s fences f.label f.previous f.current
  ordered : ∀ f ∈ fences, s.cleanups f.current = some (.ok ()) → AllOk s fences f.label f.current

/-- Cells are written once. -/
def Grows (s s' : OwnershipState) : Prop :=
  ∀ i outcome, s.cleanups i = some outcome → s'.cleanups i = some outcome

/-- Once the fence it stands for has succeeded, all of them have. -/
theorem Behind.all_ok {s : OwnershipState} {fences : List WebviewCleanupRetirement} {label : String}
    {prior : Option ℕ} {n : ℕ} (hc : Chained s fences) (h : Behind s fences label prior n)
    (hok : ∀ p, prior = some p → s.cleanups p = some (.ok ())) : AllOk s fences label n := by
  cases prior with
  | none => exact h
  | some p =>
      obtain ⟨⟨g, hg, hglabel, hgp⟩, -, hnewest⟩ := h
      have hp := hok p rfl
      rw [← hgp] at hp
      intro f hf hlabel hlt
      have hle := hnewest f hf hlabel hlt
      rcases Nat.lt_or_eq_of_le hle with hlt' | heq
      · exact hc.ordered g hg hp f hf (hlabel.trans hglabel.symm) (hgp ▸ hlt')
      · rw [heq, ← hgp]
        exact hp

/-- What is behind `n` does not change when later fences are published. -/
theorem Behind.mono {s s' : OwnershipState} {fences new : List WebviewCleanupRetirement}
    {label : String} {prior : Option ℕ} {n : ℕ} (h : Behind s fences label prior n)
    (hgrow : Grows s s') (hnew : ∀ f ∈ new, n ≤ f.current) :
    Behind s' (fences ++ new) label prior n := by
  have hold : ∀ f ∈ fences ++ new, f.current < n → f ∈ fences := by
    intro f hf hlt
    rcases List.mem_append.mp hf with hf | hf
    · exact hf
    · exact absurd (hnew f hf) (Nat.not_le.mpr hlt)
  cases prior with
  | none => exact fun f hf hlabel hlt => hgrow _ _ (h f (hold f hf hlt) hlabel hlt)
  | some p =>
      obtain ⟨⟨g, hg, hgp⟩, hlt, hnewest⟩ := h
      exact ⟨⟨g, List.mem_append_left _ hg, hgp⟩, hlt,
        fun f hf hlabel hf' => hnewest f (hold f hf hf') hlabel hf'⟩

/-- A new fence behind the number changes nothing for it. -/
theorem AllOk.mono {s s' : OwnershipState} {fences new : List WebviewCleanupRetirement}
    {label : String} {n : ℕ} (h : AllOk s fences label n) (hgrow : Grows s s')
    (hnew : ∀ f ∈ new, n ≤ f.current) : AllOk s' (fences ++ new) label n :=
  show Behind s' (fences ++ new) label none n from Behind.mono (show Behind s fences label none n from h) hgrow hnew

theorem chained_start : Chained OwnershipState.default [] where
  bound _ hf := absurd hf List.not_mem_nil
  distinct _ hf := absurd hf List.not_mem_nil
  unset _ _ := rfl
  published _ := fun _ hf => absurd hf List.not_mem_nil
  previous _ hf := absurd hf List.not_mem_nil
  ordered _ hf := absurd hf List.not_mem_nil

/-- Only the published fences and their cells matter. -/
theorem Chained.congr {s s' : OwnershipState} {fences : List WebviewCleanupRetirement}
    (h : Chained s fences) (hmap : s'.webview_cleanups = s.webview_cleanups)
    (hnext : s'.next_cleanup = s.next_cleanup) (hcells : s'.cleanups = s.cleanups) :
    Chained s' fences := by
  have hbehind : ∀ {label : String} {prior : Option ℕ} {n : ℕ},
      Behind s fences label prior n → Behind s' fences label prior n := by
    intro label prior n hb
    cases prior with
    | none => exact fun f hf hl hlt => by rw [hcells]; exact hb f hf hl hlt
    | some p => exact hb
  refine ⟨?_, h.distinct, ?_, ?_, fun f hf => hbehind (h.previous f hf), ?_⟩
  · rw [hnext]
    exact h.bound
  · rw [hnext, hcells]
    exact h.unset
  · intro label
    rw [hmap, hnext]
    exact hbehind (h.published label)
  · intro f hf hok
    rw [hcells] at hok
    exact fun g hg hlabel hlt => by rw [hcells]; exact h.ordered f hf hok g hg hlabel hlt

/-- Publishing a fence puts it at the end of its chain. -/
theorem Chained.publish {s : OwnershipState} {fences : List WebviewCleanupRetirement}
    (h : Chained s fences) (label : String) :
    Chained (s.publish label).2 (fences ++ [(s.publish label).1]) := by
  -- publishing writes into no cell, so what the fences waited for stays
  have hgrow : Grows s (s.publish label).2 := fun _ _ hi => hi
  have hnew : ∀ n, n ≤ s.next_cleanup → ∀ f ∈ [(s.publish label).1], n ≤ f.current := by
    intro n hn f hf
    rw [List.mem_singleton.mp hf]
    exact hn
  refine ⟨?_, ?_, fun i hi => h.unset i (Nat.le_of_succ_le hi), ?_, ?_, ?_⟩
  · intro f hf
    rcases List.mem_append.mp hf with hf | hf
    · exact Nat.lt_succ_of_lt (h.bound f hf)
    · rw [List.mem_singleton.mp hf]
      exact Nat.lt_succ_self _
  · intro f hf g hg heq
    rcases List.mem_append.mp hf with hf | hf <;> rcases List.mem_append.mp hg with hg | hg
    · exact h.distinct f hf g hg heq
    · have hlt := h.bound f hf
      rw [heq, List.mem_singleton.mp hg] at hlt
      exact absurd hlt (Nat.lt_irrefl _)
    · have hlt := h.bound g hg
      rw [← heq, List.mem_singleton.mp hf] at hlt
      exact absurd hlt (Nat.lt_irrefl _)
    · rw [List.mem_singleton.mp hf, List.mem_singleton.mp hg]
  · intro l
    by_cases hl : l = label
    · subst hl
      have hmap : (s.publish l).2.webview_cleanups l = some s.next_cleanup := by
        simp only [OwnershipState.publish, Function.update_self]
      rw [hmap]
      refine ⟨⟨_, List.mem_append_right _ (List.mem_singleton_self _), rfl, rfl⟩,
        Nat.lt_succ_self _, fun f _ _ hlt => Nat.le_of_lt_succ hlt⟩
    · -- the new fence is not of this label
      have hmap : (s.publish label).2.webview_cleanups l = s.webview_cleanups l := by
        simp only [OwnershipState.publish, Function.update_of_ne hl]
      have hold : ∀ f ∈ fences ++ [(s.publish label).1], f.label = l → f ∈ fences := by
        intro f hf hfl
        rcases List.mem_append.mp hf with hf | hf
        · exact hf
        · rw [List.mem_singleton.mp hf] at hfl
          exact absurd hfl.symm hl
      have hb := h.published l
      rw [hmap]
      cases hprior : s.webview_cleanups l with
      | none =>
          rw [hprior] at hb
          intro f hf hfl _
          exact hb f (hold f hf hfl) hfl (h.bound f (hold f hf hfl))
      | some p =>
          rw [hprior] at hb
          obtain ⟨⟨g, hg, hgp⟩, hlt, hnewest⟩ := hb
          refine ⟨⟨g, List.mem_append_left _ hg, hgp⟩, Nat.lt_succ_of_lt hlt, ?_⟩
          intro f hf hfl _
          exact hnewest f (hold f hf hfl) hfl (h.bound f (hold f hf hfl))
  · intro f hf
    rcases List.mem_append.mp hf with hf | hf
    · exact (h.previous f hf).mono hgrow (hnew _ (Nat.le_of_lt (h.bound f hf)))
    · rw [List.mem_singleton.mp hf]
      exact (h.published label).mono hgrow (hnew _ (Nat.le_refl _))
  · intro f hf hok
    rcases List.mem_append.mp hf with hf | hf
    · exact (h.ordered f hf hok).mono hgrow (hnew _ (Nat.le_of_lt (h.bound f hf)))
    · -- nobody has finished it yet
      rw [List.mem_singleton.mp hf] at hok
      have hnone := h.unset s.next_cleanup (Nat.le_refl _)
      exact absurd (hnone.symm.trans hok) (by simp)

/-- A fence finished with success comes after its predecessor did. -/
theorem Chained.finish_cell {s : OwnershipState} {fences : List WebviewCleanupRetirement}
    (h : Chained s fences) {f : WebviewCleanupRetirement} (hf : f ∈ fences) {outcome : Outcome}
    (hok : outcome = .ok () → ∀ p, f.previous = some p → s.cleanups p = some (.ok ())) :
    Chained (s.finish_cell f.current outcome) fences ∧ Grows s (s.finish_cell f.current outcome) := by
  have hgrow : Grows s (s.finish_cell f.current outcome) := by
    intro i o hi
    by_cases heq : i = f.current
    · subst heq
      simp only [OwnershipState.finish_cell, Function.update_self, hi, Option.getD_some]
    · simp only [OwnershipState.finish_cell, Function.update_of_ne heq, hi]
  have hmono : ∀ {label : String} {prior : Option ℕ} {n : ℕ}, Behind s fences label prior n →
      Behind (s.finish_cell f.current outcome) fences label prior n := by
    intro label prior n hb
    have hnil : ∀ f ∈ ([] : List WebviewCleanupRetirement), n ≤ f.current := by rintro _ ⟨⟩
    have hb' := hb.mono hgrow hnil
    rwa [List.append_nil] at hb'
  refine ⟨⟨h.bound, h.distinct, ?_, fun l => hmono (h.published l),
    fun g hg => hmono (h.previous g hg), ?_⟩, hgrow⟩
  · intro i hi
    have hne : i ≠ f.current := by
      rintro rfl
      exact absurd (h.bound f hf) (Nat.not_lt.mpr hi)
    simp only [OwnershipState.finish_cell, Function.update_of_ne hne]
    exact h.unset i hi
  · intro g hg hgok
    have hold : AllOk s fences g.label g.current →
        AllOk (s.finish_cell f.current outcome) fences g.label g.current :=
      fun hall => hmono (show Behind s fences g.label none g.current from hall)
    refine hold ?_
    by_cases heq : g.current = f.current
    · obtain rfl := h.distinct g hg f hf heq
      simp only [OwnershipState.finish_cell, Function.update_self, Option.some.injEq] at hgok
      cases hcell : s.cleanups g.current with
      | some o =>
          rw [hcell, Option.getD_some] at hgok
          exact h.ordered g hg (hcell.trans (congrArg some hgok))
      | none =>
          rw [hcell, Option.getD_none] at hgok
          exact (h.previous g hg).all_ok h (hok hgok)
    · simp only [OwnershipState.finish_cell, Function.update_of_ne heq] at hgok
      exact h.ordered g hg hgok

/-- Taking down a fence that succeeded leaves nothing to wait for. -/
theorem Chained.unpublish {s : OwnershipState} {fences : List WebviewCleanupRetirement}
    (h : Chained s fences) {f : WebviewCleanupRetirement}
    (hok : s.cleanups f.current = some (.ok ())) : Chained (s.unpublish f) fences := by
  unfold OwnershipState.unpublish
  split
  · next hmap =>
    refine ⟨h.bound, h.distinct, h.unset, ?_, h.previous, h.ordered⟩
    intro l
    by_cases hl : l = f.label
    · subst hl
      simp only [Function.update_self]
      have hall := (h.published f.label).all_ok h
      rw [hmap] at hall
      exact hall (fun p hp => by rw [← Option.some.inj hp]; exact hok)
    · simp only [Function.update_of_ne hl]
      exact h.published l
  · exact h

/-! ## What a retirement publishes -/

/-- `s'` is `s` with the fences `new` published: they are newer than every fence of
`s`, and what they replace is older than all of them. -/
structure Publishes (s s' : OwnershipState) (new : List WebviewCleanupRetirement) : Prop where
  chained : ∀ {fences}, Chained s fences → Chained s' (fences ++ new)
  recent : ∀ f ∈ new, s.next_cleanup ≤ f.current
  nodup : (new.map (·.current)).Nodup
  older : (∀ l p, s.webview_cleanups l = some p → p < s.next_cleanup) →
    ∀ f ∈ new, ∀ p, f.previous = some p → p < s.next_cleanup
  cells : s'.cleanups = s.cleanups
  next : s.next_cleanup ≤ s'.next_cleanup
  starts : s'.starts = s.starts
  next_start : s'.next_start = s.next_start

/-- A fence that is up has been published. -/
theorem Chained.map_lt {s : OwnershipState} {fences : List WebviewCleanupRetirement}
    (h : Chained s fences) (l : String) (p : ℕ) (hp : s.webview_cleanups l = some p) :
    p < s.next_cleanup := by
  have hb := h.published l
  rw [hp] at hb
  exact hb.2.1

/-- Changes before and after the publication that concern no fence. -/
theorem Publishes.congr {s s₁ s₂ s' : OwnershipState} {new : List WebviewCleanupRetirement}
    (h : Publishes s₁ s₂ new)
    (hmap₁ : s₁.webview_cleanups = s.webview_cleanups) (hnext₁ : s₁.next_cleanup = s.next_cleanup)
    (hcells₁ : s₁.cleanups = s.cleanups) (hstarts₁ : s₁.starts = s.starts)
    (hid₁ : s₁.next_start = s.next_start)
    (hmap₂ : s'.webview_cleanups = s₂.webview_cleanups) (hnext₂ : s'.next_cleanup = s₂.next_cleanup)
    (hcells₂ : s'.cleanups = s₂.cleanups) (hstarts₂ : s'.starts = s₂.starts)
    (hid₂ : s'.next_start = s₂.next_start) : Publishes s s' new where
  chained hc := (h.chained (hc.congr hmap₁ hnext₁ hcells₁)).congr hmap₂ hnext₂ hcells₂
  recent := hnext₁ ▸ h.recent
  nodup := h.nodup
  older := by
    rw [← hmap₁, ← hnext₁]
    exact h.older
  cells := hcells₂.trans (h.cells.trans hcells₁)
  next := by
    rw [hnext₂, ← hnext₁]
    exact h.next
  starts := hstarts₂.trans (h.starts.trans hstarts₁)
  next_start := hid₂.trans (h.next_start.trans hid₁)

/-- `publish` adds one fence to its label. -/
theorem publishes_publish (s : OwnershipState) (label : String) :
    Publishes s (s.publish label).2 [(s.publish label).1] where
  chained hc := hc.publish label
  recent f hf := by
    rw [List.mem_singleton.mp hf]
    exact Nat.le_refl _
  nodup := List.nodup_singleton _
  older hmap f hf p hp := by
    rw [List.mem_singleton.mp hf] at hp
    exact hmap label p hp
  cells := rfl
  next := Nat.le_succ _
  starts := rfl
  next_start := rfl

theorem install_recent {labels : List String} {s : OwnershipState} :
    ∀ f ∈ (s.install_owner_cleanups labels).1, s.next_cleanup ≤ f.current := by
  induction labels generalizing s with
  | nil => exact fun f hf => absurd hf List.not_mem_nil
  | cons label labels ih =>
      intro f hf
      rcases List.mem_cons.mp hf with rfl | hf
      · exact Nat.le_refl _
      · have hnext := ih (s := (s.publish label).2) f hf
        exact Nat.le_of_succ_le hnext

/-- Different labels replace different fences, all of them older than the first of
the new ones. -/
theorem install_older {labels : List String} (hnodup : labels.Nodup) {s : OwnershipState} {n : ℕ}
    (hmap : ∀ l ∈ labels, ∀ p, s.webview_cleanups l = some p → p < n) :
    ∀ f ∈ (s.install_owner_cleanups labels).1, ∀ p, f.previous = some p → p < n := by
  induction labels generalizing s with
  | nil => exact fun f hf => absurd hf List.not_mem_nil
  | cons label labels ih =>
      obtain ⟨hnew, hrest⟩ := List.nodup_cons.mp hnodup
      intro f hf
      rcases List.mem_cons.mp hf with rfl | hf
      · exact hmap label List.mem_cons_self
      · apply ih hrest (s := (s.publish label).2) ?_ f hf
        intro l hl p hp
        have hne : l ≠ label := fun heq => hnew (heq ▸ hl)
        simp only [OwnershipState.publish, Function.update_of_ne hne] at hp
        exact hmap l (List.mem_cons_of_mem _ hl) p hp

theorem install_nodup {labels : List String} {s : OwnershipState} :
    ((s.install_owner_cleanups labels).1.map (·.current)).Nodup := by
  induction labels generalizing s with
  | nil => exact List.nodup_nil
  | cons label labels ih =>
      refine List.nodup_cons.mpr ⟨?_, ih⟩
      intro hmem
      obtain ⟨f, hf, heq⟩ := List.mem_map.mp hmem
      have hle : s.next_cleanup + 1 ≤ f.current := install_recent f hf
      rw [heq] at hle
      exact Nat.not_succ_le_self _ hle

/-- A retirement adds a fence to each of its labels. -/
theorem publishes_install (s : OwnershipState) {labels : List String} (hnodup : labels.Nodup) :
    Publishes s (s.install_owner_cleanups labels).2 (s.install_owner_cleanups labels).1 := by
  have hchain : ∀ (labels : List String) (s : OwnershipState),
      (∀ {fences}, Chained s fences →
        Chained (s.install_owner_cleanups labels).2
          (fences ++ (s.install_owner_cleanups labels).1)) ∧
      (s.install_owner_cleanups labels).2.cleanups = s.cleanups ∧
      s.next_cleanup ≤ (s.install_owner_cleanups labels).2.next_cleanup ∧
      (s.install_owner_cleanups labels).2.starts = s.starts ∧
      (s.install_owner_cleanups labels).2.next_start = s.next_start := by
    intro labels
    induction labels with
    | nil =>
        intro s
        exact ⟨fun hc => (List.append_nil _).symm ▸ hc, rfl, Nat.le_refl _, rfl, rfl⟩
    | cons label labels ih =>
        intro s
        obtain ⟨hc', hcells, hnext, hstarts, hid⟩ := ih (s.publish label).2
        refine ⟨fun {fences} hc => ?_, hcells, Nat.le_of_succ_le hnext, hstarts, hid⟩
        have hstep := hc' (hc.publish label)
        rwa [List.append_assoc] at hstep
  obtain ⟨hc, hcells, hnext, hstarts, hid⟩ := hchain labels s
  refine ⟨hc, install_recent, install_nodup, ?_, hcells, hnext, hstarts, hid⟩
  intro hmap
  exact install_older hnodup (fun l _ => hmap l)

theorem labels_nodup (s : OwnershipState) (predicate : DiscoveryOwner → Bool) :
    (s.matching_owner_labels predicate).Nodup :=
  List.nodup_dedup _

/-- The retirement of an endpoint publishes the fences it returns. -/
theorem publishes_retire_endpoint (s : OwnershipState) (h : ℕ) :
    Publishes s (s.retire_endpoint h).2 (s.retire_endpoint h).1.owner_cleanups :=
  (publishes_install _ (labels_nodup _ _)).congr rfl rfl rfl rfl rfl rfl rfl rfl rfl rfl

/-- So does the retirement of all. -/
theorem publishes_retire_all (s : OwnershipState) :
    Publishes s s.retire_all.2 s.retire_all.1.owner_cleanups :=
  (publishes_install _ (labels_nodup _ _)).congr rfl rfl rfl rfl rfl rfl rfl rfl rfl rfl

/-- And that of a window. -/
theorem publishes_next_webview (s : OwnershipState) (w : String) (active : Bool) :
    Publishes s (s.next_webview w active).2 (s.next_webview w active).1.webview_cleanup.toList :=
  (publishes_publish s w).congr rfl rfl rfl rfl rfl rfl rfl rfl rfl rfl

/-- And the cleanup of one session. -/
theorem publishes_session {s s' : OwnershipState} {kind : DiscoveryKind} {handle : ℕ}
    {r : TrackedDiscovery × WebviewCleanupRetirement}
    (h : s.begin_session_cleanup kind handle = (some r, s')) : Publishes s s' [r.2] := by
  unfold OwnershipState.begin_session_cleanup at h
  split at h
  · cases h
  · next tracked state heq =>
    obtain ⟨hr, rfl⟩ := Prod.mk.inj h
    obtain rfl := Option.some.inj hr
    have hstate : state = { s with sessions := s.sessions.erase (kind, handle) } :=
      (Prod.mk.inj heq).2.symm
    subst hstate
    exact (publishes_publish _ _).congr rfl rfl rfl rfl rfl rfl rfl rfl rfl rfl

/-! ## The invariant -/

/-- A task writes a success only over fences whose predecessors succeeded, and all
it awaits is older than the first of its fences. -/
structure TaskOk (s : System) (t : Task) : Prop where
  published : ∀ f ∈ t.fences, f ∈ s.fences
  unfinished : ∀ f ∈ t.unfinished, f ∈ t.fences
  awaited : ∀ f, Await.previous f ∈ t.awaits → f ∈ t.fences
  passed : t.outcome = .ok () → ∀ f ∈ t.fences,
    Await.previous f ∈ t.awaits ∨ s.cleanup_result f.previous = some (.ok ())
  unpublishing : ∀ f, t.unpublishing = some f → s.state.cleanups f.current = some (.ok ())
  older : ∃ base, (∀ f ∈ t.fences, base ≤ f.current ∧ ∀ p, f.previous = some p → p < base) ∧
    ∀ id, Await.start id ∈ t.awaits → ∃ l, s.leases[id]? = some l ∧ l.seen ≤ base

/-- A lease waits for the fence that was published last, and an answer without an error speaks for
all before it. -/
structure LeaseOk (s : System) (l : Lease) : Prop where
  seen : l.seen ≤ s.state.next_cleanup
  behind : Behind s.state s.fences (owner_label l.lease.owner) l.lease.prior_cleanup l.seen
  returned : l.returned = some (.ok ()) →
    AllOk s.state s.fences (owner_label l.lease.owner) l.seen

/-- The cells that a task has still to write. -/
def unwritten (tasks : List Task) : List ℕ := tasks.flatMap fun t => t.unfinished.map (·.current)

/-- The invariant: fences of a label are chained, tasks write their own cells once, and leases are
in order. -/
structure Inv (s : System) : Prop where
  chained : Chained s.state s.fences
  tasks : ∀ t ∈ s.tasks, TaskOk s t
  -- a fence has one task, which writes its cell once
  separate : (unwritten s.tasks).Nodup
  unset : ∀ i ∈ unwritten s.tasks, s.state.cleanups i = none
  leases : ∀ l ∈ s.leases, LeaseOk s l
  pending : ∀ e ∈ s.state.starts.entries, e.1 < s.leases.length
  issued : s.leases.length = s.state.next_start
  ids : ∀ (id : ℕ) (l : Lease), s.leases[id]? = some l → l.lease.id = id

/-- What `s` recorded stands in `s'`; what was added is newer. -/
structure Later (s s' : System) : Prop where
  fences : ∃ new, s'.fences = s.fences ++ new ∧ ∀ f ∈ new, s.state.next_cleanup ≤ f.current
  cells : Grows s.state s'.state
  next : s.state.next_cleanup ≤ s'.state.next_cleanup
  leases : ∀ (id : ℕ) (l : Lease), s.leases[id]? = some l →
    ∃ l' : Lease, s'.leases[id]? = some l' ∧ l'.seen = l.seen
  recent : ∀ (id : ℕ) (l : Lease), s.leases.length ≤ id → s'.leases[id]? = some l →
    s.state.next_cleanup ≤ l.seen

theorem Later.refl (s : System) : Later s s where
  fences := ⟨[], (List.append_nil _).symm, fun _ hf => absurd hf List.not_mem_nil⟩
  cells _ _ hi := hi
  next := Nat.le_refl _
  leases _ l hl := ⟨l, hl, rfl⟩
  recent _ _ hid hl := absurd (List.getElem?_eq_none hid) (by rw [hl]; simp)

/-- What is later than what is later is later. -/
theorem Later.trans {s₁ s₂ s₃ : System} (h : Later s₁ s₂) (h' : Later s₂ s₃) : Later s₁ s₃ := by
  obtain ⟨new, hnew, hrec⟩ := h.fences
  obtain ⟨new', hnew', hrec'⟩ := h'.fences
  refine ⟨⟨new ++ new', by rw [hnew', hnew, List.append_assoc], ?_⟩,
    fun i o hi => h'.cells i o (h.cells i o hi), Nat.le_trans h.next h'.next, ?_, ?_⟩
  · intro f hf
    rcases List.mem_append.mp hf with hf | hf
    · exact hrec f hf
    · exact Nat.le_trans h.next (hrec' f hf)
  · intro id l hl
    obtain ⟨l₂, hl₂, hseen₂⟩ := h.leases id l hl
    obtain ⟨l₃, hl₃, hseen₃⟩ := h'.leases id l₂ hl₂
    exact ⟨l₃, hl₃, hseen₃.trans hseen₂⟩
  · intro id l hid hl
    by_cases hlt : id < s₂.leases.length
    · obtain ⟨l₃, hl₃, hseen⟩ := h'.leases id _ (List.getElem?_eq_getElem hlt)
      obtain rfl := Option.some.inj (hl.symm.trans hl₃)
      rw [hseen]
      exact h.recent id _ hid (List.getElem?_eq_getElem hlt)
    · exact Nat.le_trans h.next (h'.recent id l (Nat.not_lt.mp hlt) hl)

/-- Fences stay. -/
theorem Later.mem {s s' : System} (h : Later s s') {f : WebviewCleanupRetirement}
    (hf : f ∈ s.fences) : f ∈ s'.fences := by
  obtain ⟨new, hnew, -⟩ := h.fences
  rw [hnew]
  exact List.mem_append_left _ hf

/-- What an await has yielded it yields again. -/
theorem Grows.cleanup_result {s s' : System} (h : Grows s.state s'.state) {prior : Option ℕ}
    {outcome : Outcome} (hr : s.cleanup_result prior = some outcome) :
    s'.cleanup_result prior = some outcome := by
  cases prior with
  | none => exact hr
  | some p => exact h p outcome hr

/-- A task stays in order. -/
theorem TaskOk.later {s s' : System} (h : Later s s') {t : Task} (ht : TaskOk s t) :
    TaskOk s' t where
  published f hf := h.mem (ht.published f hf)
  unfinished := ht.unfinished
  awaited := ht.awaited
  passed hok f hf := (ht.passed hok f hf).imp_right (Grows.cleanup_result h.cells)
  unpublishing f hf := h.cells _ _ (ht.unpublishing f hf)
  older := by
    obtain ⟨base, hbase, hstarts⟩ := ht.older
    refine ⟨base, hbase, ?_⟩
    intro id hid
    obtain ⟨l, hl, hseen⟩ := hstarts id hid
    obtain ⟨l', hl', heq⟩ := h.leases id l hl
    exact ⟨l', hl', heq ▸ hseen⟩

/-- A lease stays in order. -/
theorem LeaseOk.later {s s' : System} (h : Later s s') {l : Lease} (hl : LeaseOk s l) :
    LeaseOk s' l := by
  obtain ⟨new, hnew, hrec⟩ := h.fences
  have hrec' : ∀ f ∈ new, l.seen ≤ f.current := fun f hf => Nat.le_trans hl.seen (hrec f hf)
  refine ⟨Nat.le_trans hl.seen h.next, ?_, ?_⟩
  · rw [hnew]
    exact hl.behind.mono h.cells hrec'
  · intro hok
    rw [hnew]
    exact (hl.returned hok).mono h.cells hrec'

/-- An outcome without an error had none before. -/
theorem Keeps.combine_ok {k : Keeps} {a b : Outcome} (h : k.combine a b = .ok ()) :
    a = .ok () ∧ b = .ok () := by
  rcases a with e | ⟨⟩ <;> rcases b with e' | ⟨⟩ <;> cases k <;>
    simp_all [Keeps.combine]

/-! ## Steps that publish nothing -/

/-- No fence is touched and no start becomes pending. -/
structure SameFences (s s' : OwnershipState) : Prop where
  map : s'.webview_cleanups = s.webview_cleanups
  next : s'.next_cleanup = s.next_cleanup
  cells : s'.cleanups = s.cleanups
  starts : ∀ e ∈ s'.starts.entries, e ∈ s.starts.entries
  next_start : s'.next_start = s.next_start

/-- A start that ends publishes nothing. -/
theorem sameFences_release (s : OwnershipState) (id : ℕ) (outcome : Outcome) :
    SameFences s (s.release_start id outcome) :=
  ⟨rfl, rfl, rfl, fun _ he => (AList.mem_entries_erase.mp he).1, rfl⟩

theorem sameFences_webview_entry (s : OwnershipState) (w : String) :
    SameFences s (s.webview_entry w).2 :=
  ⟨rfl, rfl, rfl, fun _ he => he, rfl⟩

/-- Tracking publishes nothing. -/
theorem sameFences_track (lease : StartLease) (s : OwnershipState) (kind : DiscoveryKind)
    (handle : ℕ) :
    SameFences s (lease.track s kind handle).2.2 ∧
      (lease.track s kind handle).2.1.id = lease.id ∧
      (lease.track s kind handle).2.1.owner = lease.owner ∧
      (lease.track s kind handle).2.1.prior_cleanup = lease.prior_cleanup := by
  unfold StartLease.track OwnershipState.track_owner
  by_cases hcur : owner_is_current s lease.owner = true
  · rw [if_pos hcur]
    exact ⟨⟨rfl, rfl, rfl, fun _ he => (AList.mem_entries_erase.mp he).1, rfl⟩, rfl, rfl, rfl⟩
  · rw [if_neg hcur]
    exact ⟨⟨rfl, rfl, rfl, fun _ he => he, rfl⟩, rfl, rfl, rfl⟩

/-- A lease that is dropped publishes nothing. -/
theorem sameFences_drop (lease : StartLease) (s : OwnershipState) :
    SameFences s (lease.drop s) := by
  unfold StartLease.drop
  split
  · exact sameFences_release s _ _
  · exact ⟨rfl, rfl, rfl, fun _ he => he, rfl⟩

/-- A state with the same fences is a later one. -/
theorem Later.of_same {s s' : System} (h : SameFences s.state s'.state)
    (hfences : s'.fences = s.fences)
    (hleases : ∀ (id : ℕ) (l : Lease), s.leases[id]? = some l →
      ∃ l' : Lease, s'.leases[id]? = some l' ∧ l'.seen = l.seen)
    (hlength : s'.leases.length = s.leases.length) : Later s s' where
  fences := ⟨[], hfences.trans (List.append_nil _).symm, fun _ hf => absurd hf List.not_mem_nil⟩
  cells i o hi := by rw [h.cells]; exact hi
  next := Nat.le_of_eq h.next.symm
  leases := hleases
  recent id l hid hl := by
    rw [← hlength] at hid
    rw [List.getElem?_eq_none hid] at hl
    exact absurd hl (by simp)

/-- **A step that publishes nothing** keeps the invariant. -/
theorem Inv.same {s : System} (h : Inv s) {state : OwnershipState}
    (hsame : SameFences s.state state) :
    Inv { s with state := state } ∧ Later s { s with state := state } := by
  have hlater : Later s { s with state := state } :=
    Later.of_same hsame rfl (fun _ l hl => ⟨l, hl, rfl⟩) rfl
  refine ⟨⟨h.chained.congr hsame.map hsame.next hsame.cells, ?_, h.separate, ?_, ?_, ?_, ?_, ?_⟩, hlater⟩
  · exact fun t ht => (h.tasks t ht).later hlater
  · exact fun i hi => (congrFun hsame.cells i).trans (h.unset i hi)
  · exact fun l hl => (h.leases l hl).later hlater
  · exact fun e he => h.pending e (hsame.starts e he)
  · exact h.issued.trans hsame.next_start.symm
  · exact h.ids

/-- A lease changes, but not what it waits for. -/
theorem Inv.set_lease {s : System} (h : Inv s) {state : OwnershipState}
    (hsame : SameFences s.state state) {id : ℕ} {l l' : Lease} (hl : s.leases[id]? = some l)
    (hid : l'.lease.id = l.lease.id) (hseen : l'.seen = l.seen) (hok : LeaseOk s l') :
    Inv (s.set_lease id l' state) ∧ Later s (s.set_lease id l' state) := by
  have hlt := (List.getElem?_eq_some_iff.mp hl).1
  have hlater : Later s (s.set_lease id l' state) := by
    refine Later.of_same hsame rfl ?_ List.length_set
    intro j k hk
    by_cases hj : id = j
    · subst hj
      obtain rfl := Option.some.inj (hl.symm.trans hk)
      exact ⟨l', List.getElem?_set_self hlt, hseen⟩
    · exact ⟨k, (List.getElem?_set_ne hj).trans hk, rfl⟩
  refine ⟨⟨h.chained.congr hsame.map hsame.next hsame.cells, ?_, h.separate, ?_, ?_, ?_, ?_, ?_⟩, hlater⟩
  · exact fun t ht => (h.tasks t ht).later hlater
  · exact fun i hi => (congrFun hsame.cells i).trans (h.unset i hi)
  · intro k hk
    rcases List.mem_or_eq_of_mem_set hk with hk | rfl
    · exact (h.leases k hk).later hlater
    · exact hok.later hlater
  · intro e he
    rw [show (s.set_lease id l' state).leases.length = s.leases.length from List.length_set]
    exact h.pending e (hsame.starts e he)
  · exact List.length_set.trans (h.issued.trans hsame.next_start.symm)
  · intro j k hk
    by_cases hj : id = j
    · subst hj
      obtain rfl := Option.some.inj ((List.getElem?_set_self hlt).symm.trans hk)
      exact hid.trans (h.ids id l hl)
    · exact h.ids j k ((List.getElem?_set_ne hj).symm.trans hk)

/-- What a capture returns: nothing, or a lease on the newest fence of its label. -/
structure Captures (s : OwnershipState) (r : Option StartLease × OwnershipState) : Prop where
  map : r.2.webview_cleanups = s.webview_cleanups
  next : r.2.next_cleanup = s.next_cleanup
  cells : r.2.cleanups = s.cleanups
  pending : ∀ e ∈ r.2.starts.entries, e ∈ s.starts.entries ∨ r.1.isSome ∧ e.1 = s.next_start
  next_start : r.2.next_start = s.next_start + r.1.toList.length
  id : ∀ lease, r.1 = some lease → lease.id = s.next_start
  prior : ∀ lease, r.1 = some lease →
    lease.prior_cleanup = s.webview_cleanups (owner_label lease.owner)

/-- A start that is refused captures nothing. -/
theorem captures_refused {s s' : OwnershipState} (h : SameFences s s') : Captures s (none, s') :=
  ⟨h.map, h.next, h.cells, fun e he => .inl (h.starts e he), h.next_start,
    fun _ hl => (by cases hl), fun _ hl => by cases hl⟩

/-- A start captures the last fence of its label. -/
theorem captures_insert {s s' : OwnershipState} (h : SameFences s s') (owner : DiscoveryOwner) :
    Captures s (some (s'.insert_start owner (s'.webview_cleanups (owner_label owner))).1,
      (s'.insert_start owner (s'.webview_cleanups (owner_label owner))).2) where
  map := h.map
  next := h.next
  cells := h.cells
  pending e he := by
    rcases AList.mem_entries_insert.mp he with rfl | ⟨he, -⟩
    · exact .inr ⟨rfl, h.next_start⟩
    · exact .inl (h.starts e he)
  next_start := congrArg (· + 1) h.next_start
  id lease hl := by
    rw [← Option.some.inj hl]
    exact h.next_start
  prior lease hl := by
    rw [← Option.some.inj hl]
    exact congrFun h.map _

theorem captures_begin_peer_start (s : OwnershipState) (endpoint_handle : ℕ) (w : String) :
    Captures s (s.begin_peer_start endpoint_handle w) := by
  unfold OwnershipState.begin_peer_start
  split
  · exact captures_refused ⟨rfl, rfl, rfl, fun _ he => he, rfl⟩
  · dsimp only
    split
    · exact captures_refused (sameFences_webview_entry s w)
    · exact captures_insert (sameFences_webview_entry s w) (.Peer _ _ w _)

theorem captures_begin_webview_start (s : OwnershipState) (w : String) :
    Captures s (s.begin_webview_start w) := by
  unfold OwnershipState.begin_webview_start
  dsimp only
  split
  · exact captures_refused (sameFences_webview_entry s w)
  · exact captures_insert (sameFences_webview_entry s w) (.Webview w _)

/-- **A new lease** is in order. -/
theorem Inv.add_lease {s : System} (h : Inv s) {r : Option StartLease × OwnershipState}
    (hr : Captures s.state r) : Inv (s.add_lease r) ∧ Later s (s.add_lease r) := by
  have hlater : Later s (s.add_lease r) := by
    refine ⟨⟨[], (List.append_nil _).symm, fun _ hf => absurd hf List.not_mem_nil⟩, ?_,
      Nat.le_of_eq hr.next.symm, ?_, ?_⟩
    · intro i o hi
      exact (congrFun hr.cells i).trans hi
    · intro id l hl
      have hlt := (List.getElem?_eq_some_iff.mp hl).1
      exact ⟨l, (List.getElem?_append_left hlt).trans hl, rfl⟩
    · intro id l hid hl
      have hmem := List.mem_of_getElem? ((List.getElem?_append_right hid).symm.trans hl)
      obtain ⟨lease, -, rfl⟩ := List.mem_map.mp hmem
      exact Nat.le_refl _
  have hlength : (s.add_lease r).leases.length = s.leases.length + r.1.toList.length := by
    simp only [System.add_lease, List.length_append, List.length_map]
  refine ⟨⟨h.chained.congr hr.map hr.next hr.cells, ?_, h.separate, ?_, ?_, ?_, ?_, ?_⟩, hlater⟩
  · exact fun t ht => (h.tasks t ht).later hlater
  · exact fun i hi => (congrFun hr.cells i).trans (h.unset i hi)
  · intro l hl
    rcases List.mem_append.mp hl with hl | hl
    · exact (h.leases l hl).later hlater
    · obtain ⟨lease, hlease, rfl⟩ := List.mem_map.mp hl
      refine LeaseOk.later hlater ⟨Nat.le_refl _, ?_, fun hret => by cases hret⟩
      rw [hr.prior lease (Option.mem_toList.mp hlease)]
      exact h.chained.published _
  · intro e he
    rw [hlength]
    rcases hr.pending e he with he | ⟨hsome, hid⟩
    · exact Nat.lt_of_lt_of_le (h.pending e he) (Nat.le_add_right _ _)
    · obtain ⟨lease, hlease⟩ := Option.isSome_iff_exists.mp hsome
      rw [hid, h.issued, hlease]
      exact Nat.lt_succ_self _
  · rw [hlength, h.issued]
    exact hr.next_start.symm
  · intro id l hl
    by_cases hlt : id < s.leases.length
    · exact h.ids id l ((List.getElem?_append_left hlt).symm.trans hl)
    · -- at most one lease is new
      have hge := Nat.not_lt.mp hlt
      have hnew := (List.getElem?_append_right hge).symm.trans hl
      obtain ⟨lease, hlease, rfl⟩ := List.mem_map.mp (List.mem_of_getElem? hnew)
      have hsome := Option.mem_toList.mp hlease
      rw [hsome, Option.toList_some] at hnew
      have hzero := (List.getElem?_eq_some_iff.mp hnew).1
      have hissued := h.issued
      simp only [List.length_map, List.length_cons, List.length_nil] at hzero
      refine (hr.id lease hsome).trans ?_
      omega

/-! ## Steps that publish -/

/-- A task as it is spawned: it has everything still to do. -/
structure Fresh (s : OwnershipState) (new : List WebviewCleanupRetirement) (t : Task) : Prop where
  fences : t.fences = new
  unfinished : t.unfinished = new
  unpublishing : t.unpublishing = none
  awaits : ∀ f, Await.previous f ∈ t.awaits ↔ f ∈ new
  starts : ∀ id, Await.start id ∈ t.awaits → ∃ e ∈ s.starts.entries, e.1 = id

/-- A retirement has one task for all its fences. -/
theorem fresh_retire_sessions (s : OwnershipState) (new : List WebviewCleanupRetirement)
    {r : DiscoveryRetirement} (h : ∀ id ∈ r.starts, ∃ e ∈ s.starts.entries, e.1 = id) :
    Fresh s new (retire_sessions new r) where
  fences := rfl
  unfinished := rfl
  unpublishing := rfl
  awaits f := by simp [retire_sessions]
  starts id hid := by
    apply h
    simpa [retire_sessions] using hid

theorem fresh_finish_session (s : OwnershipState) (f : WebviewCleanupRetirement) :
    Fresh s [f] (finish_session f) where
  fences := rfl
  unfinished := rfl
  unpublishing := rfl
  awaits g := by simp [finish_session]
  starts id hid := by simp [finish_session] at hid

/-- The starts of a retirement are pending. -/
theorem mem_matching_starts {s : OwnershipState} {predicate : DiscoveryOwner → Bool} {id : ℕ}
    (h : id ∈ s.matching_starts predicate) : ∃ e ∈ s.starts.entries, e.1 = id := by
  obtain ⟨e, he, hid⟩ := List.mem_map.mp h
  exact ⟨e, (List.mem_filter.mp he).1, hid⟩

theorem mem_next_webview_starts {s : OwnershipState} {w : String} {active : Bool} {id : ℕ}
    (h : id ∈ (s.next_webview w active).1.starts) : ∃ e ∈ s.starts.entries, e.1 = id :=
  mem_matching_starts (show id ∈ s.matching_starts fun owner => owner_label owner == w from h)

theorem mem_retire_all_starts {s : OwnershipState} {id : ℕ} (h : id ∈ s.retire_all.1.starts) :
    ∃ e ∈ s.starts.entries, e.1 = id :=
  mem_matching_starts (show id ∈ s.matching_starts fun _ => true from h)

/-- A cell that is to be written has been given out. -/
theorem Inv.unwritten_lt {s : System} (h : Inv s) {i : ℕ} (hi : i ∈ unwritten s.tasks) :
    i < s.state.next_cleanup := by
  obtain ⟨t, ht, hi⟩ := List.mem_flatMap.mp hi
  obtain ⟨f, hf, rfl⟩ := List.mem_map.mp hi
  have htask := h.tasks t ht
  exact h.chained.bound f (htask.published f (htask.unfinished f hf))

/-- **A new task** keeps the invariant. -/
theorem Inv.add_task {s : System} (h : Inv s) {state : OwnershipState}
    {new : List WebviewCleanupRetirement} (hpub : Publishes s.state state new) {t : Task}
    (ht : Fresh s.state new t) :
    Inv (s.add_task state new t) ∧ Later s (s.add_task state new t) := by
  have hlater : Later s (s.add_task state new t) := by
    refine ⟨⟨new, rfl, hpub.recent⟩, ?_, hpub.next, fun _ l hl => ⟨l, hl, rfl⟩, ?_⟩
    · intro i o hi
      exact (congrFun hpub.cells i).trans hi
    · intro id l hid hl
      exact (Later.refl s).recent id l hid hl
  have hunwritten : unwritten (s.tasks ++ [t]) = unwritten s.tasks ++ new.map (·.current) := by
    simp only [unwritten, List.flatMap_append, List.flatMap_cons, List.flatMap_nil,
      List.append_nil, ht.unfinished]
  refine ⟨⟨hpub.chained h.chained, ?_, ?_, ?_, ?_, ?_, ?_, h.ids⟩, hlater⟩
  · intro t' ht'
    rcases List.mem_append.mp ht' with ht' | ht'
    · exact (h.tasks t' ht').later hlater
    · obtain rfl := List.mem_singleton.mp ht'
      refine ⟨?_, ?_, ?_, ?_, ?_, s.state.next_cleanup, ?_, ?_⟩
      · rw [ht.fences]
        exact fun f hf => List.mem_append_right _ hf
      · rw [ht.fences, ht.unfinished]
        exact fun f hf => hf
      · rw [ht.fences]
        exact fun f hf => (ht.awaits f).mp hf
      · rw [ht.fences]
        exact fun _ f hf => .inl ((ht.awaits f).mpr hf)
      · rw [ht.unpublishing]
        exact fun f hf => by cases hf
      · rw [ht.fences]
        exact fun f hf => ⟨hpub.recent f hf, hpub.older h.chained.map_lt f hf⟩
      · -- a start it awaits is pending, so its lease exists already
        intro id hid
        obtain ⟨e, he, rfl⟩ := ht.starts id hid
        have hlt := h.pending e he
        exact ⟨_, List.getElem?_eq_getElem hlt, (h.leases _ (List.getElem_mem hlt)).seen⟩
  · rw [show (s.add_task state new t).tasks = s.tasks ++ [t] from rfl, hunwritten]
    refine List.Nodup.append h.separate hpub.nodup ?_
    intro i hi hnew
    obtain ⟨f, hf, rfl⟩ := List.mem_map.mp hnew
    exact absurd (h.unwritten_lt hi) (Nat.not_lt.mpr (hpub.recent f hf))
  · rw [show (s.add_task state new t).tasks = s.tasks ++ [t] from rfl, hunwritten]
    intro i hi
    refine (congrFun hpub.cells i).trans ?_
    rcases List.mem_append.mp hi with hi | hnew
    · exact h.unset i hi
    · obtain ⟨f, hf, rfl⟩ := List.mem_map.mp hnew
      exact h.chained.unset _ (hpub.recent f hf)
  · exact fun l hl => (h.leases l hl).later hlater
  · rw [show (s.add_task state new t).state.starts = s.state.starts from hpub.starts]
    exact h.pending
  · exact h.issued.trans hpub.next_start.symm

/-! ## Steps of a task -/

/-- What a task can do next. -/
theorem advance_task_cases {s : System} {t : Task} {native : Outcome}
    {r : Task × OwnershipState} (h : s.advance_task t native = some r) :
    (∃ f, t.unpublishing = some f ∧
      r = ({ t with unpublishing := none }, s.state.unpublish f)) ∨
    (t.unpublishing = none ∧ ∃ await rest outcome, t.awaits = await :: rest ∧
      s.result native await = some outcome ∧
      r = ({ t with awaits := rest, outcome := t.keeps.combine t.outcome outcome }, s.state)) ∨
    (t.unpublishing = none ∧ t.awaits = [] ∧ ∃ f rest, t.unfinished = f :: rest ∧
      r = ({ t with
          unfinished := rest
          unpublishing := if t.outcome.isOk then some f else none },
        s.state.finish_cell f.current t.outcome)) := by
  unfold System.advance_task at h
  split at h
  · next f hf => exact .inl ⟨f, hf, (Option.some.inj h).symm⟩
  · next await rest hnone hawaits =>
    obtain ⟨outcome, hout, rfl⟩ := Option.map_eq_some_iff.mp h
    exact .inr (.inl ⟨hnone, await, rest, outcome, hawaits, hout, rfl⟩)
  · next f rest hnone hawaits hunfinished =>
    exact .inr (.inr ⟨hnone, hawaits, f, rest, hunfinished, (Option.some.inj h).symm⟩)
  · cases h

/-- A task that goes on keeps the invariant. -/
theorem Inv.set_task {s : System} (h : Inv s) {state : OwnershipState} {i : ℕ} {t : Task}
    (hchained : Chained state s.fences) (hgrow : Grows s.state state)
    (hnext : state.next_cleanup = s.state.next_cleanup) (hstarts : state.starts = s.state.starts)
    (hid : state.next_start = s.state.next_start) (ht : TaskOk { s with state := state } t)
    (hseparate : (unwritten (s.tasks.set i t)).Nodup)
    (hunset : ∀ c ∈ unwritten (s.tasks.set i t), state.cleanups c = none) :
    Inv { s with state := state, tasks := s.tasks.set i t } ∧
      Later s { s with state := state, tasks := s.tasks.set i t } := by
  have hlater : Later s { s with state := state, tasks := s.tasks.set i t } :=
    ⟨⟨[], (List.append_nil _).symm, fun _ hf => absurd hf List.not_mem_nil⟩, hgrow,
      Nat.le_of_eq hnext.symm, fun _ l hl => ⟨l, hl, rfl⟩,
      fun id l hlt hl => (Later.refl s).recent id l hlt hl⟩
  refine ⟨⟨hchained, ?_, hseparate, hunset, ?_, ?_, h.issued.trans hid.symm, h.ids⟩, hlater⟩
  · intro t' ht'
    rcases List.mem_or_eq_of_mem_set ht' with ht' | rfl
    · exact (h.tasks t' ht').later hlater
    · exact ⟨ht.published, ht.unfinished, ht.awaited, ht.passed, ht.unpublishing, ht.older⟩
  · exact fun l hl => (h.leases l hl).later hlater
  · intro e he
    rw [show ({ s with state := state, tasks := s.tasks.set i t } : System).state.starts =
      s.state.starts from hstarts] at he
    exact h.pending e he

/-- The cells of one task among those of all. -/
theorem unwritten_set {tasks : List Task} {i : ℕ} {t : Task} (hi : tasks[i]? = some t) :
    ∃ before after, unwritten tasks = before ++ (t.unfinished.map (·.current) ++ after) ∧
      ∀ t', unwritten (tasks.set i t') = before ++ (t'.unfinished.map (·.current) ++ after) := by
  obtain ⟨hlt, hget⟩ := List.getElem?_eq_some_iff.mp hi
  have hset : ∀ t', unwritten (tasks.set i t') =
      unwritten (tasks.take i) ++ (t'.unfinished.map (·.current) ++ unwritten (tasks.drop (i + 1))) := by
    intro t'
    rw [List.set_eq_take_append_cons_drop, if_pos hlt]
    simp only [unwritten, List.flatMap_append, List.flatMap_cons]
  refine ⟨_, _, ?_, hset⟩
  rw [← hset t, ← hget, List.set_getElem_self]

/-- A task that writes no cell leaves them to be written. -/
theorem unwritten_set_same {tasks : List Task} {i : ℕ} {t t' : Task} (hi : tasks[i]? = some t)
    (h : t'.unfinished = t.unfinished) : unwritten (tasks.set i t') = unwritten tasks := by
  obtain ⟨before, after, hold, hset⟩ := unwritten_set hi
  rw [hset, hold, h]

/-- The fence is taken down; its cell stays. -/
theorem Inv.unpublish {s : System} (h : Inv s) {i : ℕ} {t : Task} (hi : s.tasks[i]? = some t)
    {f : WebviewCleanupRetirement} (hf : t.unpublishing = some f) :
    Inv { s with
      state := s.state.unpublish f, tasks := s.tasks.set i { t with unpublishing := none } } ∧
    Later s { s with
      state := s.state.unpublish f, tasks := s.tasks.set i { t with unpublishing := none } } := by
  have ht := h.tasks t (List.mem_of_getElem? hi)
  have hfields : (s.state.unpublish f).cleanups = s.state.cleanups ∧
      (s.state.unpublish f).next_cleanup = s.state.next_cleanup ∧
      (s.state.unpublish f).starts = s.state.starts ∧
      (s.state.unpublish f).next_start = s.state.next_start := by
    unfold OwnershipState.unpublish
    split <;> exact ⟨rfl, rfl, rfl, rfl⟩
  obtain ⟨hcells, hnext, hstarts, hid⟩ := hfields
  have hsame : unwritten (s.tasks.set i { t with unpublishing := none }) = unwritten s.tasks :=
    unwritten_set_same hi rfl
  have hgrow : Grows s.state (s.state.unpublish f) := fun i o hi => (congrFun hcells i).trans hi
  refine h.set_task (h.chained.unpublish (ht.unpublishing f hf)) hgrow hnext hstarts hid ?_ ?_ ?_
  · refine ⟨ht.published, ht.unfinished, ht.awaited, ?_, fun g hg => (by cases hg), ht.older⟩
    intro hok g hg
    exact (ht.passed hok g hg).imp_right (Grows.cleanup_result hgrow)
  · rw [hsame]
    exact h.separate
  · rw [hsame]
    exact fun c hc => (congrFun hcells c).trans (h.unset c hc)

/-- One await less. -/
theorem Inv.awaited {s : System} (h : Inv s) {i : ℕ} {t : Task} (hi : s.tasks[i]? = some t)
    {native : Outcome} {await : Await} {rest : List Await} (hawaits : t.awaits = await :: rest)
    {outcome : Outcome} (hout : s.result native await = some outcome) :
    Inv { s with
      tasks := s.tasks.set i
        { t with awaits := rest, outcome := t.keeps.combine t.outcome outcome } } ∧
    Later s { s with
      tasks := s.tasks.set i
        { t with awaits := rest, outcome := t.keeps.combine t.outcome outcome } } := by
  have ht := h.tasks t (List.mem_of_getElem? hi)
  have hsub : ∀ a ∈ rest, a ∈ t.awaits := fun a ha => hawaits ▸ List.mem_cons_of_mem _ ha
  have hsame : unwritten (s.tasks.set i
      { t with awaits := rest, outcome := t.keeps.combine t.outcome outcome }) =
        unwritten s.tasks := unwritten_set_same hi rfl
  refine h.set_task h.chained (fun _ _ hi => hi) rfl rfl rfl ?_ ?_ ?_
  · refine ⟨ht.published, ht.unfinished, fun g hg => ht.awaited g (hsub _ hg), ?_,
      ht.unpublishing, ?_⟩
    · intro hok g hg
      obtain ⟨hbefore, hresult⟩ := Keeps.combine_ok hok
      rcases ht.passed hbefore g hg with hmem | hpassed
      · rw [hawaits] at hmem
        rcases List.mem_cons.mp hmem with rfl | hmem
        · exact .inr (hresult ▸ hout)
        · exact .inl hmem
      · exact .inr hpassed
    · obtain ⟨base, hbase, hstarts⟩ := ht.older
      exact ⟨base, hbase, fun id hid => hstarts id (hsub _ hid)⟩
  · rw [hsame]
    exact h.separate
  · rw [hsame]
    exact h.unset

/-- The outcome is written, a success only over a success. -/
theorem Inv.finish_cell {s : System} (h : Inv s) {i : ℕ} {t : Task} (hi : s.tasks[i]? = some t)
    (hawaits : t.awaits = []) {f : WebviewCleanupRetirement}
    {rest : List WebviewCleanupRetirement} (hunf : t.unfinished = f :: rest) :
    Inv { s with
      state := s.state.finish_cell f.current t.outcome
      tasks := s.tasks.set i { t with
        unfinished := rest, unpublishing := if t.outcome.isOk then some f else none } } ∧
    Later s { s with
      state := s.state.finish_cell f.current t.outcome
      tasks := s.tasks.set i { t with
        unfinished := rest, unpublishing := if t.outcome.isOk then some f else none } } := by
  have ht := h.tasks t (List.mem_of_getElem? hi)
  have hmem : f ∈ t.fences := ht.unfinished f (hunf ▸ List.mem_cons_self)
  have hprev : ∀ g ∈ t.fences, t.outcome = .ok () →
      s.cleanup_result g.previous = some (.ok ()) := by
    intro g hg hok
    rcases ht.passed hok g hg with hawait | hpassed
    · rw [hawaits] at hawait
      exact absurd hawait List.not_mem_nil
    · exact hpassed
  obtain ⟨hchained, hgrow⟩ := h.chained.finish_cell (ht.published f hmem)
    (fun hok p hp => by
      have hresult := hprev f hmem hok
      rwa [hp] at hresult)
  -- the cell is this task's, and nobody has written it
  obtain ⟨before, after, hold, hset⟩ := unwritten_set hi
  rw [hunf, List.map_cons, List.cons_append] at hold
  have hnodup := h.separate
  rw [hold, List.nodup_middle, List.nodup_cons] at hnodup
  have hcell : s.state.cleanups f.current = none := by
    apply h.unset
    rw [hold]
    exact List.mem_append_right _ List.mem_cons_self
  refine h.set_task hchained hgrow rfl rfl rfl ?_ ?_ ?_
  · refine ⟨ht.published, fun g hg => ht.unfinished g (hunf ▸ List.mem_cons_of_mem _ hg),
      ht.awaited, ?_, ?_, ht.older⟩
    · exact fun hok g hg => .inr (Grows.cleanup_result hgrow (hprev g hg hok))
    · intro g hg
      rcases houtcome : t.outcome with e | ⟨⟩
      · simp [houtcome, Except.isOk, Except.toBool] at hg
      · simp only [houtcome, Except.isOk, Except.toBool, if_true, Option.some.injEq] at hg
        subst hg
        simp only [OwnershipState.finish_cell, Function.update_self, hcell, Option.getD_none]
  · rw [hset]
    exact hnodup.2
  · rw [hset]
    intro c hc
    have hne : c ≠ f.current := fun heq => hnodup.1 (heq ▸ hc)
    simp only [OwnershipState.finish_cell, Function.update_of_ne hne]
    apply h.unset
    rw [hold]
    rcases List.mem_append.mp hc with hc | hc
    · exact List.mem_append_left _ hc
    · exact List.mem_append_right _ (List.mem_cons_of_mem _ hc)

/-- **One step of a task** keeps the invariant. -/
theorem Inv.advance {s : System} (h : Inv s) {i : ℕ} {t : Task} (hi : s.tasks[i]? = some t)
    {native : Outcome} {r : Task × OwnershipState} (hr : s.advance_task t native = some r) :
    Inv { s with state := r.2, tasks := s.tasks.set i r.1 } ∧
      Later s { s with state := r.2, tasks := s.tasks.set i r.1 } := by
  rcases advance_task_cases hr with ⟨f, hf, rfl⟩ |
    ⟨-, await, rest, outcome, hawaits, hout, rfl⟩ | ⟨-, hawaits, f, rest, hunf, rfl⟩
  · exact h.unpublish hi hf
  · exact h.awaited hi hawaits hout
  · exact h.finish_cell hi hawaits hunf

/-! ## Runs -/

theorem inv_start : Inv start where
  chained := chained_start
  tasks _ ht := absurd ht List.not_mem_nil
  separate := List.nodup_nil
  unset _ hi := absurd hi List.not_mem_nil
  leases _ hl := absurd hl List.not_mem_nil
  pending _ he := absurd he List.not_mem_nil
  issued := rfl
  ids _ _ hl := by simp [start] at hl

/-- An answer that the prior cleanup gives is the lease's. -/
theorem LeaseOk.wait_for_cleanup {s : System} (h : Inv s) {l : Lease} (hl : LeaseOk s l)
    {outcome : Outcome} (hout : s.cleanup_result l.lease.prior_cleanup = some outcome) :
    LeaseOk s { l with returned := some outcome } := by
  refine ⟨hl.seen, hl.behind, fun hok => ?_⟩
  apply hl.behind.all_ok h.chained
  intro p hp
  rw [hp] at hout
  rw [← hok]
  exact hout

/-- **Every step keeps the invariant and what was recorded before it.** -/
theorem inv_step {s s' : System} {a : Label} (h : Inv s) (hstep : s.step a = some s') :
    Inv s' ∧ Later s s' := by
  have hlease : ∀ {id : ℕ} {l : Lease}, s.leases[id]? = some l → LeaseOk s l :=
    fun hl => h.leases _ (List.mem_of_getElem? hl)
  cases a with
  | activate_endpoint e =>
      obtain rfl := Option.some.inj hstep
      exact h.same ⟨rfl, rfl, rfl, fun _ he => he, rfl⟩
  | begin_peer_start e w =>
      obtain rfl := Option.some.inj hstep
      exact h.add_lease (captures_begin_peer_start s.state e w)
  | begin_webview_start w =>
      obtain rfl := Option.some.inj hstep
      exact h.add_lease (captures_begin_webview_start s.state w)
  | wait_for_cleanup id =>
      obtain ⟨l, hl, hrest⟩ := Option.bind_eq_some_iff.mp hstep
      obtain ⟨outcome, hout, rfl⟩ := Option.map_eq_some_iff.mp hrest
      exact h.set_lease ⟨rfl, rfl, rfl, fun _ he => he, rfl⟩ hl rfl rfl
        ((hlease hl).wait_for_cleanup h hout)
  | arm_native_cleanup id =>
      obtain ⟨l, hl, rfl⟩ := Option.map_eq_some_iff.mp hstep
      have hok := hlease hl
      exact h.set_lease ⟨rfl, rfl, rfl, fun _ he => he, rfl⟩ hl rfl rfl
        ⟨hok.seen, hok.behind, hok.returned⟩
  | track id kind handle =>
      obtain ⟨l, hl, rfl⟩ := Option.map_eq_some_iff.mp hstep
      have hok := hlease hl
      obtain ⟨hsame, hid, howner, hprior⟩ := sameFences_track l.lease s.state kind handle
      refine h.set_lease hsame hl hid rfl ⟨hok.seen, ?_, ?_⟩
      · rw [howner, hprior]
        exact hok.behind
      · rw [howner]
        exact hok.returned
  | finish_cleanup id outcome =>
      obtain ⟨l, hl, rfl⟩ := Option.map_eq_some_iff.mp hstep
      have hok := hlease hl
      exact h.set_lease (sameFences_release _ _ _) hl rfl rfl ⟨hok.seen, hok.behind, hok.returned⟩
  | drop id =>
      obtain ⟨l, hl, rfl⟩ := Option.map_eq_some_iff.mp hstep
      have hok := hlease hl
      exact h.set_lease (sameFences_drop _ _) hl rfl rfl ⟨hok.seen, hok.behind, hok.returned⟩
  | begin_session_cleanup kind handle =>
      simp only [System.step] at hstep
      split at hstep
      · next state heq =>
        obtain rfl := Option.some.inj hstep
        refine h.same ?_
        unfold OwnershipState.begin_session_cleanup at heq
        split at heq
        · next state' huntrack =>
          obtain rfl := (Prod.mk.inj heq).2
          obtain rfl := (Prod.mk.inj huntrack).2
          exact ⟨rfl, rfl, rfl, fun _ he => he, rfl⟩
        · cases heq
      · next r state heq =>
        obtain rfl := Option.some.inj hstep
        exact h.add_task (publishes_session heq) (fresh_finish_session _ _)
  -- each of the four publishes a cleanup behind a fence, and starts the task that runs it
  | retire_endpoint e =>
      obtain rfl := Option.some.inj hstep
      exact h.add_task (publishes_retire_endpoint s.state e)
        (fresh_retire_sessions _ _ fun _ hid => mem_matching_starts hid)
  | advance_webview w =>
      obtain rfl := Option.some.inj hstep
      exact h.add_task (publishes_next_webview s.state w true)
        (fresh_retire_sessions _ _ fun _ hid => mem_next_webview_starts hid)
  | retire_webview w =>
      obtain rfl := Option.some.inj hstep
      exact h.add_task (publishes_next_webview s.state w false)
        (fresh_retire_sessions _ _ fun _ hid => mem_next_webview_starts hid)
  | retire_all =>
      obtain rfl := Option.some.inj hstep
      exact h.add_task (publishes_retire_all s.state)
        (fresh_retire_sessions _ _ fun _ hid => mem_retire_all_starts hid)
  | advance i native =>
      obtain ⟨t, hi, hrest⟩ := Option.bind_eq_some_iff.mp hstep
      obtain ⟨r, hr, rfl⟩ := Option.map_eq_some_iff.mp hrest
      exact h.advance hi hr

/-- A run only adds to what was recorded. -/
theorem inv_run {s s' : System} {l : List Label} (h : Inv s)
    (hrun : Machine.run System.step s l = some s') : Inv s' ∧ Later s s' := by
  refine Machine.run_invariant (P := fun t => Inv t ∧ Later s t) ?_ ⟨h, Later.refl s⟩ hrun
  intro t a t' ht hstep
  obtain ⟨hinv, hlater⟩ := inv_step ht.1 hstep
  exact ⟨hinv, ht.2.trans hlater⟩

/-! ## Completions

A start's completion is written once, and only by a step on its own lease. -/

/-- A capture that succeeds makes its own owner pending. -/
structure Begins (s : OwnershipState) (r : Option StartLease × OwnershipState) : Prop where
  completions : r.2.completions = s.completions
  pending : ∀ e ∈ r.2.starts.entries, e ∈ s.starts.entries ∨
    ∃ lease, r.1 = some lease ∧ e = ⟨s.next_start, lease.owner⟩

theorem begins_insert {s s' : OwnershipState} (hc : s'.completions = s.completions)
    (hs : s'.starts = s.starts) (hn : s'.next_start = s.next_start) (owner : DiscoveryOwner)
    (prior : Option ℕ) :
    Begins s (some (s'.insert_start owner prior).1, (s'.insert_start owner prior).2) := by
  refine ⟨hc, ?_⟩
  intro e he
  rcases AList.mem_entries_insert.mp he with rfl | ⟨he, -⟩
  · exact .inr ⟨_, rfl, congrArg (Sigma.mk · owner) hn⟩
  · exact .inl (hs ▸ he)

theorem begins_peer_start (s : OwnershipState) (endpoint_handle : ℕ) (w : String) :
    Begins s (s.begin_peer_start endpoint_handle w) := by
  unfold OwnershipState.begin_peer_start
  split
  · exact ⟨rfl, fun _ he => .inl he⟩
  · dsimp only
    split
    · exact ⟨rfl, fun _ he => .inl he⟩
    · apply begins_insert <;> rfl

theorem begins_webview_start (s : OwnershipState) (w : String) :
    Begins s (s.begin_webview_start w) := by
  unfold OwnershipState.begin_webview_start
  dsimp only
  split
  · exact ⟨rfl, fun _ he => .inl he⟩
  · apply begins_insert <;> rfl

/-- A completion is written once. -/
theorem completions_release (s : OwnershipState) (id : ℕ) (outcome : Outcome) (j : ℕ)
    (o : Outcome) (hj : s.completions j = some o) :
    (s.release_start id outcome).completions j = some o := by
  simp only [OwnershipState.release_start, OwnershipState.finish_completion]
  by_cases heq : j = id
  · subst heq
    rw [Function.update_self, hj, Option.getD_some]
  · rw [Function.update_of_ne heq]
    exact hj

/-- Tracking keeps the outcomes that are known. -/
theorem completions_track (lease : StartLease) (s : OwnershipState) (kind : DiscoveryKind)
    (handle : ℕ) (j : ℕ) (o : Outcome) (hj : s.completions j = some o) :
    (lease.track s kind handle).2.2.completions j = some o := by
  unfold StartLease.track OwnershipState.track_owner
  by_cases hcur : owner_is_current s lease.owner = true
  · rw [if_pos hcur]
    exact completions_release _ _ _ j o hj
  · rw [if_neg hcur]
    exact hj

theorem completions_drop (lease : StartLease) (s : OwnershipState) (j : ℕ) (o : Outcome)
    (hj : s.completions j = some o) : (lease.drop s).completions j = some o := by
  unfold StartLease.drop
  split
  · exact completions_release _ _ _ j o hj
  · exact hj

/-- A retirement knows no outcome. -/
theorem install_completions (s : OwnershipState) (labels : List String) :
    (s.install_owner_cleanups labels).2.completions = s.completions := by
  induction labels generalizing s with
  | nil => rfl
  | cons label labels ih => exact ih (s.publish label).2

/-- The step is one of lease `id`. -/
def touches (id : ℕ) : Label → Bool
  | .wait_for_cleanup i => i == id
  | .arm_native_cleanup i => i == id
  | .track i _ _ => i == id
  | .finish_cleanup i _ => i == id
  | .drop i => i == id
  | _ => false

theorem completions_release_ne (s : OwnershipState) {i j : ℕ} (outcome : Outcome) (h : i ≠ j) :
    (s.release_start i outcome).completions j = s.completions j := by
  simp only [OwnershipState.release_start, OwnershipState.finish_completion,
    Function.update_of_ne h.symm]

/-- A task completes no start. -/
theorem completions_advance {s : System} {t : Task} {native : Outcome} {r : Task × OwnershipState}
    (h : s.advance_task t native = some r) : r.2.completions = s.state.completions := by
  rcases advance_task_cases h with ⟨f, -, rfl⟩ | ⟨-, await, rest, outcome, -, -, rfl⟩ |
    ⟨-, -, f, rest, -, rfl⟩
  · dsimp only
    unfold OwnershipState.unpublish
    split <;> rfl
  · rfl
  · rfl

/-- A session's cleanup touches no completion. -/
theorem completions_session {s s' : OwnershipState} {kind : DiscoveryKind} {handle : ℕ}
    {r : Option (TrackedDiscovery × WebviewCleanupRetirement)}
    (h : s.begin_session_cleanup kind handle = (r, s')) : s'.completions = s.completions := by
  unfold OwnershipState.begin_session_cleanup at h
  split at h
  · next state huntrack =>
    obtain rfl := (Prod.mk.inj h).2
    obtain rfl := (Prod.mk.inj huntrack).2
    rfl
  · next tracked state huntrack =>
    obtain rfl := (Prod.mk.inj h).2
    obtain rfl := (Prod.mk.inj huntrack).2
    rfl

/-- A step of another lease, or of none, leaves a completion alone. -/
theorem completions_step {s s' : System} {a : Label} (h : Inv s) (hstep : s.step a = some s')
    {id : ℕ} (hno : touches id a = false) :
    s'.state.completions id = s.state.completions id := by
  have hids : ∀ {i : ℕ} {k : Lease}, s.leases[i]? = some k → i ≠ id → k.lease.id ≠ id :=
    fun hk hne heq => hne ((h.ids _ _ hk).symm.trans heq)
  -- a start's completion is written through its own lease only: `track`, `finish_cleanup`, `drop`
  cases a with
  | activate_endpoint e =>
      obtain rfl := Option.some.inj hstep
      rfl
  | begin_peer_start e w =>
      obtain rfl := Option.some.inj hstep
      exact congrFun (begins_peer_start s.state e w).completions id
  | begin_webview_start w =>
      obtain rfl := Option.some.inj hstep
      exact congrFun (begins_webview_start s.state w).completions id
  | wait_for_cleanup i =>
      obtain ⟨k, hk, hrest⟩ := Option.bind_eq_some_iff.mp hstep
      obtain ⟨outcome, hout, rfl⟩ := Option.map_eq_some_iff.mp hrest
      rfl
  | arm_native_cleanup i =>
      obtain ⟨k, hk, rfl⟩ := Option.map_eq_some_iff.mp hstep
      rfl
  | track i kind handle =>
      obtain ⟨k, hk, rfl⟩ := Option.map_eq_some_iff.mp hstep
      simp only [System.set_lease]
      unfold StartLease.track OwnershipState.track_owner
      by_cases hcur : owner_is_current s.state k.lease.owner = true
      · rw [if_pos hcur]
        exact completions_release_ne _ _ (hids hk (beq_eq_false_iff_ne.mp hno))
      · rw [if_neg hcur]
  | finish_cleanup i outcome =>
      obtain ⟨k, hk, rfl⟩ := Option.map_eq_some_iff.mp hstep
      exact completions_release_ne _ _ (hids hk (beq_eq_false_iff_ne.mp hno))
  | drop i =>
      obtain ⟨k, hk, rfl⟩ := Option.map_eq_some_iff.mp hstep
      simp only [System.set_lease]
      unfold StartLease.drop
      split
      · exact completions_release_ne _ _ (hids hk (beq_eq_false_iff_ne.mp hno))
      · rfl
  | begin_session_cleanup kind handle =>
      simp only [System.step] at hstep
      split at hstep
      all_goals
        next heq =>
        obtain rfl := Option.some.inj hstep
        exact congrFun (completions_session heq) id
  | retire_endpoint e =>
      obtain rfl := Option.some.inj hstep
      exact congrFun (install_completions _ _) id
  | advance_webview w =>
      obtain rfl := Option.some.inj hstep
      rfl
  | retire_webview w =>
      obtain rfl := Option.some.inj hstep
      rfl
  | retire_all =>
      obtain rfl := Option.some.inj hstep
      exact congrFun (install_completions _ _) id
  | advance i native =>
      obtain ⟨t, hi, hrest⟩ := Option.bind_eq_some_iff.mp hstep
      obtain ⟨r, hr, rfl⟩ := Option.map_eq_some_iff.mp hrest
      exact congrFun (completions_advance hr) id

/-- What a step does to the leases: a capture may add one, a step on a lease sets it, and
the others leave them alone. -/
theorem leases_step {s s' : System} {a : Label} (hstep : s.step a = some s') :
    (∃ r, Begins s.state r ∧ s' = s.add_lease r) ∨
    (∃ id l l' state, s.leases[id]? = some l ∧ touches id a = true ∧
      s' = s.set_lease id l' state ∧ (l'.lease.active = true → l.lease.active = true ∧
        state.completions = s.state.completions)) ∨
    s'.leases = s.leases ∧ ∀ id, touches id a = false := by
  cases a with
  | activate_endpoint e =>
      obtain rfl := Option.some.inj hstep
      exact .inr (.inr ⟨rfl, fun _ => rfl⟩)
  | begin_peer_start e w =>
      obtain rfl := Option.some.inj hstep
      exact .inl ⟨_, begins_peer_start s.state e w, rfl⟩
  | begin_webview_start w =>
      obtain rfl := Option.some.inj hstep
      exact .inl ⟨_, begins_webview_start s.state w, rfl⟩
  | wait_for_cleanup id =>
      obtain ⟨l, hl, hrest⟩ := Option.bind_eq_some_iff.mp hstep
      obtain ⟨outcome, hout, rfl⟩ := Option.map_eq_some_iff.mp hrest
      exact .inr (.inl ⟨id, l, _, _, hl, beq_self_eq_true id, rfl, fun hact => ⟨hact, rfl⟩⟩)
  | arm_native_cleanup id =>
      obtain ⟨l, hl, rfl⟩ := Option.map_eq_some_iff.mp hstep
      exact .inr (.inl ⟨id, l, _, _, hl, beq_self_eq_true id, rfl, fun hact => ⟨hact, rfl⟩⟩)
  | track id kind handle =>
      obtain ⟨l, hl, rfl⟩ := Option.map_eq_some_iff.mp hstep
      refine .inr (.inl ⟨id, l, _, _, hl, beq_self_eq_true id, rfl, ?_⟩)
      unfold StartLease.track OwnershipState.track_owner
      by_cases hcur : owner_is_current s.state l.lease.owner = true
      · rw [if_pos hcur]
        exact fun hact => by cases hact
      · rw [if_neg hcur]
        exact fun hact => ⟨hact, rfl⟩
  | finish_cleanup id outcome =>
      obtain ⟨l, hl, rfl⟩ := Option.map_eq_some_iff.mp hstep
      exact .inr (.inl ⟨id, l, _, _, hl, beq_self_eq_true id, rfl, fun hact => by cases hact⟩)
  | drop id =>
      obtain ⟨l, hl, rfl⟩ := Option.map_eq_some_iff.mp hstep
      exact .inr (.inl ⟨id, l, _, _, hl, beq_self_eq_true id, rfl, fun hact => by cases hact⟩)
  | begin_session_cleanup kind handle =>
      refine .inr (.inr ⟨?_, fun _ => rfl⟩)
      simp only [System.step] at hstep
      split at hstep
      · obtain rfl := Option.some.inj hstep
        rfl
      · obtain rfl := Option.some.inj hstep
        rfl
  | retire_endpoint e =>
      obtain rfl := Option.some.inj hstep
      exact .inr (.inr ⟨rfl, fun _ => rfl⟩)
  | advance_webview w =>
      obtain rfl := Option.some.inj hstep
      exact .inr (.inr ⟨rfl, fun _ => rfl⟩)
  | retire_webview w =>
      obtain rfl := Option.some.inj hstep
      exact .inr (.inr ⟨rfl, fun _ => rfl⟩)
  | retire_all =>
      obtain rfl := Option.some.inj hstep
      exact .inr (.inr ⟨rfl, fun _ => rfl⟩)
  | advance i native =>
      obtain ⟨t, hi, hrest⟩ := Option.bind_eq_some_iff.mp hstep
      obtain ⟨r, hr, rfl⟩ := Option.map_eq_some_iff.mp hrest
      exact .inr (.inr ⟨rfl, fun _ => rfl⟩)

/-- An active lease has no completion yet, nor has a number that was not given out. -/
structure Unfinished (s : System) : Prop where
  active : ∀ (id : ℕ) (l : Lease), s.leases[id]? = some l → l.lease.active = true →
    s.state.completions id = none
  fresh : ∀ id, s.leases.length ≤ id → s.state.completions id = none

/-- **One step**: what has not been finished can still be. -/
theorem unfinished_step {s s' : System} {a : Label} (h : Inv s) (hu : Unfinished s)
    (hstep : s.step a = some s') : Unfinished s' := by
  rcases leases_step hstep with ⟨r, hb, rfl⟩ | ⟨id, l, l', state, hl, htouch, rfl, hact⟩ |
    ⟨hleases, hno⟩
  · refine ⟨?_, ?_⟩
    · intro id l hl hactive
      refine (congrFun hb.completions id).trans ?_
      by_cases hlt : id < s.leases.length
      · exact hu.active id l ((List.getElem?_append_left hlt).symm.trans hl) hactive
      · exact hu.fresh id (Nat.not_lt.mp hlt)
    · intro id hid
      refine (congrFun hb.completions id).trans (hu.fresh id ?_)
      simp only [System.add_lease, List.length_append] at hid
      omega
  · have hlt := (List.getElem?_eq_some_iff.mp hl).1
    -- a step has one lease
    have hone : ∀ j, id ≠ j → touches j a = false := by
      intro j hj
      cases a <;> simp_all [touches]
    refine ⟨?_, ?_⟩
    · intro j k hk hactive
      by_cases hj : id = j
      · subst hj
        obtain rfl := Option.some.inj ((List.getElem?_set_self hlt).symm.trans hk)
        obtain ⟨hold, hsame⟩ := hact hactive
        exact (congrFun hsame id).trans (hu.active id l hl hold)
      · rw [completions_step h hstep (hone j hj)]
        exact hu.active j k ((List.getElem?_set_ne hj).symm.trans hk) hactive
    · intro j hj
      rw [show (s.set_lease id l' state).leases.length = s.leases.length from List.length_set] at hj
      have hne : id ≠ j := by omega
      rw [completions_step h hstep (hone j hne)]
      exact hu.fresh j hj
  · refine ⟨?_, ?_⟩
    · intro id l hl hactive
      rw [completions_step h hstep (hno id)]
      exact hu.active id l (hleases ▸ hl) hactive
    · intro id hid
      rw [completions_step h hstep (hno id)]
      exact hu.fresh id (hleases ▸ hid)

/-- The same in every run. -/
theorem unfinished_run {s : System} {l : List Label}
    (hrun : Machine.run System.step start l = some s) : Unfinished s := by
  have hstart : Unfinished start :=
    ⟨fun id l hl => (by simp [start] at hl), fun _ _ => rfl⟩
  refine (Machine.run_invariant (P := fun t => Inv t ∧ Unfinished t) ?_ ⟨inv_start, hstart⟩ hrun).2
  intro t a t' ht hstep
  exact ⟨(inv_step ht.1 hstep).1, unfinished_step ht.1 ht.2 hstep⟩

/-! ## Who waits for whom -/

/-- What can be waited for: a fence, by its number, or a start. -/
inductive Node
  | fence (current : ℕ)
  | start (id : ℕ)

/-- All that a task has still to await keeps each of its fences waiting; a start
waits for the fence it captured. -/
inductive WaitsFor (s : System) : Node → Node → Prop
  | previous {t : Task} {f g : WebviewCleanupRetirement} {p : ℕ} (ht : t ∈ s.tasks)
      (hf : f ∈ t.fences) (hg : .previous g ∈ t.awaits) (hp : g.previous = some p) :
      WaitsFor s (.fence f.current) (.fence p)
  | in_flight {t : Task} {f : WebviewCleanupRetirement} {id : ℕ} (ht : t ∈ s.tasks)
      (hf : f ∈ t.fences) (hid : .start id ∈ t.awaits) :
      WaitsFor s (.fence f.current) (.start id)
  | prior_cleanup {l : Lease} {p : ℕ} (hl : l ∈ s.leases) (hp : l.lease.prior_cleanup = some p) :
      WaitsFor s (.start l.lease.id) (.fence p)

/-- A start stands between the fences before it and those after. -/
def rank (s : System) : Node → ℕ
  | .fence current => 2 * current + 1
  | .start id => 2 * ((s.leases[id]?).map Lease.seen).getD 0

/-- **Waiting goes down**: what is waited for has the lower rank, so nothing waits for itself. -/
theorem WaitsFor.rank_lt {s : System} (h : Inv s) {m n : Node} (hw : WaitsFor s m n) :
    rank s n < rank s m := by
  cases hw with
  | previous ht hf hg hp =>
      obtain ⟨base, hbase, -⟩ := (h.tasks _ ht).older
      have hlt := (hbase _ ((h.tasks _ ht).awaited _ hg)).2 _ hp
      have hle := (hbase _ hf).1
      simp only [rank]
      omega
  | in_flight ht hf hid =>
      obtain ⟨base, hbase, hstarts⟩ := (h.tasks _ ht).older
      obtain ⟨l, hl, hseen⟩ := hstarts _ hid
      have hle := (hbase _ hf).1
      simp only [rank, hl, Option.map_some, Option.getD_some]
      omega
  | prior_cleanup hl hp =>
      obtain ⟨id, hid⟩ := List.mem_iff_getElem?.mp hl
      have hbehind := (h.leases _ hl).behind
      rw [hp] at hbehind
      have hlt := hbehind.2.1
      rw [h.ids id _ hid]
      simp only [rank, hid, Option.map_some, Option.getD_some]
      omega

/-- **Waits never close a circle.** -/
theorem not_transGen_waitsFor {s : System} (h : Inv s) (n : Node) :
    ¬ Relation.TransGen (WaitsFor s) n n := by
  have hlt : ∀ {m n : Node}, Relation.TransGen (WaitsFor s) m n → rank s n < rank s m := by
    intro m n hmn
    induction hmn with
    | single hw => exact hw.rank_lt h
    | tail _ hw ih => exact Nat.lt_trans (hw.rank_lt h) ih
  intro hcycle
  exact Nat.lt_irrefl _ (hlt hcycle)

theorem error_of_not_ok {o : Outcome} (h : o ≠ .ok ()) : ∃ e, o = .error e := by
  rcases o with e | ⟨⟩
  · exact ⟨e, rfl⟩
  · exact absurd rfl h

/-- **Cleanup fences are ordered.** Take any state `s₀` of a run and any later state
`s`. A start captured after `s₀` is let through only if every fence its label had in
`s₀` has succeeded. If one of them has failed, that start fails and so does every
fence of the label published after `s₀`; what a fence has recorded stays. And in
no state do waits form a circle. -/
theorem cleanup_fences_ordered (before after : List Label) {s₀ s : System}
    (hbefore : Machine.run System.step start before = some s₀)
    (hafter : Machine.run System.step s₀ after = some s) :
    (∀ (id : ℕ) (l : Lease), s₀.leases.length ≤ id → s.leases[id]? = some l →
      ∀ f ∈ s₀.fences, f.label = owner_label l.lease.owner →
        (l.returned = some (.ok ()) → s.state.cleanups f.current = some (.ok ())) ∧
        ∀ e, s.state.cleanups f.current = some (.error e) →
          ∀ outcome, l.returned = some outcome → ∃ e', outcome = .error e') ∧
    (∀ f ∈ s₀.fences, ∀ e, s.state.cleanups f.current = some (.error e) →
      ∀ g ∈ s.fences, g ∉ s₀.fences → g.label = f.label →
        ∀ outcome, s.state.cleanups g.current = some outcome → ∃ e', outcome = .error e') ∧
    (∀ i outcome, s₀.state.cleanups i = some outcome → s.state.cleanups i = some outcome) ∧
    ∀ n, ¬ Relation.TransGen (WaitsFor s) n n := by
  obtain ⟨h₀, -⟩ := inv_run inv_start hbefore
  obtain ⟨h, hlater⟩ := inv_run h₀ hafter
  refine ⟨?_, ?_, hlater.cells, not_transGen_waitsFor h⟩
  · intro id l hid hl f hf hlabel
    have hseen : f.current < l.seen :=
      Nat.lt_of_lt_of_le (h₀.chained.bound f hf) (hlater.recent id l hid hl)
    have hok : l.returned = some (.ok ()) → s.state.cleanups f.current = some (.ok ()) :=
      fun hret => (h.leases l (List.mem_of_getElem? hl)).returned hret f (hlater.mem hf) hlabel hseen
    refine ⟨hok, ?_⟩
    intro e he outcome hret
    apply error_of_not_ok
    rintro rfl
    exact absurd (he.symm.trans (hok hret)) (by simp)
  · intro f hf e he g hg hnew hlabel outcome hout
    apply error_of_not_ok
    rintro rfl
    obtain ⟨new, hfences, hrecent⟩ := hlater.fences
    rw [hfences] at hg
    have hge := hrecent g ((List.mem_append.mp hg).resolve_left hnew)
    have hlt := Nat.lt_of_lt_of_le (h₀.chained.bound f hf) hge
    have hok := h.chained.ordered g (hfences ▸ hg) hout f (hlater.mem hf) hlabel.symm hlt
    exact absurd (he.symm.trans hok) (by simp)

/-- A page is replaced, a start of the new page begins, the fence is finished, and
the start is let through. -/
theorem cleanup_fences_ordered_page : ∃ s₀ s l,
    Machine.run System.step start [.advance_webview "main"] = some s₀ ∧
    Machine.run System.step s₀ [.begin_webview_start "main", .advance 0 (.ok ()),
      .advance 0 (.ok ()), .advance 0 (.ok ()), .wait_for_cleanup 0] = some s ∧
    s.leases[0]? = some l ∧ l.returned = some (.ok ()) ∧ s₀.fences.map (·.label) = ["main"] ∧
    ∀ f ∈ s₀.fences, f.label = "main" → s.state.cleanups f.current = some (.ok ()) := by
  refine ⟨_, _, _, rfl, rfl, rfl, rfl, rfl, ?_⟩
  intro f hf hlabel
  refine ((cleanup_fences_ordered [.advance_webview "main"]
    [.begin_webview_start "main", .advance 0 (.ok ()), .advance 0 (.ok ()),
      .advance 0 (.ok ()), .wait_for_cleanup 0] rfl rfl).1 0 _ (Nat.le_refl _) rfl f hf ?_).1 rfl
  exact hlabel

end IrohHttp.CleanupFences
