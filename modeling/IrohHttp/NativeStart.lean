/-
`detached_mobile_native_start` of `commands.rs`: a native discovery start whose command
may go away while it is under way.

The start runs in a task of its own, which holds the lease. When it has an id the task
arms the lease, puts lease, id and cleanup closure into a drop guard and sends the guard
to the command through a oneshot channel. A command that receives it claims it. If
nobody does -- the send finds no receiver, or the receiver goes away with the guard in
the channel -- the guard is dropped, and its `drop` spawns a second task that runs the
cleanup and finishes the lease with what the cleanup returned.

The state is the system of `CleanupFences.lean` together with one such call, on lease
`id`. All other operations of the system go on meanwhile, in any order, except that
nobody but the call can use the lease before the command has claimed it. Every caller
awaits the call at once, so it begins with its task spawned. A start that panics ends
its task, which drops the lease and the sender.
-/
import IrohHttp.CleanupFences

set_option autoImplicit false

namespace IrohHttp.NativeStart

open IrohHttp.DiscoveryOwnership
open IrohHttp.CleanupFences (System Lease touches)

/-! ## The guard -/

/-- How the native start ended. -/
inductive Started
  | ok (native_id : ℕ)
  | error (error : String)
  | panicked
  deriving DecidableEq

/-- The guard: the number of the lease, the id, and whether the cleanup closure is still
there. -/
structure DeliveredMobileNativeStart where
  owner : Option ℕ
  native_id : ℕ
  cleanup : Bool
  deriving DecidableEq

namespace DeliveredMobileNativeStart

/-- Lease and id, and what is left of the guard. `none` is the panic of `expect`. -/
def claim (d : DeliveredMobileNativeStart) : Option ((ℕ × ℕ) × DeliveredMobileNativeStart) :=
  d.owner.map fun owner => ((owner, d.native_id), { d with cleanup := false, owner := none })

/-- The task that `drop` spawns, if it does: the lease to finish and the id to clean. -/
def drop (d : DeliveredMobileNativeStart) : Option (ℕ × ℕ) :=
  match d.owner, d.cleanup with
  | some owner, true => some (owner, d.native_id)
  | _, _ => none

end DeliveredMobileNativeStart

/-! ## The call -/

/-- Where the detached task is. In `ending` it has still the lease to drop. -/
inductive Phase
  | starting
  | started (native_id : ℕ)
  | failed (error : String)
  | ending
  | ended
  deriving DecidableEq

/-- Where the command is; it returns a lease and an id. -/
inductive Waiter
  | waiting
  | dropped
  | returned (result : Except String (ℕ × ℕ))
  deriving DecidableEq

/-- Where the task is that the guard's `drop` spawned. -/
inductive Cleaner
  | spawned (owner native_id : ℕ)
  | running (owner native_id : ℕ)
  | cleaned (owner : ℕ) (outcome : Outcome)
  | finished

/-- `sender` and `slot` are the oneshot channel; its receiver lives while the command
waits. `cleanups` are the ids that the closure was called with and `results` what it
returned. -/
structure Call where
  system : System
  outcome : Option Started
  phase : Phase
  sender : Bool
  slot : Option (Except String DeliveredMobileNativeStart)
  waiter : Waiter
  cleaner : Option Cleaner
  cleanups : List ℕ
  results : List Outcome

/-- What can happen: the start, its delivery, the owner, and everything else that the ownership
does. -/
inductive Label
  | other (a : CleanupFences.Label)
  | start (outcome : Started)
  | send
  | drop_owner
  | receive
  | drop_waiter
  | cleanup
  | cleaned (outcome : Outcome)
  | finish_cleanup

/-- The steps of the call itself. -/
def own : Label → Bool
  | .other _ => false
  | _ => true

namespace Call

/-- The call after it has spawned its task. -/
def detached_mobile_native_start (system : System) : Call :=
  ⟨system, none, .starting, true, none, .waiting, none, [], []⟩

/-- Whether the command has claimed what was started. -/
def is_claimed (c : Call) : Bool :=
  match c.waiter with
  | .returned (.ok _) => true
  | _ => false

/-- A value of the channel is dropped. -/
def drop_value (c : Call) (value : Except String DeliveredMobileNativeStart) : Call :=
  match value with
  | .ok delivered =>
    match delivered.drop with
    | some (owner, native_id) => { c with cleaner := some (.spawned owner native_id) }
    | none => c
  | .error _ => c

/-- `delivery.send`, whose result is ignored: a value that is not taken is dropped. -/
def send (c : Call) (value : Except String DeliveredMobileNativeStart) : Call :=
  if c.waiter = .waiting then { c with sender := false, slot := some value }
  else { c with sender := false }.drop_value value

/-- What `delivered.await` and `claim` make of the value received. -/
def receive (c : Call) (value : Except String DeliveredMobileNativeStart) : Option Call :=
  match value with
  | .ok delivered => delivered.claim.map fun r =>
    ({ c with slot := none, waiter := .returned (.ok r.1) }).drop_value (.ok r.2)
  | .error error => some { c with slot := none, waiter := .returned (.error error) }

/-- One step, `none` where the label is not enabled. -/
def step (id : ℕ) (c : Call) : Label → Option Call
  | .other a =>
    if touches id a && !c.is_claimed then none
    else (c.system.step a).map fun system => { c with system := system }
  | .start outcome =>
    match c.phase, outcome with
    | .starting, .ok native_id => (c.system.step (.arm_native_cleanup id)).map fun system =>
      { c with system := system, outcome := some outcome, phase := .started native_id }
    | .starting, .error error => some { c with outcome := some outcome, phase := .failed error }
    | .starting, .panicked =>
      some { c with outcome := some outcome, phase := .ending, sender := false }
    | _, _ => none
  | .send =>
    match c.phase with
    | .started native_id =>
      some ({ c with phase := .ended }.send (.ok ⟨some id, native_id, true⟩))
    | .failed error => some ({ c with phase := .ending }.send (.error error))
    | _ => none
  | .drop_owner =>
    if c.phase = .ending then
      (c.system.step (.drop id)).map fun system => { c with system := system, phase := .ended }
    else none
  | .receive =>
    match c.waiter, c.slot with
    | .waiting, some value => c.receive value
    | .waiting, none =>
      if c.sender then none
      else some { c with
        waiter := .returned (.error "native discovery start task ended before delivery") }
    | _, _ => none
  | .drop_waiter =>
    match c.waiter, c.slot with
    | .waiting, some value => some ({ c with waiter := .dropped, slot := none }.drop_value value)
    | .waiting, none => some { c with waiter := .dropped }
    | _, _ => none
  | .cleanup =>
    match c.cleaner with
    | some (.spawned owner native_id) =>
      some { c with
        cleaner := some (.running owner native_id), cleanups := c.cleanups ++ [native_id] }
    | _ => none
  | .cleaned outcome =>
    match c.cleaner with
    | some (.running owner _) =>
      some { c with cleaner := some (.cleaned owner outcome), results := c.results ++ [outcome] }
    | _ => none
  | .finish_cleanup =>
    match c.cleaner with
    | some (.cleaned owner outcome) =>
      (c.system.step (.finish_cleanup owner outcome)).map fun system =>
        { c with system := system, cleaner := some .finished }
    | _ => none

end Call

/-! ## Endings -/

/-- Nothing of the call is left to run. -/
def Ended (c : Call) : Prop :=
  c.phase = .ended ∧ c.waiter ≠ .waiting ∧ (c.cleaner = none ∨ c.cleaner = some .finished)

/-- The start failed and no cleanup ran. -/
def Failed (c : Call) : Prop :=
  (∃ outcome, c.outcome = some outcome ∧ ∀ native_id, outcome ≠ .ok native_id) ∧ c.cleanups = []

/-- Lease and id were claimed by the caller and no cleanup ran. -/
def Claimed (id : ℕ) (c : Call) : Prop :=
  ∃ native_id, c.outcome = some (.ok native_id) ∧ c.waiter = .returned (.ok (id, native_id)) ∧
    c.cleanups = []

/-- The cleanup ran once, with the id, and the lease is finished with what it returned. -/
def Cleaned (id : ℕ) (c : Call) : Prop :=
  ∃ native_id outcome, c.outcome = some (.ok native_id) ∧ c.cleanups = [native_id] ∧
    c.results = [outcome] ∧ c.system.state.completions id = some outcome

/-! ## Where the lease is -/

/-- How far the cleanup of `native_id` has come, and what that has left behind. -/
inductive Cleaning (id native_id : ℕ) (c : Call) : Cleaner → Prop
  | spawned (hcleanups : c.cleanups = []) (hresults : c.results = [])
      (hopen : c.system.state.completions id = none) :
      Cleaning id native_id c (.spawned id native_id)
  | running (hcleanups : c.cleanups = [native_id]) (hresults : c.results = [])
      (hopen : c.system.state.completions id = none) :
      Cleaning id native_id c (.running id native_id)
  | cleaned (outcome : Outcome) (hcleanups : c.cleanups = [native_id])
      (hresults : c.results = [outcome]) (hopen : c.system.state.completions id = none) :
      Cleaning id native_id c (.cleaned id outcome)
  | finished (outcome : Outcome) (hcleanups : c.cleanups = [native_id])
      (hresults : c.results = [outcome])
      (hdone : c.system.state.completions id = some outcome) : Cleaning id native_id c .finished

/-- The lease is with the task, gone with it, in the channel, with the caller, or with
the cleanup. -/
inductive Place (id : ℕ) (c : Call) : Prop
  | task
      (hphase : c.phase = .starting ∨ (∃ n, c.phase = .started n ∧ c.outcome = some (.ok n)) ∨
        ∃ e, c.phase = .failed e ∧ c.outcome = some (.error e))
      (hsender : c.sender = true) (hslot : c.slot = none)
      (hwaiter : c.waiter = .waiting ∨ c.waiter = .dropped) (hcleaner : c.cleaner = none)
      (hcleanups : c.cleanups = []) (hresults : c.results = [])
      (hopen : c.system.state.completions id = none)
  | failed (outcome : Started) (hphase : c.phase = .ending ∨ c.phase = .ended)
      (houtcome : c.outcome = some outcome) (hfailed : ∀ n, outcome ≠ .ok n)
      (hsender : c.sender = false) (hslot : ∀ d, c.slot ≠ some (.ok d))
      (hwaiter : ∀ x, c.waiter ≠ .returned (.ok x)) (hcleaner : c.cleaner = none)
      (hcleanups : c.cleanups = [])
  | channel (native_id : ℕ) (hphase : c.phase = .ended) (houtcome : c.outcome = some (.ok native_id))
      (hslot : c.slot = some (.ok ⟨some id, native_id, true⟩)) (hwaiter : c.waiter = .waiting)
      (hcleaner : c.cleaner = none) (hcleanups : c.cleanups = []) (hresults : c.results = [])
      (hopen : c.system.state.completions id = none)
  | caller (native_id : ℕ) (hphase : c.phase = .ended) (houtcome : c.outcome = some (.ok native_id))
      (hwaiter : c.waiter = .returned (.ok (id, native_id))) (hcleaner : c.cleaner = none)
      (hcleanups : c.cleanups = [])
  | cleanup (native_id : ℕ) (k : Cleaner) (hphase : c.phase = .ended)
      (houtcome : c.outcome = some (.ok native_id)) (hwaiter : c.waiter = .dropped)
      (hcleaner : c.cleaner = some k) (hcleaning : Cleaning id native_id c k)

/-- The invariant: the ownership's own, the lease, and the place of the call. -/
structure Inv (id : ℕ) (c : Call) : Prop where
  system : CleanupFences.Inv c.system
  lease : ∃ l, c.system.leases[id]? = some l
  place : Place id c

/-- The completion as the system of a call has it is all that a place depends on. -/
theorem Place.system {id : ℕ} {c : Call} (h : Place id c) {system : System}
    (hsame : c.is_claimed = false →
      system.state.completions id = c.system.state.completions id) :
    Place id { c with system := system } := by
  cases h with
  | task hphase hsender hslot hwaiter hcleaner hcleanups hresults hopen =>
      have hfree : c.is_claimed = false := by
        rcases hwaiter with hw | hw <;> simp only [Call.is_claimed, hw]
      exact .task hphase hsender hslot hwaiter hcleaner hcleanups hresults ((hsame hfree).trans hopen)
  | failed outcome hphase houtcome hfailed hsender hslot hwaiter hcleaner hcleanups =>
      exact .failed outcome hphase houtcome hfailed hsender hslot hwaiter hcleaner hcleanups
  | channel n hphase houtcome hslot hwaiter hcleaner hcleanups hresults hopen =>
      have hfree : c.is_claimed = false := by simp only [Call.is_claimed, hwaiter]
      exact .channel n hphase houtcome hslot hwaiter hcleaner hcleanups hresults
        ((hsame hfree).trans hopen)
  | caller n hphase houtcome hwaiter hcleaner hcleanups =>
      exact .caller n hphase houtcome hwaiter hcleaner hcleanups
  | cleanup n k hphase houtcome hwaiter hcleaner hcleaning =>
      have hfree : c.is_claimed = false := by simp only [Call.is_claimed, hwaiter]
      refine .cleanup n k hphase houtcome hwaiter hcleaner ?_
      cases hcleaning with
      | spawned hc hr ho => exact .spawned hc hr ((hsame hfree).trans ho)
      | running hc hr ho => exact .running hc hr ((hsame hfree).trans ho)
      | cleaned o hc hr ho => exact .cleaned o hc hr ((hsame hfree).trans ho)
      | finished o hc hr hd => exact .finished o hc hr ((hsame hfree).trans hd)

/-! ## Steps -/

/-- Before the start returns nothing was delivered. -/
theorem Place.starting {id : ℕ} {c : Call} (h : Place id c) (hphase : c.phase = .starting) :
    c.sender = true ∧ c.slot = none ∧ (c.waiter = .waiting ∨ c.waiter = .dropped) ∧
      c.cleaner = none ∧ c.cleanups = [] ∧ c.results = [] ∧
      c.system.state.completions id = none := by
  cases h with
  | task _ hsender hslot hwaiter hcleaner hcleanups hresults hopen =>
      exact ⟨hsender, hslot, hwaiter, hcleaner, hcleanups, hresults, hopen⟩
  | failed _ hp => rcases hp with hp | hp <;> simp [hphase] at hp
  | channel _ hp => simp [hphase] at hp
  | caller _ hp => simp [hphase] at hp
  | cleanup _ _ hp => simp [hphase] at hp

attribute [local simp] Call.step

/-- The native start ends; with an id the lease is armed. -/
theorem Place.start {id : ℕ} {c c' : Call} (h : Place id c) {outcome : Started}
    (hstep : c.step id (.start outcome) = some c') : Place id c' := by
  by_cases hphase : c.phase = .starting
  · obtain ⟨hsender, hslot, hwaiter, hcleaner, hcleanups, hresults, hopen⟩ := h.starting hphase
    cases outcome with
    | ok n =>
        simp only [Call.step, hphase] at hstep
        obtain ⟨system, hsystem, rfl⟩ := Option.map_eq_some_iff.mp hstep
        obtain ⟨l, hl, rfl⟩ := Option.map_eq_some_iff.mp hsystem
        exact .task (.inr (.inl ⟨n, rfl, rfl⟩)) hsender hslot hwaiter hcleaner hcleanups hresults hopen
    | error e =>
        simp only [Call.step, hphase, Option.some.injEq] at hstep
        subst hstep
        exact .task (.inr (.inr ⟨e, rfl, rfl⟩)) hsender hslot hwaiter hcleaner hcleanups hresults hopen
    | panicked =>
        simp only [Call.step, hphase, Option.some.injEq] at hstep
        subst hstep
        refine .failed .panicked (.inl rfl) rfl (fun n hn => by cases hn) rfl ?_ ?_ hcleaner hcleanups
        · intro d hd
          simp [hslot] at hd
        · intro x hx
          rcases hwaiter with hw | hw <;> simp [hw] at hx
  · cases hp : c.phase <;> simp_all [Call.step]

/-- The send: the guard is in the channel, or dropped because nobody waits. -/
theorem Place.send {id : ℕ} {c c' : Call} (h : Place id c)
    (hstep : c.step id .send = some c') : Place id c' := by
  cases h with
  | task hphase hsender hslot hwaiter hcleaner hcleanups hresults hopen =>
      rcases hphase with hphase | ⟨n, hphase, houtcome⟩ | ⟨e, hphase, houtcome⟩
      · simp [Call.step, hphase] at hstep
      · simp only [Call.step, hphase, Option.some.injEq] at hstep
        subst hstep
        rcases hwaiter with hw | hw
        · simp only [Call.send, hw, if_true]
          exact .channel n rfl houtcome rfl rfl hcleaner hcleanups hresults hopen
        · simp only [Call.send, hw, reduceCtorEq, if_false, Call.drop_value,
            DeliveredMobileNativeStart.drop]
          exact .cleanup n _ rfl houtcome rfl rfl (.spawned hcleanups hresults hopen)
      · simp only [Call.step, hphase, Option.some.injEq] at hstep
        subst hstep
        have hno : ∀ n, Started.error e ≠ .ok n := fun n hn => by cases hn
        rcases hwaiter with hw | hw
        · simp only [Call.send, hw, if_true]
          refine .failed _ (.inl rfl) houtcome hno rfl ?_ ?_ hcleaner hcleanups
          · intro d hd
            simp at hd
          · intro x hx
            simp at hx
        · simp only [Call.send, hw, reduceCtorEq, if_false, Call.drop_value]
          refine .failed _ (.inl rfl) houtcome hno rfl ?_ ?_ hcleaner hcleanups
          · intro d hd
            simp [hslot] at hd
          · intro x hx
            simp at hx
  | failed _ hp => rcases hp with hp | hp <;> simp [Call.step, hp] at hstep
  | channel _ hp => simp [Call.step, hp] at hstep
  | caller _ hp => simp [Call.step, hp] at hstep
  | cleanup _ _ hp => simp [Call.step, hp] at hstep

/-- Only a start that failed leaves its lease to the task. -/
theorem Place.drop_owner {id : ℕ} {c c' : Call} (h : Place id c)
    (hstep : c.step id .drop_owner = some c') : Place id c' := by
  have hphase : c.phase = .ending := by
    by_contra hno
    simp [Call.step, hno] at hstep
  simp only [Call.step, hphase, if_true] at hstep
  obtain ⟨system, -, rfl⟩ := Option.map_eq_some_iff.mp hstep
  cases h with
  | task hp => rcases hp with hp | ⟨n, hp, -⟩ | ⟨e, hp, -⟩ <;> simp [hphase] at hp
  | failed outcome _ houtcome hfailed hsender hslot hwaiter hcleaner hcleanups =>
      exact .failed outcome (.inr rfl) houtcome hfailed hsender hslot hwaiter hcleaner hcleanups
  | channel _ hp => simp [hphase] at hp
  | caller _ hp => simp [hphase] at hp
  | cleanup _ _ hp => simp [hphase] at hp

/-- Who receives the guard claims it, and nothing is left in it to clean. -/
theorem Place.receive {id : ℕ} {c c' : Call} (h : Place id c)
    (hstep : c.step id .receive = some c') : Place id c' := by
  cases h with
  | task _ hsender hslot hwaiter =>
      rcases hwaiter with hw | hw <;> simp [Call.step, hw, hslot, hsender] at hstep
  | failed outcome hphase houtcome hfailed hsender hslot hwaiter hcleaner hcleanups =>
      cases hw : c.waiter with
      | waiting =>
          cases hs : c.slot with
          | none =>
              simp only [Call.step, hw, hs, hsender, Bool.false_eq_true, if_false,
                Option.some.injEq] at hstep
              subst hstep
              refine .failed outcome hphase houtcome hfailed rfl ?_ ?_ hcleaner hcleanups
              · intro d hd
                simp at hd
              · intro x hx
                simp at hx
          | some value =>
              cases value with
              | ok d => exact absurd hs (hslot d)
              | error e =>
                  simp only [Call.step, hw, hs, Call.receive, Option.some.injEq] at hstep
                  subst hstep
                  refine .failed outcome hphase houtcome hfailed hsender ?_ ?_ hcleaner hcleanups
                  · intro d hd
                    simp at hd
                  · intro x hx
                    simp at hx
      | dropped => simp [Call.step, hw] at hstep
      | returned r => simp [Call.step, hw] at hstep
  | channel n hphase houtcome hslot hwaiter hcleaner hcleanups hresults hopen =>
      simp only [Call.step, hwaiter, hslot, Call.receive, DeliveredMobileNativeStart.claim,
        Option.map_some, Call.drop_value, DeliveredMobileNativeStart.drop,
        Option.some.injEq] at hstep
      subst hstep
      exact .caller n hphase houtcome rfl hcleaner hcleanups
  | caller _ _ _ hw => simp [Call.step, hw] at hstep
  | cleanup _ _ _ _ hw => simp [Call.step, hw] at hstep

/-- A command that goes away with the guard in the channel drops it. -/
theorem Place.drop_waiter {id : ℕ} {c c' : Call} (h : Place id c)
    (hstep : c.step id .drop_waiter = some c') : Place id c' := by
  cases h with
  | task hphase hsender hslot hwaiter hcleaner hcleanups hresults hopen =>
      rcases hwaiter with hw | hw
      · simp only [Call.step, hw, hslot, Option.some.injEq] at hstep
        subst hstep
        exact .task hphase hsender rfl (.inr rfl) hcleaner hcleanups hresults hopen
      · simp [Call.step, hw] at hstep
  | failed outcome hphase houtcome hfailed hsender hslot hwaiter hcleaner hcleanups =>
      cases hw : c.waiter with
      | waiting =>
          cases hs : c.slot with
          | none =>
              simp only [Call.step, hw, hs, Option.some.injEq] at hstep
              subst hstep
              refine .failed outcome hphase houtcome hfailed hsender ?_ ?_ hcleaner hcleanups
              · intro d hd
                simp at hd
              · intro x hx
                simp at hx
          | some value =>
              cases value with
              | ok d => exact absurd hs (hslot d)
              | error e =>
                  simp only [Call.step, hw, hs, Call.drop_value, Option.some.injEq] at hstep
                  subst hstep
                  refine .failed outcome hphase houtcome hfailed hsender ?_ ?_ hcleaner hcleanups
                  · intro d hd
                    simp at hd
                  · intro x hx
                    simp at hx
      | dropped => simp [Call.step, hw] at hstep
      | returned r => simp [Call.step, hw] at hstep
  | channel n hphase houtcome hslot hwaiter hcleaner hcleanups hresults hopen =>
      simp only [Call.step, hwaiter, hslot, Call.drop_value, DeliveredMobileNativeStart.drop,
        Option.some.injEq] at hstep
      subst hstep
      exact .cleanup n _ hphase houtcome rfl rfl (.spawned hcleanups hresults hopen)
  | caller _ _ _ hw => simp [Call.step, hw] at hstep
  | cleanup _ _ _ _ hw => simp [Call.step, hw] at hstep

/-- There is a cleanup to move on only when the guard was dropped. -/
theorem Place.of_cleaner {id : ℕ} {c : Call} (h : Place id c) {k : Cleaner}
    (hk : c.cleaner = some k) :
    ∃ n, c.phase = .ended ∧ c.outcome = some (.ok n) ∧ c.waiter = .dropped ∧ Cleaning id n c k := by
  cases h with
  | task _ _ _ _ hc => simp [hk] at hc
  | failed _ _ _ _ _ _ _ hc => simp [hk] at hc
  | channel _ _ _ _ _ hc => simp [hk] at hc
  | caller _ _ _ _ hc => simp [hk] at hc
  | cleanup n k' hphase houtcome hwaiter hc hcleaning =>
      obtain rfl := Option.some.inj (hc.symm.trans hk)
      exact ⟨n, hphase, houtcome, hwaiter, hcleaning⟩

/-- The cleanup begins once. -/
theorem Place.cleanup_runs {id : ℕ} {c c' : Call} (h : Place id c)
    (hstep : c.step id .cleanup = some c') : Place id c' := by
  simp only [Call.step] at hstep
  split at hstep
  · next owner native_id hk =>
    obtain ⟨n, hphase, houtcome, hwaiter, hcleaning⟩ := h.of_cleaner hk
    rw [Option.some.injEq] at hstep
    subst hstep
    cases hcleaning with
    | spawned hcleanups hresults hopen =>
        refine .cleanup native_id _ hphase houtcome hwaiter rfl (.running ?_ hresults hopen)
        rw [hcleanups, List.nil_append]
  · cases hstep

/-- The cleanup returns to the lease. -/
theorem Place.cleanup_returns {id : ℕ} {c c' : Call} (h : Place id c) {outcome : Outcome}
    (hstep : c.step id (.cleaned outcome) = some c') : Place id c' := by
  simp only [Call.step] at hstep
  split at hstep
  · next owner native_id hk =>
    obtain ⟨n, hphase, houtcome, hwaiter, hcleaning⟩ := h.of_cleaner hk
    rw [Option.some.injEq] at hstep
    subst hstep
    cases hcleaning with
    | running hcleanups hresults hopen =>
        refine .cleanup native_id _ hphase houtcome hwaiter rfl (.cleaned outcome hcleanups ?_ hopen)
        rw [hresults, List.nil_append]
  · cases hstep

/-- The lease takes the outcome, for nobody else has finished it. -/
theorem Inv.finish_cleanup {id : ℕ} {c c' : Call} (h : Inv id c)
    (hstep : c.step id .finish_cleanup = some c') : Place id c' := by
  simp only [Call.step] at hstep
  split at hstep
  · next owner outcome hk =>
    obtain ⟨n, hphase, houtcome, hwaiter, hcleaning⟩ := h.place.of_cleaner hk
    obtain ⟨system, hsystem, rfl⟩ := Option.map_eq_some_iff.mp hstep
    cases hcleaning with
    | cleaned _ hcleanups hresults hopen =>
        obtain ⟨l, hl, rfl⟩ := Option.map_eq_some_iff.mp hsystem
        refine .cleanup n _ hphase houtcome hwaiter rfl (.finished outcome hcleanups hresults ?_)
        simp only [System.set_lease, StartLease.finish_cleanup, OwnershipState.release_start,
          OwnershipState.finish_completion, h.system.ids id l hl, Function.update_self, hopen,
          Option.getD_none]
  · cases hstep

/-- What happens elsewhere leaves the call in its place. -/
theorem Place.other {id : ℕ} {c c' : Call} (h : Inv id c) {a : CleanupFences.Label}
    (hstep : c.step id (.other a) = some c') : Place id c' := by
  simp only [Call.step] at hstep
  split at hstep
  · cases hstep
  · next hno =>
    obtain ⟨system, hsystem, rfl⟩ := Option.map_eq_some_iff.mp hstep
    apply h.place.system
    intro hfree
    apply CleanupFences.completions_step h.system hsystem
    simpa [hfree] using hno

/-! ## Runs -/

/-- A step leaves the system as it is or takes one of its steps. -/
theorem system_step {id : ℕ} {c c' : Call} {a : Label} (hstep : c.step id a = some c') :
    c'.system = c.system ∨ ∃ b, c.system.step b = some c'.system := by
  have hdrop : ∀ (d : Call) (v : Except String DeliveredMobileNativeStart),
      (d.drop_value v).system = d.system := by
    intro d v
    unfold Call.drop_value
    split
    · split <;> rfl
    · rfl
  have hsend : ∀ (d : Call) (v : Except String DeliveredMobileNativeStart),
      (d.send v).system = d.system := by
    intro d v
    unfold Call.send
    split
    · rfl
    · exact hdrop _ _
  cases a with
  | other b =>
      simp only [Call.step] at hstep
      split at hstep
      · cases hstep
      · obtain ⟨system, hsystem, rfl⟩ := Option.map_eq_some_iff.mp hstep
        exact .inr ⟨b, hsystem⟩
  | start outcome =>
      simp only [Call.step] at hstep
      split at hstep
      · obtain ⟨system, hsystem, rfl⟩ := Option.map_eq_some_iff.mp hstep
        exact .inr ⟨_, hsystem⟩
      · exact .inl (by rw [← Option.some.inj hstep])
      · exact .inl (by rw [← Option.some.inj hstep])
      · cases hstep
  | send =>
      simp only [Call.step] at hstep
      split at hstep
      · rw [← Option.some.inj hstep]
        exact .inl (hsend _ _)
      · rw [← Option.some.inj hstep]
        exact .inl (hsend _ _)
      · cases hstep
  | drop_owner =>
      simp only [Call.step] at hstep
      split at hstep
      · obtain ⟨system, hsystem, rfl⟩ := Option.map_eq_some_iff.mp hstep
        exact .inr ⟨_, hsystem⟩
      · cases hstep
  | receive =>
      simp only [Call.step] at hstep
      split at hstep
      · next value _ _ =>
        cases value with
        | ok d =>
            obtain ⟨r, -, rfl⟩ := Option.map_eq_some_iff.mp hstep
            exact .inl (hdrop _ _)
        | error e => exact .inl (by rw [← Option.some.inj hstep])
      · split at hstep
        · cases hstep
        · exact .inl (by rw [← Option.some.inj hstep])
      · cases hstep
  | drop_waiter =>
      simp only [Call.step] at hstep
      split at hstep
      · rw [← Option.some.inj hstep]
        exact .inl (hdrop _ _)
      · exact .inl (by rw [← Option.some.inj hstep])
      · cases hstep
  | cleanup =>
      simp only [Call.step] at hstep
      split at hstep
      · exact .inl (by rw [← Option.some.inj hstep])
      · cases hstep
  | cleaned outcome =>
      simp only [Call.step] at hstep
      split at hstep
      · exact .inl (by rw [← Option.some.inj hstep])
      · cases hstep
  | finish_cleanup =>
      simp only [Call.step] at hstep
      split at hstep
      · obtain ⟨system, hsystem, rfl⟩ := Option.map_eq_some_iff.mp hstep
        exact .inr ⟨_, hsystem⟩
      · cases hstep

/-- **One step** keeps the invariant. -/
theorem inv_step {id : ℕ} {c c' : Call} {a : Label} (h : Inv id c)
    (hstep : c.step id a = some c') : Inv id c' := by
  have hsystem : CleanupFences.Inv c'.system ∧ ∃ l, c'.system.leases[id]? = some l := by
    rcases system_step hstep with heq | ⟨b, hb⟩
    · rw [heq]
      exact ⟨h.system, h.lease⟩
    · obtain ⟨hinv, hlater⟩ := CleanupFences.inv_step h.system hb
      obtain ⟨l, hl⟩ := h.lease
      obtain ⟨l', hl', -⟩ := hlater.leases id l hl
      exact ⟨hinv, l', hl'⟩
  refine ⟨hsystem.1, hsystem.2, ?_⟩
  cases a with
  | other b => exact Place.other h hstep
  | start outcome => exact h.place.start hstep
  | send => exact h.place.send hstep
  | drop_owner => exact h.place.drop_owner hstep
  | receive => exact h.place.receive hstep
  | drop_waiter => exact h.place.drop_waiter hstep
  | cleanup => exact h.place.cleanup_runs hstep
  | cleaned outcome => exact h.place.cleanup_returns hstep
  | finish_cleanup => exact h.finish_cleanup hstep

/-! ## The call ends -/

/-- What the parts of a call have still to do at most. -/
def remaining (c : Call) : ℕ :=
  (match c.phase with
    | .starting => 6
    | .started _ => 5
    | .failed _ => 2
    | .ending => 1
    | .ended => 0) +
  (match c.waiter with
    | .waiting => 4
    | _ => 0) +
  match c.cleaner with
    | some (.spawned _ _) => 3
    | some (.running _ _) => 2
    | some (.cleaned _ _) => 1
    | _ => 0

/-- Dropping a value spawns at most one cleanup. -/
theorem remaining_drop_value (c : Call) (value : Except String DeliveredMobileNativeStart) :
    remaining (c.drop_value value) ≤ remaining c + 3 := by
  unfold Call.drop_value
  split
  · split
    · simp only [remaining]
      omega
    · omega
  · omega

/-- A delivery adds the steps that clean it up. -/
theorem remaining_send (c : Call) (value : Except String DeliveredMobileNativeStart) :
    remaining (c.send value) ≤ remaining c + 3 := by
  unfold Call.send
  split
  · simp only [remaining]
    omega
  · exact remaining_drop_value { c with sender := false } value

/-- An error in the channel spawns none. -/
theorem remaining_send_error (c : Call) (error : String) :
    remaining (c.send (.error error)) = remaining c := by
  unfold Call.send
  split <;> rfl

/-- **Every own step** leaves fewer to come. -/
theorem remaining_step (id : ℕ) (c : Call) (a : Label) (c' : Call)
    (hstep : c.step id a = some c') : (if own a then 1 else 0) + remaining c' ≤ remaining c := by
  -- an own step ends a phase of the call, and what it leaves to do is less by one at least
  cases a with
  | other b =>
      simp only [Call.step] at hstep
      split at hstep
      · cases hstep
      · obtain ⟨system, -, rfl⟩ := Option.map_eq_some_iff.mp hstep
        simp [own, remaining]
  | start outcome =>
      simp only [Call.step] at hstep
      split at hstep
      · next n hphase =>
        obtain ⟨system, -, rfl⟩ := Option.map_eq_some_iff.mp hstep
        simp only [own, if_true, remaining, hphase]
        omega
      · next e hphase =>
        rw [← Option.some.inj hstep]
        simp only [own, if_true, remaining, hphase]
        omega
      · next hphase =>
        rw [← Option.some.inj hstep]
        simp only [own, if_true, remaining, hphase]
        omega
      · cases hstep
  | send =>
      simp only [Call.step] at hstep
      split at hstep
      · next n hphase =>
        rw [← Option.some.inj hstep]
        have hsend := remaining_send { c with phase := .ended } (.ok ⟨some id, n, true⟩)
        simp only [own, if_true, remaining, hphase] at hsend ⊢
        omega
      · next e hphase =>
        rw [← Option.some.inj hstep, remaining_send_error]
        simp only [own, if_true, remaining, hphase]
        omega
      · cases hstep
  | drop_owner =>
      simp only [Call.step] at hstep
      split at hstep
      · next hphase =>
        obtain ⟨system, -, rfl⟩ := Option.map_eq_some_iff.mp hstep
        simp only [own, if_true, remaining, hphase]
        omega
      · cases hstep
  | receive =>
      simp only [Call.step] at hstep
      split at hstep
      · next value hwaiter _ =>
        cases value with
        | ok d =>
            obtain ⟨r, -, rfl⟩ := Option.map_eq_some_iff.mp hstep
            have hdrop := remaining_drop_value
              { c with slot := none, waiter := .returned (.ok r.1) } (.ok r.2)
            simp only [own, if_true, remaining, hwaiter] at hdrop ⊢
            omega
        | error e =>
            rw [← Option.some.inj hstep]
            simp only [own, if_true, remaining, hwaiter]
            omega
      · next hwaiter _ =>
        split at hstep
        · cases hstep
        · rw [← Option.some.inj hstep]
          simp only [own, if_true, remaining, hwaiter]
          omega
      · cases hstep
  | drop_waiter =>
      simp only [Call.step] at hstep
      split at hstep
      · next value hwaiter _ =>
        rw [← Option.some.inj hstep]
        have hdrop := remaining_drop_value { c with waiter := .dropped, slot := none } value
        simp only [own, if_true, remaining, hwaiter] at hdrop ⊢
        omega
      · next hwaiter _ =>
        rw [← Option.some.inj hstep]
        simp only [own, if_true, remaining, hwaiter]
        omega
      · cases hstep
  | cleanup =>
      simp only [Call.step] at hstep
      split at hstep
      · next hcleaner =>
        rw [← Option.some.inj hstep]
        simp only [own, if_true, remaining, hcleaner]
        omega
      · cases hstep
  | cleaned outcome =>
      simp only [Call.step] at hstep
      split at hstep
      · next hcleaner =>
        rw [← Option.some.inj hstep]
        simp only [own, if_true, remaining, hcleaner]
        omega
      · cases hstep
  | finish_cleanup =>
      simp only [Call.step] at hstep
      split at hstep
      · next hcleaner =>
        obtain ⟨system, -, rfl⟩ := Option.map_eq_some_iff.mp hstep
        simp only [own, if_true, remaining, hcleaner]
        omega
      · cases hstep

/-- A call that has not ended can go on, without its command going away. -/
theorem Inv.progress {id : ℕ} {c : Call} (h : Inv id c) (hno : ¬ Ended c) :
    ∃ a, own a = true ∧ a ≠ .drop_waiter ∧ (c.step id a).isSome = true := by
  obtain ⟨l, hl⟩ := h.lease
  cases h.place with
  | task hphase =>
      rcases hphase with hphase | ⟨n, hphase, -⟩ | ⟨e, hphase, -⟩
      · exact ⟨.start (.ok 0), rfl, by simp, by simp [Call.step, hphase, System.step, hl]⟩
      · exact ⟨.send, rfl, by simp, by simp [Call.step, hphase]⟩
      · exact ⟨.send, rfl, by simp, by simp [Call.step, hphase]⟩
  | failed outcome hphase houtcome hfailed hsender hslot hwaiter hcleaner =>
      rcases hphase with hphase | hphase
      · refine ⟨.drop_owner, rfl, by simp, ?_⟩
        simp [Call.step, hphase, System.step, hl]
      · have hw : c.waiter = .waiting := by
          by_contra hw
          exact hno ⟨hphase, hw, .inl hcleaner⟩
        refine ⟨.receive, rfl, by simp, ?_⟩
        rcases hs : c.slot with _ | (e | d)
        · simp [Call.step, hw, hs, hsender]
        · simp [Call.step, hw, hs, Call.receive]
        · exact absurd hs (hslot d)
  | channel n hphase houtcome hslot hwaiter =>
      refine ⟨.receive, rfl, by simp, ?_⟩
      simp [Call.step, hwaiter, hslot, Call.receive, DeliveredMobileNativeStart.claim]
  | caller n hphase houtcome hwaiter hcleaner =>
      exact absurd ⟨hphase, by simp [hwaiter], .inl hcleaner⟩ hno
  | cleanup n k hphase houtcome hwaiter hcleaner hcleaning =>
      cases hcleaning with
      | spawned => exact ⟨.cleanup, rfl, by simp, by simp [Call.step, hcleaner]⟩
      | running => exact ⟨.cleaned (.ok ()), rfl, by simp, by simp [Call.step, hcleaner]⟩
      | cleaned o =>
          refine ⟨.finish_cleanup, rfl, by simp, ?_⟩
          simp [Call.step, hcleaner, System.step, hl]
      | finished => exact absurd ⟨hphase, by simp [hwaiter], .inr hcleaner⟩ hno

/-- Where the call has ended, the lease is in one of three places. -/
theorem Inv.ending {id : ℕ} {c : Call} (h : Inv id c) (hended : Ended c) :
    (Failed c ∧ ¬ Claimed id c ∧ ¬ Cleaned id c) ∨
    (¬ Failed c ∧ Claimed id c ∧ ¬ Cleaned id c) ∨
    (¬ Failed c ∧ ¬ Claimed id c ∧ Cleaned id c) := by
  obtain ⟨hphase', hwaiter', hcleaner'⟩ := hended
  cases h.place with
  | task hphase =>
      rcases hphase with hphase | ⟨n, hphase, -⟩ | ⟨e, hphase, -⟩ <;> simp [hphase'] at hphase
  | failed outcome _ houtcome hfailed _ _ _ _ hcleanups =>
      refine .inl ⟨⟨⟨outcome, houtcome, hfailed⟩, hcleanups⟩, ?_, ?_⟩
      · rintro ⟨n, hn, -⟩
        exact hfailed n (Option.some.inj (houtcome.symm.trans hn))
      · rintro ⟨n, o, hn, -⟩
        exact hfailed n (Option.some.inj (houtcome.symm.trans hn))
  | channel _ _ _ _ hwaiter => exact absurd hwaiter hwaiter'
  | caller n _ houtcome hwaiter _ hcleanups =>
      refine .inr (.inl ⟨?_, ⟨n, houtcome, hwaiter, hcleanups⟩, ?_⟩)
      · rintro ⟨⟨o, ho, hno⟩, -⟩
        exact hno n (Option.some.inj (ho.symm.trans houtcome))
      · rintro ⟨m, o, -, hm, -⟩
        simp [hcleanups] at hm
  | cleanup n k _ houtcome hwaiter hcleaner hcleaning =>
      obtain rfl : k = .finished := by
        rcases hcleaner' with hc | hc
        · simp [hcleaner] at hc
        · exact Option.some.inj (hcleaner.symm.trans hc)
      cases hcleaning with
      | finished o hcleanups hresults hdone =>
          refine .inr (.inr ⟨?_, ?_, ⟨n, o, houtcome, hcleanups, hresults, hdone⟩⟩)
          · rintro ⟨-, hnil⟩
            simp [hcleanups] at hnil
          · rintro ⟨m, -, -, hnil⟩
            simp [hcleanups] at hnil

/-- The closure is called at most once, with the id, and an unclaimed lease is finished
only with what it returned. -/
theorem Inv.cleanup_once {id : ℕ} {c : Call} (h : Inv id c) :
    (c.cleanups = [] ∨ ∃ n, c.outcome = some (.ok n) ∧ c.cleanups = [n]) ∧
    ∀ n o, c.outcome = some (.ok n) → ¬ Claimed id c → c.system.state.completions id = some o →
      c.cleanups = [n] ∧ c.results = [o] := by
  cases h.place with
  | task _ _ _ _ _ hcleanups _ hopen =>
      refine ⟨.inl hcleanups, fun n o _ _ ho => ?_⟩
      simp [hopen] at ho
  | failed outcome _ houtcome hfailed _ _ _ _ hcleanups =>
      refine ⟨.inl hcleanups, fun n o hn _ _ => ?_⟩
      exact absurd (Option.some.inj (houtcome.symm.trans hn)) (hfailed n)
  | channel _ _ _ _ _ _ hcleanups _ hopen =>
      refine ⟨.inl hcleanups, fun n o _ _ ho => ?_⟩
      simp [hopen] at ho
  | caller n _ houtcome hwaiter _ hcleanups =>
      exact ⟨.inl hcleanups, fun m o _ hno _ => absurd ⟨n, houtcome, hwaiter, hcleanups⟩ hno⟩
  | cleanup n k _ houtcome _ _ hcleaning =>
      cases hcleaning with
      | spawned hcleanups _ hopen =>
          refine ⟨.inl hcleanups, fun m o _ _ ho => ?_⟩
          simp [hopen] at ho
      | running hcleanups _ hopen =>
          refine ⟨.inr ⟨n, houtcome, hcleanups⟩, fun m o _ _ ho => ?_⟩
          simp [hopen] at ho
      | cleaned _ hcleanups _ hopen =>
          refine ⟨.inr ⟨n, houtcome, hcleanups⟩, fun m o _ _ ho => ?_⟩
          simp [hopen] at ho
      | finished o hcleanups hresults hdone =>
          refine ⟨.inr ⟨n, houtcome, hcleanups⟩, fun m o' hm _ ho => ?_⟩
          simp only [houtcome, Option.some.injEq, Started.ok.injEq] at hm
          simp only [hdone, Option.some.injEq] at ho
          rw [hcleanups, hresults, hm, ho]
          exact ⟨rfl, rfl⟩

/-- **A native start is never leaked.** Take a start on an active lease of any state of
the system, and any run of it. When nothing of the call is left to run, exactly one of
three things has happened: the start failed and no cleanup ran; lease and id were
claimed and no cleanup ran; or the cleanup ran once with the id and the lease was
finished with its outcome. On the way the cleanup is never called twice or with another
id, an unclaimed lease with an id is not finished before the cleanup has returned, and
the call can always go on until it has ended, which takes at most ten of its steps. -/
theorem native_start_not_leaked (before : List CleanupFences.Label) {s₀ : System}
    (hbefore : Machine.run System.step CleanupFences.start before = some s₀) {id : ℕ} {l : Lease}
    (hl : s₀.leases[id]? = some l) (hactive : l.lease.active = true) (steps : List Label) {c : Call}
    (hrun : Machine.run (Call.step id) (.detached_mobile_native_start s₀) steps = some c) :
    (Ended c →
      (Failed c ∧ ¬ Claimed id c ∧ ¬ Cleaned id c) ∨
      (¬ Failed c ∧ Claimed id c ∧ ¬ Cleaned id c) ∨
      (¬ Failed c ∧ ¬ Claimed id c ∧ Cleaned id c)) ∧
    (c.cleanups = [] ∨ ∃ n, c.outcome = some (.ok n) ∧ c.cleanups = [n]) ∧
    (∀ n o, c.outcome = some (.ok n) → ¬ Claimed id c → c.system.state.completions id = some o →
      c.cleanups = [n] ∧ c.results = [o]) ∧
    (¬ Ended c → ∃ a, own a = true ∧ a ≠ .drop_waiter ∧ (c.step id a).isSome = true) ∧
    steps.countP own ≤ 10 := by
  have hstart : Inv id (.detached_mobile_native_start s₀) := by
    refine ⟨(CleanupFences.inv_run CleanupFences.inv_start hbefore).1, ⟨l, hl⟩, ?_⟩
    exact .task (.inl rfl) rfl rfl (.inl rfl) rfl rfl rfl
      ((CleanupFences.unfinished_run hbefore).active id l hl hactive)
  have hinv : Inv id c := Machine.run_invariant (fun _ _ _ h hs => inv_step h hs) hstart hrun
  refine ⟨hinv.ending, hinv.cleanup_once.1, hinv.cleanup_once.2, hinv.progress, ?_⟩
  have hcount := Machine.run_countP_add_le (remaining_step id) hrun
  have hten : remaining (.detached_mobile_native_start s₀) = 10 := rfl
  omega

/-- The command goes away with the guard in the channel, and the cleanup fails. -/
theorem native_start_not_leaked_dropped : ∃ s₀ c,
    Machine.run System.step CleanupFences.start [.begin_webview_start "main"] = some s₀ ∧
    Machine.run (Call.step 0) (.detached_mobile_native_start s₀) [.start (.ok 7), .send,
      .drop_waiter, .cleanup, .cleaned (.error "stop"), .finish_cleanup] = some c ∧
    c.results = [.error "stop"] ∧ ¬ Failed c ∧ ¬ Claimed 0 c ∧ Cleaned 0 c := by
  obtain ⟨s₀, l, c, hs₀, hl, hactive, hrun, hended, hcleanups, hresults⟩ : ∃ s₀ l c,
      Machine.run System.step CleanupFences.start [.begin_webview_start "main"] = some s₀ ∧
      s₀.leases[0]? = some l ∧ l.lease.active = true ∧
      Machine.run (Call.step 0) (.detached_mobile_native_start s₀) [.start (.ok 7), .send,
        .drop_waiter, .cleanup, .cleaned (.error "stop"), .finish_cleanup] = some c ∧
      Ended c ∧ c.cleanups = [7] ∧ c.results = [.error "stop"] :=
    ⟨_, _, _, rfl, rfl, rfl, rfl, ⟨rfl, fun hw => (by cases hw), .inr rfl⟩, rfl, rfl⟩
  refine ⟨s₀, c, hs₀, hrun, hresults, ?_⟩
  rcases (native_start_not_leaked _ hs₀ hl hactive _ hrun).1 hended with
    ⟨⟨-, hnil⟩, -⟩ | ⟨-, ⟨n, -, -, hnil⟩, -⟩ | hcleaned
  · simp [hcleanups] at hnil
  · simp [hcleanups] at hnil
  · exact hcleaned

end IrohHttp.NativeStart
