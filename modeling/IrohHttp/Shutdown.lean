/-
Graceful shutdown, `ConnectionServeRuntime::shutdown` of
`iroh-http-core/src/http/server/connection.rs`.

A serve cycle admits streams and connections until it is stopped; then shutdown
waits for the deliveries, closes, waits for the connections, and says whether
both were gone by the deadline. `Cycle` is a runtime and its one shutdown, in
steps of the size of an admission, a release with its notification, or one
iteration of `wait_for_zero_until`. How these are made of atomic operations is in
`StreamAdmission.lean`.

The deliveries are the runtime's own. The connections are counted in a total that
every serve cycle of the endpoint shares, while the notifier that a release
signals is each cycle's own. The clock is a number of nanoseconds; instants up
to `max_instant` are representable.
-/
import IrohHttp.CoreError
import IrohHttp.Lifecycle
import IrohHttp.Machine

set_option autoImplicit false

namespace IrohHttp.Serve

/-! ## The wait -/

/-- `Instant::checked_add(timeout).unwrap_or(now)`. -/
def drain_deadline (max_instant : Instant) (now : Instant) (timeout : Duration) : Instant :=
  if now + timeout ≤ max_instant then now + timeout else now

/-- A `wait_for_zero_until` between two polls. It is `parked` in its `select!`
after an iteration, and only then does its notifier reach it. -/
structure Waiting where
  parked : Bool
  notified : Bool
  deriving DecidableEq, Repr

/-- The wait before its first poll. -/
def Waiting.fresh : Waiting := ⟨false, false⟩

/-- What a poll says: not yet, or whether the counter was seen at zero. -/
inductive Polled
  | pending (w : Waiting)
  | ready (zero : Bool)
  deriving DecidableEq, Repr

/-- One poll. It stays parked until it is notified or its `sleep` is over, and
else runs one iteration: the counter first, then the clock, which may be `lag`
later by then. -/
def poll_wait (in_flight : ℕ) (deadline now : Instant) (lag : Duration) (w : Waiting) : Polled :=
  -- still in the `select!`: neither the notification nor the `sleep` is ready
  if w.parked && !w.notified && decide (now < deadline) then .pending w
  else if in_flight = 0 then .ready true
  else if deadline - (now + lag) = 0 then .ready false
  else .pending ⟨true, false⟩

/-- `notify_waiters`. -/
def Waiting.notify (w : Waiting) : Waiting := { w with notified := w.parked }

/-! ## The runtime and its surroundings -/

/-- What others change: the clock, the streams, the connections, and the
connections of the other serve cycles in the total. -/
structure Env (K : Type) where
  now : Instant
  stopped : Bool
  deliveries : ℕ
  admission : ConnectionAdmission K
  connections : List K
  foreign : ℕ

/-- Admissions, releases, and time. -/
inductive EnvLabel (K : Type)
  | tick (d : Duration)
  | admit_stream
  | release_delivery
  | admit_connection (peer : K)
  | release_connection (peer : K)
  | foreign_connection
  | foreign_release
  deriving DecidableEq, Repr

/-- Which notifier of this runtime a step signals. -/
inductive Notice
  | none
  | drain
  | released
  deriving DecidableEq, Repr

variable {K : Type}

/-- A stream that comes after the stop is turned away, and so is a connection
over a limit; a cycle's releases come from what it admitted. -/
def Env.step [DecidableEq K] (e : Env K) : EnvLabel K → Option (Env K × Notice)
  | .tick d => some ({ e with now := e.now + d }, .none)
  | .admit_stream =>
    some (if e.stopped then e else { e with deliveries := e.deliveries + 1 }, .none)
  | .release_delivery =>
    -- only the decrement to zero notifies
    if 0 < e.deliveries then
      some ({ e with deliveries := e.deliveries - 1 }, if e.deliveries = 1 then .drain else .none)
    else none
  | .admit_connection peer =>
    match e.admission.acquire peer with
    | (.ok _, admission) =>
      some ({ e with admission := admission, connections := peer :: e.connections }, .none)
    | (.error _, admission) => some ({ e with admission := admission }, .none)
  | .release_connection peer =>
    if peer ∈ e.connections then
      some ({ e with
        admission := (e.admission.release peer).2
        connections := e.connections.erase peer }, .released)
    else none
  | .foreign_connection =>
    some ({ e with
      admission := { e.admission with total := e.admission.total + 1 }
      foreign := e.foreign + 1 }, .none)
  -- another cycle's release signals that cycle's notifier, not this one's
  | .foreign_release =>
    if 0 < e.foreign then
      some ({ e with
        admission := { e.admission with total := e.admission.total - 1 }
        foreign := e.foreign - 1 }, .none)
    else none

/-- Where shutdown is. `began` is the clock when the deadline was set. -/
inductive ShutdownPhase
  | serving
  | stopped
  | draining (began deadline : Instant) (w : Waiting)
  | closing (drained : Bool) (began deadline : Instant) (w : Waiting)
  | returned (began : Instant) (verdict : Bool)
  deriving DecidableEq, Repr

/-- The next poll of the shutdown future. -/
def ShutdownPhase.poll (e : Env K) (lag : Duration) : ShutdownPhase → ShutdownPhase
  | .draining began deadline w =>
    match poll_wait e.deliveries deadline e.now lag w with
    | .pending w => .draining began deadline w
    -- whatever the outcome, the connections are waited for up to the same deadline
    | .ready drained => .closing drained began deadline Waiting.fresh
  | .closing drained began deadline w =>
    match poll_wait e.admission.total deadline e.now lag w with
    | .pending w => .closing drained began deadline w
    | .ready connections_closed => .returned began (drained && connections_closed)
  | phase => phase

/-- Shutdown has returned false, or is bound to. -/
def ShutdownPhase.failed : ShutdownPhase → Bool
  | .closing drained _ _ _ => !drained
  | .returned _ verdict => !verdict
  | _ => false

/-- A notifier reaches the wait that is on it. -/
def ShutdownPhase.notice : Notice → ShutdownPhase → ShutdownPhase
  | .drain, .draining began deadline w => .draining began deadline w.notify
  | .released, .closing drained began deadline w => .closing drained began deadline w.notify
  | _, phase => phase

/-- A runtime and where its shutdown stands. -/
structure Cycle (K : Type) where
  env : Env K
  phase : ShutdownPhase

/-- `stop` and `begin` are the first two lines of shutdown, and `poll` the
rest. -/
inductive ShutdownLabel (K : Type)
  | env (a : EnvLabel K)
  | stop
  | begin
  | poll (lag : Duration)
  deriving DecidableEq, Repr

namespace Cycle

/-- A runtime that serves, with nothing in flight. -/
def new (max_per_peer max_total : ℕ) : Cycle K where
  env := ⟨0, false, 0, ConnectionAdmission.new max_per_peer max_total 0, [], 0⟩
  phase := .serving

/-- One step: of the surroundings, or of shutdown. -/
def step [DecidableEq K] (max_instant : Instant) (drain_timeout : Duration) (s : Cycle K) :
    ShutdownLabel K → Option (Cycle K)
  | .env a => (s.env.step a).map fun r => ⟨r.1, s.phase.notice r.2⟩
  | .stop =>
    match s.phase with
    | .serving => some ⟨{ s.env with stopped := true }, .stopped⟩
    | _ => some s
  | .begin =>
    match s.phase with
    | .stopped =>
      some { s with
        phase := .draining s.env.now (drain_deadline max_instant s.env.now drain_timeout)
          Waiting.fresh }
    | _ => some s
  | .poll lag => some { s with phase := s.phase.poll s.env lag }

/-! ## The verdict -/

/-- The drain timeout has elapsed while shutdown waits, and something that this
runtime admitted is not released. -/
def overdue (drain_timeout : Duration) (s : Cycle K) : Bool :=
  match s.phase with
  | .draining began _ _ =>
    began + drain_timeout ≤ s.env.now && (0 < s.env.deliveries || !s.env.connections.isEmpty)
  | .closing _ began _ _ =>
    began + drain_timeout ≤ s.env.now && (0 < s.env.deliveries || !s.env.connections.isEmpty)
  | _ => false

/-- The steps that leave the verdict exact: the deadline is representable, the
clock does not pass it between an iteration's two reads, and no connection of
another serve cycle is in the total when shutdown looks at it. -/
def Undisturbed (max_instant : Instant) (drain_timeout : Duration) (s : Cycle K) :
    ShutdownLabel K → Prop
  | .begin => s.phase = .stopped → s.env.now + drain_timeout ≤ max_instant
  | .poll lag =>
    match s.phase with
    | .draining _ deadline _ => s.env.now < deadline → s.env.now + lag < deadline
    | .closing _ _ deadline _ =>
      (s.env.now < deadline → s.env.now + lag < deadline) ∧ s.env.foreign = 0
    | _ => True
  | _ => True

/-! ## One step at a time -/

/-- **What a poll comes to.** -/
theorem poll_wait_cases (in_flight : ℕ) (deadline now : Instant) (lag : Duration) (w : Waiting) :
    (poll_wait in_flight deadline now lag w = .pending w ∧ w.parked = true ∧ w.notified = false ∧
      now < deadline) ∨
    (poll_wait in_flight deadline now lag w = .ready true ∧ in_flight = 0) ∨
    (poll_wait in_flight deadline now lag w = .ready false ∧ 0 < in_flight ∧ deadline ≤ now + lag) ∨
    (poll_wait in_flight deadline now lag w = .pending ⟨true, false⟩ ∧ 0 < in_flight ∧
      now + lag < deadline) := by
  unfold poll_wait
  split
  · rename_i h
    simp only [Bool.and_eq_true, Bool.not_eq_true', decide_eq_true_eq] at h
    exact .inl ⟨rfl, h.1.1, h.1.2, h.2⟩
  · split
    · rename_i hzero
      exact .inr (.inl ⟨rfl, hzero⟩)
    · rename_i hpos
      split
      · rename_i hover
        exact .inr (.inr (.inl ⟨rfl, Nat.pos_of_ne_zero hpos, Nat.sub_eq_zero_iff_le.mp hover⟩))
      · rename_i hleft
        have hlt : now + lag < deadline :=
          Nat.not_le.mp fun hle => hleft (Nat.sub_eq_zero_of_le hle)
        exact .inr (.inr (.inr ⟨rfl, Nat.pos_of_ne_zero hpos, hlt⟩))

/-- What the surroundings may do in one step. A last delivery and every release
of a connection come with their notice. -/
structure EnvStep (e e' : Env K) (notice : Notice) : Prop where
  stopped : e'.stopped = e.stopped
  total : e.admission.total = e.connections.length + e.foreign →
    e'.admission.total = e'.connections.length + e'.foreign
  drained : e.stopped = true → e.deliveries = 0 → e'.deliveries = 0
  deliveries : notice ≠ .drain → 0 < e.deliveries → 0 < e'.deliveries
  connections : notice ≠ .released → e.connections ≠ [] → e'.connections ≠ []

/-- What the surroundings can do in one step. -/
theorem env_step [DecidableEq K] {e e' : Env K} {a : EnvLabel K} {notice : Notice}
    (h : e.step a = some (e', notice)) : EnvStep e e' notice := by
  cases a with
  | tick d =>
      cases h
      exact ⟨rfl, id, fun _ => id, fun _ => id, fun _ => id⟩
  | admit_stream =>
      cases h
      split
      · exact ⟨rfl, id, fun _ => id, fun _ => id, fun _ => id⟩
      · rename_i hopen
        refine ⟨rfl, id, fun hstopped => absurd hstopped hopen, fun _ _ => ?_, fun _ => id⟩
        exact Nat.succ_pos _
  | release_delivery =>
      simp only [Env.step] at h
      split at h
      · cases h
        refine ⟨rfl, id, fun _ hzero => ?_, fun hnotice _ => ?_, fun _ => id⟩
        · simp only [hzero]
        · -- without the notice it was not the last one
          have hmore : e.deliveries ≠ 1 := fun h => hnotice (if_pos h)
          simp only
          omega
      · cases h
  | admit_connection peer =>
      simp only [Env.step] at h
      rcases e.admission.acquire_cases peer with ⟨_, a', hacq, htotal⟩ | ⟨_, a', hacq, htotal⟩
      · rw [hacq] at h
        cases h
        exact ⟨rfl, fun hold => htotal.trans hold, fun _ => id, fun _ => id, fun _ => id⟩
      · rw [hacq] at h
        cases h
        refine ⟨rfl, fun hold => ?_, fun _ => id, fun _ => id, fun _ _ => List.cons_ne_nil _ _⟩
        simp only [List.length_cons]
        omega
  | release_connection peer =>
      simp only [Env.step] at h
      split at h
      · rename_i hmem
        cases h
        refine ⟨rfl, fun hold => ?_, fun _ => id, fun _ => id, fun h => absurd rfl h⟩
        have hlen := List.length_erase_of_mem hmem
        have hpos := List.length_pos_of_mem hmem
        simp only [ConnectionAdmission.release_total, hlen]
        omega
      · cases h
  | foreign_connection =>
      cases h
      refine ⟨rfl, fun hold => ?_, fun _ => id, fun _ => id, fun _ => id⟩
      simp only
      omega
  | foreign_release =>
      simp only [Env.step] at h
      split at h
      · cases h
        refine ⟨rfl, fun hold => ?_, fun _ => id, fun _ => id, fun _ => id⟩
        simp only
        omega
      · cases h

/-! ## A true verdict is sound

Whatever happens, so the invariant of this section needs no side condition. -/

/-- The deliveries were seen gone, or there is a true verdict. -/
def drained : ShutdownPhase → Bool
  | .closing drained _ _ _ => drained
  | .returned _ verdict => verdict
  | _ => false

/-- The total counts the connections of all serve cycles; a runtime that shuts
down is stopped; and deliveries seen gone are gone. -/
structure Sound (s : Cycle K) : Prop where
  total : s.env.admission.total = s.env.connections.length + s.env.foreign
  stopped : s.phase ≠ .serving → s.env.stopped = true
  drained : drained s.phase = true → s.env.deliveries = 0

variable {max_instant : Instant} {drain_timeout : Duration} {s s' : Cycle K}

theorem sound_new (max_per_peer max_total : ℕ) : Sound (new max_per_peer max_total : Cycle K) :=
  ⟨rfl, fun h => absurd rfl h, fun h => by cases h⟩

/-- A notification does not begin a shutdown. -/
theorem notice_serving {notice : Notice} {phase : ShutdownPhase} :
    phase.notice notice = .serving ↔ phase = .serving := by
  cases notice <;> cases phase <;> simp [ShutdownPhase.notice]

theorem drained_notice (notice : Notice) (phase : ShutdownPhase) :
    drained (phase.notice notice) = drained phase := by
  cases notice <;> cases phase <;> rfl

theorem poll_serving {e : Env K} {lag : Duration} {phase : ShutdownPhase} :
    phase.poll e lag = .serving ↔ phase = .serving := by
  unfold ShutdownPhase.poll
  split
  · split <;> simp
  · split <;> simp
  · exact Iff.rfl

/-- A poll sees the deliveries gone only when they are. -/
theorem drained_poll {e : Env K} {lag : Duration} {phase : ShutdownPhase}
    (h : drained (phase.poll e lag) = true) : drained phase = true ∨ e.deliveries = 0 := by
  unfold ShutdownPhase.poll at h
  split at h
  · rename_i began deadline w
    rcases poll_wait_cases e.deliveries deadline e.now lag w with
      ⟨hp, -⟩ | ⟨-, hzero⟩ | ⟨hp, -⟩ | ⟨hp, -⟩
    · rw [hp] at h
      cases h
    · exact .inr hzero
    · rw [hp] at h
      cases h
    · rw [hp] at h
      cases h
  · rename_i drained began deadline w
    split at h
    · exact .inl h
    · rw [Cycle.drained, Bool.and_eq_true] at h
      exact .inl h.1
  · exact .inl h

/-- **Every step keeps a true verdict sound.** -/
theorem sound_step [DecidableEq K] (s : Cycle K) (a : ShutdownLabel K) (s' : Cycle K) (hs : Sound s)
    (h : s.step max_instant drain_timeout a = some s') : Sound s' := by
  cases a with
  | env a =>
      obtain ⟨⟨e', notice⟩, he, rfl⟩ := Option.map_eq_some_iff.mp h
      have henv := env_step he
      refine ⟨henv.total hs.total, ?_, ?_⟩
      · intro hne
        rw [henv.stopped]
        exact hs.stopped fun hserving => hne (notice_serving.mpr hserving)
      · intro hd
        rw [drained_notice] at hd
        have hstopped : s.env.stopped = true := by
          refine hs.stopped fun hserving => ?_
          rw [hserving] at hd
          cases hd
        exact henv.drained hstopped (hs.drained hd)
  | stop =>
      simp only [step] at h
      split at h
      · cases h
        exact ⟨hs.total, fun _ => rfl, fun h => by cases h⟩
      · cases h
        exact hs
  | begin =>
      simp only [step] at h
      split at h
      · rename_i hphase
        cases h
        exact ⟨hs.total, fun _ => hs.stopped (by rw [hphase]; simp), fun h => by cases h⟩
      · cases h
        exact hs
  | poll lag =>
      cases h
      refine ⟨hs.total, fun hne => ?_, fun hd => ?_⟩
      · exact hs.stopped fun hserving => hne (poll_serving.mpr hserving)
      · rcases drained_poll hd with hold | hzero
        · exact hs.drained hold
        · exact hzero

/-! ## A false verdict is due -/

/-- The deadline is where it should be, and a parked wait that no notice has
reached has something of this runtime's to wait for. -/
def Timely (drain_timeout : Duration) (s : Cycle K) : Prop :=
  match s.phase with
  | .draining began deadline w =>
    deadline = began + drain_timeout ∧
      (w.parked = true → w.notified = false → 0 < s.env.deliveries)
  | .closing _ began deadline w =>
    deadline = began + drain_timeout ∧
      (w.parked = true → w.notified = false → s.env.connections ≠ [])
  | _ => True

theorem notify_unnotified {w : Waiting} (hp : w.notify.parked = true)
    (hn : w.notify.notified = false) : False := by
  have hparked : w.parked = false := hn
  rw [show w.notify.parked = w.parked from rfl, hparked] at hp
  cases hp

/-- The surroundings keep a wait timely. -/
theorem timely_env {e e' : Env K} {notice : Notice} {phase : ShutdownPhase}
    (henv : EnvStep e e' notice) (h : Timely drain_timeout ⟨e, phase⟩) :
    Timely drain_timeout ⟨e', phase.notice notice⟩ := by
  cases phase with
  | serving => cases notice <;> exact trivial
  | stopped => cases notice <;> exact trivial
  | returned began verdict => cases notice <;> exact trivial
  | draining began deadline w =>
      cases notice with
      | drain => exact ⟨h.1, fun hp hn => (notify_unnotified hp hn).elim⟩
      | none => exact ⟨h.1, fun hp hn => henv.deliveries (by simp) (h.2 hp hn)⟩
      | released => exact ⟨h.1, fun hp hn => henv.deliveries (by simp) (h.2 hp hn)⟩
  | closing drained began deadline w =>
      cases notice with
      | released => exact ⟨h.1, fun hp hn => (notify_unnotified hp hn).elim⟩
      | none => exact ⟨h.1, fun hp hn => henv.connections (by simp) (h.2 hp hn)⟩
      | drain => exact ⟨h.1, fun hp hn => henv.connections (by simp) (h.2 hp hn)⟩

/-- With no connection of another cycle in it, a positive total is this runtime's. -/
theorem connections_of_total (hs : Sound s) (hforeign : s.env.foreign = 0)
    (hpos : 0 < s.env.admission.total) : s.env.connections ≠ [] := by
  intro hnil
  have htotal := hs.total
  rw [hnil, hforeign] at htotal
  simp only [List.length_nil] at htotal
  omega

/-- A poll keeps a wait timely. -/
theorem timely_poll (hs : Sound s) (ht : Timely drain_timeout s) {lag : Duration}
    (hC : Undisturbed max_instant drain_timeout s (.poll lag)) :
    Timely drain_timeout { s with phase := s.phase.poll s.env lag } := by
  unfold Timely Undisturbed at *
  unfold ShutdownPhase.poll
  cases hphase : s.phase with
  | serving => trivial
  | stopped => trivial
  | returned began verdict => trivial
  | draining began deadline w =>
      rw [hphase] at ht
      simp only at ht ⊢
      rcases poll_wait_cases s.env.deliveries deadline s.env.now lag w with
        ⟨hp, -⟩ | ⟨hp, -⟩ | ⟨hp, -⟩ | ⟨hp, hpos, -⟩
      · rw [hp]
        exact ht
      · rw [hp]
        exact ⟨ht.1, fun h => by cases h⟩
      · rw [hp]
        exact ⟨ht.1, fun h => by cases h⟩
      · rw [hp]
        exact ⟨ht.1, fun _ _ => hpos⟩
  | closing drained began deadline w =>
      rw [hphase] at ht hC
      simp only at ht hC ⊢
      rcases poll_wait_cases s.env.admission.total deadline s.env.now lag w with
        ⟨hp, -⟩ | ⟨hp, -⟩ | ⟨hp, -⟩ | ⟨hp, hpos, -⟩
      · rw [hp]
        exact ht
      · rw [hp]
        trivial
      · rw [hp]
        trivial
      · rw [hp]
        exact ⟨ht.1, fun _ _ => connections_of_total hs hC.2 hpos⟩

/-- What one step keeps. -/
theorem timely_step [DecidableEq K] (s : Cycle K) (a : ShutdownLabel K) (s' : Cycle K)
    (h : Sound s ∧ Timely drain_timeout s) (hC : Undisturbed max_instant drain_timeout s a)
    (hstep : s.step max_instant drain_timeout a = some s') :
    Sound s' ∧ Timely drain_timeout s' := by
  refine ⟨sound_step s a s' h.1 hstep, ?_⟩
  cases a with
  | env a =>
      obtain ⟨⟨e', notice⟩, he, rfl⟩ := Option.map_eq_some_iff.mp hstep
      exact timely_env (env_step he) h.2
  | stop =>
      simp only [step] at hstep
      split at hstep
      · cases hstep
        trivial
      · cases hstep
        exact h.2
  | begin =>
      simp only [step] at hstep
      split at hstep
      · rename_i hphase
        cases hstep
        refine ⟨?_, fun h => by cases h⟩
        rw [drain_deadline, if_pos (hC hphase)]
      · cases hstep
        exact h.2
  | poll lag =>
      cases hstep
      exact timely_poll h.1 h.2 hC

theorem failed_notice (notice : Notice) (phase : ShutdownPhase) :
    (phase.notice notice).failed = phase.failed := by
  cases notice <;> cases phase <;> rfl

theorem drained_of_not_failed {drained : Bool} {began deadline : Instant} {w : Waiting}
    (hok : ¬ (ShutdownPhase.closing drained began deadline w).failed = true) : drained = true := by
  simpa [ShutdownPhase.failed] using hok

/-- The clock that ran out at the end of an iteration was out when it began, if it
did not pass the deadline in between. -/
theorem due_of_expired {deadline now : Instant} {lag : Duration}
    (hlag : now < deadline → now + lag < deadline) (hover : deadline ≤ now + lag) :
    deadline ≤ now :=
  Nat.not_lt.mp fun hlt => Nat.not_le.mpr (hlag hlt) hover

/-- When a poll fails, the shutdown is overdue. -/
theorem overdue_of_poll_fails (hs : Sound s) (ht : Timely drain_timeout s) {lag : Duration}
    (hC : Undisturbed max_instant drain_timeout s (.poll lag)) (hok : ¬ s.phase.failed = true)
    (hfail : (s.phase.poll s.env lag).failed = true) : s.overdue drain_timeout = true := by
  unfold Timely Undisturbed at *
  unfold overdue
  cases hphase : s.phase with
  | serving =>
      rw [hphase] at hfail
      cases hfail
  | stopped =>
      rw [hphase] at hfail
      cases hfail
  | returned began verdict =>
      rw [hphase] at hfail hok
      exact absurd hfail hok
  | draining began deadline w =>
      rw [hphase] at ht hC hfail
      simp only [ShutdownPhase.poll] at ht hC hfail ⊢
      rcases poll_wait_cases s.env.deliveries deadline s.env.now lag w with
        ⟨hp, -⟩ | ⟨hp, -⟩ | ⟨-, hpos, hover⟩ | ⟨hp, -⟩
      · rw [hp] at hfail
        cases hfail
      · rw [hp] at hfail
        cases hfail
      · rw [← ht.1]
        simp [due_of_expired hC hover, hpos]
      · rw [hp] at hfail
        cases hfail
  | closing drained began deadline w =>
      rw [hphase] at ht hC hfail hok
      simp only [ShutdownPhase.poll] at ht hC hfail ⊢
      rcases poll_wait_cases s.env.admission.total deadline s.env.now lag w with
        ⟨hp, -⟩ | ⟨hp, -⟩ | ⟨-, hpos, hover⟩ | ⟨hp, -⟩
      · rw [hp] at hfail
        exact absurd hfail hok
      · rw [hp, drained_of_not_failed hok] at hfail
        cases hfail
      · -- what is left in the total is this runtime's own
        rw [← ht.1]
        simp [due_of_expired hC.1 hover, connections_of_total hs hC.2 hpos]
      · rw [hp] at hfail
        exact absurd hfail hok

/-- **The verdict turns false only when something is overdue.** -/
theorem overdue_of_fails [DecidableEq K] (hs : Sound s) (ht : Timely drain_timeout s)
    {a : ShutdownLabel K} (hC : Undisturbed max_instant drain_timeout s a)
    (hstep : s.step max_instant drain_timeout a = some s') (hok : ¬ s.phase.failed = true)
    (hfail : s'.phase.failed = true) : s.overdue drain_timeout = true := by
  cases a with
  | env a =>
      obtain ⟨⟨e', notice⟩, he, rfl⟩ := Option.map_eq_some_iff.mp hstep
      rw [failed_notice] at hfail
      exact absurd hfail hok
  | stop =>
      simp only [step] at hstep
      split at hstep
      · cases hstep
        cases hfail
      · cases hstep
        exact absurd hfail hok
  | begin =>
      simp only [step] at hstep
      split at hstep
      · cases hstep
        cases hfail
      · cases hstep
        exact absurd hfail hok
  | poll lag =>
      cases hstep
      exact overdue_of_poll_fails hs ht hC hok hfail

/-! ## Shutdown returns -/

/-- A wait on nothing is over once it is not held up by its `sleep`. -/
theorem poll_wait_zero {deadline now : Instant} {lag : Duration} {w : Waiting}
    (h : w.parked = true → deadline ≤ now) : poll_wait 0 deadline now lag w = .ready true := by
  rcases poll_wait_cases 0 deadline now lag w with
    ⟨-, hp, -, hlt⟩ | ⟨hp, -⟩ | ⟨-, hpos, -⟩ | ⟨-, hpos, -⟩
  · exact absurd hlt (Nat.not_lt.mpr (h hp))
  · exact hp
  · exact absurd hpos (Nat.lt_irrefl 0)
  · exact absurd hpos (Nat.lt_irrefl 0)

/-- The deadline of the wait that shutdown is in. -/
def deadline : ShutdownPhase → Option Instant
  | .draining _ deadline _ => some deadline
  | .closing _ _ deadline _ => some deadline
  | _ => none

/-- **With everything released, shutdown returns true by its deadline.** -/
theorem returns_true [DecidableEq K] {d : Instant} (hwait : deadline s.phase = some d)
    (hok : ¬ s.phase.failed = true) (hdeliveries : s.env.deliveries = 0)
    (htotal : s.env.admission.total = 0) :
    ∃ t began, Machine.run (step max_instant drain_timeout) s
      [.env (.tick (d - s.env.now)), .poll 0, .poll 0] = some t ∧ t.phase = .returned began true := by
  have hlate : d ≤ s.env.now + (d - s.env.now) := Nat.sub_le_iff_le_add'.mp (Nat.le_refl _)
  cases hphase : s.phase with
  | serving =>
      rw [hphase] at hwait
      cases hwait
  | stopped =>
      rw [hphase] at hwait
      cases hwait
  | returned began verdict =>
      rw [hphase] at hwait
      cases hwait
  | draining began deadline w =>
      rw [hphase] at hwait
      cases hwait
      refine ⟨_, began, rfl, ?_⟩
      simp only [hphase, ShutdownPhase.notice, ShutdownPhase.poll, hdeliveries, htotal]
      rw [poll_wait_zero fun _ => hlate]
      simp only
      rw [poll_wait_zero fun _ => hlate]
      rfl
  | closing drained began deadline w =>
      rw [hphase] at hwait hok
      cases hwait
      refine ⟨_, began, rfl, ?_⟩
      simp only [hphase, ShutdownPhase.notice, ShutdownPhase.poll, htotal,
        drained_of_not_failed hok]
      rw [poll_wait_zero fun _ => hlate]
      rfl

/-! ## A longer timeout -/

/-- Two shutdowns on the same schedule, the second with a deadline no earlier.
Until the first fails, they do the same. -/
def Matched : ShutdownPhase → ShutdownPhase → Prop
  | .serving, .serving => True
  | .stopped, .stopped => True
  | .draining began deadline w, .draining began' deadline' w' =>
    began = began' ∧ deadline ≤ deadline' ∧ w = w'
  | .closing drained began deadline w, .closing drained' began' deadline' w' =>
    drained = drained' ∧ began = began' ∧ deadline ≤ deadline' ∧ w = w'
  | .returned began verdict, .returned began' verdict' => began = began' ∧ verdict = verdict'
  | _, _ => False

/-- A later deadline changes a poll only if the earlier one was over with work in
flight. -/
theorem poll_wait_later {in_flight : ℕ} {deadline deadline' now : Instant} {lag : Duration}
    {w : Waiting} (hle : deadline ≤ deadline')
    (hw : w.parked = true → w.notified = false → 0 < in_flight) :
    poll_wait in_flight deadline now lag w = .ready false ∨
      poll_wait in_flight deadline' now lag w = poll_wait in_flight deadline now lag w := by
  rcases poll_wait_cases in_flight deadline now lag w with
    ⟨hp, hparked, hn, hlt⟩ | ⟨hp, hzero⟩ | ⟨hp, -⟩ | ⟨hp, hpos, hlt⟩
  · refine .inr ?_
    rw [hp, poll_wait, if_pos]
    simp only [hparked, hn, Bool.not_false, Bool.and_true, Bool.true_and, decide_eq_true_eq]
    exact Nat.lt_of_lt_of_le hlt hle
  · refine .inr ?_
    rw [hp]
    rcases poll_wait_cases in_flight deadline' now lag w with
      ⟨-, hparked, hn, -⟩ | ⟨hp', -⟩ | ⟨-, hpos, -⟩ | ⟨-, hpos, -⟩
    · exact absurd (hw hparked hn) (by omega)
    · exact hp'
    · exact absurd hpos (by omega)
    · exact absurd hpos (by omega)
  · exact .inl hp
  · refine .inr ?_
    rw [hp]
    rcases poll_wait_cases in_flight deadline' now lag w with
      ⟨hp', hparked, hn, -⟩ | ⟨-, hzero⟩ | ⟨-, -, hover⟩ | ⟨hp', -⟩
    · -- the wait is parked as an iteration leaves it
      rw [hp', ← hparked, ← hn]
    · exact absurd hpos (by omega)
    · exact absurd (Nat.le_trans hle hover) (Nat.not_le.mpr hlt)
    · exact hp'

theorem matched_notice {phase phase' : ShutdownPhase} (notice : Notice)
    (h : Matched phase phase') : Matched (phase.notice notice) (phase'.notice notice) := by
  cases phase <;> cases phase' <;> cases notice <;> simp_all [Matched, ShutdownPhase.notice]

/-- The second shutdown polls as the first, unless the first fails by it. -/
theorem matched_poll (hs : Sound s) (ht : Timely drain_timeout s) {phase' : ShutdownPhase}
    {lag : Duration} (h : Matched s.phase phase') :
    (s.phase.poll s.env lag).failed = true ∨
      Matched (s.phase.poll s.env lag) (phase'.poll s.env lag) := by
  unfold Timely at ht
  cases hphase : s.phase with
  | serving =>
      rw [hphase] at h
      exact .inr (by cases phase' <;> first | exact h | exact h.elim)
  | stopped =>
      rw [hphase] at h
      exact .inr (by cases phase' <;> first | exact h | exact h.elim)
  | returned began verdict =>
      rw [hphase] at h
      exact .inr (by cases phase' <;> first | exact h | exact h.elim)
  | draining began deadline w =>
      rw [hphase] at h ht
      cases phase' with
      | draining began' deadline' w' =>
          obtain ⟨rfl, hle, rfl⟩ := h
          simp only [ShutdownPhase.poll]
          rcases poll_wait_later hle ht.2 with hfail | hsame
          · rw [hfail]
            exact .inl rfl
          · rw [hsame]
            refine .inr ?_
            cases poll_wait s.env.deliveries deadline s.env.now lag w with
            | pending w => exact ⟨rfl, hle, rfl⟩
            | ready zero => exact ⟨rfl, rfl, hle, rfl⟩
      | _ => exact h.elim
  | closing drained began deadline w =>
      rw [hphase] at h ht
      -- a connection of this runtime is in the total
      have hw : w.parked = true → w.notified = false → 0 < s.env.admission.total := by
        intro hp hn
        have hpos := List.length_pos_of_ne_nil (ht.2 hp hn)
        rw [hs.total]
        omega
      cases phase' with
      | closing drained' began' deadline' w' =>
          obtain ⟨rfl, rfl, hle, rfl⟩ := h
          simp only [ShutdownPhase.poll]
          rcases poll_wait_later hle hw with hfail | hsame
          · rw [hfail]
            exact .inl (by simp [ShutdownPhase.failed])
          · rw [hsame]
            refine .inr ?_
            cases poll_wait s.env.admission.total deadline s.env.now lag w with
            | pending w => exact ⟨rfl, rfl, hle, rfl⟩
            | ready zero => exact ⟨rfl, rfl⟩
      | _ => exact h.elim

/-- A failed shutdown stays so. -/
theorem failed_step [DecidableEq K] {a : ShutdownLabel K} (hfail : s.phase.failed = true)
    (hstep : s.step max_instant drain_timeout a = some s') : s'.phase.failed = true := by
  cases a with
  | env a =>
      obtain ⟨⟨e', notice⟩, -, rfl⟩ := Option.map_eq_some_iff.mp hstep
      exact (failed_notice notice s.phase).trans hfail
  | stop =>
      simp only [step] at hstep
      split at hstep
      · rename_i hphase
        rw [hphase] at hfail
        cases hfail
      · cases hstep
        exact hfail
  | begin =>
      simp only [step] at hstep
      split at hstep
      · rename_i hphase
        rw [hphase] at hfail
        cases hfail
      · cases hstep
        exact hfail
  | poll lag =>
      cases hstep
      cases hphase : s.phase with
      | closing drained began deadline w =>
          rw [hphase] at hfail
          have hdrained : drained = false := by
            cases drained with
            | true => cases hfail
            | false => rfl
          simp only [ShutdownPhase.poll, hdrained]
          split <;> rfl
      | returned began verdict =>
          rw [hphase] at hfail
          exact hfail
      | _ =>
          rw [hphase] at hfail
          cases hfail

/-- A run, undisturbed, and a second one on the same schedule with a timeout no
shorter. -/
structure Follows (drain_timeout : Duration) (s t : Cycle K) : Prop where
  sound : Sound s
  timely : Timely drain_timeout s
  env : t.env = s.env
  phase : s.phase.failed = true ∨ Matched s.phase t.phase

/-- Stopping again changes nothing around. -/
theorem stop_stopped [DecidableEq K] {t : Cycle K} (h : t.env.stopped = true) :
    ∃ t', t.step max_instant drain_timeout .stop = some t' ∧ t'.env = t.env := by
  simp only [step]
  split
  · refine ⟨_, rfl, ?_⟩
    simp only [← h]
  · exact ⟨t, rfl, rfl⟩

theorem begin_env [DecidableEq K] (t : Cycle K) :
    ∃ t', t.step max_instant drain_timeout .begin = some t' ∧ t'.env = t.env := by
  simp only [step]
  split
  · exact ⟨_, rfl, rfl⟩
  · exact ⟨t, rfl, rfl⟩

theorem matched_serving {phase phase' : ShutdownPhase} (h : Matched phase phase') :
    phase = .serving ↔ phase' = .serving := by
  cases phase <;> cases phase' <;> simp_all [Matched]

theorem matched_stopped {phase phase' : ShutdownPhase} (h : Matched phase phase') :
    phase = .stopped ↔ phase' = .stopped := by
  cases phase <;> cases phase' <;> simp_all [Matched]

/-- With a longer timeout the stop is the same. -/
theorem follows_stop [DecidableEq K] {longer : Duration} {t : Cycle K}
    (h : Follows drain_timeout s t) (hsound : Sound s') (htimely : Timely drain_timeout s')
    (hstep : s.step max_instant drain_timeout .stop = some s') :
    ∃ t', t.step max_instant longer .stop = some t' ∧ Follows drain_timeout s' t' := by
  simp only [step] at hstep
  split at hstep
  · rename_i hserving
    cases hstep
    rcases h.phase with hfail | hmatch
    · rw [hserving] at hfail
      cases hfail
    · have ht : t.phase = .serving := (matched_serving hmatch).mp hserving
      refine ⟨⟨{ t.env with stopped := true }, .stopped⟩, ?_, hsound, htimely, ?_, .inr trivial⟩
      · simp only [step, ht]
      · rw [h.env]
  · rename_i hne
    cases hstep
    have hstopped : t.env.stopped = true := by
      rw [h.env]
      exact h.sound.stopped hne
    rcases h.phase with hfail | hmatch
    · obtain ⟨t', ht', he⟩ := stop_stopped hstopped
      exact ⟨t', ht', hsound, htimely, he.trans h.env, .inl hfail⟩
    · refine ⟨t, ?_, h⟩
      simp only [step]
      split
      · rename_i hserving
        exact absurd ((matched_serving hmatch).mpr hserving) hne
      · rfl

/-- The wait then has a later deadline. -/
theorem follows_begin [DecidableEq K] {longer : Duration} (hle : drain_timeout ≤ longer)
    {t : Cycle K} (h : Follows drain_timeout s t) (hsound : Sound s')
    (htimely : Timely drain_timeout s')
    (hC : Undisturbed max_instant longer s .begin)
    (hstep : s.step max_instant drain_timeout .begin = some s') :
    ∃ t', t.step max_instant longer .begin = some t' ∧ Follows drain_timeout s' t' := by
  simp only [step] at hstep
  split at hstep
  · rename_i hphase
    cases hstep
    rcases h.phase with hfail | hmatch
    · rw [hphase] at hfail
      cases hfail
    · have ht : t.phase = .stopped := (matched_stopped hmatch).mp hphase
      have hlonger : s.env.now + longer ≤ max_instant := hC hphase
      have hsum : s.env.now + drain_timeout ≤ s.env.now + longer := Nat.add_le_add_left hle _
      refine ⟨{ t with
        phase := .draining t.env.now (drain_deadline max_instant t.env.now longer) Waiting.fresh },
        ?_, hsound, htimely, h.env, .inr ⟨?_, ?_, rfl⟩⟩
      · simp only [step, ht]
      · rw [h.env]
      · rw [h.env, drain_deadline, drain_deadline, if_pos hlonger,
          if_pos (Nat.le_trans hsum hlonger)]
        exact hsum
  · rename_i hne
    cases hstep
    rcases h.phase with hfail | hmatch
    · obtain ⟨t', ht', he⟩ := begin_env t
      exact ⟨t', ht', hsound, htimely, he.trans h.env, .inl hfail⟩
    · refine ⟨t, ?_, h⟩
      simp only [step]
      split
      · rename_i hstopped
        exact absurd ((matched_stopped hmatch).mpr hstopped) hne
      · rfl

/-- **On the same schedule a longer timeout goes on as the shorter one, until
that one fails.** -/
theorem follows_step [DecidableEq K] {longer : Duration} (hle : drain_timeout ≤ longer)
    (s t : Cycle K) (a : ShutdownLabel K) (s' : Cycle K) (h : Follows drain_timeout s t)
    (hC : Undisturbed max_instant drain_timeout s a ∧ Undisturbed max_instant longer s a)
    (hstep : s.step max_instant drain_timeout a = some s') :
    ∃ t', t.step max_instant longer a = some t' ∧ Follows drain_timeout s' t' := by
  obtain ⟨hsound, htimely⟩ := timely_step s a s' ⟨h.sound, h.timely⟩ hC.1 hstep
  cases a with
  | env a =>
      have hfailed : s.phase.failed = true → s'.phase.failed = true := fun hf => failed_step hf hstep
      obtain ⟨⟨e', notice⟩, he, rfl⟩ := Option.map_eq_some_iff.mp hstep
      refine ⟨⟨e', t.phase.notice notice⟩, ?_, hsound, htimely, rfl, ?_⟩
      · rw [step, h.env, he]
        rfl
      · exact h.phase.imp hfailed (matched_notice notice)
  | stop => exact follows_stop h hsound htimely hstep
  | begin => exact follows_begin hle h hsound htimely hC.2 hstep
  | poll lag =>
      have hfailed : s.phase.failed = true → s'.phase.failed = true := fun hf => failed_step hf hstep
      cases hstep
      refine ⟨_, rfl, hsound, htimely, h.env, ?_⟩
      rcases h.phase with hfail | hmatch
      · exact .inl (hfailed hfail)
      · rw [h.env]
        exact matched_poll h.sound h.timely hmatch

/-! ## The verdict of a whole run -/

section Verdict

variable [DecidableEq K] {max_per_peer max_total : ℕ} {l : List (ShutdownLabel K)}

theorem timely_run
    (hC : Machine.Along (step max_instant drain_timeout) (Undisturbed max_instant drain_timeout)
      (new max_per_peer max_total) l)
    (hrun : Machine.run (step max_instant drain_timeout) (new max_per_peer max_total) l = some s) :
    Sound s ∧ Timely drain_timeout s :=
  Machine.along_invariant timely_step ⟨sound_new max_per_peer max_total, trivial⟩ hC hrun

/-- A shutdown that fails was overdue before. -/
theorem overdue_before_failure
    (hC : Machine.Along (step max_instant drain_timeout) (Undisturbed max_instant drain_timeout)
      (new max_per_peer max_total) l)
    (hrun : Machine.run (step max_instant drain_timeout) (new max_per_peer max_total) l = some s)
    (hfail : s.phase.failed = true) :
    ∃ n s₁, Machine.run (step max_instant drain_timeout) (new max_per_peer max_total) (l.take n)
      = some s₁ ∧ s₁.overdue drain_timeout = true := by
  obtain ⟨n, s₁, a, s₂, hpre, ⟨hs, ht⟩, hok, hCa, hstep, hfails⟩ :=
    Machine.exists_first_step timely_step (Q := fun s => s.phase.failed = true)
      ⟨sound_new max_per_peer max_total, trivial⟩ (fun h => by cases h) hfail hC hrun
  exact ⟨n, s₁, hpre, overdue_of_fails hs ht hCa hstep hok hfails⟩

/-- A longer timeout does not turn success into failure. -/
theorem longer_timeout_true {longer : Duration} (hle : drain_timeout ≤ longer)
    (hC : Machine.Along (step max_instant drain_timeout) (Undisturbed max_instant drain_timeout)
      (new max_per_peer max_total) l)
    (hlonger : Machine.Along (step max_instant drain_timeout) (Undisturbed max_instant longer)
      (new max_per_peer max_total) l)
    (hrun : Machine.run (step max_instant drain_timeout) (new max_per_peer max_total) l = some s)
    {began : Instant} (htrue : s.phase = .returned began true) :
    ∃ t, Machine.run (step max_instant longer) (new max_per_peer max_total) l = some t ∧
      t.phase = .returned began true := by
  have hstart : Follows drain_timeout (new max_per_peer max_total) (new max_per_peer max_total : Cycle K) :=
    ⟨sound_new max_per_peer max_total, trivial, rfl, .inr trivial⟩
  obtain ⟨t, ht, hfollows⟩ :=
    Machine.run_simulation (follows_step hle) hstart (Machine.along_and hC hlonger) hrun
  refine ⟨t, ht, ?_⟩
  rcases hfollows.phase with hfail | hmatch
  · rw [htrue] at hfail
    cases hfail
  · rw [htrue] at hmatch
    cases hphase : t.phase with
    | returned began' verdict =>
        rw [hphase] at hmatch
        obtain ⟨rfl, rfl⟩ := hmatch
        rfl
    | _ =>
        rw [hphase] at hmatch
        exact hmatch.elim

/-- What the verdict of a run from `start` says: a false one that something
admitted was overdue on the way, and a true one that every delivery is released;
it comes, and is true, if all is released while shutdown waits; and a longer
timeout has the same true verdict on the same schedule. -/
structure ExactVerdict (max_instant : Instant) (drain_timeout : Duration) (start : Cycle K)
    (l : List (ShutdownLabel K)) (s : Cycle K) : Prop where
  false_overdue : s.phase.failed = true →
    ∃ n s₁, Machine.run (step max_instant drain_timeout) start (l.take n) = some s₁ ∧
      s₁.overdue drain_timeout = true
  returns : ∀ d, deadline s.phase = some d → s.phase.failed = false → s.env.deliveries = 0 →
    s.env.connections = [] → s.env.foreign = 0 →
      ∃ t began, Machine.run (step max_instant drain_timeout) s
        [.env (.tick (d - s.env.now)), .poll 0, .poll 0] = some t ∧ t.phase = .returned began true
  true_drained : ∀ began, s.phase = .returned began true → s.env.deliveries = 0
  longer : ∀ longer, drain_timeout ≤ longer →
    Machine.Along (step max_instant drain_timeout) (Undisturbed max_instant longer) start l →
      ∀ began, s.phase = .returned began true →
        ∃ t, Machine.run (step max_instant longer) start l = some t ∧ t.phase = .returned began true

/-- **An undisturbed shutdown's verdict is exact**, for every timeout and every
interleaving of admissions, releases and time. -/
theorem shutdown_verdict_exact (max_per_peer max_total : ℕ) (max_instant : Instant)
    (drain_timeout : Duration) (l : List (ShutdownLabel K)) (s : Cycle K)
    (hC : Machine.Along (step max_instant drain_timeout) (Undisturbed max_instant drain_timeout)
      (new max_per_peer max_total) l)
    (hrun : Machine.run (step max_instant drain_timeout) (new max_per_peer max_total) l = some s) :
    ExactVerdict max_instant drain_timeout (new max_per_peer max_total) l s := by
  obtain ⟨hsound, -⟩ := timely_run hC hrun
  refine ⟨overdue_before_failure hC hrun, ?_, ?_, ?_⟩
  · intro d hwait hok hdeliveries hconnections hforeign
    refine returns_true hwait (by rw [hok]; simp) hdeliveries ?_
    rw [hsound.total, hconnections, hforeign]
    rfl
  · intro began htrue
    exact hsound.drained (by rw [htrue]; rfl)
  · intro longer hle hlonger began htrue
    exact longer_timeout_true hle hC hlonger hrun htrue

end Verdict

/-- The last instant of a 64-bit Unix clock, and the longest duration. -/
def INSTANT_MAX : Instant := (2 ^ 63 - 1) * 10 ^ 9 + 999999999

/-- `Duration::MAX`, in nanoseconds. -/
def DURATION_MAX : Duration := (2 ^ 64 - 1) * 10 ^ 9 + 999999999

/-- A stream and a connection are admitted and released, the last of each while
shutdown waits for it. -/
def drained_in_time : List (ShutdownLabel ℕ) :=
  [.env .admit_stream, .env (.admit_connection 7), .stop, .begin, .poll 0, .env (.tick 2),
    .env .release_delivery, .poll 0, .poll 0, .env (.tick 1), .env (.release_connection 7), .poll 0]

theorem shutdown_verdict_exact_drained :
    ∃ s, Machine.run (step INSTANT_MAX 5) (new 8 8) drained_in_time = some s ∧
      s.phase = .returned 0 true ∧
      ExactVerdict INSTANT_MAX 5 (new 8 8) drained_in_time s := by
  refine ⟨_, rfl, by decide, shutdown_verdict_exact 8 8 INSTANT_MAX 5 drained_in_time _ ?_ rfl⟩
  refine Machine.along_cons rfl trivial (Machine.along_cons rfl trivial ?_)
  refine Machine.along_cons rfl trivial (Machine.along_cons rfl (fun _ => by decide) ?_)
  refine Machine.along_cons rfl (fun h => h) (Machine.along_cons rfl trivial ?_)
  refine Machine.along_cons rfl trivial (Machine.along_cons rfl (fun h => h) ?_)
  refine Machine.along_cons rfl ⟨fun h => h, rfl⟩ (Machine.along_cons rfl trivial ?_)
  exact Machine.along_cons rfl trivial (Machine.along_cons rfl ⟨fun h => h, rfl⟩ trivial)

/-- Another serve cycle has a connection open all along, and this one has
nothing. -/
def beside_another_cycle : List (ShutdownLabel ℕ) :=
  [.env .foreign_connection, .stop, .begin, .poll 0, .poll 0, .env (.tick 5), .poll 0]

/-- A delivery is in flight when shutdown is called with the longest timeout. -/
def timeout_overflow : List (ShutdownLabel ℕ) :=
  [.env .admit_stream, .stop, .begin, .poll 0, .poll 0]

/-- Shutdown returns false at the deadline for a connection that is not its own,
and at once when the deadline is not representable. -/
theorem shutdown_false_undue :
    (∃ s, Machine.run (step INSTANT_MAX 5) (new 8 8) beside_another_cycle = some s ∧
      s.phase = .returned 0 false ∧
      ∀ n s₁, Machine.run (step INSTANT_MAX 5) (new 8 8) (beside_another_cycle.take n) = some s₁ →
        s₁.overdue 5 = false) ∧
    ∃ s, Machine.run (step INSTANT_MAX DURATION_MAX) (new 8 8) timeout_overflow = some s ∧
      s.phase = .returned 0 false ∧
      ∀ n s₁, Machine.run (step INSTANT_MAX DURATION_MAX) (new 8 8) (timeout_overflow.take n) =
        some s₁ → s₁.overdue DURATION_MAX = false := by
  refine ⟨⟨_, rfl, by decide, ?_⟩, ⟨_, rfl, by decide, ?_⟩⟩
  · have hall : ∀ n < 8, ((Machine.run (step INSTANT_MAX 5) (new 8 8)
        (beside_another_cycle.take n)).all fun s => !s.overdue 5) = true := by decide
    intro n s₁ h
    rw [List.take_eq_take_min] at h
    have hn := hall (min n beside_another_cycle.length) (Nat.lt_succ_of_le (Nat.min_le_right _ _))
    rw [h] at hn
    simpa using hn
  · have hall : ∀ n < 6, ((Machine.run (step INSTANT_MAX DURATION_MAX) (new 8 8)
        (timeout_overflow.take n)).all fun s => !s.overdue DURATION_MAX) = true := by decide
    intro n s₁ h
    rw [List.take_eq_take_min] at h
    have hn := hall (min n timeout_overflow.length) (Nat.lt_succ_of_le (Nat.min_le_right _ _))
    rw [h] at hn
    simpa using hn

end Cycle

end IrohHttp.Serve
