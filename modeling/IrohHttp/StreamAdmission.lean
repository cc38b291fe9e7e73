/-
The stream admission barrier of `iroh-http-core/src/http/server/connection.rs`.

Connection loops admit streams through `StreamAdmissionBarrier::try_admit`, which
counts a request and a delivery under a gate that `stop` takes too. The request
task owns both increments as trackers and gives them back when it finishes, when
it is aborted, or when it is dropped before its first poll; the last delivery to
go wakes the drain, which waits in `wait_for_zero_until`. `StreamAdmission` is
all of these at once, one atomic operation a step: the gate, each load, store
and `fetch_add`, and the two halves of a delivery's drop.

A tracker is live from its increment, which it owns, to its decrement. The
deliveries counter belongs to the runtime. The requests counter is the endpoint's
statistic: every runtime that serves the endpoint counts in it, so the requests
of the others are a number that comes and goes.
-/
import IrohHttp.Machine
import IrohHttp.Parties
import Mathlib.Logic.Function.Basic

set_option autoImplicit false

namespace IrohHttp.Serve

/-! ## The parties -/

/-- A stream, from the `try_admit` call for it to the end of its request task.

`calling` to `counted` is inside `try_admit`, and from `locked` on it holds the
gate. An admitted stream's trackers move into its task when that is spawned;
`serving` is `serve_bistream`, and `delivering` waits for the peer. A task that
is `dropping` was cancelled, whichever way, and has its trackers still to drop. -/
inductive StreamPhase
  | calling
  | locked
  | rejecting
  | rejected
  | checked
  | requested
  | counted
  | admitted
  | spawned
  | serving
  | delivering
  | dropping
  | ended
  deriving DecidableEq, Repr

/-- A stream holds the gate. -/
def StreamPhase.holds_gate : StreamPhase → Bool
  | .locked => true
  | .rejecting => true
  | .checked => true
  | .requested => true
  | .counted => true
  | _ => false

/-- A stream has passed the check of the stop flag, and still holds the gate. -/
def StreamPhase.passed : StreamPhase → Bool
  | .checked => true
  | .requested => true
  | .counted => true
  | _ => false

/-- `try_admit` has returned the stream's trackers. -/
def StreamPhase.was_admitted : StreamPhase → Bool
  | .admitted => true
  | .spawned => true
  | .serving => true
  | .delivering => true
  | .dropping => true
  | .ended => true
  | _ => false

/-- A stream and its trackers. It is `notifying` when its delivery was the last
and it has `notify_waiters` still to call. -/
structure Stream where
  phase : StreamPhase
  request : Bool
  delivery : Bool
  notifying : Bool
  deriving DecidableEq, Repr

/-- A call of `stop`. -/
inductive StopPhase
  | idle
  | locked
  | stored
  | returned
  deriving DecidableEq, Repr

/-- The stop holds the gate's lock. -/
def StopPhase.holds_gate : StopPhase → Bool
  | .locked => true
  | .stored => true
  | _ => false

/-- A call of `wait_for_zero_until`. -/
inductive WaitPhase
  | idle
  | registered
  | nonzero
  | parked
  | returned (drained : Bool)
  deriving DecidableEq, Repr

/-- A waiter, and whether its `Notified` future was notified. -/
structure Waiter where
  phase : WaitPhase
  notified : Bool
  deriving DecidableEq, Repr

/-- A waiter that `notify_waiters` reaches. -/
def WaitPhase.is_registered : WaitPhase → Bool
  | .registered => true
  | .nonzero => true
  | .parked => true
  | _ => false

/-- A waiter that has seen deliveries, and whose wake-up has not come. -/
def Waiter.unwoken (waiter : Waiter) : Bool :=
  (waiter.phase == .nonzero || waiter.phase == .parked) && !waiter.notified

/-- Who holds the gate. -/
inductive Holder
  | stream (i : ℕ)
  | stop (c : ℕ)
  deriving DecidableEq, Repr

/-- The gate, the stop flag, the two counters, and where every stream, stop and waiter stands.
`foreign` counts the requests of the endpoint's other cycles. -/
structure StreamAdmission where
  gate : Option Holder
  stopped : Bool
  requests : ℕ
  deliveries : ℕ
  streams : List Stream
  stops : ℕ → StopPhase
  waiters : ℕ → Waiter
  foreign : ℕ

/-- The steps. `accept` is a connection loop that accepted a stream and calls
`try_admit`, and `advance` that call's next operation; `cancel` is an abort, a
dropped task or a dropped loop. `clock` reads the time against the deadline, and
`wake` resumes a parked waiter that was notified or whose `timer` fired. The
last two are another runtime's requests. -/
inductive Label
  | accept
  | advance (i : ℕ)
  | spawn (i : ℕ)
  | poll (i : ℕ)
  | cancel (i : ℕ)
  | drop_request (i : ℕ)
  | drop_delivery (i : ℕ)
  | notify (i : ℕ)
  | stop (c : ℕ)
  | register (w : ℕ)
  | load (w : ℕ)
  | clock (w : ℕ) (elapsed : Bool)
  | wake (w : ℕ) (timer : Bool)
  | foreign_request
  | foreign_release
  deriving DecidableEq, Repr

namespace StreamAdmission

/-! ## The steps -/

/-- Nothing admitted, nothing in flight. -/
def new : StreamAdmission where
  gate := none
  stopped := false
  requests := 0
  deliveries := 0
  streams := []
  stops := fun _ => .idle
  waiters := fun _ => ⟨.idle, false⟩
  foreign := 0

/-- Stream `i` goes to `st`. -/
def set (s : StreamAdmission) (i : ℕ) (st : Stream) : StreamAdmission :=
  { s with streams := s.streams.set i st }

/-- The next operation of a `try_admit` call. -/
def admit_step (s : StreamAdmission) (i : ℕ) (st : Stream) : Option StreamAdmission :=
  match st.phase with
  | .calling =>
    if s.gate = none then
      some ({ s with gate := some (.stream i) }.set i { st with phase := .locked })
    else none
  -- the flag is read under the gate, and the gate is kept until both counts are up
  | .locked => some (s.set i { st with phase := if s.stopped then .rejecting else .checked })
  | .rejecting => some ({ s with gate := none }.set i { st with phase := .rejected })
  | .checked =>
    some ({ s with requests := s.requests + 1 }.set i
      { st with phase := .requested, request := true })
  | .requested =>
    some ({ s with deliveries := s.deliveries + 1 }.set i
      { st with phase := .counted, delivery := true })
  | .counted => some ({ s with gate := none }.set i { st with phase := .admitted })
  | _ => none

/-- The task of an admitted stream is spawned. -/
def spawn_step (s : StreamAdmission) (i : ℕ) (st : Stream) : Option StreamAdmission :=
  match st.phase with
  | .admitted => some (s.set i { st with phase := .spawned })
  | _ => none

/-- The spawned task is polled for the first time. -/
def poll_step (s : StreamAdmission) (i : ℕ) (st : Stream) : Option StreamAdmission :=
  match st.phase with
  | .spawned => some (s.set i { st with phase := .serving })
  | _ => none

/-- A stream with a permit is dropped, wherever it stands. -/
def cancel_step (s : StreamAdmission) (i : ℕ) (st : Stream) : Option StreamAdmission :=
  match st.phase with
  | .admitted => some (s.set i { st with phase := .dropping })
  | .spawned => some (s.set i { st with phase := .dropping })
  | .serving => some (s.set i { st with phase := .dropping })
  | .delivering => some (s.set i { st with phase := .dropping })
  | _ => none

/-- `RequestTracker::drop`: at the end of `serve_bistream`, or in a cancelled
task. -/
def drop_request_step (s : StreamAdmission) (i : ℕ) (st : Stream) : Option StreamAdmission :=
  if st.request then
    match st.phase with
    | .serving =>
      some ({ s with requests := s.requests - 1 }.set i
        { st with phase := .delivering, request := false })
    | .dropping => some ({ s with requests := s.requests - 1 }.set i { st with request := false })
    | _ => none
  else none

/-- The decrement of `DeliveryTracker::drop`, after the request's. -/
def drop_delivery_step (s : StreamAdmission) (i : ℕ) (st : Stream) : Option StreamAdmission :=
  if st.delivery && !st.request then
    match st.phase with
    | .delivering =>
      some ({ s with deliveries := s.deliveries - 1 }.set i
        { st with phase := .ended, delivery := false, notifying := s.deliveries == 1 })
    | .dropping =>
      some ({ s with deliveries := s.deliveries - 1 }.set i
        { st with phase := .ended, delivery := false, notifying := s.deliveries == 1 })
    | _ => none
  else none

/-- `drain_notify.notify_waiters()`. -/
def notify_step (s : StreamAdmission) (i : ℕ) (st : Stream) : Option StreamAdmission :=
  if st.notifying then
    some ({ s with
      waiters := fun w =>
        if (s.waiters w).phase.is_registered then { s.waiters w with notified := true }
        else s.waiters w }.set i { st with notifying := false })
  else none

/-- The next operation of a `stop` call. -/
def stop_step (s : StreamAdmission) (c : ℕ) : Option StreamAdmission :=
  match s.stops c with
  | .idle =>
    if s.gate = none then
      some { s with gate := some (.stop c), stops := Function.update s.stops c .locked }
    else none
  | .locked => some { s with stopped := true, stops := Function.update s.stops c .stored }
  | .stored => some { s with gate := none, stops := Function.update s.stops c .returned }
  | .returned => none

/-! The operations of `wait_for_zero_until`. -/

/-- Waiter `w` becomes `waiter`. -/
def set_waiter (s : StreamAdmission) (w : ℕ) (waiter : Waiter) : StreamAdmission :=
  { s with waiters := Function.update s.waiters w waiter }

/-- The waiter registers with the notifier. -/
def register_step (s : StreamAdmission) (w : ℕ) : Option StreamAdmission :=
  match (s.waiters w).phase with
  | .idle => some (s.set_waiter w ⟨.registered, false⟩)
  | _ => none

/-- The waiter reads the counter, and returns at zero. -/
def load_step (s : StreamAdmission) (w : ℕ) : Option StreamAdmission :=
  match (s.waiters w).phase with
  | .registered =>
    some (s.set_waiter w
      { s.waiters w with phase := if s.deliveries = 0 then .returned true else .nonzero })
  | _ => none

/-- The waiter reads the clock, and returns at its deadline. -/
def clock_step (s : StreamAdmission) (w : ℕ) (elapsed : Bool) : Option StreamAdmission :=
  match (s.waiters w).phase with
  | .nonzero =>
    some (s.set_waiter w
      { s.waiters w with phase := if elapsed then .returned false else .parked })
  | _ => none

/-- A parked waiter is notified, or its timer ends, and it starts over. -/
def wake_step (s : StreamAdmission) (w : ℕ) (timer : Bool) : Option StreamAdmission :=
  match (s.waiters w).phase with
  | .parked =>
    if (s.waiters w).notified || timer then some (s.set_waiter w ⟨.idle, false⟩) else none
  | _ => none

/-- A step of the stream `i`, if there is one. -/
def stream_step (s : StreamAdmission) (i : ℕ)
    (f : Stream → Option StreamAdmission) : Option StreamAdmission :=
  s.streams[i]?.bind f

/-- One atomic step. -/
def step (s : StreamAdmission) : Label → Option StreamAdmission
  | .accept => some { s with streams := s.streams ++ [⟨.calling, false, false, false⟩] }
  | .advance i => s.stream_step i (s.admit_step i)
  | .spawn i => s.stream_step i (s.spawn_step i)
  | .poll i => s.stream_step i (s.poll_step i)
  | .cancel i => s.stream_step i (s.cancel_step i)
  | .drop_request i => s.stream_step i (s.drop_request_step i)
  | .drop_delivery i => s.stream_step i (s.drop_delivery_step i)
  | .notify i => s.stream_step i (s.notify_step i)
  | .stop c => s.stop_step c
  | .register w => s.register_step w
  | .load w => s.load_step w
  | .clock w elapsed => s.clock_step w elapsed
  | .wake w timer => s.wake_step w timer
  | .foreign_request => some { s with requests := s.requests + 1, foreign := s.foreign + 1 }
  | .foreign_release =>
    if 0 < s.foreign then some { s with requests := s.requests - 1, foreign := s.foreign - 1 }
    else none

/-! ## The invariant -/

/-- No request has been counted for the stream yet. -/
def before_request (phase : StreamPhase) : Bool := !phase.was_admitted && phase != .requested &&
  phase != .counted

/-- The stream has not been admitted, and has not been counted. -/
def before_delivery (phase : StreamPhase) : Bool := !phase.was_admitted && phase != .counted

/-- A stream holds the gate exactly between its lock and its unlock, was not
stopped when it passed, and has no tracker before it counted one. -/
structure StreamOk (gate : Option Holder) (stopped : Bool) (i : ℕ) (st : Stream) : Prop where
  gate : st.phase.holds_gate = true ↔ gate = some (.stream i)
  passed : st.phase.passed = true → stopped = false
  request : before_request st.phase = true → st.request = false
  delivery : before_delivery st.phase = true → st.delivery = false

/-- The wake-ups under way: decrements to zero whose `notify_waiters` is due. -/
def notifications (s : StreamAdmission) : ℕ := s.streams.countP Stream.notifying

/-- The live trackers of this runtime. -/
def live_requests (s : StreamAdmission) : ℕ := s.streams.countP Stream.request

/-- The streams that hold a delivery. -/
def live_deliveries (s : StreamAdmission) : ℕ := s.streams.countP Stream.delivery

/-- The counters count the live trackers, the gate serialises admission with the
stop, and no waiter is left without a wake-up. -/
structure Inv (s : StreamAdmission) : Prop where
  requests : s.requests = s.live_requests + s.foreign
  deliveries : s.deliveries = s.live_deliveries
  streams : ∀ i st, s.streams[i]? = some st → StreamOk s.gate s.stopped i st
  holder : ∀ i, s.gate = some (.stream i) → i < s.streams.length
  stops : ∀ c, (s.stops c).holds_gate = true ↔ s.gate = some (.stop c)
  stopped : ∀ c, s.stops c = .stored ∨ s.stops c = .returned → s.stopped = true
  wake : ∀ w, (s.waiters w).unwoken = true → 0 < s.deliveries ∨ 0 < s.notifications

variable {s s' : StreamAdmission}

theorem inv_new : Inv new where
  requests := rfl
  deliveries := rfl
  streams i st h := by simp [new] at h
  holder i h := by simp [new] at h
  stops c := by simp [new, StopPhase.holds_gate]
  stopped c h := by simp [new] at h
  wake w h := by simp [new, Waiter.unwoken] at h

/-- The count after one stream changed, as what its trackers stand for. -/
theorem countP_set_toNat {l : List Stream} {i : ℕ} {st : Stream} (hi : l[i]? = some st)
    (st' : Stream) (p : Stream → Bool) :
    (l.set i st').countP p + (p st).toNat = l.countP p + (p st').toNat := by
  have hite : ∀ b : Bool, b.toNat = if b = true then 1 else 0 := by decide
  rw [hite, hite]
  exact Parties.countP_set p hi st'

/-- One stream moves, and the gate with it. The counters follow its trackers,
and the waiters are as before unless they are all woken. -/
theorem Inv.set (hinv : Inv s) {i : ℕ} {st : Stream} (hi : s.streams[i]? = some st)
    {st' : Stream} {gate : Option Holder} {requests deliveries : ℕ} {waiters : ℕ → Waiter}
    (hrequests : requests + st.request.toNat = s.requests + st'.request.toNat)
    (hdeliveries : deliveries + st.delivery.toNat = s.deliveries + st'.delivery.toNat)
    (hok : StreamOk gate s.stopped i st')
    (hother : ∀ h, h ≠ .stream i → (gate = some h ↔ s.gate = some h))
    (hwake : ∀ w, (waiters w).unwoken = true →
      0 < deliveries ∨ st'.notifying = true ∨
        (s.waiters w).unwoken = true ∧ s.deliveries ≤ deliveries ∧
          st'.notifying = st.notifying) :
    Inv ({ s with
      gate := gate
      requests := requests
      deliveries := deliveries
      waiters := waiters }.set i st') := by
  have hcount := countP_set_toNat hi st'
  have hlt : i < s.streams.length := (List.getElem?_eq_some_iff.mp hi).1
  refine ⟨?_, ?_, ?_, ?_, ?_, hinv.stopped, ?_⟩
  · have h := hcount Stream.request
    have h₀ := hinv.requests
    simp only [live_requests, StreamAdmission.set] at h₀ ⊢
    omega
  · have h := hcount Stream.delivery
    have h₀ := hinv.deliveries
    simp only [live_deliveries, StreamAdmission.set] at h₀ ⊢
    omega
  · intro j stj hj
    simp only [StreamAdmission.set] at hj
    by_cases hij : i = j
    · rw [← hij, List.getElem?_set_self hlt, Option.some.injEq] at hj
      rw [← hj, ← hij]
      exact hok
    · rw [List.getElem?_set_ne hij] at hj
      obtain ⟨hg, hp, hr, hd⟩ := hinv.streams j stj hj
      have hne : Holder.stream j ≠ Holder.stream i := fun h => hij (by cases h; rfl)
      exact ⟨hg.trans (hother _ hne).symm, hp, hr, hd⟩
  · -- a holder other than this stream held the gate before
    intro j hj
    simp only [StreamAdmission.set, List.length_set]
    by_cases hij : j = i
    · exact hij ▸ hlt
    · exact hinv.holder j ((hother (.stream j) fun h => hij (by cases h; rfl)).mp hj)
  · intro c
    exact (hinv.stops c).trans (hother (.stop c) (by simp)).symm
  · intro w hw
    have h := hcount Stream.notifying
    rcases hwake w hw with hpos | hn | ⟨hold, hle, hsame⟩
    · exact .inl hpos
    · refine .inr (List.countP_pos_iff.mpr ⟨st', ?_, hn⟩)
      exact List.mem_set hlt st'
    · rcases hinv.wake w hold with hpos | hn
      · exact .inl (Nat.lt_of_lt_of_le hpos hle)
      · refine .inr ?_
        rw [hsame] at h
        simp only [notifications, StreamAdmission.set] at hn ⊢
        omega

/-- A stream moves with its trackers, outside the gate or inside it. -/
theorem Inv.move (hinv : Inv s) {i : ℕ} {st : Stream} (hi : s.streams[i]? = some st)
    {phase : StreamPhase} (hok : StreamOk s.gate s.stopped i { st with phase := phase }) :
    Inv (s.set i { st with phase := phase }) :=
  hinv.set hi rfl rfl hok (fun _ _ => Iff.rfl) fun _ hw => .inr (.inr ⟨hw, Nat.le_refl _, rfl⟩)

/-- Taking the gate, and giving it back, is no one else's affair. -/
theorem gate_taken {gate : Option Holder} {x : Holder} (hgate : gate = none) :
    ∀ h, h ≠ x → (some x = some h ↔ gate = some h) := by
  intro h hne
  rw [hgate]
  simp [Ne.symm hne]

theorem gate_given_back {gate : Option Holder} {x : Holder} (hgate : gate = some x) :
    ∀ h, h ≠ x → (none = some h ↔ gate = some h) := by
  intro h hne
  rw [hgate]
  simp [Ne.symm hne]

/-- A stream on its way through `admit`. -/
theorem inv_admit_step (hinv : Inv s) {i : ℕ} {st : Stream} (hi : s.streams[i]? = some st)
    (h : s.admit_step i st = some s') : Inv s' := by
  obtain ⟨hgate, hpassed, hrequest, hdelivery⟩ := hinv.streams i st hi
  unfold admit_step at h
  split at h
  · rename_i hphase
    rw [hphase] at hrequest hdelivery
    split at h
    · rename_i hnone
      cases h
      refine hinv.set hi rfl rfl ⟨?_, ?_, ?_, ?_⟩ (gate_taken hnone) fun _ hw =>
        .inr (.inr ⟨hw, Nat.le_refl _, rfl⟩)
      · simp [StreamPhase.holds_gate]
      · simp [StreamPhase.passed]
      · exact fun _ => hrequest rfl
      · exact fun _ => hdelivery rfl
    · cases h
  · rename_i hphase
    cases h
    rw [hphase] at hgate hrequest hdelivery
    refine hinv.move hi ?_
    cases hstopped : s.stopped with
    | true =>
        exact ⟨hgate, by simp [StreamPhase.passed], fun _ => hrequest rfl, fun _ => hdelivery rfl⟩
    | false => exact ⟨hgate, fun _ => rfl, fun _ => hrequest rfl, fun _ => hdelivery rfl⟩
  · rename_i hphase
    cases h
    rw [hphase] at hgate hrequest hdelivery
    refine hinv.set hi rfl rfl ⟨?_, ?_, ?_, ?_⟩ (gate_given_back (hgate.mp rfl)) fun _ hw =>
      .inr (.inr ⟨hw, Nat.le_refl _, rfl⟩)
    · simp [StreamPhase.holds_gate]
    · simp [StreamPhase.passed]
    · exact fun _ => hrequest rfl
    · exact fun _ => hdelivery rfl
  · rename_i hphase
    cases h
    rw [hphase] at hgate hpassed hrequest hdelivery
    have hno : st.request = false := hrequest rfl
    refine hinv.set hi ?_ rfl ⟨hgate, hpassed, ?_, ?_⟩ (fun _ _ => Iff.rfl) fun _ hw =>
      .inr (.inr ⟨hw, Nat.le_refl _, rfl⟩)
    · rw [hno]
      rfl
    · simp [before_request]
    · exact fun _ => hdelivery rfl
  · rename_i hphase
    cases h
    rw [hphase] at hgate hpassed hrequest hdelivery
    have hno : st.delivery = false := hdelivery rfl
    refine hinv.set hi rfl ?_ ⟨hgate, hpassed, ?_, ?_⟩ (fun _ _ => Iff.rfl) fun _ _ =>
      .inl (Nat.succ_pos _)
    · rw [hno]
      rfl
    · simp [before_request]
    · simp [before_delivery]
  · rename_i hphase
    cases h
    rw [hphase] at hgate
    refine hinv.set hi rfl rfl ⟨?_, ?_, ?_, ?_⟩ (gate_given_back (hgate.mp rfl)) fun _ hw =>
      .inr (.inr ⟨hw, Nat.le_refl _, rfl⟩)
    · simp [StreamPhase.holds_gate]
    · simp [StreamPhase.passed]
    · simp [before_request, StreamPhase.was_admitted]
    · simp [before_delivery, StreamPhase.was_admitted]
  · cases h

/-- An admitted stream is out of the gate's reach, wherever its task is. -/
theorem StreamOk.admitted {gate : Option Holder} {stopped : Bool} {i : ℕ} {st st' : Stream}
    (h : StreamOk gate stopped i st) (hst : st.phase.was_admitted = true)
    (hst' : st'.phase.was_admitted = true) : StreamOk gate stopped i st' := by
  have hout : ∀ phase : StreamPhase, phase.was_admitted = true →
      phase.holds_gate = false ∧ phase.passed = false := by
    intro phase hphase
    cases phase <;> first | exact ⟨rfl, rfl⟩ | cases hphase
  refine ⟨?_, ?_, ?_, ?_⟩
  · rw [(hout _ hst').1, ← h.gate, (hout _ hst).1]
  · rw [(hout _ hst').2]
    exact fun h => by cases h
  · simp [before_request, hst']
  · simp [before_delivery, hst']

theorem inv_spawn (hinv : Inv s) {i : ℕ} {st : Stream} (hi : s.streams[i]? = some st)
    (h : s.spawn_step i st = some s') : Inv s' := by
  unfold spawn_step at h
  split at h
  · rename_i hphase
    cases h
    exact hinv.move hi ((hinv.streams i st hi).admitted (by rw [hphase]; rfl) rfl)
  · cases h

theorem inv_poll (hinv : Inv s) {i : ℕ} {st : Stream} (hi : s.streams[i]? = some st)
    (h : s.poll_step i st = some s') : Inv s' := by
  unfold poll_step at h
  split at h
  · rename_i hphase
    cases h
    exact hinv.move hi ((hinv.streams i st hi).admitted (by rw [hphase]; rfl) rfl)
  · cases h

/-- A stream is dropped. -/
theorem inv_cancel (hinv : Inv s) {i : ℕ} {st : Stream} (hi : s.streams[i]? = some st)
    (h : s.cancel_step i st = some s') : Inv s' := by
  unfold cancel_step at h
  split at h
  all_goals cases h
  all_goals rename_i hphase
  all_goals exact hinv.move hi ((hinv.streams i st hi).admitted (by rw [hphase]; rfl) rfl)

/-- A live tracker is in its counter. -/
theorem Inv.request_pos (hinv : Inv s) {i : ℕ} {st : Stream} (hi : s.streams[i]? = some st)
    (h : st.request = true) : 0 < s.requests := by
  have hpos : 0 < s.live_requests := List.countP_pos_iff.mpr ⟨st, List.mem_of_getElem? hi, h⟩
  rw [hinv.requests]
  omega

theorem Inv.delivery_pos (hinv : Inv s) {i : ℕ} {st : Stream} (hi : s.streams[i]? = some st)
    (h : st.delivery = true) : 0 < s.deliveries := by
  rw [hinv.deliveries]
  exact List.countP_pos_iff.mpr ⟨st, List.mem_of_getElem? hi, h⟩

/-- Its request is counted down. -/
theorem inv_drop_request (hinv : Inv s) {i : ℕ} {st : Stream} (hi : s.streams[i]? = some st)
    (h : s.drop_request_step i st = some s') : Inv s' := by
  unfold drop_request_step at h
  split at h
  · rename_i hlive
    have hpos := hinv.request_pos hi hlive
    have hcount : s.requests - 1 + st.request.toNat = s.requests + false.toNat := by
      rw [hlive, Bool.toNat_true, Bool.toNat_false]
      omega
    split at h
    · rename_i hphase
      cases h
      exact hinv.set hi hcount rfl ((hinv.streams i st hi).admitted (by rw [hphase]; rfl) rfl)
        (fun _ _ => Iff.rfl) fun _ hw => .inr (.inr ⟨hw, Nat.le_refl _, rfl⟩)
    · rename_i hphase
      cases h
      have hadm : st.phase.was_admitted = true := by rw [hphase]; rfl
      exact hinv.set hi hcount rfl ((hinv.streams i st hi).admitted hadm hadm)
        (fun _ _ => Iff.rfl) fun _ hw => .inr (.inr ⟨hw, Nat.le_refl _, rfl⟩)
    · cases h
  · cases h

/-- The decrement either leaves deliveries in flight or makes a wake-up due. -/
theorem inv_drop_delivery (hinv : Inv s) {i : ℕ} {st : Stream} (hi : s.streams[i]? = some st)
    (h : s.drop_delivery_step i st = some s') : Inv s' := by
  unfold drop_delivery_step at h
  split at h
  · rename_i hlive
    rw [Bool.and_eq_true] at hlive
    have hpos := hinv.delivery_pos hi hlive.1
    have hcount : s.deliveries - 1 + st.delivery.toNat = s.deliveries + false.toNat := by
      rw [hlive.1, Bool.toNat_true, Bool.toNat_false]
      omega
    have hwake : 0 < s.deliveries - 1 ∨ (s.deliveries == 1) = true := by
      rw [beq_iff_eq]
      omega
    have hended : ∀ hadm : st.phase.was_admitted = true,
        Inv ({ s with deliveries := s.deliveries - 1 }.set i
          { st with phase := .ended, delivery := false, notifying := s.deliveries == 1 }) :=
      fun hadm => hinv.set hi rfl hcount ((hinv.streams i st hi).admitted hadm rfl)
        (fun _ _ => Iff.rfl) fun _ _ => hwake.imp_right .inl
    split at h
    · rename_i hphase
      cases h
      exact hended (by rw [hphase]; rfl)
    · rename_i hphase
      cases h
      exact hended (by rw [hphase]; rfl)
    · cases h
  · cases h

/-- The wake-up reaches every waiter that has registered, so none is left
unwoken. -/
theorem inv_notify (hinv : Inv s) {i : ℕ} {st : Stream} (hi : s.streams[i]? = some st)
    (h : s.notify_step i st = some s') : Inv s' := by
  unfold notify_step at h
  split at h
  · cases h
    obtain ⟨hgate, hpassed, hrequest, hdelivery⟩ := hinv.streams i st hi
    refine hinv.set hi rfl rfl ⟨hgate, hpassed, hrequest, hdelivery⟩ (fun _ _ => Iff.rfl) ?_
    intro w hw
    -- a waiter that has seen deliveries has registered before, so it was notified
    exfalso
    simp only [Waiter.unwoken] at hw
    split at hw
    · simp at hw
    · rename_i hreg
      cases hp : (s.waiters w).phase <;> simp [hp, WaitPhase.is_registered] at hreg hw
  · cases h

theorem inv_accept (hinv : Inv s) :
    Inv { s with streams := s.streams ++ [⟨.calling, false, false, false⟩] } := by
  refine ⟨?_, ?_, ?_, ?_, hinv.stops, hinv.stopped, ?_⟩
  · rw [hinv.requests]
    simp [live_requests, List.countP_append]
  · rw [hinv.deliveries]
    simp [live_deliveries, List.countP_append]
  · intro i st hi
    rcases Parties.getElem?_concat_cases hi with ⟨rfl, rfl⟩ | hi
    · refine ⟨⟨fun h => (by cases h), fun hgate => ?_⟩, fun h => (by cases h), fun _ => rfl,
        fun _ => rfl⟩
      -- the gate's holder is a stream that was there before
      have hlt := hinv.holder _ hgate
      omega
    · exact hinv.streams i st hi
  · intro i hgate
    have hlt := hinv.holder i hgate
    rw [List.length_append]
    omega
  · intro w hw
    rcases hinv.wake w hw with h | h
    · exact .inl h
    · refine .inr ?_
      simp only [notifications, List.countP_append] at h ⊢
      omega

/-- A stop call moves, and the gate with it. -/
theorem Inv.set_stop (hinv : Inv s) {c : ℕ} {phase : StopPhase} {gate : Option Holder}
    {stopped : Bool} (hother : ∀ h, h ≠ .stop c → (gate = some h ↔ s.gate = some h))
    (hgate : phase.holds_gate = true ↔ gate = some (.stop c))
    (hstored : phase = .stored ∨ phase = .returned → stopped = true)
    (hmono : s.stopped = true → stopped = true)
    (hpassed : ∀ (i : ℕ) (st : Stream), s.streams[i]? = some st →
      st.phase.passed = true → stopped = false) :
    Inv { s with gate := gate, stopped := stopped, stops := Function.update s.stops c phase } := by
  refine ⟨hinv.requests, hinv.deliveries, ?_, ?_, ?_, ?_, hinv.wake⟩
  · intro i st hi
    obtain ⟨hg, -, hr, hd⟩ := hinv.streams i st hi
    exact ⟨hg.trans (hother _ (by simp)).symm, hpassed i st hi, hr, hd⟩
  · intro i hi
    exact hinv.holder i ((hother _ (by simp)).mp hi)
  · intro c'
    simp only [Function.update_apply]
    split
    · rename_i hcc
      rw [hcc]
      exact hgate
    · rename_i hcc
      exact (hinv.stops c').trans (hother _ fun h => hcc (by cases h; rfl)).symm
  · intro c' hc'
    simp only [Function.update_apply] at hc'
    split at hc'
    · exact hstored hc'
    · exact hmono (hinv.stopped c' hc')

/-- A stop on its way. -/
theorem inv_stop (hinv : Inv s) {c : ℕ} (h : s.stop_step c = some s') : Inv s' := by
  have hc := hinv.stops c
  have hpassed : ∀ (i : ℕ) (st : Stream), s.streams[i]? = some st →
      st.phase.passed = true → s.stopped = false := fun i st hi => (hinv.streams i st hi).passed
  unfold stop_step at h
  split at h
  · split at h
    · rename_i hnone
      cases h
      exact hinv.set_stop (gate_taken hnone) (by simp [StopPhase.holds_gate]) (by simp) id hpassed
    · cases h
  · rename_i hphase
    cases h
    rw [hphase] at hc
    refine hinv.set_stop (fun _ _ => Iff.rfl) hc (fun _ => rfl) (fun _ => rfl) ?_
    -- this call holds the gate, so no stream is between its check and its unlock
    intro i st hi hp
    have hholds : st.phase.holds_gate = true := by
      cases hphase' : st.phase <;> simp [hphase', StreamPhase.passed] at hp <;> rfl
    have hgate := ((hinv.streams i st hi).gate.mp hholds).symm.trans (hc.mp rfl)
    cases hgate
  · rename_i hphase
    cases h
    rw [hphase] at hc
    refine hinv.set_stop (gate_given_back (hc.mp rfl)) (by simp [StopPhase.holds_gate]) ?_ id hpassed
    exact fun _ => hinv.stopped c (.inl hphase)
  · cases h

/-- A waiter moves; it is not left unwoken while nothing is due. -/
theorem inv_waiter (hinv : Inv s) {w : ℕ} {waiter : Waiter}
    (h : waiter.unwoken = true → 0 < s.deliveries ∨ 0 < s.notifications) :
    Inv (s.set_waiter w waiter) := by
  refine ⟨hinv.requests, hinv.deliveries, hinv.streams, hinv.holder, hinv.stops, hinv.stopped, ?_⟩
  intro w' hw'
  simp only [set_waiter, Function.update_apply] at hw'
  split at hw'
  · exact h hw'
  · exact hinv.wake w' hw'

theorem inv_register (hinv : Inv s) {w : ℕ} (h : s.register_step w = some s') : Inv s' := by
  unfold register_step at h
  split at h
  · cases h
    exact inv_waiter hinv fun h => by cases h
  · cases h

/-- A waiter reads the counter. -/
theorem inv_load (hinv : Inv s) {w : ℕ} (h : s.load_step w = some s') : Inv s' := by
  unfold load_step at h
  split at h
  · cases h
    refine inv_waiter hinv ?_
    by_cases hzero : s.deliveries = 0
    · rw [if_pos hzero]
      exact fun h => by cases h
    · -- it registered before it loaded, so the last decrement is still to come
      exact fun _ => .inl (Nat.pos_of_ne_zero hzero)
  · cases h

theorem inv_clock (hinv : Inv s) {w : ℕ} {elapsed : Bool} (h : s.clock_step w elapsed = some s') :
    Inv s' := by
  unfold clock_step at h
  split at h
  · rename_i hphase
    cases h
    refine inv_waiter hinv ?_
    cases elapsed with
    | true => exact fun h => by cases h
    | false =>
        intro hw
        refine hinv.wake w ?_
        simp only [Waiter.unwoken, hphase] at hw ⊢
        exact hw
  · cases h

/-- A waiter wakes. -/
theorem inv_wake (hinv : Inv s) {w : ℕ} {timer : Bool} (h : s.wake_step w timer = some s') :
    Inv s' := by
  unfold wake_step at h
  split at h
  · split at h
    · cases h
      exact inv_waiter hinv fun h => by cases h
    · cases h
  · cases h

theorem stream_step_eq_some {i : ℕ} {f : Stream → Option StreamAdmission}
    (h : s.stream_step i f = some s') : ∃ st, s.streams[i]? = some st ∧ f st = some s' :=
  Option.bind_eq_some_iff.mp h

/-- **Every step keeps the invariant.** -/
theorem inv_step (s : StreamAdmission) (a : Label) (s' : StreamAdmission) (hinv : Inv s)
    (h : s.step a = some s') : Inv s' := by
  cases a with
  | accept =>
      cases h
      exact inv_accept hinv
  | advance i =>
      obtain ⟨st, hi, h⟩ := stream_step_eq_some h
      exact inv_admit_step hinv hi h
  | spawn i =>
      obtain ⟨st, hi, h⟩ := stream_step_eq_some h
      exact inv_spawn hinv hi h
  | poll i =>
      obtain ⟨st, hi, h⟩ := stream_step_eq_some h
      exact inv_poll hinv hi h
  | cancel i =>
      obtain ⟨st, hi, h⟩ := stream_step_eq_some h
      exact inv_cancel hinv hi h
  | drop_request i =>
      obtain ⟨st, hi, h⟩ := stream_step_eq_some h
      exact inv_drop_request hinv hi h
  | drop_delivery i =>
      obtain ⟨st, hi, h⟩ := stream_step_eq_some h
      exact inv_drop_delivery hinv hi h
  | notify i =>
      obtain ⟨st, hi, h⟩ := stream_step_eq_some h
      exact inv_notify hinv hi h
  | stop c => exact inv_stop hinv h
  | register w => exact inv_register hinv h
  | load w => exact inv_load hinv h
  | clock w elapsed => exact inv_clock hinv h
  | wake w timer => exact inv_wake hinv h
  | foreign_request =>
      cases h
      refine ⟨?_, hinv.deliveries, hinv.streams, hinv.holder, hinv.stops, hinv.stopped, hinv.wake⟩
      have hr := hinv.requests
      simp only [live_requests] at hr ⊢
      omega
  | foreign_release =>
      simp only [step] at h
      split at h
      · cases h
        refine ⟨?_, hinv.deliveries, hinv.streams, hinv.holder, hinv.stops, hinv.stopped, hinv.wake⟩
        have hr := hinv.requests
        simp only [live_requests] at hr ⊢
        omega
      · cases h

/-! ## After the stop -/

/-- `try_admit` has returned the trackers of stream `i`. -/
def AdmittedIn (s : StreamAdmission) (i : ℕ) : Prop :=
  ∃ st, s.streams[i]? = some st ∧ st.phase.was_admitted = true

/-- Nothing is admitted from `s` to `s'`. -/
structure NoneAdmitted (s s' : StreamAdmission) : Prop where
  stops : ∀ c, s.stops c = .returned → s'.stops c = .returned
  deliveries : s'.deliveries ≤ s.deliveries
  admitted : ∀ i, s'.AdmittedIn i → s.AdmittedIn i

/-- A step that touches no stream admits none. -/
theorem none_admitted_of_eq (hstops : ∀ c, s.stops c = .returned → s'.stops c = .returned)
    (hdeliveries : s'.deliveries = s.deliveries) (hstreams : s'.streams = s.streams) :
    NoneAdmitted s s' := by
  refine ⟨hstops, Nat.le_of_eq hdeliveries, fun i hi => ?_⟩
  rw [AdmittedIn, hstreams] at hi
  exact hi

/-- A step of a stream that was admitted before admits none. -/
theorem none_admitted_set {i : ℕ} {st st' : Stream} (hi : s.streams[i]? = some st)
    (hst : st'.phase.was_admitted = true → st.phase.was_admitted = true) {gate : Option Holder}
    {requests deliveries : ℕ} {waiters : ℕ → Waiter} (hdeliveries : deliveries ≤ s.deliveries) :
    NoneAdmitted s ({ s with
      gate := gate
      requests := requests
      deliveries := deliveries
      waiters := waiters }.set i st') := by
  have hlt : i < s.streams.length := (List.getElem?_eq_some_iff.mp hi).1
  refine ⟨fun _ => id, hdeliveries, ?_⟩
  rintro j ⟨stj, hj, hadm⟩
  simp only [StreamAdmission.set] at hj
  by_cases hij : i = j
  · rw [← hij, List.getElem?_set_self hlt, Option.some.injEq] at hj
    rw [← hij]
    exact ⟨st, hi, hst (hj ▸ hadm)⟩
  · rw [List.getElem?_set_ne hij] at hj
    exact ⟨stj, hj, hadm⟩

/-- A `try_admit` call that is past the check has not been stopped, so none is
once a stop call has returned. -/
theorem none_admitted_admit_step (hinv : Inv s) {c : ℕ} (hc : s.stops c = .returned) {i : ℕ}
    {st : Stream} (hi : s.streams[i]? = some st) (h : s.admit_step i st = some s') :
    NoneAdmitted s s' := by
  -- the stop flag is set, so the call is not past its check
  have hpassed : st.phase.passed = false := by
    have hstopped := hinv.stopped c (.inr hc)
    by_contra hp
    rw [Bool.not_eq_false] at hp
    rw [(hinv.streams i st hi).passed hp] at hstopped
    cases hstopped
  unfold admit_step at h
  split at h
  · split at h
    · cases h
      exact none_admitted_set hi (fun h => by cases h) (Nat.le_refl _)
    · cases h
  · cases h
    refine none_admitted_set hi (fun h => ?_) (Nat.le_refl _)
    cases hstopped : s.stopped <;> rw [hstopped] at h <;> cases h
  · cases h
    exact none_admitted_set hi (fun h => by cases h) (Nat.le_refl _)
  · rename_i hphase
    rw [hphase] at hpassed
    cases hpassed
  · rename_i hphase
    rw [hphase] at hpassed
    cases hpassed
  · rename_i hphase
    rw [hphase] at hpassed
    cases hpassed
  · cases h

theorem none_admitted_drop_request {i : ℕ} {st : Stream} (hi : s.streams[i]? = some st)
    (h : s.drop_request_step i st = some s') : NoneAdmitted s s' := by
  unfold drop_request_step at h
  split at h
  · split at h
    · rename_i hphase
      cases h
      exact none_admitted_set hi (fun _ => by rw [hphase]; rfl) (Nat.le_refl _)
    · cases h
      refine none_admitted_set hi ?_ (Nat.le_refl _)
      exact fun h => h
    · cases h
  · cases h

theorem none_admitted_drop_delivery {i : ℕ} {st : Stream} (hi : s.streams[i]? = some st)
    (h : s.drop_delivery_step i st = some s') : NoneAdmitted s s' := by
  unfold drop_delivery_step at h
  split at h
  · split at h
    · rename_i hphase
      cases h
      exact none_admitted_set hi (fun _ => by rw [hphase]; rfl) (Nat.sub_le _ _)
    · rename_i hphase
      cases h
      exact none_admitted_set hi (fun _ => by rw [hphase]; rfl) (Nat.sub_le _ _)
    · cases h
  · cases h

/-- A stop call that has returned makes no further step. -/
theorem none_admitted_stop {c' : ℕ} (h : s.stop_step c' = some s') : NoneAdmitted s s' := by
  have hkept : ∀ {phase : StopPhase}, s.stops c' ≠ .returned →
      ∀ c, s.stops c = .returned → Function.update s.stops c' phase c = .returned := by
    intro phase hne c hc
    have hcc : c ≠ c' := fun h => hne (h ▸ hc)
    rw [Function.update_of_ne hcc]
    exact hc
  unfold stop_step at h
  split at h
  · rename_i hphase
    split at h
    · cases h
      exact none_admitted_of_eq (hkept (by rw [hphase]; simp)) rfl rfl
    · cases h
  · rename_i hphase
    cases h
    exact none_admitted_of_eq (hkept (by rw [hphase]; simp)) rfl rfl
  · rename_i hphase
    cases h
    exact none_admitted_of_eq (hkept (by rw [hphase]; simp)) rfl rfl
  · cases h

/-- **Once a stop call has returned, no step admits a stream or counts a
delivery.** -/
theorem none_admitted_step (hinv : Inv s) {c : ℕ} (hc : s.stops c = .returned) {a : Label}
    (h : s.step a = some s') : NoneAdmitted s s' := by
  cases a with
  | accept =>
      cases h
      refine ⟨fun _ => id, Nat.le_refl _, ?_⟩
      rintro i ⟨st, hi, hadm⟩
      rcases Parties.getElem?_concat_cases hi with ⟨-, rfl⟩ | hi
      · cases hadm
      · exact ⟨st, hi, hadm⟩
  -- the one step that could admit: behind a returned stop the flag is set, and it reads it
  | advance i =>
      obtain ⟨st, hi, h⟩ := stream_step_eq_some h
      exact none_admitted_admit_step hinv hc hi h
  | spawn i =>
      obtain ⟨st, hi, h⟩ := stream_step_eq_some h
      unfold spawn_step at h
      split at h <;> cases h
      rename_i hphase
      exact none_admitted_set hi (fun _ => by rw [hphase]; rfl) (Nat.le_refl _)
  | poll i =>
      obtain ⟨st, hi, h⟩ := stream_step_eq_some h
      unfold poll_step at h
      split at h <;> cases h
      rename_i hphase
      exact none_admitted_set hi (fun _ => by rw [hphase]; rfl) (Nat.le_refl _)
  | cancel i =>
      obtain ⟨st, hi, h⟩ := stream_step_eq_some h
      unfold cancel_step at h
      split at h
      all_goals cases h
      all_goals rename_i hphase
      all_goals exact none_admitted_set hi (fun _ => by rw [hphase]; rfl) (Nat.le_refl _)
  | drop_request i =>
      obtain ⟨st, hi, h⟩ := stream_step_eq_some h
      exact none_admitted_drop_request hi h
  | drop_delivery i =>
      obtain ⟨st, hi, h⟩ := stream_step_eq_some h
      exact none_admitted_drop_delivery hi h
  | notify i =>
      obtain ⟨st, hi, h⟩ := stream_step_eq_some h
      unfold notify_step at h
      split at h
      · cases h
        refine none_admitted_set hi ?_ (Nat.le_refl _)
        exact fun h => h
      · cases h
  | stop c' => exact none_admitted_stop h
  | register w =>
      simp only [step] at h
      unfold register_step at h
      split at h <;> cases h
      exact none_admitted_of_eq (fun _ => id) rfl rfl
  | load w =>
      simp only [step] at h
      unfold load_step at h
      split at h <;> cases h
      exact none_admitted_of_eq (fun _ => id) rfl rfl
  | clock w elapsed =>
      simp only [step] at h
      unfold clock_step at h
      split at h <;> cases h
      exact none_admitted_of_eq (fun _ => id) rfl rfl
  | wake w timer =>
      simp only [step] at h
      unfold wake_step at h
      split at h
      · split at h <;> cases h
        exact none_admitted_of_eq (fun _ => id) rfl rfl
      · cases h
  | foreign_request =>
      cases h
      exact none_admitted_of_eq (fun _ => id) rfl rfl
  | foreign_release =>
      simp only [step] at h
      split at h <;> cases h
      exact none_admitted_of_eq (fun _ => id) rfl rfl

/-- The same over a whole run. -/
theorem none_admitted_run (hinv : Inv s) {c : ℕ} (hc : s.stops c = .returned) {l : List Label}
    {t : StreamAdmission} (hrun : Machine.run step s l = some t) : NoneAdmitted s t := by
  have hkeep : ∀ u a u', (Inv u ∧ NoneAdmitted s u) → u.step a = some u' →
      Inv u' ∧ NoneAdmitted s u' := by
    rintro u a u' ⟨hu, hsu⟩ hstep
    have huu' := none_admitted_step hu (hsu.stops c hc) hstep
    refine ⟨inv_step u a u' hu hstep, fun c hc => huu'.stops c (hsu.stops c hc), ?_, ?_⟩
    · exact Nat.le_trans huu'.deliveries hsu.deliveries
    · exact fun i hi => hsu.admitted i (huu'.admitted i hi)
  have hself : NoneAdmitted s s := ⟨fun _ => id, Nat.le_refl _, fun _ => id⟩
  exact (Machine.run_invariant hkeep ⟨hinv, hself⟩ hrun).2

/-! ## The barrier -/

/-- **The stream admission barrier.** In every state that the parties reach, the
counters count the live trackers, the requests counter those of every runtime
that shares it; after a stop call has returned no stream is admitted any more,
and deliveries that are zero stay zero; and a parked waiter has been notified or
is about to be when there are no deliveries. -/
theorem admission_barrier (l : List Label) (s : StreamAdmission)
    (hrun : Machine.run step new l = some s) :
    (s.deliveries = s.live_deliveries ∧ s.requests = s.live_requests + s.foreign) ∧
      (∀ c, s.stops c = .returned → ∀ l' t, Machine.run step s l' = some t →
        (∀ i, t.AdmittedIn i → s.AdmittedIn i) ∧ (s.deliveries = 0 → t.deliveries = 0)) ∧
      ∀ w, (s.waiters w).phase = .parked → s.deliveries = 0 →
        (s.waiters w).notified = true ∨ 0 < s.notifications := by
  have hinv : Inv s := Machine.run_invariant inv_step inv_new hrun
  refine ⟨⟨hinv.deliveries, hinv.requests⟩, ?_, ?_⟩
  · intro c hc l' t hrun'
    have hnone := none_admitted_run hinv hc hrun'
    refine ⟨hnone.admitted, fun hzero => ?_⟩
    have hle := hnone.deliveries
    omega
  · intro w hparked hzero
    by_cases hn : (s.waiters w).notified = true
    · exact .inl hn
    · have hunwoken : (s.waiters w).unwoken = true := by
        simp [Waiter.unwoken, hparked, hn]
      rcases hinv.wake w hunwoken with hpos | hpos
      · omega
      · exact .inr hpos

/-- A stream is admitted, the runtime stops and the drain parks; then the task is
aborted before its first poll, and its last decrement has the wake-up to come. -/
def aborted_before_its_first_poll : List Label :=
  [.accept, .advance 0, .advance 0, .advance 0, .advance 0, .advance 0, .spawn 0, .stop 0, .stop 0, .stop 0,
    .register 0, .load 0, .clock 0 false, .cancel 0, .drop_request 0, .drop_delivery 0]

theorem admission_barrier_aborted :
    ∃ s, Machine.run step new aborted_before_its_first_poll = some s ∧
      s.stops 0 = .returned ∧ (s.waiters 0).phase = .parked ∧ s.deliveries = 0 ∧
      (s.waiters 0).notified = false ∧ s.notifications = 1 ∧
      ((s.deliveries = s.live_deliveries ∧ s.requests = s.live_requests + s.foreign) ∧
        (∀ c, s.stops c = .returned → ∀ l' t, Machine.run step s l' = some t →
          (∀ i, t.AdmittedIn i → s.AdmittedIn i) ∧ (s.deliveries = 0 → t.deliveries = 0)) ∧
        ∀ w, (s.waiters w).phase = .parked → s.deliveries = 0 →
          (s.waiters w).notified = true ∨ 0 < s.notifications) :=
  ⟨_, rfl, by decide, by decide, by decide, by decide, by decide,
    admission_barrier aborted_before_its_first_poll _ rfl⟩

/-- The requests counter alone does not say how many requests this runtime has:
another serve cycle of the endpoint admits one. -/
theorem requests_of_another_runtime :
    ¬ ∀ l s, Machine.run step new l = some s →
      s.deliveries = s.live_deliveries ∧ s.requests = s.live_requests := by
  intro h
  have hcount := (h [.foreign_request] _ rfl).2
  revert hcount
  decide

end StreamAdmission

end IrohHttp.Serve
