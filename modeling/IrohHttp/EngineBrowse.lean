/-
`engine/session.rs`: a `BrowseSession` hands on the events of a transport one at a time.

A `next` takes the gate, and if the session is open it waits for an operation: a task
that makes one transport call and leaves the result in a slot. A call that is dropped
while it waits leaves the operation where it is, for the call that has the gate next.
Closing does not take the gate: it sets a flag, which a `next` reads before it begins and
once more when it has a result.

One step is one access to what the calls share: a lock, the flag, the slot, the list of
callbacks, the handle. Calls are dropped only where they await.
-/
import IrohHttp.Machine
import IrohHttp.Parties

set_option autoImplicit false

namespace IrohHttp.EngineBrowse

open Parties

/-! ## Operations -/

/-- An operation in a task of its own, and what it left for those who wait. -/
structure InFlight (T : Type) where
  result : Option T := none

/-- An operation without a result. -/
def InFlight.new {T : Type} : InFlight T := {}

/-- The operation has its result. -/
def InFlight.complete {T : Type} (operation : InFlight T) (result : T) : InFlight T :=
  { operation with result := some result }

/-- The slot is empty, if it still has the operation. -/
def clear_operation (slot : Option ℕ) (completed : ℕ) : Option ℕ :=
  if slot = some completed then none else slot

/-! ## The session -/

/-- What a call of the transport comes to: an event, the end, or an error. -/
abbrev BrowseOutcome (Event : Type) := Except String (Option Event)

/-- Where `close` is. Callbacks are named by the call that registered them. -/
inductive Closing
  | swap
  | request
  | take
  | run (callbacks : List ℕ)

/-- What a call does after its `close`. -/
inductive After (Event : Type)
  | returns (outcome : BrowseOutcome Event)
  | close
  | wait_closed

/-- A call of the session, by its next step: `next`, `close` and what follows it,
`on_close`, `wait_closed`. -/
inductive Call (Event : Type)
  | next_gate
  | next_check
  | next_begin
  | next_wait (operation : ℕ)
  | next_clear (operation : ℕ) (result : BrowseOutcome Event)
  | next_decide (result : BrowseOutcome Event)
  | next_event (event : Event)
  | next_returned (outcome : BrowseOutcome Event)
  | closing (stage : Closing) (after : After Event)
  | close_returned
  | on_close_lock
  | on_close_check
  | on_close_push
  | on_close_run
  | on_close_returned
  | wait_gate
  | wait_slot
  | wait_operation (operation : ℕ)
  | wait_clear (operation : ℕ)
  | wait_handle
  | wait_returned
  | dropped

/-- A session and its calls. The last three are a record: the times the handle was asked
to close, the callbacks that ran, and the events that calls have returned. -/
structure BrowseSession (Event : Type) where
  calls : List (Call Event) := []
  next_gate : Option ℕ := none
  next_operation : Option ℕ := none
  operations : List (InFlight (BrowseOutcome Event)) := []
  terminal : Bool := false
  callbacks_lock : Option ℕ := none
  close_callbacks : List ℕ := []
  requests : ℕ := 0
  ran : List ℕ := []
  delivered : List (ℕ × Event) := []

/-- What can happen: calls of the host, their next steps, calls that are dropped, and the transport.
-/
inductive Label (Event : Type)
  | next
  | close
  | on_close
  | wait_closed
  | advance (call : ℕ)
  | cancel (call : ℕ)
  | transport (operation : ℕ) (outcome : BrowseOutcome Event)

variable {Event : Type}

namespace BrowseSession

/-- A call gets to another place. -/
def move (s : BrowseSession Event) (call : ℕ) (c : Call Event) : BrowseSession Event :=
  { s with calls := s.calls.set call c }

/-- A new call. -/
def begin_call (s : BrowseSession Event) (c : Call Event) : BrowseSession Event :=
  { s with calls := s.calls ++ [c] }

/-- A call returns or is dropped, and with it the guard of the gate. -/
def leave (s : BrowseSession Event) (call : ℕ) (c : Call Event) : BrowseSession Event :=
  { s with next_gate := none }.move call c

/-- The gate of `next`, when it is free. -/
def lock_gate (s : BrowseSession Event) (call : ℕ) (c : Call Event) :
    Option (BrowseSession Event) :=
  if s.next_gate = none then some ({ s with next_gate := some call }.move call c) else none

/-- The lock of the callbacks, when it is free. -/
def lock_callbacks (s : BrowseSession Event) (call : ℕ) (c : Call Event) :
    Option (BrowseSession Event) :=
  if s.callbacks_lock = none then some ({ s with callbacks_lock := some call }.move call c)
  else none

/-- The result of an operation, when there is one. -/
def result (s : BrowseSession Event) (operation : ℕ) : Option (BrowseOutcome Event) :=
  (s.operations[operation]?).bind (·.result)

/-- `next`, with the gate. -/
def begin_operation (s : BrowseSession Event) (call : ℕ) : BrowseSession Event :=
  match s.next_operation with
  | some operation => s.move call (.next_wait operation)
  | none =>
    { s with
      next_operation := some s.operations.length
      operations := s.operations ++ [InFlight.new] }.move call (.next_wait s.operations.length)

/-- What a call of `next` makes of its result; a session that was closed meanwhile has no event. -/
def decide (s : BrowseSession Event) (call : ℕ) (result : BrowseOutcome Event) :
    BrowseSession Event :=
  if s.terminal then s.leave call (.next_returned (.ok none))
  else
    match result with
    | .ok (some event) => s.move call (.next_event event)
    | .ok none => s.move call (.closing .swap (.returns (.ok none)))
    | .error error => s.move call (.closing .swap (.returns (.error error)))

/-- After `close`. -/
def closed (s : BrowseSession Event) (call : ℕ) : After Event → BrowseSession Event
  | .returns outcome => s.leave call (.next_returned outcome)
  | .close => s.move call .close_returned
  | .wait_closed => s.move call .wait_gate

/-- The steps of a close: the flag, the request, the callbacks, and what follows. -/
def close (s : BrowseSession Event) (call : ℕ) (after : After Event) :
    Closing → Option (BrowseSession Event)
  | .swap =>
    if s.terminal then some (s.closed call after)
    else some ({ s with terminal := true }.move call (.closing .request after))
  | .request => some ({ s with requests := s.requests + 1 }.move call (.closing .take after))
  | .take =>
    if s.callbacks_lock = none then
      some ({ s with close_callbacks := [] }.move call (.closing (.run s.close_callbacks) after))
    else none
  | .run (callback :: callbacks) =>
    some ({ s with ran := s.ran ++ [callback] }.move call (.closing (.run callbacks) after))
  | .run [] => some (s.closed call after)

/-- The next step of a call, `none` while it waits. -/
def advance (s : BrowseSession Event) (call : ℕ) : Call Event → Option (BrowseSession Event)
  | .next_gate => s.lock_gate call .next_check
  | .next_check =>
    if s.terminal then some (s.leave call (.next_returned (.ok none)))
    else some (s.move call .next_begin)
  | .next_begin => some (s.begin_operation call)
  | .next_wait operation => (s.result operation).map fun r => s.move call (.next_clear operation r)
  | .next_clear operation r =>
    some ({ s with next_operation := clear_operation s.next_operation operation }.move call
      (.next_decide r))
  | .next_decide r => some (s.decide call r)
  | .next_event event =>
    some ({ s with delivered := s.delivered ++ [(call, event)] }.leave call
      (.next_returned (.ok (some event))))
  | .closing stage after => s.close call after stage
  | .on_close_lock => s.lock_callbacks call .on_close_check
  | .on_close_check =>
    if s.terminal then some ({ s with callbacks_lock := none }.move call .on_close_run)
    else some (s.move call .on_close_push)
  | .on_close_push =>
    some ({ s with callbacks_lock := none, close_callbacks := s.close_callbacks ++ [call] }.move call
      .on_close_returned)
  | .on_close_run => some ({ s with ran := s.ran ++ [call] }.move call .on_close_returned)
  | .wait_gate => s.lock_gate call .wait_slot
  | .wait_slot =>
    match s.next_operation with
    | some operation => some (s.move call (.wait_operation operation))
    | none => some (s.move call .wait_handle)
  | .wait_operation operation => (s.result operation).map fun _ => s.move call (.wait_clear operation)
  | .wait_clear operation =>
    some ({ s with next_operation := clear_operation s.next_operation operation }.move call
      .wait_handle)
  | .wait_handle => some (s.leave call .wait_returned)
  | _ => none

/-- A future is dropped at an await, and with it the guard it may have. -/
def cancel (s : BrowseSession Event) (call : ℕ) : Call Event → Option (BrowseSession Event)
  | .next_gate => some (s.move call .dropped)
  | .next_wait _ => some (s.leave call .dropped)
  | .wait_gate => some (s.move call .dropped)
  | .wait_operation _ => some (s.leave call .dropped)
  | .wait_handle => some (s.leave call .dropped)
  | _ => none

/-- The transport call of an operation returns, which its task passes on. -/
def transport (s : BrowseSession Event) (operation : ℕ) (outcome : BrowseOutcome Event) :
    Option (BrowseSession Event) :=
  (s.operations[operation]?).bind fun o =>
    if o.result.isNone then
      some { s with operations := s.operations.set operation (o.complete outcome) }
    else none

/-- One step, `none` where the label is not enabled. -/
def step (s : BrowseSession Event) : Label Event → Option (BrowseSession Event)
  | .next => some (s.begin_call .next_gate)
  | .close => some (s.begin_call (.closing .swap .close))
  | .on_close => some (s.begin_call .on_close_lock)
  | .wait_closed => some (s.begin_call (.closing .swap .wait_closed))
  | .advance call => (s.calls[call]?).bind (s.advance call)
  | .cancel call => (s.calls[call]?).bind (s.cancel call)
  | .transport operation outcome => s.transport operation outcome

end BrowseSession

/-! ## What a step can do -/

/-- The end of a `close`: someone else's turn to close, or no callback left. -/
def Over (s : BrowseSession Event) (stage : Closing) : Prop :=
  stage = .swap ∧ s.terminal = true ∨ stage = .run []

/-- Steps of a call that change nothing else. -/
inductive Quiet (s : BrowseSession Event) : Call Event → Call Event → Prop
  | check (hopen : s.terminal = false) : Quiet s .next_check .next_begin
  | join {k : ℕ} (hslot : s.next_operation = some k) : Quiet s .next_begin (.next_wait k)
  | wait {k : ℕ} {r : BrowseOutcome Event} (hr : s.result k = some r) :
      Quiet s (.next_wait k) (.next_clear k r)
  | event {e : Event} (hopen : s.terminal = false) :
      Quiet s (.next_decide (.ok (some e))) (.next_event e)
  | close {r : BrowseOutcome Event} (hr : ∀ e, r ≠ .ok (some e)) :
      Quiet s (.next_decide r) (.closing .swap (.returns r))
  | closed {stage : Closing} (hover : Over s stage) : Quiet s (.closing stage .close) .close_returned
  | wait_closed {stage : Closing} (hover : Over s stage) :
      Quiet s (.closing stage .wait_closed) .wait_gate
  | on_close (hopen : s.terminal = false) : Quiet s .on_close_check .on_close_push
  | slot {k : ℕ} (hslot : s.next_operation = some k) : Quiet s .wait_slot (.wait_operation k)
  | no_slot (hslot : s.next_operation = none) : Quiet s .wait_slot .wait_handle
  | waited {k : ℕ} {r : BrowseOutcome Event} (hr : s.result k = some r) :
      Quiet s (.wait_operation k) (.wait_clear k)
  | cancel_next : Quiet s .next_gate .dropped
  | cancel_wait : Quiet s .wait_gate .dropped

/-- Steps of a call that take the gate. -/
inductive Enters : Call Event → Call Event → Prop
  | next : Enters .next_gate .next_check
  | wait_closed : Enters .wait_gate .wait_slot

/-- Steps of a call that give the gate back, without an event. -/
inductive Leaves (s : BrowseSession Event) : Call Event → Call Event → Prop
  | check (hterminal : s.terminal = true) : Leaves s .next_check (.next_returned (.ok none))
  | decide {r : BrowseOutcome Event} (hterminal : s.terminal = true) :
      Leaves s (.next_decide r) (.next_returned (.ok none))
  | closed {stage : Closing} {r : BrowseOutcome Event} (hover : Over s stage) :
      Leaves s (.closing stage (.returns r)) (.next_returned r)
  | handle : Leaves s .wait_handle .wait_returned
  | cancel_next {k : ℕ} : Leaves s (.next_wait k) .dropped
  | cancel_wait {k : ℕ} : Leaves s (.wait_operation k) .dropped
  | cancel_handle : Leaves s .wait_handle .dropped

/-- Steps of a call that empty the slot. -/
inductive Clears : Call Event → ℕ → Call Event → Prop
  | next {k : ℕ} {r : BrowseOutcome Event} : Clears (.next_clear k r) k (.next_decide r)
  | wait_closed {k : ℕ} : Clears (.wait_clear k) k .wait_handle

/-- What a step of a call can do to the session, with the place it leaves and the place it gets to.
-/
inductive Move (s : BrowseSession Event) (i : ℕ) : Call Event → BrowseSession Event → Prop
  | quiet {c c' : Call Event} (h : Quiet s c c') : Move s i c (s.move i c')
  | enter {c c' : Call Event} (h : Enters c c') (hfree : s.next_gate = none) :
      Move s i c ({ s with next_gate := some i }.move i c')
  | leave {c c' : Call Event} (h : Leaves s c c') : Move s i c (s.leave i c')
  | deliver {e : Event} :
      Move s i (.next_event e)
        ({ s with delivered := s.delivered ++ [(i, e)] }.leave i (.next_returned (.ok (some e))))
  | begin_operation (hslot : s.next_operation = none) :
      Move s i .next_begin ({ s with
        next_operation := some s.operations.length
        operations := s.operations ++ [InFlight.new] }.move i (.next_wait s.operations.length))
  | clear {c c' : Call Event} {k : ℕ} (h : Clears c k c') :
      Move s i c ({ s with next_operation := clear_operation s.next_operation k }.move i c')
  | swap {after : After Event} (hopen : s.terminal = false) :
      Move s i (.closing .swap after) ({ s with terminal := true }.move i (.closing .request after))
  | request {after : After Event} :
      Move s i (.closing .request after)
        ({ s with requests := s.requests + 1 }.move i (.closing .take after))
  | take {after : After Event} (hfree : s.callbacks_lock = none) :
      Move s i (.closing .take after)
        ({ s with close_callbacks := [] }.move i (.closing (.run s.close_callbacks) after))
  | run {after : After Event} {callback : ℕ} {callbacks : List ℕ} :
      Move s i (.closing (.run (callback :: callbacks)) after)
        ({ s with ran := s.ran ++ [callback] }.move i (.closing (.run callbacks) after))
  | lock (hfree : s.callbacks_lock = none) :
      Move s i .on_close_lock ({ s with callbacks_lock := some i }.move i .on_close_check)
  | late : Move s i .on_close_check ({ s with callbacks_lock := none }.move i .on_close_run)
  | push :
      Move s i .on_close_push
        ({ s with callbacks_lock := none, close_callbacks := s.close_callbacks ++ [i] }.move i
          .on_close_returned)
  | on_close_run : Move s i .on_close_run ({ s with ran := s.ran ++ [i] }.move i .on_close_returned)

/-- The end of a close is a move. -/
theorem move_closed {s : BrowseSession Event} {stage : Closing} (hover : Over s stage) (i : ℕ)
    (after : After Event) : Move s i (.closing stage after) (s.closed i after) := by
  cases after with
  | returns outcome => exact .leave (.closed hover)
  | close => exact .quiet (.closed hover)
  | wait_closed => exact .quiet (.wait_closed hover)

/-- Every stage of a close is a move. -/
theorem move_of_close {s s' : BrowseSession Event} {i : ℕ} {stage : Closing} {after : After Event}
    (h : s.close i after stage = some s') : Move s i (.closing stage after) s' := by
  cases stage with
  | swap =>
      simp only [BrowseSession.close] at h
      split at h
      · next hterminal =>
        rw [← Option.some.inj h]
        exact move_closed (.inl ⟨rfl, hterminal⟩) i after
      · next hopen =>
        rw [← Option.some.inj h]
        exact .swap (Bool.eq_false_iff.mpr hopen)
  | request =>
      rw [← Option.some.inj h]
      exact .request
  | take =>
      simp only [BrowseSession.close] at h
      split at h
      · next hfree =>
        rw [← Option.some.inj h]
        exact .take hfree
      · cases h
  | run callbacks =>
      cases callbacks with
      | nil =>
          rw [← Option.some.inj h]
          exact move_closed (.inr rfl) i after
      | cons callback callbacks =>
          rw [← Option.some.inj h]
          exact .run

/-- The decision on a result is a move. -/
theorem move_of_decide (s : BrowseSession Event) (i : ℕ) (r : BrowseOutcome Event) :
    Move s i (.next_decide r) (s.decide i r) := by
  unfold BrowseSession.decide
  split
  · next hterminal => exact .leave (.decide hterminal)
  · next hopen =>
    split
    · exact .quiet (.event (Bool.eq_false_iff.mpr hopen))
    · exact .quiet (.close fun e he => by cases he)
    · exact .quiet (.close fun e he => by cases he)

/-- A new operation, or the one in the slot, is a move. -/
theorem move_of_begin_operation (s : BrowseSession Event) (i : ℕ) :
    Move s i .next_begin (s.begin_operation i) := by
  unfold BrowseSession.begin_operation
  split
  · next k hslot => exact .quiet (.join hslot)
  · next hslot => exact .begin_operation hslot

/-- **Every step of a call is one of the moves.** -/
theorem move_of_advance {s s' : BrowseSession Event} {i : ℕ} {c : Call Event}
    (h : s.advance i c = some s') : Move s i c s' := by
  cases c with
  | next_gate =>
      simp only [BrowseSession.advance, BrowseSession.lock_gate] at h
      split at h
      · next hfree =>
        rw [← Option.some.inj h]
        exact .enter .next hfree
      · cases h
  | next_check =>
      simp only [BrowseSession.advance] at h
      split at h
      · next hterminal =>
        rw [← Option.some.inj h]
        exact .leave (.check hterminal)
      · next hopen =>
        rw [← Option.some.inj h]
        exact .quiet (.check (Bool.eq_false_iff.mpr hopen))
  | next_begin =>
      rw [← Option.some.inj h]
      exact move_of_begin_operation s i
  | next_wait k =>
      obtain ⟨r, hr, rfl⟩ := Option.map_eq_some_iff.mp h
      exact .quiet (.wait hr)
  | next_clear k r =>
      rw [← Option.some.inj h]
      exact .clear .next
  | next_decide r =>
      rw [← Option.some.inj h]
      exact move_of_decide s i r
  | next_event e =>
      rw [← Option.some.inj h]
      exact .deliver
  | closing stage after => exact move_of_close h
  | on_close_lock =>
      simp only [BrowseSession.advance, BrowseSession.lock_callbacks] at h
      split at h
      · next hfree =>
        rw [← Option.some.inj h]
        exact .lock hfree
      · cases h
  | on_close_check =>
      simp only [BrowseSession.advance] at h
      split at h
      · rw [← Option.some.inj h]
        exact .late
      · next hopen =>
        rw [← Option.some.inj h]
        exact .quiet (.on_close (Bool.eq_false_iff.mpr hopen))
  | on_close_push =>
      rw [← Option.some.inj h]
      exact .push
  | on_close_run =>
      rw [← Option.some.inj h]
      exact .on_close_run
  | wait_gate =>
      simp only [BrowseSession.advance, BrowseSession.lock_gate] at h
      split at h
      · next hfree =>
        rw [← Option.some.inj h]
        exact .enter .wait_closed hfree
      · cases h
  | wait_slot =>
      simp only [BrowseSession.advance] at h
      split at h
      · next k hslot =>
        rw [← Option.some.inj h]
        exact .quiet (.slot hslot)
      · next hslot =>
        rw [← Option.some.inj h]
        exact .quiet (.no_slot hslot)
  | wait_operation k =>
      obtain ⟨r, hr, rfl⟩ := Option.map_eq_some_iff.mp h
      exact .quiet (.waited hr)
  | wait_clear k =>
      rw [← Option.some.inj h]
      exact .clear .wait_closed
  | wait_handle =>
      rw [← Option.some.inj h]
      exact .leave .handle
  | next_returned outcome => cases h
  | close_returned => cases h
  | on_close_returned => cases h
  | wait_returned => cases h
  | dropped => cases h

/-- A dropped call leaves what it held. -/
theorem move_of_cancel {s s' : BrowseSession Event} {i : ℕ} {c : Call Event}
    (h : s.cancel i c = some s') : Move s i c s' := by
  unfold BrowseSession.cancel at h
  split at h
  · rw [← Option.some.inj h]
    exact .quiet .cancel_next
  · rw [← Option.some.inj h]
    exact .leave .cancel_next
  · rw [← Option.some.inj h]
    exact .quiet .cancel_wait
  · rw [← Option.some.inj h]
    exact .leave .cancel_wait
  · rw [← Option.some.inj h]
    exact .leave .cancel_handle
  · cases h

/-- The calls that begin. -/
inductive Begins : Call Event → Prop
  | next : Begins .next_gate
  | close : Begins (.closing .swap .close)
  | on_close : Begins .on_close_lock
  | wait_closed : Begins (.closing .swap .wait_closed)

/-- A step begins a call, moves one, or ends an operation. -/
theorem step_cases {s s' : BrowseSession Event} {a : Label Event} (h : s.step a = some s') :
    (∃ c, Begins c ∧ s' = s.begin_call c) ∨
    (∃ i c, s.calls[i]? = some c ∧ Move s i c s') ∨
    (∃ k o outcome, s.operations[k]? = some o ∧ o.result = none ∧
      s' = { s with operations := s.operations.set k (o.complete outcome) }) := by
  cases a with
  | next => exact .inl ⟨_, .next, (Option.some.inj h).symm⟩
  | close => exact .inl ⟨_, .close, (Option.some.inj h).symm⟩
  | on_close => exact .inl ⟨_, .on_close, (Option.some.inj h).symm⟩
  | wait_closed => exact .inl ⟨_, .wait_closed, (Option.some.inj h).symm⟩
  | advance i =>
      obtain ⟨c, hc, hmove⟩ := Option.bind_eq_some_iff.mp h
      exact .inr (.inl ⟨i, c, hc, move_of_advance hmove⟩)
  | cancel i =>
      obtain ⟨c, hc, hmove⟩ := Option.bind_eq_some_iff.mp h
      exact .inr (.inl ⟨i, c, hc, move_of_cancel hmove⟩)
  | transport k outcome =>
      obtain ⟨o, ho, hset⟩ := Option.bind_eq_some_iff.mp h
      split at hset
      · next hnone =>
        exact .inr (.inr ⟨k, o, outcome, ho, Option.isNone_iff_eq_none.mp hnone,
          (Option.some.inj hset).symm⟩)
      · cases hset

/-! ## The two locks -/

/-- A call with the guard of the gate. -/
def Call.holds : Call Event → Bool
  | .next_check => true
  | .next_begin => true
  | .next_wait _ => true
  | .next_clear _ _ => true
  | .next_decide _ => true
  | .next_event _ => true
  | .closing _ (.returns _) => true
  | .wait_slot => true
  | .wait_operation _ => true
  | .wait_clear _ => true
  | .wait_handle => true
  | _ => false

/-- A call with the guard of the callbacks. -/
def Call.locks : Call Event → Bool
  | .on_close_check => true
  | .on_close_push => true
  | _ => false

/-- The gate and the lock have one holder each at most. -/
structure Gates (s : BrowseSession Event) : Prop where
  gate : Held Call.holds s.next_gate s.calls
  lock : Held Call.locks s.callbacks_lock s.calls

theorem Quiet.same {s : BrowseSession Event} {c c' : Call Event} (h : Quiet s c c') :
    c'.holds = c.holds ∧ c'.locks = c.locks := by
  cases h <;> exact ⟨rfl, rfl⟩

theorem Enters.same {c c' : Call Event} (h : Enters c c') :
    c'.holds = true ∧ c'.locks = c.locks := by
  cases h <;> exact ⟨rfl, rfl⟩

theorem Leaves.same {s : BrowseSession Event} {c c' : Call Event} (h : Leaves s c c') :
    c.holds = true ∧ c'.holds = false ∧ c'.locks = c.locks := by
  cases h <;> exact ⟨rfl, rfl, rfl⟩

theorem Clears.same {c c' : Call Event} {k : ℕ} (h : Clears c k c') :
    c.holds = true ∧ c'.holds = true ∧ c'.locks = c.locks := by
  cases h <;> exact ⟨rfl, rfl, rfl⟩

theorem Begins.same {c : Call Event} (h : Begins c) : c.holds = false ∧ c.locks = false := by
  cases h <;> exact ⟨rfl, rfl⟩

theorem gates_start : Gates ({} : BrowseSession Event) := ⟨held_nil _, held_nil _⟩

/-- A move keeps the holders. -/
theorem Gates.move {s s' : BrowseSession Event} (h : Gates s) {i : ℕ} {c : Call Event}
    (hi : s.calls[i]? = some c) (hmove : Move s i c s') : Gates s' := by
  obtain ⟨hgate, hlock⟩ := h
  cases hmove with
  -- all but a few steps leave both guards where they are
  | quiet hq => exact ⟨hgate.keep hi hq.same.1, hlock.keep hi hq.same.2⟩
  | enter he hfree =>
      rw [hfree] at hgate
      exact ⟨hgate.acquire hi he.same.1, hlock.keep hi he.same.2⟩
  | leave hl => exact ⟨hgate.release hi hl.same.1 hl.same.2.1, hlock.keep hi hl.same.2.2⟩
  | deliver => exact ⟨hgate.release hi rfl rfl, hlock.keep hi rfl⟩
  | begin_operation => exact ⟨hgate.keep hi rfl, hlock.keep hi rfl⟩
  | clear hc => exact ⟨hgate.keep hi (hc.same.2.1.trans hc.same.1.symm), hlock.keep hi hc.same.2.2⟩
  | @swap after => exact ⟨hgate.keep hi (by cases after <;> rfl), hlock.keep hi rfl⟩
  | @request after => exact ⟨hgate.keep hi (by cases after <;> rfl), hlock.keep hi rfl⟩
  | @take after => exact ⟨hgate.keep hi (by cases after <;> rfl), hlock.keep hi rfl⟩
  | @run after => exact ⟨hgate.keep hi (by cases after <;> rfl), hlock.keep hi rfl⟩
  | lock hfree =>
      rw [hfree] at hlock
      exact ⟨hgate.keep hi rfl, hlock.acquire hi rfl⟩
  | late => exact ⟨hgate.keep hi rfl, hlock.release hi rfl rfl⟩
  | push => exact ⟨hgate.keep hi rfl, hlock.release hi rfl rfl⟩
  | on_close_run => exact ⟨hgate.keep hi rfl, hlock.keep hi rfl⟩

/-- **One step** keeps the holders. -/
theorem gates_step {s s' : BrowseSession Event} {a : Label Event} (h : Gates s)
    (hstep : s.step a = some s') : Gates s' := by
  rcases step_cases hstep with ⟨c, hc, rfl⟩ | ⟨i, c, hi, hmove⟩ | ⟨k, o, outcome, -, -, rfl⟩
  · exact ⟨h.gate.add hc.same.1, h.lock.add hc.same.2⟩
  · exact h.move hi hmove
  · exact ⟨h.gate, h.lock⟩

/-! ## Where the events are -/

/-- The event of a result. -/
def events : Option (BrowseOutcome Event) → List Event
  | some (.ok (some event)) => [event]
  | _ => []

/-- A result has one event or none. -/
theorem events_cases (r : BrowseOutcome Event) :
    ((∀ e, r ≠ .ok (some e)) ∧ events (some r) = []) ∨ ∃ e, r = .ok (some e) ∧ events (some r) =
    [e] := by
  rcases r with error | _ | e
  · exact .inl ⟨fun e he => (by cases he), rfl⟩
  · exact .inl ⟨fun e he => (by cases he), rfl⟩
  · exact .inr ⟨e, rfl, rfl⟩

/-- A call that has found the session open and has not yet returned. -/
def Call.opened : Call Event → Bool
  | .next_begin => true
  | .next_wait _ => true
  | .next_clear _ _ => true
  | .next_decide _ => true
  | .next_event _ => true
  | _ => false

/-- The event a call has taken from the slot. -/
def Call.carried : Call Event → List Event
  | .next_decide r => events (some r)
  | .next_event event => [event]
  | _ => []

namespace BrowseSession

/-- The events that the transport has returned. -/
def transported (s : BrowseSession Event) : List Event :=
  s.operations.flatMap fun operation => events operation.result

/-- The event that waits in the slot. -/
def in_slot (s : BrowseSession Event) : List Event := events (s.next_operation.bind s.result)

/-- The event in the hands of the call that has the gate. -/
def carried (s : BrowseSession Event) : List Event :=
  (s.next_gate.bind fun call => s.calls[call]?).elim [] Call.carried

/-- The event that is still to be returned. -/
def held (s : BrowseSession Event) : List Event := s.in_slot ++ s.carried

/-- What a call relies on. -/
def Placed (s : BrowseSession Event) : Call Event → Prop
  | .next_wait k => s.next_operation = some k
  | .next_clear k r => s.next_operation = some k ∧ s.result k = some r
  | .next_decide _ => s.next_operation = none
  | .next_event _ => s.next_operation = none
  | .next_returned r => (∃ e, r = .ok (some e)) ∨ s.terminal = true
  | .closing stage (.returns r) => (stage ≠ .swap → s.terminal = true) ∧ ∀ e, r ≠ .ok (some e)
  | .closing stage _ => stage ≠ .swap → s.terminal = true
  | .wait_gate => s.terminal = true
  | .wait_slot => s.terminal = true
  | .wait_operation k => s.next_operation = some k ∧ s.terminal = true
  | .wait_clear k => s.next_operation = some k ∧ (s.result k).isSome = true ∧ s.terminal = true
  | _ => True

/-- All events are returned or held, or the session is closed and one was let go. -/
def Accounted (s : BrowseSession Event) : Prop :=
  s.delivered.map Prod.snd ++ s.held = s.transported ∨
  (s.terminal = true ∧ s.next_operation = none ∧
    (∀ (i : ℕ) (c : Call Event), s.calls[i]? = some c → c.opened = false) ∧
    ∃ e, s.delivered.map Prod.snd ++ [e] = s.transported)

end BrowseSession

/-- The slot has the operation under way, every call is where its operation is, and no event is
lost. -/
structure Slots (s : BrowseSession Event) : Prop where
  flight : ∀ (k : ℕ) (o : InFlight (BrowseOutcome Event)), s.operations[k]? = some o →
    o.result = none → s.next_operation = some k
  last : ∀ k, s.next_operation = some k → k + 1 = s.operations.length
  placed : ∀ (i : ℕ) (c : Call Event), s.calls[i]? = some c → s.Placed c
  accounted : s.Accounted

theorem slots_start : Slots ({} : BrowseSession Event) where
  flight k o ho _ := by
    rw [List.getElem?_nil] at ho
    cases ho
  last k hk := by cases hk
  placed i c hi := by
    rw [List.getElem?_nil] at hi
    cases hi
  accounted := .inl rfl

theorem Call.holds_of_opened {c : Call Event} (h : c.opened = true) : c.holds = true := by
  cases c <;> first | rfl | cases h

/-! ### What stays in place -/

/-- What a call relies on stays, if the slot does and the session is not opened again. -/
theorem BrowseSession.Placed.congr {s s' : BrowseSession Event} {c : Call Event} (h : s.Placed c)
    (hslot : s'.next_operation = s.next_operation)
    (hresult : ∀ k r, s.result k = some r → s'.result k = some r)
    (hterminal : s.terminal = true → s'.terminal = true) : s'.Placed c := by
  cases c with
  | next_wait k => exact hslot.trans h
  | next_clear k r => exact ⟨hslot.trans h.1, hresult k r h.2⟩
  | next_decide r => exact hslot.trans h
  | next_event e => exact hslot.trans h
  | next_returned r => exact h.imp_right hterminal
  | closing stage after =>
      cases after with
      | returns r => exact ⟨fun hs => hterminal (h.1 hs), h.2⟩
      | close => exact fun hs => hterminal (h hs)
      | wait_closed => exact fun hs => hterminal (h hs)
  | wait_gate => exact hterminal h
  | wait_slot => exact hterminal h
  | wait_operation k => exact ⟨hslot.trans h.1, hterminal h.2⟩
  | wait_clear k =>
      obtain ⟨r, hr⟩ := Option.isSome_iff_exists.mp h.2.1
      exact ⟨hslot.trans h.1, Option.isSome_iff_exists.mpr ⟨r, hresult k r hr⟩, hterminal h.2.2⟩
  | _ => exact trivial

/-- A call without the gate does not rely on the slot. -/
theorem BrowseSession.Placed.outside {s s' : BrowseSession Event} {c : Call Event} (h : s.Placed c)
    (hc : c.holds = false) (hterminal : s.terminal = true → s'.terminal = true) : s'.Placed c := by
  cases c with
  | next_returned r => exact h.imp_right hterminal
  | closing stage after =>
      cases after with
      | returns r => cases hc
      | close => exact fun hs => hterminal (h hs)
      | wait_closed => exact fun hs => hterminal (h hs)
  | wait_gate => exact hterminal h
  | next_wait _ => cases hc
  | next_clear _ _ => cases hc
  | next_decide _ => cases hc
  | next_event _ => cases hc
  | wait_slot => cases hc
  | wait_operation _ => cases hc
  | wait_clear _ => cases hc
  | _ => exact trivial

/-- Only the holder of the gate carries an event. -/
theorem carried_eq {s : BrowseSession Event} (h : Gates s) {i : ℕ} {c : Call Event}
    (hi : s.calls[i]? = some c) (hc : c.holds = true) : s.carried = c.carried := by
  rw [BrowseSession.carried, (h.gate.owns i c hi).mp hc, Option.bind_some, hi]
  rfl

/-- A free gate has nothing carried. -/
theorem carried_free {s : BrowseSession Event} (h : s.next_gate = none) : s.carried = [] := by
  rw [BrowseSession.carried, h]
  rfl

/-- A call moves and carries what it did. -/
theorem carried_set {s s' : BrowseSession Event} {i : ℕ} {c c' : Call Event}
    (hi : s.calls[i]? = some c) (hgate : s'.next_gate = s.next_gate)
    (hcalls : s'.calls = s.calls.set i c') (hc : c'.carried = c.carried) :
    s'.carried = s.carried := by
  unfold BrowseSession.carried
  rw [hgate, hcalls]
  cases s.next_gate with
  | none => rfl
  | some j =>
      simp only [Option.bind_some]
      by_cases hij : i = j
      · subst hij
        rw [getElem?_set_self hi, hi]
        exact hc
      · rw [List.getElem?_set_ne hij]

theorem carried_concat {s : BrowseSession Event} (h : Gates s) (c : Call Event) :
    (s.begin_call c).carried = s.carried := by
  unfold BrowseSession.carried BrowseSession.begin_call
  cases hgate : s.next_gate with
  | none => rfl
  | some j =>
      simp only [Option.bind_some]
      rw [List.getElem?_append_left (h.gate.bound j hgate)]

/-- A call that carries an event has emptied the slot. -/
theorem Slots.carried_of_slot {s : BrowseSession Event} (h : Slots s) {k : ℕ}
    (hslot : s.next_operation = some k) : s.carried = [] := by
  unfold BrowseSession.carried
  cases hbind : s.next_gate.bind fun call => s.calls[call]? with
  | none => rfl
  | some c =>
      obtain ⟨i, -, hi⟩ := Option.bind_eq_some_iff.mp hbind
      have hplaced := h.placed i c hi
      cases c with
      | next_decide r =>
          rw [show s.next_operation = none from hplaced] at hslot
          cases hslot
      | next_event e =>
          rw [show s.next_operation = none from hplaced] at hslot
          cases hslot
      | _ => rfl

/-- The others keep what they rely on when a call moves and the slot stays. -/
theorem Slots.placed_set {s s' : BrowseSession Event} (h : Slots s) {i : ℕ} {c' : Call Event}
    (hcalls : s'.calls = s.calls.set i c') (hc : s'.Placed c')
    (hslot : s'.next_operation = s.next_operation) (hoperations : s'.operations = s.operations)
    (hterminal : s.terminal = true → s'.terminal = true) (j : ℕ) (d : Call Event)
    (hj : s'.calls[j]? = some d) : s'.Placed d := by
  rw [hcalls] at hj
  rcases getElem?_set_cases hj with ⟨-, rfl⟩ | ⟨-, hj⟩
  · exact hc
  · apply (h.placed j d hj).congr hslot _ hterminal
    intro k r hr
    rw [BrowseSession.result, hoperations]
    exact hr

/-- They keep it when the call with the gate moves, whatever it does to the slot. -/
theorem Slots.placed_holder {s s' : BrowseSession Event} (h : Slots s) (hg : Gates s) {i : ℕ}
    {c c' : Call Event} (hi : s.calls[i]? = some c) (hholds : c.holds = true)
    (hcalls : s'.calls = s.calls.set i c') (hc : s'.Placed c')
    (hterminal : s.terminal = true → s'.terminal = true) (j : ℕ) (d : Call Event)
    (hj : s'.calls[j]? = some d) : s'.Placed d := by
  rw [hcalls] at hj
  rcases getElem?_set_cases hj with ⟨-, rfl⟩ | ⟨hne, hj⟩
  · exact hc
  · apply (h.placed j d hj).outside _ hterminal
    rw [Bool.eq_false_iff]
    intro hd
    exact hne (hg.gate.only hi hholds hj hd)

/-- What the account of the events depends on. -/
theorem BrowseSession.Accounted.congr {s s' : BrowseSession Event} (h : s.Accounted)
    (hdelivered : s'.delivered = s.delivered) (hheld : s'.held = s.held)
    (hslot : s'.next_operation = s.next_operation) (hoperations : s'.operations = s.operations)
    (hterminal : s.terminal = true → s'.terminal = true)
    (hopened : s.terminal = true → (∀ (j : ℕ) (d : Call Event), s.calls[j]? = some d → d.opened = false) →
      ∀ (j : ℕ) (d : Call Event), s'.calls[j]? = some d → d.opened = false) : s'.Accounted := by
  have htransported : s'.transported = s.transported := by
    rw [BrowseSession.transported, hoperations]
    rfl
  unfold BrowseSession.Accounted
  rw [hdelivered, hheld, htransported, hslot]
  exact h.imp_right fun ⟨ht, hs, ho, he⟩ => ⟨hterminal ht, hs, hopened ht ho, he⟩

/-- A call that may still deliver found the session open. -/
theorem opened_set {s : BrowseSession Event} {i : ℕ} {c c' : Call Event}
    (hi : s.calls[i]? = some c) (hc : c'.opened = true → c.opened = true ∨ s.terminal = false)
    (hterminal : s.terminal = true)
    (ho : ∀ (j : ℕ) (d : Call Event), s.calls[j]? = some d → d.opened = false) (j : ℕ)
    (d : Call Event)
    (hj : (s.calls.set i c')[j]? = some d) : d.opened = false := by
  rcases getElem?_set_cases hj with ⟨-, rfl⟩ | ⟨-, hj⟩
  · rw [Bool.eq_false_iff]
    intro hd
    -- a call becomes an open one only while the session is open
    rcases hc hd with hc | hopen
    · rw [ho i c hi] at hc
      cases hc
    · rw [hterminal] at hopen
      cases hopen
  · exact ho j d hj

/-- A step of a call that leaves the slot, the operations and what was returned. -/
theorem Slots.move_call {s s' : BrowseSession Event} (h : Slots s) {i : ℕ} {c c' : Call Event}
    (hi : s.calls[i]? = some c) (hcalls : s'.calls = s.calls.set i c')
    (hslot : s'.next_operation = s.next_operation) (hoperations : s'.operations = s.operations)
    (hdelivered : s'.delivered = s.delivered) (hcarried : s'.carried = s.carried)
    (hterminal : s.terminal = true → s'.terminal = true)
    (hopened : c'.opened = true → c.opened = true ∨ s.terminal = false)
    (hc : s'.Placed c') : Slots s' := by
  have hheld : s'.held = s.held := by
    rw [BrowseSession.held, BrowseSession.held, hcarried, BrowseSession.in_slot, hslot]
    have hresult : s'.result = s.result := by
      funext k
      rw [BrowseSession.result, hoperations]
      rfl
    rw [hresult]
    rfl
  refine ⟨?_, ?_, h.placed_set hcalls hc hslot hoperations hterminal, ?_⟩
  · rw [hoperations, hslot]
    exact h.flight
  · rw [hoperations, hslot]
    exact h.last
  · apply h.accounted.congr hdelivered hheld hslot hoperations hterminal
    intro ht ho j d hj
    rw [hcalls] at hj
    exact opened_set hi hopened ht ho j d hj

theorem Quiet.slots {s : BrowseSession Event} {c c' : Call Event} (h : Quiet s c c')
    (hc : s.Placed c) :
    c'.carried = c.carried ∧ (c'.opened = true → c.opened = true ∨ s.terminal = false) ∧
      s.Placed c' := by
  have hover : ∀ stage, Over s stage → (stage ≠ .swap → s.terminal = true) → s.terminal = true := by
    rintro stage (⟨-, ht⟩ | rfl) hs
    · exact ht
    · exact hs fun hno => by cases hno
  cases h with
  | check hopen => exact ⟨rfl, fun _ => .inr hopen, trivial⟩
  | join hslot => exact ⟨rfl, fun _ => .inl rfl, hslot⟩
  | wait hr => exact ⟨rfl, fun _ => .inl rfl, hc, hr⟩
  | event => exact ⟨rfl, fun _ => .inl rfl, hc⟩
  -- a `next` closes the session for an end or an error, never with an event
  | @close r hr =>
      refine ⟨?_, fun hno => (by cases hno), fun hno => absurd rfl hno, hr⟩
      rcases events_cases r with ⟨-, hnil⟩ | ⟨e, he, -⟩
      · exact hnil.symm
      · exact absurd he (hr e)
  | closed => exact ⟨rfl, fun hno => (by cases hno), trivial⟩
  | wait_closed ho => exact ⟨rfl, fun hno => (by cases hno), hover _ ho hc⟩
  | on_close => exact ⟨rfl, fun hno => (by cases hno), trivial⟩
  | slot hslot => exact ⟨rfl, fun hno => (by cases hno), hslot, hc⟩
  | no_slot => exact ⟨rfl, fun hno => (by cases hno), trivial⟩
  | waited hr => exact ⟨rfl, fun hno => (by cases hno), hc.1, by rw [hr]; rfl, hc.2⟩
  | cancel_next => exact ⟨rfl, fun hno => (by cases hno), trivial⟩
  | cancel_wait => exact ⟨rfl, fun hno => (by cases hno), trivial⟩

/-- What a call that gives the gate back without an event lets go. -/
theorem Leaves.slots {s : BrowseSession Event} {c c' : Call Event} (h : Leaves s c c')
    (hc : s.Placed c) :
    c'.opened = false ∧ s.Placed c' ∧
      (c.carried = [] ∨ s.terminal = true ∧ s.next_operation = none ∧ c.opened = true ∧
        ∃ e, c.carried = [e]) := by
  cases h with
  | check ht => exact ⟨rfl, .inr ht, .inl rfl⟩
  | @decide r ht =>
      refine ⟨rfl, .inr ht, ?_⟩
      rcases events_cases r with ⟨-, hnil⟩ | ⟨e, -, he⟩
      · exact .inl hnil
      · exact .inr ⟨ht, hc, rfl, e, he⟩
  | closed hover =>
      refine ⟨rfl, .inr ?_, .inl rfl⟩
      rcases hover with ⟨-, ht⟩ | rfl
      · exact ht
      · exact hc.1 fun hno => by cases hno
  | handle => exact ⟨rfl, trivial, .inl rfl⟩
  | cancel_next => exact ⟨rfl, trivial, .inl rfl⟩
  | cancel_wait => exact ⟨rfl, trivial, .inl rfl⟩
  | cancel_handle => exact ⟨rfl, trivial, .inl rfl⟩

/-! ### What changes the slot -/

/-- While a call has the session opened, no event is lost. -/
theorem Slots.kept {s : BrowseSession Event} (h : Slots s) {i : ℕ} {c : Call Event}
    (hi : s.calls[i]? = some c) (hc : c.opened = true) :
    s.delivered.map Prod.snd ++ s.held = s.transported := by
  rcases h.accounted with hkept | ⟨-, -, hno, -⟩
  · exact hkept
  · rw [hno i c hi] at hc
    cases hc

/-- The others are not inside when the call with the gate is. -/
theorem Gates.not_opened {s : BrowseSession Event} (h : Gates s) {i : ℕ} {c c' : Call Event}
    (hi : s.calls[i]? = some c) (hc : c.holds = true) (hc' : c'.opened = false) (j : ℕ)
    (d : Call Event) (hj : (s.calls.set i c')[j]? = some d) : d.opened = false := by
  rcases getElem?_set_cases hj with ⟨-, rfl⟩ | ⟨hne, hj⟩
  · exact hc'
  · rw [Bool.eq_false_iff]
    intro hd
    exact hne (h.gate.only hi hc hj (Call.holds_of_opened hd))

/-- A call that leaves the gate without an event. -/
theorem Slots.leave {s : BrowseSession Event} (h : Slots s) (hg : Gates s) {i : ℕ}
    {c c' : Call Event} (hi : s.calls[i]? = some c) (hleaves : Leaves s c c') :
    Slots (s.leave i c') := by
  obtain ⟨hopened, hplaced, hcarried⟩ := hleaves.slots (h.placed i c hi)
  have hholds := hleaves.same.1
  have hfree : (s.leave i c').carried = [] := carried_free rfl
  have hplaced' : (s.leave i c').Placed c' := hplaced.congr rfl (fun _ _ hr => hr) id
  rcases hcarried with hnil | ⟨hterminal, hslot, hcopened, e, he⟩
  · have hcarried : (s.leave i c').carried = s.carried := by
      rw [hfree, carried_eq hg hi hholds, hnil]
    have hcalls : (s.leave i c').calls = s.calls.set i c' := rfl
    apply h.move_call hi hcalls rfl rfl rfl hcarried id _ hplaced'
    intro hno
    rw [hopened] at hno
    cases hno
  · -- the session has been closed, and the event goes with the call
    refine ⟨h.flight, h.last, h.placed_set rfl hplaced' rfl rfl id, .inr ⟨hterminal, hslot, ?_, e, ?_⟩⟩
    · exact hg.not_opened hi hholds hopened
    · have hkept := h.kept hi hcopened
      rw [BrowseSession.held, BrowseSession.in_slot, hslot, carried_eq hg hi hholds, he] at hkept
      exact hkept

/-- An event is delivered by the holder of the gate. -/
theorem Slots.deliver {s : BrowseSession Event} (h : Slots s) (hg : Gates s) {i : ℕ} {e : Event}
    (hi : s.calls[i]? = some (.next_event e)) :
    Slots ({ s with delivered := s.delivered ++ [(i, e)] }.leave i
      (.next_returned (.ok (some e)))) := by
  refine ⟨h.flight, h.last, ?_, .inl ?_⟩
  · exact h.placed_set rfl (.inl ⟨e, rfl⟩) rfl rfl id
  · have hkept := h.kept hi rfl
    rw [BrowseSession.held, carried_eq hg hi rfl] at hkept
    -- the slot was emptied before: the event returned here is all that was held
    have hslot : s.in_slot = [] := by
      rw [BrowseSession.in_slot, show s.next_operation = none from h.placed i _ hi]
      rfl
    rw [BrowseSession.held, carried_free rfl, List.append_nil]
    rw [hslot, List.nil_append] at hkept
    have hslot' : ({ s with delivered := s.delivered ++ [(i, e)] }.leave i
      (.next_returned (.ok (some e)))).in_slot = [] := hslot
    rw [hslot', List.append_nil]
    simp only [BrowseSession.leave, BrowseSession.move, List.map_append]
    exact hkept

/-- A new operation fills the empty slot. -/
theorem Slots.begin_operation {s : BrowseSession Event} (h : Slots s) (hg : Gates s) {i : ℕ}
    (hi : s.calls[i]? = some .next_begin) (hslot : s.next_operation = none) :
    Slots ({ s with
      next_operation := some s.operations.length
      operations := s.operations ++ [InFlight.new] }.move i (.next_wait s.operations.length)) := by
  refine ⟨?_, ?_, ?_, .inl ?_⟩
  · intro k o ho hnone
    rcases getElem?_concat_cases ho with ⟨rfl, -⟩ | ho
    · rfl
    · rw [h.flight k o ho hnone] at hslot
      cases hslot
  · intro k hk
    obtain rfl := Option.some.inj hk
    simp only [BrowseSession.move, List.length_append, List.length_singleton]
  · exact h.placed_holder hg hi rfl rfl rfl id
  · have hkept := h.kept hi rfl
    rw [BrowseSession.held, BrowseSession.in_slot, hslot, carried_eq hg hi rfl] at hkept
    -- the new operation has no result, so nothing is held that was not before
    have hcarried : ({ s with
        next_operation := some s.operations.length
        operations := s.operations ++ [InFlight.new] }.move i
          (.next_wait s.operations.length)).carried = [] :=
      Eq.trans (carried_set hi rfl rfl rfl) (carried_eq hg hi rfl)
    have hin : ({ s with
        next_operation := some s.operations.length
        operations := s.operations ++ [InFlight.new] }.move i
          (.next_wait s.operations.length)).in_slot = [] := by
      simp only [BrowseSession.in_slot, BrowseSession.move, BrowseSession.result, Option.bind_some,
        List.getElem?_concat_length]
      rfl
    have htransported : ({ s with
        next_operation := some s.operations.length
        operations := s.operations ++ [InFlight.new] }.move i
          (.next_wait s.operations.length)).transported = s.transported := by
      simp only [BrowseSession.transported, BrowseSession.move, List.flatMap_append]
      exact List.append_nil _
    rw [BrowseSession.held, hin, hcarried, htransported]
    exact hkept

/-- The result of the operation in the slot is there, and no other is awaited. -/
theorem Slots.all_done {s : BrowseSession Event} (h : Slots s) {k : ℕ}
    (hslot : s.next_operation = some k) (hr : (s.result k).isSome = true) (j : ℕ)
    (o : InFlight (BrowseOutcome Event)) (ho : s.operations[j]? = some o) : o.result ≠ none := by
  intro hnone
  have hj := h.flight j o ho hnone
  rw [hslot, Option.some.injEq] at hj
  rw [BrowseSession.result, hj, ho, Option.bind_some, hnone] at hr
  cases hr

/-- The holder takes the result out of the slot. -/
theorem Slots.clear {s : BrowseSession Event} (h : Slots s) (hg : Gates s) {i k : ℕ}
    {c c' : Call Event} (hi : s.calls[i]? = some c) (hclears : Clears c k c') :
    Slots ({ s with next_operation := clear_operation s.next_operation k }.move i c') := by
  have hplaced := h.placed i c hi
  have hslot : s.next_operation = some k ∧ (s.result k).isSome = true := by
    cases hclears with
    | next => exact ⟨hplaced.1, by rw [hplaced.2]; rfl⟩
    | wait_closed => exact ⟨hplaced.1, hplaced.2.1⟩
  have hempty : clear_operation s.next_operation k = none := by
    rw [clear_operation, if_pos hslot.1]
  rw [hempty]
  have hin : s.in_slot = events (s.result k) := by
    rw [BrowseSession.in_slot, hslot.1, Option.bind_some]
  have hcarried : ({ s with next_operation := none }.move i c' : BrowseSession Event).carried =
      c'.carried := by
    unfold BrowseSession.carried BrowseSession.move
    simp only [(hg.gate.owns i c hi).mp hclears.same.1, Option.bind_some]
    rw [getElem?_set_self hi]
    rfl
  have hplaced' : ({ s with next_operation := none }.move i c' : BrowseSession Event).Placed c' := by
    cases hclears with
    | next => rfl
    | wait_closed => trivial
  refine ⟨?_, fun j hj => (by cases hj), h.placed_holder hg hi hclears.same.1 rfl hplaced' id, ?_⟩
  · intro j o ho hnone
    exact absurd hnone (h.all_done hslot.1 hslot.2 j o ho)
  cases hclears with
  | @next k r =>
      -- the result passes from the slot to the call
      have hkept := h.kept hi rfl
      rw [BrowseSession.held, hin, carried_eq hg hi rfl, hplaced.2] at hkept
      refine .inl ?_
      rw [BrowseSession.held, hcarried]
      simp only [Call.carried, List.append_nil] at hkept ⊢
      exact hkept
  | @wait_closed k =>
      have hterminal : s.terminal = true := hplaced.2.2
      have hno : ∀ (j : ℕ) (d : Call Event),
          (s.calls.set i .wait_handle)[j]? = some d → d.opened = false :=
        hg.not_opened hi rfl rfl
      rcases h.accounted with hkept | ⟨-, hnone, -⟩
      · obtain ⟨r, hr⟩ := Option.isSome_iff_exists.mp hslot.2
        rw [BrowseSession.held, hin, carried_eq hg hi rfl, hr] at hkept
        -- an event that nobody waits for any more goes with the slot
        rcases events_cases r with ⟨-, hnil⟩ | ⟨e, -, he⟩
        · refine .inl ?_
          rw [BrowseSession.held, hcarried]
          rw [hnil] at hkept
          exact hkept
        · rw [he] at hkept
          exact .inr ⟨hterminal, rfl, hno, e, hkept⟩
      · rw [hslot.1] at hnone
        cases hnone

/-- The transport's answer waits in the slot. -/
theorem Slots.transport {s : BrowseSession Event} (h : Slots s) {k : ℕ}
    {o : InFlight (BrowseOutcome Event)} (ho : s.operations[k]? = some o) (hnone : o.result = none)
    (outcome : BrowseOutcome Event) :
    Slots { s with operations := s.operations.set k (o.complete outcome) } := by
  have hslot := h.flight k o ho hnone
  have hbefore : s.result k = none := by
    rw [BrowseSession.result, ho, Option.bind_some, hnone]
  refine ⟨?_, ?_, ?_, ?_⟩
  · intro j p hp hpnone
    rcases getElem?_set_cases hp with ⟨-, rfl⟩ | ⟨-, hp⟩
    · cases hpnone
    · exact h.flight j p hp hpnone
  · intro j hj
    rw [List.length_set]
    exact h.last j hj
  · intro j d hj
    refine (h.placed j d hj).congr rfl ?_ id
    intro k' r hr
    have hne : k ≠ k' := by
      rintro rfl
      rw [hbefore] at hr
      cases hr
    simp only [BrowseSession.result, List.getElem?_set_ne hne]
    exact hr
  · rcases h.accounted with hkept | ⟨-, hno, -⟩
    · refine .inl ?_
      -- only the last operation can be without a result: its event comes to the slot
      obtain ⟨before, heq, hset⟩ := set_last_split ho (h.last k hslot)
      have hcarried := h.carried_of_slot hslot
      have hin : s.in_slot = [] := by
        rw [BrowseSession.in_slot, hslot, Option.bind_some, hbefore]
        rfl
      rw [BrowseSession.held, hin, hcarried, BrowseSession.transported, heq] at hkept
      simp only [List.flatMap_append, List.flatMap_cons, List.flatMap_nil, List.append_nil, hnone,
        events] at hkept
      have hin' : ({ s with operations := s.operations.set k (o.complete outcome) } :
          BrowseSession Event).in_slot = events (some outcome) := by
        simp only [BrowseSession.in_slot, hslot, Option.bind_some, BrowseSession.result,
          getElem?_set_self ho]
        rfl
      have hcarried' : ({ s with operations := s.operations.set k (o.complete outcome) } :
          BrowseSession Event).carried = [] := hcarried
      rw [BrowseSession.held, hin', hcarried', List.append_nil, BrowseSession.transported]
      simp only [hset, List.flatMap_append, List.flatMap_cons, List.flatMap_nil, List.append_nil]
      rw [hkept]
      rfl
    · rw [hslot] at hno
      cases hno

theorem Enters.slots {s : BrowseSession Event} {c c' : Call Event} (h : Enters c c')
    (hc : s.Placed c) : c'.carried = [] ∧ c'.opened = false ∧ s.Placed c' := by
  cases h with
  | next => exact ⟨rfl, rfl, trivial⟩
  | wait_closed => exact ⟨rfl, rfl, hc⟩

/-- A `close` that is past its swap has the session closed. -/
theorem Slots.terminal_of_closing {s : BrowseSession Event} (h : Slots s) {i : ℕ} {stage : Closing}
    {after : After Event} (hi : s.calls[i]? = some (.closing stage after)) (hne : stage ≠ .swap) :
    s.terminal = true := by
  have hplaced := h.placed i _ hi
  cases after with
  | returns r => exact hplaced.1 hne
  | close => exact hplaced hne
  | wait_closed => exact hplaced hne

/-- A `close` goes on: nothing that events pass through changes. -/
theorem Slots.closing {s s' : BrowseSession Event} (h : Slots s) {i : ℕ} {stage stage' : Closing}
    {after : After Event} (hi : s.calls[i]? = some (.closing stage after))
    (hcalls : s'.calls = s.calls.set i (.closing stage' after))
    (hgate : s'.next_gate = s.next_gate) (hslot : s'.next_operation = s.next_operation)
    (hoperations : s'.operations = s.operations) (hdelivered : s'.delivered = s.delivered)
    (hterminal : s.terminal = true → s'.terminal = true) (hclosed : s'.terminal = true) :
    Slots s' := by
  have hplaced := h.placed i _ hi
  apply h.move_call hi hcalls hslot hoperations hdelivered (carried_set hi hgate hcalls rfl)
    hterminal
  · intro hno
    cases hno
  · cases after with
    | returns r => exact ⟨fun _ => hclosed, hplaced.2⟩
    | close => exact fun _ => hclosed
    | wait_closed => exact fun _ => hclosed

/-- **A move of a call** keeps the slot. -/
theorem Slots.move {s s' : BrowseSession Event} (h : Slots s) (hg : Gates s) {i : ℕ}
    {c : Call Event} (hi : s.calls[i]? = some c) (hmove : Move s i c s') : Slots s' := by
  have hplaced := h.placed i c hi
  cases hmove with
  | @quiet _ c' hq =>
      obtain ⟨hcarried, hopened, hc'⟩ := hq.slots hplaced
      have hset : (s.move i c').carried = s.carried := carried_set hi rfl rfl hcarried
      have hcalls : (s.move i c').calls = s.calls.set i c' := rfl
      exact h.move_call hi hcalls rfl rfl rfl hset id hopened (hc'.congr rfl (fun _ _ hr => hr) id)
  | @enter _ c' he hfree =>
      obtain ⟨hcarried, hopened, hc'⟩ := he.slots hplaced
      have hset : ({ s with next_gate := some i }.move i c').carried = s.carried := by
        rw [carried_free hfree, ← hcarried]
        simp only [BrowseSession.carried, BrowseSession.move, Option.bind_some,
          getElem?_set_self hi, Option.elim_some]
      have hcalls : ({ s with next_gate := some i }.move i c').calls = s.calls.set i c' := rfl
      apply h.move_call hi hcalls rfl rfl rfl hset id _ (hc'.congr rfl (fun _ _ hr => hr) id)
      intro hno
      rw [hopened] at hno
      cases hno
  | leave hl => exact h.leave hg hi hl
  | deliver => exact h.deliver hg hi
  | begin_operation hslot => exact h.begin_operation hg hi hslot
  | clear hc => exact h.clear hg hi hc
  | swap hopen => exact h.closing hi rfl rfl rfl rfl rfl (fun _ => rfl) rfl
  | request =>
      have hterminal : s.terminal = true := h.terminal_of_closing hi fun hno => by cases hno
      exact h.closing hi rfl rfl rfl rfl rfl id hterminal
  | take hfree =>
      have hterminal : s.terminal = true := h.terminal_of_closing hi fun hno => by cases hno
      exact h.closing hi rfl rfl rfl rfl rfl id hterminal
  | run =>
      have hterminal : s.terminal = true := h.terminal_of_closing hi fun hno => by cases hno
      exact h.closing hi rfl rfl rfl rfl rfl id hterminal
  | lock =>
      exact h.move_call hi rfl rfl rfl rfl (carried_set hi rfl rfl rfl) id
        (fun hno => by cases hno) trivial
  | late =>
      exact h.move_call hi rfl rfl rfl rfl (carried_set hi rfl rfl rfl) id
        (fun hno => by cases hno) trivial
  | push =>
      exact h.move_call hi rfl rfl rfl rfl (carried_set hi rfl rfl rfl) id
        (fun hno => by cases hno) trivial
  | on_close_run =>
      exact h.move_call hi rfl rfl rfl rfl (carried_set hi rfl rfl rfl) id
        (fun hno => by cases hno) trivial

theorem Begins.slots {c : Call Event} (h : Begins c) (s : BrowseSession Event) :
    c.opened = false ∧ s.Placed c := by
  cases h with
  | next => exact ⟨rfl, trivial⟩
  | close => exact ⟨rfl, fun hno => absurd rfl hno⟩
  | on_close => exact ⟨rfl, trivial⟩
  | wait_closed => exact ⟨rfl, fun hno => absurd rfl hno⟩

theorem Slots.begin_call {s : BrowseSession Event} (h : Slots s) (hg : Gates s) {c : Call Event}
    (hc : Begins c) : Slots (s.begin_call c) := by
  have hheld : (s.begin_call c).held = s.held := by
    rw [BrowseSession.held, BrowseSession.held, carried_concat hg c]
    rfl
  refine ⟨h.flight, h.last, ?_, h.accounted.congr rfl hheld rfl rfl id ?_⟩
  · intro j d hj
    rcases getElem?_concat_cases hj with ⟨-, rfl⟩ | hj
    · exact (hc.slots _).2
    · exact (h.placed j d hj).congr rfl (fun _ _ hr => hr) id
  · intro _ ho j d hj
    rcases getElem?_concat_cases hj with ⟨-, rfl⟩ | hj
    · exact (hc.slots s).1
    · exact ho j d hj

/-- **One step** keeps the slot. -/
theorem slots_step {s s' : BrowseSession Event} {a : Label Event} (h : Slots s) (hg : Gates s)
    (hstep : s.step a = some s') : Slots s' := by
  rcases step_cases hstep with ⟨c, hc, rfl⟩ | ⟨i, c, hi, hmove⟩ | ⟨k, o, outcome, ho, hnone, rfl⟩
  · exact h.begin_call hg hc
  · exact h.move hg hi hmove
  · exact h.transport ho hnone outcome

/-! ## Closing and the callbacks -/

/-- The call that set the flag, about to ask the handle to close. -/
def Call.requesting : Call Event → Bool
  | .closing .request _ => true
  | _ => false

/-- The same call, until it has taken the callbacks. -/
def Call.before_take : Call Event → Bool
  | .closing .request _ => true
  | .closing .take _ => true
  | _ => false

/-- The callbacks that a call has still to run. -/
def Call.runs : Call Event → List ℕ
  | .closing (.run callbacks) _ => callbacks
  | _ => []

/-- Whether its callback was registered. -/
def Call.registered : Call Event → Bool
  | .on_close_returned => true
  | _ => false

/-- An `on_close` that has returned. -/
def registered (calls : List (Call Event)) (i : ℕ) : Bool :=
  (calls[i]?).elim false Call.registered

/-- The handle is asked once; every callback is in the list, in the hands of the call
that closes, or has run; and the list is empty once it was taken. -/
structure Closes (s : BrowseSession Event) : Prop where
  requests : s.requests + s.calls.countP Call.requesting = if s.terminal then 1 else 0
  counts : ∀ x, s.close_callbacks.count x + (s.calls.flatMap Call.runs).count x + s.ran.count x =
    if registered s.calls x then 1 else 0
  emptied : s.terminal = true → s.calls.countP Call.before_take = 0 →
    s.close_callbacks = [] ∧ ∀ i : ℕ, s.calls[i]? ≠ some .on_close_push

theorem closes_start : Closes ({} : BrowseSession Event) where
  requests := rfl
  counts _ := rfl
  emptied h := by cases h

/-- One call moves, and the callbacks of the others stay registered. -/
theorem registered_set {calls : List (Call Event)} {i : ℕ} {c : Call Event}
    (hi : calls[i]? = some c) (c' : Call Event) (x : ℕ) :
    registered (calls.set i c') x = if x = i then c'.registered else registered calls x := by
  unfold registered
  by_cases hx : x = i
  · rw [if_pos hx, hx, getElem?_set_self hi]
    rfl
  · rw [if_neg hx, List.getElem?_set_ne fun h => hx h.symm]

/-- A call that takes no part in closing moves. -/
theorem Closes.move_call {s s' : BrowseSession Event} (h : Closes s) {i : ℕ} {c c' : Call Event}
    (hi : s.calls[i]? = some c) (hcalls : s'.calls = s.calls.set i c')
    (hterminal : s'.terminal = s.terminal) (hcallbacks : s'.close_callbacks = s.close_callbacks)
    (hrequests : s'.requests = s.requests) (hran : s'.ran = s.ran)
    (hc : c.before_take = false ∧ c.runs = [] ∧ c.registered = false)
    (hc' : c'.before_take = false ∧ c'.runs = [] ∧ c'.registered = false)
    (hpush : c' = .on_close_push → s.terminal = false) : Closes s' := by
  have hno : ∀ d : Call Event, d.before_take = false → d.requesting = false := by
    intro d hd
    unfold Call.requesting
    split
    · cases hd
    · rfl
  refine ⟨?_, ?_, ?_⟩
  · have hcount := countP_set Call.requesting hi c'
    have hsum := h.requests
    rw [hno c hc.1, hno c' hc'.1] at hcount
    rw [hcalls, hrequests, hterminal, ← hsum]
    omega
  · intro x
    have hcount := count_flatMap_set Call.runs hi c' x
    have hsum := h.counts x
    rw [hc.2.1, hc'.2.1] at hcount
    rw [hcalls, hcallbacks, hran, registered_set hi]
    by_cases hx : x = i
    · subst hx
      have hreg : registered s.calls x = false := by
        rw [registered, hi]
        exact hc.2.2
      rw [hreg] at hsum
      rw [if_pos rfl, hc'.2.2]
      omega
    · rw [if_neg hx]
      omega
  · intro ht htaken
    rw [hterminal] at ht
    have hcount := countP_set Call.before_take hi c'
    rw [hc.1, hc'.1] at hcount
    rw [hcalls] at htaken
    obtain ⟨hempty, hnone⟩ := h.emptied ht (by omega)
    rw [hcallbacks, hcalls]
    refine ⟨hempty, fun j hj => ?_⟩
    rcases getElem?_set_cases hj with ⟨-, heq⟩ | ⟨-, hj⟩
    · rw [hpush heq.symm] at ht
      cases ht
    · exact hnone j hj

/-- A call that closes goes on. -/
theorem Closes.advance {s s' : BrowseSession Event} (h : Closes s) {i : ℕ} {stage stage' : Closing}
    {after : After Event} (hi : s.calls[i]? = some (.closing stage after))
    (hcalls : s'.calls = s.calls.set i (.closing stage' after))
    (hrequests : s'.requests + (if (Call.closing stage' after).requesting then 1 else 0) +
        (if s.terminal then 1 else 0) =
      s.requests + (if (Call.closing stage after).requesting then 1 else 0) +
        (if s'.terminal then 1 else 0))
    (hcounts : ∀ x, s'.close_callbacks.count x + (Call.closing stage' after).runs.count x +
        s'.ran.count x =
      s.close_callbacks.count x + (Call.closing stage after).runs.count x + s.ran.count x)
    (hemptied : s'.terminal = true → s'.calls.countP Call.before_take = 0 →
      s'.close_callbacks = [] ∧ ∀ j : ℕ, s.calls[j]? ≠ some .on_close_push) : Closes s' := by
  refine ⟨?_, ?_, ?_⟩
  · have hcount := countP_set Call.requesting hi (.closing stage' after)
    have hsum := h.requests
    rw [hcalls]
    omega
  · intro x
    have hcount := count_flatMap_set Call.runs hi (.closing stage' after) x
    have hsum := h.counts x
    have hshift := hcounts x
    rw [hcalls, registered_set hi]
    have hreg : (if x = i then (Call.closing stage' after).registered else registered s.calls x) =
        registered s.calls x := by
      by_cases hx : x = i
      · rw [if_pos hx, hx, registered, hi]
        rfl
      · rw [if_neg hx]
    rw [hreg]
    omega
  · intro ht htaken
    obtain ⟨hempty, hnone⟩ := hemptied ht htaken
    refine ⟨hempty, fun j hj => ?_⟩
    rw [hcalls] at hj
    rcases getElem?_set_cases hj with ⟨-, heq⟩ | ⟨-, hj⟩
    · cases heq
    · exact hnone j hj

theorem Quiet.closes {s : BrowseSession Event} {c c' : Call Event} (h : Quiet s c c') :
    (c.before_take = false ∧ c.runs = [] ∧ c.registered = false) ∧
      (c'.before_take = false ∧ c'.runs = [] ∧ c'.registered = false) ∧
      (c' = .on_close_push → s.terminal = false) := by
  have hover : ∀ stage after, Over s stage → (Call.closing stage after : Call Event).before_take = false ∧
      (Call.closing stage after : Call Event).runs = [] := by
    rintro stage after (⟨rfl, -⟩ | rfl) <;> exact ⟨rfl, rfl⟩
  cases h with
  | on_close hopen => exact ⟨⟨rfl, rfl, rfl⟩, ⟨rfl, rfl, rfl⟩, fun _ => hopen⟩
  | closed ho =>
      exact ⟨⟨(hover _ _ ho).1, (hover _ _ ho).2, rfl⟩, ⟨rfl, rfl, rfl⟩, fun hno => by cases hno⟩
  | wait_closed ho =>
      exact ⟨⟨(hover _ _ ho).1, (hover _ _ ho).2, rfl⟩, ⟨rfl, rfl, rfl⟩, fun hno => by cases hno⟩
  | _ => exact ⟨⟨rfl, rfl, rfl⟩, ⟨rfl, rfl, rfl⟩, fun hno => by cases hno⟩

theorem Leaves.closes {s : BrowseSession Event} {c c' : Call Event} (h : Leaves s c c') :
    (c.before_take = false ∧ c.runs = [] ∧ c.registered = false) ∧
      (c'.before_take = false ∧ c'.runs = [] ∧ c'.registered = false) ∧ c' ≠ .on_close_push := by
  cases h with
  | closed ho =>
      rcases ho with ⟨rfl, -⟩ | rfl
      · exact ⟨⟨rfl, rfl, rfl⟩, ⟨rfl, rfl, rfl⟩, fun hno => by cases hno⟩
      · exact ⟨⟨rfl, rfl, rfl⟩, ⟨rfl, rfl, rfl⟩, fun hno => by cases hno⟩
  | _ => exact ⟨⟨rfl, rfl, rfl⟩, ⟨rfl, rfl, rfl⟩, fun hno => by cases hno⟩

/-- An `on_close` has put its callback in the list, or has run it itself. -/
theorem Closes.callback_registered {s s' : BrowseSession Event} (h : Closes s) {i : ℕ}
    {c : Call Event} (hi : s.calls[i]? = some c)
    (hcase : (c = .on_close_push ∧ s'.close_callbacks = s.close_callbacks ++ [i] ∧ s'.ran = s.ran) ∨
      (c = .on_close_run ∧ s'.close_callbacks = s.close_callbacks ∧ s'.ran = s.ran ++ [i]))
    (hcalls : s'.calls = s.calls.set i .on_close_returned) (hterminal : s'.terminal = s.terminal)
    (hrequests : s'.requests = s.requests) : Closes s' := by
  have hquiet : c.requesting = false ∧ c.before_take = false ∧ c.runs = [] ∧ c.registered = false := by
    rcases hcase with ⟨rfl, -⟩ | ⟨rfl, -⟩ <;> exact ⟨rfl, rfl, rfl, rfl⟩
  obtain ⟨hrequest, htake, hruns, hreg⟩ := hquiet
  refine ⟨?_, ?_, ?_⟩
  · have hcount := countP_set Call.requesting hi .on_close_returned
    have hsum := h.requests
    rw [hrequest] at hcount
    rw [hcalls, hrequests, hterminal, ← hsum]
    simp only [Call.requesting, Bool.false_eq_true, if_false] at hcount
    omega
  · intro x
    have hcount := count_flatMap_set Call.runs hi .on_close_returned x
    have hsum := h.counts x
    -- either list gets the callback, once
    have hlists : s'.close_callbacks.count x + s'.ran.count x =
        s.close_callbacks.count x + s.ran.count x + if x = i then 1 else 0 := by
      have hone : List.count x [i] = if x = i then 1 else 0 := by
        by_cases hx : x = i
        · rw [hx, if_pos rfl, List.count_singleton_self]
        · rw [if_neg hx, List.count_singleton, if_neg]
          simpa using fun heq => hx heq.symm
      rcases hcase with ⟨-, hlist, hran⟩ | ⟨-, hlist, hran⟩
      · rw [hlist, hran, List.count_append, hone]
        omega
      · rw [hlist, hran, List.count_append, hone]
        omega
    rw [hruns] at hcount
    simp only [Call.runs, List.count_nil] at hcount
    rw [hcalls, registered_set hi]
    by_cases hx : x = i
    · subst hx
      have hbefore : registered s.calls x = false := by
        rw [registered, hi]
        exact hreg
      rw [hbefore] at hsum
      simp only [if_true, Call.registered, Bool.false_eq_true, if_false] at hlists hsum ⊢
      omega
    · rw [if_neg hx] at hlists ⊢
      omega
  · intro ht htaken
    rw [hterminal] at ht
    have hcount := countP_set Call.before_take hi .on_close_returned
    rw [htake] at hcount
    simp only [Call.before_take, Bool.false_eq_true, if_false] at hcount
    rw [hcalls] at htaken
    obtain ⟨hempty, hnone⟩ := h.emptied ht (by omega)
    rcases hcase with ⟨rfl, -⟩ | ⟨-, hlist, -⟩
    · exact absurd hi (hnone i)
    · rw [hlist, hcalls]
      refine ⟨hempty, fun j hj => ?_⟩
      rcases getElem?_set_cases hj with ⟨-, heq⟩ | ⟨-, hj⟩
      · cases heq
      · exact hnone j hj

/-- A move of a call keeps the closes. -/
theorem Closes.move {s s' : BrowseSession Event} (h : Closes s) (hg : Gates s)
    (hslots : Slots s) {i : ℕ} {c : Call Event} (hi : s.calls[i]? = some c)
    (hmove : Move s i c s') : Closes s' := by
  cases hmove with
  | @quiet _ c' hq =>
      have hcalls : (s.move i c').calls = s.calls.set i c' := rfl
      exact h.move_call hi hcalls rfl rfl rfl rfl hq.closes.1 hq.closes.2.1 hq.closes.2.2
  | enter he hfree =>
      cases he with
      | next =>
          exact h.move_call hi rfl rfl rfl rfl rfl ⟨rfl, rfl, rfl⟩ ⟨rfl, rfl, rfl⟩
            (fun hno => by cases hno)
      | wait_closed =>
          exact h.move_call hi rfl rfl rfl rfl rfl ⟨rfl, rfl, rfl⟩ ⟨rfl, rfl, rfl⟩
            (fun hno => by cases hno)
  | @leave _ c' hl =>
      have hcalls : (s.leave i c').calls = s.calls.set i c' := rfl
      exact h.move_call hi hcalls rfl rfl rfl rfl hl.closes.1 hl.closes.2.1
        (fun hno => absurd hno hl.closes.2.2)
  | deliver =>
      exact h.move_call hi rfl rfl rfl rfl rfl ⟨rfl, rfl, rfl⟩ ⟨rfl, rfl, rfl⟩
        (fun hno => by cases hno)
  | begin_operation =>
      exact h.move_call hi rfl rfl rfl rfl rfl ⟨rfl, rfl, rfl⟩ ⟨rfl, rfl, rfl⟩
        (fun hno => by cases hno)
  | clear hc =>
      cases hc with
      | next =>
          exact h.move_call hi rfl rfl rfl rfl rfl ⟨rfl, rfl, rfl⟩ ⟨rfl, rfl, rfl⟩
            (fun hno => by cases hno)
      | wait_closed =>
          exact h.move_call hi rfl rfl rfl rfl rfl ⟨rfl, rfl, rfl⟩ ⟨rfl, rfl, rfl⟩
            (fun hno => by cases hno)
  | @swap after hopen =>
      apply h.advance hi rfl
      · simp only [BrowseSession.move, hopen, Call.requesting, Bool.false_eq_true, if_false, if_true]
      · intro x
        rfl
      · intro _ htaken
        -- the call itself has the callbacks still to take
        have hcount := countP_set Call.before_take hi (.closing .request after)
        simp only [Call.before_take, if_true, Bool.false_eq_true, if_false] at hcount
        simp only [BrowseSession.move] at htaken
        omega
  | @request after =>
      have hterminal : s.terminal = true := hslots.terminal_of_closing hi fun hno => by cases hno
      apply h.advance hi rfl
      · simp only [BrowseSession.move, Call.requesting, hterminal, Bool.false_eq_true, if_false,
          if_true]
      · intro x
        rfl
      · intro _ htaken
        have hcount := countP_set Call.before_take hi (.closing .take after)
        simp only [Call.before_take, if_true] at hcount
        simp only [BrowseSession.move] at htaken
        have hpos : 0 < s.calls.countP Call.before_take :=
          List.countP_pos_iff.mpr ⟨_, List.mem_of_getElem? hi, rfl⟩
        omega
  | @take after hfree =>
      apply h.advance hi rfl
      · rfl
      · intro x
        simp only [BrowseSession.move, Call.runs, List.count_nil]
        omega
      · intro _ _
        -- the lock is free, so no `on_close` is about to push
        refine ⟨rfl, fun j hj => ?_⟩
        have hlock := hg.lock
        rw [hfree] at hlock
        have hout := hlock.none_inside hj
        cases hout
  | @run after callback callbacks =>
      apply h.advance hi rfl
      · rfl
      · intro x
        simp only [BrowseSession.move, Call.runs, List.count_append, List.count_cons, List.count_nil]
        omega
      · intro ht htaken
        have hcount := countP_set Call.before_take hi (.closing (.run callbacks) after)
        simp only [Call.before_take, Bool.false_eq_true, if_false] at hcount
        simp only [BrowseSession.move] at htaken
        exact h.emptied ht (by omega)
  | lock =>
      exact h.move_call hi rfl rfl rfl rfl rfl ⟨rfl, rfl, rfl⟩ ⟨rfl, rfl, rfl⟩
        (fun hno => by cases hno)
  | late =>
      exact h.move_call hi rfl rfl rfl rfl rfl ⟨rfl, rfl, rfl⟩ ⟨rfl, rfl, rfl⟩
        (fun hno => by cases hno)
  | push => exact h.callback_registered hi (.inl ⟨rfl, rfl, rfl⟩) rfl rfl rfl
  | on_close_run => exact h.callback_registered hi (.inr ⟨rfl, rfl, rfl⟩) rfl rfl rfl

theorem Begins.closes {c : Call Event} (h : Begins c) :
    c.before_take = false ∧ c.requesting = false ∧ c.runs = [] ∧ c.registered = false ∧
      c ≠ .on_close_push := by
  cases h <;> exact ⟨rfl, rfl, rfl, rfl, fun hno => by cases hno⟩

theorem Closes.begin_call {s : BrowseSession Event} (h : Closes s) {c : Call Event}
    (hc : Begins c) : Closes (s.begin_call c) := by
  obtain ⟨htake, hrequest, hruns, hreg, hpush⟩ := hc.closes
  refine ⟨?_, ?_, ?_⟩
  · have hsum := h.requests
    simp only [BrowseSession.begin_call, List.countP_append, List.countP_cons, List.countP_nil,
      hrequest, Bool.false_eq_true, if_false]
    exact hsum
  · intro x
    have hsum := h.counts x
    have hsame : registered (s.calls ++ [c]) x = registered s.calls x := by
      unfold registered
      rcases Nat.lt_trichotomy x s.calls.length with hlt | rfl | hgt
      · rw [List.getElem?_append_left hlt]
      · rw [List.getElem?_concat_length, List.getElem?_eq_none (Nat.le_refl _)]
        exact hreg
      · have hlen : (s.calls ++ [c]).length ≤ x := by
          rw [List.length_append, List.length_singleton]
          omega
        rw [List.getElem?_eq_none hlen, List.getElem?_eq_none (Nat.le_of_lt hgt)]
    simp only [BrowseSession.begin_call, List.flatMap_append, List.flatMap_cons, List.flatMap_nil,
      hruns, List.append_nil, hsame]
    exact hsum
  · intro ht htaken
    simp only [BrowseSession.begin_call, List.countP_append, List.countP_cons, List.countP_nil,
      htake, Bool.false_eq_true, if_false] at htaken
    obtain ⟨hempty, hnone⟩ := h.emptied ht htaken
    refine ⟨hempty, fun j hj => ?_⟩
    rcases getElem?_concat_cases hj with ⟨-, heq⟩ | hj
    · exact hpush heq.symm
    · exact hnone j hj

/-- **One step**: every callback runs once, and the close is asked for once. -/
theorem closes_step {s s' : BrowseSession Event} {a : Label Event} (h : Closes s) (hg : Gates s)
    (hslots : Slots s) (hstep : s.step a = some s') : Closes s' := by
  rcases step_cases hstep with ⟨c, hc, rfl⟩ | ⟨i, c, hi, hmove⟩ | ⟨k, o, outcome, -, -, rfl⟩
  · exact h.begin_call hc
  · exact h.move hg hslots hi hmove
  · exact ⟨h.requests, h.counts, h.emptied⟩

/-! ## What calls return -/

/-- The calls that returned an event are those it was delivered to. -/
structure Returns (s : BrowseSession Event) : Prop where
  by_call : ∀ (i : ℕ) (e : Event),
    (i, e) ∈ s.delivered ↔ s.calls[i]? = some (.next_returned (.ok (some e)))
  nodup : (s.delivered.map Prod.fst).Nodup

theorem returns_start : Returns ({} : BrowseSession Event) where
  by_call i e := by
    rw [List.getElem?_nil]
    constructor
    · intro hno
      exact absurd hno List.not_mem_nil
    · intro hno
      cases hno
  nodup := List.nodup_nil

/-- A call that moves has not returned. It returns an event only when it has one, and has
one only if the session was open. -/
theorem Move.effect {s s' : BrowseSession Event} {i : ℕ} {c : Call Event} (h : Move s i c s')
    (hplaced : s.Placed c) :
    (∀ r, c ≠ .next_returned r) ∧ (s.terminal = true → s'.terminal = true) ∧
      ∃ c', s'.calls = s.calls.set i c' ∧ (∀ e, c' = .next_event e → s.terminal = false) ∧
        (s'.delivered = s.delivered ∧ (∀ e, c' ≠ .next_returned (.ok (some e))) ∨
          ∃ e, c = .next_event e ∧ c' = .next_returned (.ok (some e)) ∧
            s'.delivered = s.delivered ++ [(i, e)]) := by
  cases h with
  | @quiet _ c' hq =>
      refine ⟨?_, id, c', rfl, ?_, .inl ⟨rfl, ?_⟩⟩
      · intro r hr
        cases hq <;> cases hr
      · intro e he
        cases hq with
        | event hopen => exact hopen
        | _ => cases he
      · intro e he
        cases hq <;> cases he
  | @enter _ c' he hfree =>
      refine ⟨?_, id, c', rfl, ?_, .inl ⟨rfl, ?_⟩⟩
      · intro r hr
        cases he <;> cases hr
      · intro e hc
        cases he <;> cases hc
      · intro e hc
        cases he <;> cases hc
  | @leave _ c' hl =>
      refine ⟨?_, id, c', rfl, ?_, .inl ⟨rfl, ?_⟩⟩
      · intro r hr
        cases hl <;> cases hr
      · intro e hc
        cases hl <;> cases hc
      · intro e hc
        cases hl with
        | closed hover =>
            obtain rfl := Call.next_returned.inj hc
            exact hplaced.2 e rfl
        | _ => cases hc
  | @deliver e =>
      refine ⟨fun r hr => (by cases hr), id, _, rfl, fun e he => (by cases he), .inr ⟨e, rfl, rfl, rfl⟩⟩
  | @clear _ c' k hc =>
      refine ⟨?_, id, c', rfl, ?_, .inl ⟨rfl, ?_⟩⟩
      · intro r hr
        cases hc <;> cases hr
      · intro e he
        cases hc <;> cases he
      · intro e he
        cases hc <;> cases he
  | swap =>
      exact ⟨fun r hr => (by cases hr), fun _ => rfl, _, rfl, fun e he => (by cases he),
        .inl ⟨rfl, fun e he => by cases he⟩⟩
  | _ =>
      exact ⟨fun r hr => (by cases hr), id, _, rfl, fun e he => (by cases he),
        .inl ⟨rfl, fun e he => by cases he⟩⟩

/-- A move of a call keeps the returns. -/
theorem Returns.move {s s' : BrowseSession Event} (h : Returns s) (hslots : Slots s) {i : ℕ}
    {c : Call Event} (hi : s.calls[i]? = some c) (hmove : Move s i c s') : Returns s' := by
  obtain ⟨hcall, -, c', hcalls, -, hdelivered⟩ := hmove.effect (hslots.placed i c hi)
  have hfresh : ∀ e, (i, e) ∉ s.delivered := by
    intro e hmem
    rw [h.by_call, hi, Option.some.injEq] at hmem
    exact hcall _ hmem
  rcases hdelivered with ⟨hsame, hno⟩ | ⟨e, -, rfl, hadd⟩
  · refine ⟨fun j e => ?_, by rw [hsame]; exact h.nodup⟩
    rw [hsame, hcalls]
    by_cases hj : j = i
    · subst hj
      rw [getElem?_set_self hi, Option.some.injEq]
      exact ⟨fun hmem => absurd hmem (hfresh e), fun heq => absurd heq (hno e)⟩
    · rw [List.getElem?_set_ne fun heq => hj heq.symm]
      exact h.by_call j e
  · refine ⟨fun j d => ?_, ?_⟩
    · rw [hadd, hcalls, List.mem_append, List.mem_singleton]
      by_cases hj : j = i
      · subst hj
        rw [getElem?_set_self hi]
        constructor
        · rintro (hmem | heq)
          · exact absurd hmem (hfresh d)
          · rw [(Prod.mk.inj heq).2]
        · intro heq
          cases heq
          exact .inr rfl
      · rw [List.getElem?_set_ne fun heq => hj heq.symm]
        constructor
        · rintro (hmem | heq)
          · exact (h.by_call j d).mp hmem
          · exact absurd (Prod.mk.inj heq).1 hj
        · intro hmem
          exact .inl ((h.by_call j d).mpr hmem)
    · rw [hadd, List.map_append, List.nodup_append]
      refine ⟨h.nodup, List.nodup_cons.mpr ⟨List.not_mem_nil, List.nodup_nil⟩, ?_⟩
      intro a ha b hb heq
      have hbi : b = i := List.mem_singleton.mp hb
      obtain ⟨p, hp, hpa⟩ := List.mem_map.mp ha
      have hpi : (i, p.2) = p := Prod.ext (hbi.symm.trans (heq.symm.trans hpa.symm)) rfl
      apply hfresh p.2
      rw [hpi]
      exact hp

theorem Returns.begin_call {s : BrowseSession Event} (h : Returns s) {c : Call Event}
    (hc : Begins c) : Returns (s.begin_call c) := by
  refine ⟨fun i e => ?_, h.nodup⟩
  have hne : c ≠ .next_returned (.ok (some e)) := by
    cases hc <;> intro hno <;> cases hno
  have hold := h.by_call i e
  constructor
  · intro hmem
    have hi := hold.mp hmem
    simp only [BrowseSession.begin_call]
    rw [List.getElem?_append_left (lt_of_getElem? hi)]
    exact hi
  · intro hi
    rcases getElem?_concat_cases hi with ⟨-, heq⟩ | hi
    · exact absurd heq.symm hne
    · exact hold.mpr hi

/-- **One step**: what was delivered was returned by its call. -/
theorem returns_step {s s' : BrowseSession Event} {a : Label Event} (h : Returns s)
    (hslots : Slots s) (hstep : s.step a = some s') : Returns s' := by
  rcases step_cases hstep with ⟨c, hc, rfl⟩ | ⟨i, c, hi, hmove⟩ | ⟨k, o, outcome, -, -, rfl⟩
  · exact h.begin_call hc
  · exact h.move hslots hi hmove
  · exact ⟨h.by_call, h.nodup⟩

/-! ## Every run -/

/-- The invariant: gates, slot, closes and returns. -/
structure Inv (s : BrowseSession Event) : Prop where
  gates : Gates s
  slots : Slots s
  closes : Closes s
  returns : Returns s

theorem inv_start : Inv ({} : BrowseSession Event) :=
  ⟨gates_start, slots_start, closes_start, returns_start⟩

/-- **One step** keeps the invariant. -/
theorem inv_step {s s' : BrowseSession Event} {a : Label Event} (h : Inv s)
    (hstep : s.step a = some s') : Inv s' :=
  ⟨gates_step h.gates hstep, slots_step h.slots h.gates hstep,
    closes_step h.closes h.gates h.slots hstep, returns_step h.returns h.slots hstep⟩

theorem events_length (r : Option (BrowseOutcome Event)) : (events r).length ≤ 1 := by
  unfold events
  split
  · exact Nat.le_refl 1
  · exact Nat.zero_le 1

/-- An event is in the slot or with a call, not both. -/
theorem Slots.held_length {s : BrowseSession Event} (h : Slots s) : s.held.length ≤ 1 := by
  rw [BrowseSession.held, List.length_append]
  cases hslot : s.next_operation with
  | some k =>
      rw [h.carried_of_slot hslot, List.length_nil]
      exact events_length _
  | none =>
      have hin : s.in_slot = [] := by
        rw [BrowseSession.in_slot, hslot]
        rfl
      rw [hin, List.length_nil, Nat.zero_add]
      unfold BrowseSession.carried
      cases s.next_gate.bind fun call => s.calls[call]? with
      | none => exact Nat.zero_le 1
      | some c =>
          cases c with
          | next_decide r => exact events_length _
          | next_event e => exact Nat.le_refl 1
          | _ => exact Nat.zero_le 1

/-- One transport call at a time. -/
theorem Slots.in_flight {s : BrowseSession Event} (h : Slots s) :
    s.operations.countP (fun operation => operation.result.isNone) ≤ 1 := by
  apply countP_le_one
  intro j k p o hj hp hk ho
  have hjslot := h.flight j p hj (Option.isNone_iff_eq_none.mp hp)
  have hkslot := h.flight k o hk (Option.isNone_iff_eq_none.mp ho)
  rw [hjslot] at hkslot
  exact Option.some.inj hkslot

/-- The invariant in every run. -/
theorem inv_run {l : List (Label Event)} {s : BrowseSession Event}
    (hrun : Machine.run BrowseSession.step {} l = some s) : Inv s :=
  Machine.run_invariant (fun _ _ _ h hs => inv_step h hs) inv_start hrun

/-- The events that were returned are the first the transport has returned, in order,
each by one call. While the session is open the only one missing is held for the call
that returns next; a call returns without an event only when the session is closed. The
handle is asked to close once, and each callback runs once. -/
structure DeliversOnce (s : BrowseSession Event) : Prop where
  in_flight : s.operations.countP (fun operation => operation.result.isNone) ≤ 1
  in_order : s.delivered.map Prod.snd <+: s.transported
  one_left : s.transported.length ≤ s.delivered.length + 1
  kept : s.terminal = false → s.delivered.map Prod.snd ++ s.held = s.transported
  by_call : ∀ (i : ℕ) (e : Event),
    (i, e) ∈ s.delivered ↔ s.calls[i]? = some (.next_returned (.ok (some e)))
  once : (s.delivered.map Prod.fst).Nodup
  nothing : ∀ (i : ℕ) (r : BrowseOutcome Event), s.calls[i]? = some (.next_returned r) →
    (∃ e, r = .ok (some e)) ∨ s.terminal = true
  requests : s.requests ≤ 1
  callbacks : ∀ i, s.ran.count i ≤ 1
  closed : s.terminal = true →
    (∀ (i : ℕ) (stage : Closing) (after : After Event), s.calls[i]? ≠ some (.closing stage after)) →
    s.requests = 1 ∧ ∀ i : ℕ, s.calls[i]? = some .on_close_returned → s.ran.count i = 1

/-- Nobody is closing any more, so nothing is left to do. -/
theorem Closes.closed {s : BrowseSession Event} (h : Closes s) (hterminal : s.terminal = true)
    (hover : ∀ (i : ℕ) (stage : Closing) (after : After Event),
      s.calls[i]? ≠ some (.closing stage after)) :
    s.requests = 1 ∧ ∀ i : ℕ, s.calls[i]? = some .on_close_returned → s.ran.count i = 1 := by
  have hno : ∀ c ∈ s.calls, ∀ stage after, c ≠ .closing stage after := by
    rintro c hc stage after rfl
    obtain ⟨i, hi⟩ := List.mem_iff_getElem?.mp hc
    exact hover i stage after hi
  have hrequest : s.calls.countP Call.requesting = 0 := by
    rw [List.countP_eq_zero]
    intro c hc hreq
    cases c with
    | closing stage after => exact hno _ hc stage after rfl
    | _ => cases hreq
  have htake : s.calls.countP Call.before_take = 0 := by
    rw [List.countP_eq_zero]
    intro c hc htk
    cases c with
    | closing stage after => exact hno _ hc stage after rfl
    | _ => cases htk
  have hruns : s.calls.flatMap Call.runs = [] := by
    rw [List.flatMap_eq_nil_iff]
    intro c hc
    cases c with
    | closing stage after => exact absurd rfl (hno _ hc stage after)
    | _ => rfl
  refine ⟨?_, ?_⟩
  · have hsum := h.requests
    rw [hrequest, hterminal, if_pos rfl] at hsum
    omega
  · intro i hi
    have hsum := h.counts i
    rw [(h.emptied hterminal htake).1, hruns, registered, hi] at hsum
    simp only [List.count_nil, Option.elim_some, Call.registered, if_true] at hsum
    omega

/-- What is asked of a session follows from the invariant. -/
theorem Inv.delivers_once {s : BrowseSession Event} (h : Inv s) : DeliversOnce s := by
  have hone := h.slots.held_length
  have horder : s.delivered.map Prod.snd <+: s.transported ∧
      s.transported.length ≤ s.delivered.length + 1 := by
    rcases h.slots.accounted with hkept | ⟨-, -, -, e, hlost⟩
    · refine ⟨⟨s.held, hkept⟩, ?_⟩
      rw [← hkept, List.length_append, List.length_map]
      omega
    · refine ⟨⟨[e], hlost⟩, ?_⟩
      have hlength := congrArg List.length hlost
      rw [List.length_append, List.length_map, List.length_singleton] at hlength
      omega
  refine ⟨h.slots.in_flight, horder.1, horder.2, ?_, h.returns.by_call, h.returns.nodup,
    fun i r hi => h.slots.placed i _ hi, ?_, ?_, h.closes.closed⟩
  · intro hopen
    rcases h.slots.accounted with hkept | ⟨hterminal, -⟩
    · exact hkept
    · rw [hopen] at hterminal
      cases hterminal
  · have hsum := h.closes.requests
    split at hsum
    · omega
    · omega
  · intro i
    have hsum := h.closes.counts i
    split at hsum
    · omega
    · omega

/-- Since `s₁` was closed, at most the call that had its event then has returned one. -/
def AfterClose (s₁ s : BrowseSession Event) : Prop :=
  s.terminal = true ∧
    ((s.delivered = s₁.delivered ∧
        ∀ (i : ℕ) (e : Event), s.calls[i]? = some (.next_event e) → s₁.calls[i]? = some (.next_event e)) ∨
      ∃ (i : ℕ) (e : Event), s₁.calls[i]? = some (.next_event e) ∧
        s.delivered = s₁.delivered ++ [(i, e)] ∧
        ∀ (j : ℕ) (d : Event), s.calls[j]? ≠ some (.next_event d))

theorem AfterClose.move {s₁ s s' : BrowseSession Event} (h : AfterClose s₁ s) (hinv : Inv s) {i : ℕ}
    {c : Call Event} (hi : s.calls[i]? = some c) (hmove : Move s i c s') : AfterClose s₁ s' := by
  obtain ⟨hterminal, hcases⟩ := h
  obtain ⟨-, hmono, c', hcalls, hevent, hdelivered⟩ := hmove.effect (hinv.slots.placed i c hi)
  have hclosed : ∀ e, c' ≠ .next_event e := by
    intro e he
    rw [hevent e he] at hterminal
    cases hterminal
  have hold : ∀ (j : ℕ) (d : Event), s'.calls[j]? = some (.next_event d) →
      j ≠ i ∧ s.calls[j]? = some (.next_event d) := by
    intro j d hj
    rw [hcalls] at hj
    rcases getElem?_set_cases hj with ⟨-, heq⟩ | hj
    · exact absurd heq.symm (hclosed d)
    · exact hj
  refine ⟨hmono hterminal, ?_⟩
  rcases hcases with ⟨hsame, hfrom⟩ | ⟨k, e, hk, hone, hnone⟩
  · rcases hdelivered with ⟨heq, -⟩ | ⟨e, rfl, -, hadd⟩
    · exact .inl ⟨heq.trans hsame, fun j d hj => hfrom j d (hold j d hj).2⟩
    · refine .inr ⟨i, e, hfrom i e hi, by rw [hadd, hsame], fun j d hj => ?_⟩
      -- the gate lets one call have an event
      exact (hold j d hj).1 (hinv.gates.gate.only hi rfl (hold j d hj).2 rfl)
  · rcases hdelivered with ⟨heq, -⟩ | ⟨e', rfl, -, -⟩
    · exact .inr ⟨k, e, hk, heq.trans hone, fun j d hj => hnone j d (hold j d hj).2⟩
    · exact absurd hi (hnone i e')

theorem AfterClose.step {s₁ s s' : BrowseSession Event} {a : Label Event} (h : AfterClose s₁ s)
    (hinv : Inv s) (hstep : s.step a = some s') : AfterClose s₁ s' := by
  rcases step_cases hstep with ⟨c, hc, rfl⟩ | ⟨i, c, hi, hmove⟩ | ⟨k, o, outcome, -, -, rfl⟩
  · have hold : ∀ (j : ℕ) (d : Event), (s.begin_call c).calls[j]? = some (.next_event d) →
        s.calls[j]? = some (.next_event d) := by
      intro j d hj
      rcases getElem?_concat_cases hj with ⟨-, heq⟩ | hj
      · rw [← heq] at hc
        cases hc
      · exact hj
    refine ⟨h.1, ?_⟩
    rcases h.2 with ⟨hsame, hfrom⟩ | ⟨i, e, hi, hone, hnone⟩
    · exact .inl ⟨hsame, fun j d hj => hfrom j d (hold j d hj)⟩
    · exact .inr ⟨i, e, hi, hone, fun j d hj => hnone j d (hold j d hj)⟩
  · exact h.move hinv hi hmove
  · exact h

theorem delivered_after_close {s₁ s : BrowseSession Event} (hinv : Inv s₁)
    (hterminal : s₁.terminal = true) {l : List (Label Event)}
    (hrun : Machine.run BrowseSession.step s₁ l = some s) :
    s.delivered = s₁.delivered ∨ ∃ (i : ℕ) (e : Event), s₁.calls[i]? = some (.next_event e) ∧
      s.delivered = s₁.delivered ++ [(i, e)] := by
  have hstart : AfterClose s₁ s₁ := ⟨hterminal, .inl ⟨rfl, fun _ _ hi => hi⟩⟩
  have hstep : ∀ (s : BrowseSession Event) (a : Label Event) (s' : BrowseSession Event),
      Inv s ∧ AfterClose s₁ s → s.step a = some s' → Inv s' ∧ AfterClose s₁ s' :=
    fun _ _ _ h hs => ⟨inv_step h.1 hs, h.2.step h.1 hs⟩
  have hboth : Inv s ∧ AfterClose s₁ s := Machine.run_invariant hstep ⟨hinv, hstart⟩ hrun
  rcases hboth.2.2 with ⟨hsame, -⟩ | ⟨i, e, hi, hone, -⟩
  · exact .inl hsame
  · exact .inr ⟨i, e, hi, hone⟩

/-- In every run a session delivers once, and after it was closed at most to a call that
had looked at the flag before. -/
theorem browse_delivers_once (l : List (Label Event)) {s : BrowseSession Event}
    (hrun : Machine.run BrowseSession.step {} l = some s) :
    DeliversOnce s ∧ (s.terminal = true → ∀ l' s', Machine.run BrowseSession.step s l' = some s' →
      s'.delivered = s.delivered ∨ ∃ (i : ℕ) (e : Event), s.calls[i]? = some (.next_event e) ∧
        s'.delivered = s.delivered ++ [(i, e)]) :=
  ⟨(inv_run hrun).delivers_once, fun ht _ _ hrest => delivered_after_close (inv_run hrun) ht hrest⟩

/-- The event of a call that was dropped is returned by the next one. -/
theorem browse_delivers_once_cancelled : ∃ s : BrowseSession ℕ,
    Machine.run BrowseSession.step {} [.next, .advance 0, .advance 0, .advance 0, .cancel 0,
      .transport 0 (.ok (some 7)), .next, .advance 1, .advance 1, .advance 1, .advance 1, .advance 1,
      .advance 1, .advance 1] = some s ∧
    s.delivered = [(1, 7)] ∧ DeliversOnce s :=
  ⟨_, rfl, rfl, (browse_delivers_once [.next, .advance 0, .advance 0, .advance 0, .cancel 0,
    .transport 0 (.ok (some 7)), .next, .advance 1, .advance 1, .advance 1, .advance 1, .advance 1,
    .advance 1, .advance 1] rfl).1⟩

/-- The transport has returned an event, and the session is closed before the call that
waits for it looks at the flag again: no call ever returns that event. -/
theorem event_dropped_by_close : ∃ s : BrowseSession ℕ,
    Machine.run BrowseSession.step {} [.next, .advance 0, .advance 0, .advance 0,
      .transport 0 (.ok (some 7)), .close, .advance 1, .advance 1, .advance 1, .advance 1, .advance 0,
      .advance 0, .advance 0] = some s ∧
    s.transported = [7] ∧ s.calls = [.next_returned (.ok none), .close_returned] ∧
    ∀ l s', Machine.run BrowseSession.step s l = some s' → s'.delivered = [] := by
  refine ⟨_, rfl, rfl, rfl, fun l s' hrest => ?_⟩
  have hinv := inv_run (show Machine.run BrowseSession.step {} [.next, .advance 0, .advance 0,
    .advance 0, .transport 0 (.ok (some 7)), .close, .advance 1, .advance 1, .advance 1, .advance 1,
    .advance 0, .advance 0, .advance 0] = some _ from rfl)
  rcases delivered_after_close hinv rfl hrest with hsame | ⟨i, e, hi, -⟩
  · exact hsame
  · match i with
    | 0 => cases hi
    | 1 => cases hi
    | _ + 2 => cases hi

end IrohHttp.EngineBrowse
