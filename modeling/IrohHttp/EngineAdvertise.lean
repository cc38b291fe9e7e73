/-
`engine/session.rs`: an `AdvertisementSession` changes an advertisement, one update at a
time, and not at all when the update asked for is the one that stands.

An update runs in a task, which closes the session itself if the transport refuses. A
call that is dropped leaves its operation in the slot; the next call with the gate waits
for it and records what it did before it compares.

The slot and `current_update` belong to the call that has the gate, so what such a call
does with them goes into one step with its access to what others share: the flag, a
result, the handle. `applied` is what the transport has done, whatever became of the call.
-/
import IrohHttp.EngineBrowse

set_option autoImplicit false

namespace IrohHttp.EngineAdvertise

open Parties EngineBrowse

/-! ## The session -/

/-- The task of an operation: the transport at work, its refusal seen, the flag set and
the handle still to be asked, and the result left for those who wait. -/
inductive Task
  | updating
  | failed (error : String)
  | requesting (error : String)
  | completed (result : Except String Unit)

/-- An operation, with the call that began it. -/
structure Operation (Update : Type) where
  call : ℕ
  update : Update
  task : Task := .updating

/-- The result of an operation whose task is done. -/
def Operation.result {Update : Type} (o : Operation Update) : Option (Except String Unit) :=
  match o.task with
  | .completed result => some result
  | _ => none

/-- What a call does after its `close`. -/
inductive After (Update : Type)
  | returns (update : Update) (error : String)
  | close
  | wait_closed

/-- A call of the session, by its next step. -/
inductive Call (Update : Type)
  | update_gate (update : Update)
  | update_previous (update : Update) (previous : ℕ)
  | update_check (update : Update)
  | update_wait (update : Update) (operation : ℕ)
  | update_returned (update : Update) (outcome : Except String Bool)
  | close_swap (after : After Update)
  | close_request (after : After Update)
  | close_returned
  | wait_gate
  | wait_operation (operation : ℕ)
  | wait_handle
  | wait_returned
  | dropped

/-- A session: its calls, the gate of the updates, the operation that is under way, and the record
of both. -/
structure AdvertisementSession (Update : Type) where
  initial : Option Update := none
  calls : List (Call Update) := []
  update_gate : Option ℕ := none
  update_operation : Option ℕ := none
  operations : List (Operation Update) := []
  current_update : Option Update := none
  closed : Bool := false
  requests : ℕ := 0

/-- What can happen: calls of the host, their next steps, calls that are dropped, and the turns of
the tasks. -/
inductive Label (Update : Type)
  | update (update : Update)
  | close
  | wait_closed
  | advance (call : ℕ)
  | cancel (call : ℕ)
  | transport (operation : ℕ) (result : Except String Unit)
  | task (operation : ℕ)

variable {Update : Type}

namespace AdvertisementSession

/-- `new` and `with_initial`. -/
def from_parts (current_update : Option Update) : AdvertisementSession Update :=
  { initial := current_update, current_update := current_update }

/-- A call gets to another place. -/
def move (s : AdvertisementSession Update) (call : ℕ) (c : Call Update) :
    AdvertisementSession Update :=
  { s with calls := s.calls.set call c }

/-- A new call. -/
def begin_call (s : AdvertisementSession Update) (c : Call Update) : AdvertisementSession Update :=
  { s with calls := s.calls ++ [c] }

/-- A call leaves the gate. -/
def leave (s : AdvertisementSession Update) (call : ℕ) (c : Call Update) :
    AdvertisementSession Update :=
  { s with update_gate := none }.move call c

/-- The gate, and a look at the slot. -/
def enter (s : AdvertisementSession Update) (call : ℕ) (empty : Call Update)
    (previous : ℕ → Call Update) : Option (AdvertisementSession Update) :=
  if s.update_gate = none then
    some ({ s with update_gate := some call }.move call (s.update_operation.elim empty previous))
  else none

/-- The update of an operation and its result, once it has one. -/
def result (s : AdvertisementSession Update) (operation : ℕ) :
    Option (Update × Except String Unit) :=
  (s.operations[operation]?).bind fun o => o.result.map (o.update, ·)

/-- The slot is empty, if it still has the operation. -/
def clear (s : AdvertisementSession Update) (operation : ℕ) : AdvertisementSession Update :=
  { s with update_operation := clear_operation s.update_operation operation }

/-- The update that is in force. -/
def record (s : AdvertisementSession Update) (update : Update) : AdvertisementSession Update :=
  { s with current_update := some update }

/-- The operation that an earlier call left behind. -/
def reconcile (s : AdvertisementSession Update) (call : ℕ) (update : Update) (previous : ℕ) :
    Update × Except String Unit → AdvertisementSession Update
  | (_, .error error) => (s.clear previous).move call (.close_swap (.returns update error))
  | (completed, .ok _) => ((s.clear previous).record completed).move call (.update_check update)

/-- A new operation in the slot, whose task is spawned. -/
def begin_operation (s : AdvertisementSession Update) (call : ℕ) (update : Update) :
    AdvertisementSession Update :=
  { s with
    update_operation := some s.operations.length
    operations := s.operations ++ [({ call := call, update := update } : Operation Update)] }.move call
      (.update_wait update s.operations.length)

/-- The end of an operation: a failure closes the session, a success is in force. -/
def finish (s : AdvertisementSession Update) (call : ℕ) (update : Update) (operation : ℕ) :
    Update × Except String Unit → AdvertisementSession Update
  | (_, .error error) => (s.clear operation).move call (.close_swap (.returns update error))
  | (completed, .ok _) =>
    ((s.clear operation).record completed).leave call (.update_returned update (.ok true))

/-- What a call does behind the close it has made. -/
def after_close (s : AdvertisementSession Update) (call : ℕ) :
    After Update → AdvertisementSession Update
  | .returns update error => s.leave call (.update_returned update (.error error))
  | .close => s.move call .close_returned
  | .wait_closed => s.move call .wait_gate

/-- The task of an operation after a refusal. -/
def task (s : AdvertisementSession Update) (operation : ℕ) (o : Operation Update) :
    Option (AdvertisementSession Update) :=
  match o.task with
  | .failed error =>
    let next := if s.closed then .completed (.error error) else .requesting error
    some { s with
      closed := true
      operations := s.operations.set operation { o with task := next } }
  | .requesting error =>
    some { s with
      requests := s.requests + 1
      operations := s.operations.set operation { o with task := .completed (.error error) } }
  | _ => none

/-- The transport call of an operation returns. -/
def transport (s : AdvertisementSession Update) (operation : ℕ) (result : Except String Unit)
    (o : Operation Update) : Option (AdvertisementSession Update) :=
  match o.task, result with
  | .updating, .ok done =>
    some { s with
      operations := s.operations.set operation { o with task := .completed (.ok done) } }
  | .updating, .error error =>
    some { s with operations := s.operations.set operation { o with task := .failed error } }
  | _, _ => none

variable [DecidableEq Update]

/-- `update`, with nothing left behind in the slot. -/
def check (s : AdvertisementSession Update) (call : ℕ) (update : Update) :
    AdvertisementSession Update :=
  if s.closed then s.leave call (.update_returned update (.error "advertisement is closed"))
  else if s.current_update = some update then s.leave call (.update_returned update (.ok false))
  else s.begin_operation call update

/-- The next step of a call, `none` while it waits. -/
def advance (s : AdvertisementSession Update) (call : ℕ) :
    Call Update → Option (AdvertisementSession Update)
  | .update_gate update => s.enter call (.update_check update) (.update_previous update)
  | .update_previous update previous => (s.result previous).map (s.reconcile call update previous)
  | .update_check update => some (s.check call update)
  | .update_wait update operation => (s.result operation).map (s.finish call update operation)
  | .close_swap after =>
    if s.closed then some (s.after_close call after)
    else some ({ s with closed := true }.move call (.close_request after))
  | .close_request after => some ({ s with requests := s.requests + 1 }.after_close call after)
  | .wait_gate => s.enter call .wait_handle .wait_operation
  | .wait_operation operation =>
    (s.result operation).map fun _ => (s.clear operation).move call .wait_handle
  | .wait_handle => some (s.leave call .wait_returned)
  | _ => none

/-- A call is dropped at one of its waits. -/
def cancel (s : AdvertisementSession Update) (call : ℕ) :
    Call Update → Option (AdvertisementSession Update)
  | .update_gate _ => some (s.move call .dropped)
  | .update_previous _ _ => some (s.leave call .dropped)
  | .update_wait _ _ => some (s.leave call .dropped)
  | .wait_gate => some (s.move call .dropped)
  | .wait_operation _ => some (s.leave call .dropped)
  | .wait_handle => some (s.leave call .dropped)
  | _ => none

/-- One step, `none` where the label is not enabled. -/
def step (s : AdvertisementSession Update) : Label Update → Option (AdvertisementSession Update)
  | .update update => some (s.begin_call (.update_gate update))
  | .close => some (s.begin_call (.close_swap .close))
  | .wait_closed => some (s.begin_call (.close_swap .wait_closed))
  | .advance call => (s.calls[call]?).bind (s.advance call)
  | .cancel call => (s.calls[call]?).bind (s.cancel call)
  | .transport operation result => (s.operations[operation]?).bind (s.transport operation result)
  | .task operation => (s.operations[operation]?).bind (s.task operation)

end AdvertisementSession

/-! ## What a step can do -/

/-- The steps of a call. -/
inductive Move (s : AdvertisementSession Update) (i : ℕ) :
    Call Update → AdvertisementSession Update → Prop
  | enter_check {u : Update} (hfree : s.update_gate = none) (hslot : s.update_operation = none) :
      Move s i (.update_gate u) ({ s with update_gate := some i }.move i (.update_check u))
  | enter_previous {u : Update} {k : ℕ} (hfree : s.update_gate = none)
      (hslot : s.update_operation = some k) :
      Move s i (.update_gate u) ({ s with update_gate := some i }.move i (.update_previous u k))
  | previous_failed {u v : Update} {k : ℕ} {error : String} (hr : s.result k = some (v, .error error)) :
      Move s i (.update_previous u k) ((s.clear k).move i (.close_swap (.returns u error)))
  | previous_done {u v : Update} {k : ℕ} {done : Unit} (hr : s.result k = some (v, .ok done)) :
      Move s i (.update_previous u k) (((s.clear k).record v).move i (.update_check u))
  | refused {u : Update} (hclosed : s.closed = true) :
      Move s i (.update_check u)
        (s.leave i (.update_returned u (.error "advertisement is closed")))
  | unchanged {u : Update} (hopen : s.closed = false) (hsame : s.current_update = some u) :
      Move s i (.update_check u) (s.leave i (.update_returned u (.ok false)))
  | begin_operation {u : Update} (hopen : s.closed = false) (hnew : s.current_update ≠ some u) :
      Move s i (.update_check u) (s.begin_operation i u)
  | failed {u v : Update} {k : ℕ} {error : String} (hr : s.result k = some (v, .error error)) :
      Move s i (.update_wait u k) ((s.clear k).move i (.close_swap (.returns u error)))
  | done {u v : Update} {k : ℕ} {done : Unit} (hr : s.result k = some (v, .ok done)) :
      Move s i (.update_wait u k)
        (((s.clear k).record v).leave i (.update_returned u (.ok true)))
  | closed {after : After Update} (hclosed : s.closed = true) :
      Move s i (.close_swap after) (s.after_close i after)
  | swap {after : After Update} (hopen : s.closed = false) :
      Move s i (.close_swap after) ({ s with closed := true }.move i (.close_request after))
  | request {after : After Update} :
      Move s i (.close_request after) ({ s with requests := s.requests + 1 }.after_close i after)
  | enter_handle (hfree : s.update_gate = none) (hslot : s.update_operation = none) :
      Move s i .wait_gate ({ s with update_gate := some i }.move i .wait_handle)
  | enter_operation {k : ℕ} (hfree : s.update_gate = none) (hslot : s.update_operation = some k) :
      Move s i .wait_gate ({ s with update_gate := some i }.move i (.wait_operation k))
  | waited {k : ℕ} {r : Update × Except String Unit} (hr : s.result k = some r) :
      Move s i (.wait_operation k) ((s.clear k).move i .wait_handle)
  | handle : Move s i .wait_handle (s.leave i .wait_returned)
  | cancel_outside {c : Call Update} (hc : c = .wait_gate ∨ ∃ u, c = .update_gate u) :
      Move s i c (s.move i .dropped)
  | cancel_inside {c : Call Update}
      (hc : c = .wait_handle ∨ (∃ k, c = .wait_operation k) ∨ (∃ u k, c = .update_previous u k) ∨
        ∃ u k, c = .update_wait u k) :
      Move s i c (s.leave i .dropped)

/-- A call enters the gate when it is free. -/
theorem enter_cases {s s' : AdvertisementSession Update} {i : ℕ} {empty : Call Update}
    {previous : ℕ → Call Update} (h : s.enter i empty previous = some s') :
    s.update_gate = none ∧
      ((s.update_operation = none ∧ s' = { s with update_gate := some i }.move i empty) ∨
        ∃ k, s.update_operation = some k ∧
          s' = { s with update_gate := some i }.move i (previous k)) := by
  unfold AdvertisementSession.enter at h
  split at h
  · next hfree =>
    obtain rfl := Option.some.inj h
    refine ⟨hfree, ?_⟩
    rcases Option.eq_none_or_eq_some s.update_operation with hslot | ⟨k, hslot⟩
    · refine .inl ⟨hslot, ?_⟩
      simp only [hslot, Option.elim_none]
    · refine .inr ⟨k, hslot, ?_⟩
      simp only [hslot, Option.elim_some]
  · cases h

/-- A dropped call leaves what it held. -/
theorem move_of_cancel {s s' : AdvertisementSession Update} {i : ℕ} {c : Call Update}
    (h : s.cancel i c = some s') : Move s i c s' := by
  unfold AdvertisementSession.cancel at h
  split at h
  · rw [← Option.some.inj h]
    exact .cancel_outside (.inr ⟨_, rfl⟩)
  · rw [← Option.some.inj h]
    exact .cancel_inside (.inr (.inr (.inl ⟨_, _, rfl⟩)))
  · rw [← Option.some.inj h]
    exact .cancel_inside (.inr (.inr (.inr ⟨_, _, rfl⟩)))
  · rw [← Option.some.inj h]
    exact .cancel_outside (.inl rfl)
  · rw [← Option.some.inj h]
    exact .cancel_inside (.inr (.inl ⟨_, rfl⟩))
  · rw [← Option.some.inj h]
    exact .cancel_inside (.inl rfl)
  · cases h

section Steps

variable [DecidableEq Update]

/-- The check in the gate begins an operation or leaves. -/
theorem move_of_check (s : AdvertisementSession Update) (i : ℕ) (u : Update) :
    Move s i (.update_check u) (s.check i u) := by
  unfold AdvertisementSession.check
  split
  · next hclosed => exact .refused hclosed
  · next hopen =>
    split
    · next hsame => exact .unchanged (Bool.eq_false_iff.mpr hopen) hsame
    · next hnew => exact .begin_operation (Bool.eq_false_iff.mpr hopen) hnew

/-- Every step of a call is one of the moves. -/
theorem move_of_advance {s s' : AdvertisementSession Update} {i : ℕ} {c : Call Update}
    (h : s.advance i c = some s') : Move s i c s' := by
  cases c with
  | update_gate u =>
      rcases enter_cases h with ⟨hfree, ⟨hslot, rfl⟩ | ⟨k, hslot, rfl⟩⟩
      · exact .enter_check hfree hslot
      · exact .enter_previous hfree hslot
  | update_previous u k =>
      obtain ⟨⟨v, r⟩, hr, rfl⟩ := Option.map_eq_some_iff.mp h
      cases r with
      | error error => exact .previous_failed hr
      | ok done => exact .previous_done hr
  | update_check u =>
      rw [← Option.some.inj h]
      exact move_of_check s i u
  | update_wait u k =>
      obtain ⟨⟨v, r⟩, hr, rfl⟩ := Option.map_eq_some_iff.mp h
      cases r with
      | error error => exact .failed hr
      | ok done => exact .done hr
  | close_swap after =>
      simp only [AdvertisementSession.advance] at h
      split at h
      · next hclosed =>
        rw [← Option.some.inj h]
        exact .closed hclosed
      · next hopen =>
        rw [← Option.some.inj h]
        exact .swap (Bool.eq_false_iff.mpr hopen)
  | close_request after =>
      rw [← Option.some.inj h]
      exact .request
  | wait_gate =>
      rcases enter_cases h with ⟨hfree, ⟨hslot, rfl⟩ | ⟨k, hslot, rfl⟩⟩
      · exact .enter_handle hfree hslot
      · exact .enter_operation hfree hslot
  | wait_operation k =>
      obtain ⟨r, hr, rfl⟩ := Option.map_eq_some_iff.mp h
      exact .waited hr
  | wait_handle =>
      rw [← Option.some.inj h]
      exact .handle
  | update_returned u outcome => cases h
  | close_returned => cases h
  | wait_returned => cases h
  | dropped => cases h

end Steps

/-- The steps of an operation: the transport returns, and after a refusal the task closes
the session, if nobody has. -/
inductive TaskMove (s : AdvertisementSession Update) (k : ℕ) (o : Operation Update) :
    AdvertisementSession Update → Prop
  | applied {done : Unit} (ho : o.task = .updating) :
      TaskMove s k o { s with
        operations := s.operations.set k { o with task := .completed (.ok done) } }
  | failed {error : String} (ho : o.task = .updating) :
      TaskMove s k o { s with operations := s.operations.set k { o with task := .failed error } }
  | late {error : String} (ho : o.task = .failed error) (hclosed : s.closed = true) :
      TaskMove s k o { s with
        closed := true
        operations := s.operations.set k { o with task := .completed (.error error) } }
  | swap {error : String} (ho : o.task = .failed error) (hopen : s.closed = false) :
      TaskMove s k o { s with
        closed := true
        operations := s.operations.set k { o with task := .requesting error } }
  | request {error : String} (ho : o.task = .requesting error) :
      TaskMove s k o { s with
        requests := s.requests + 1
        operations := s.operations.set k { o with task := .completed (.error error) } }

/-- The transport's answer is a move of its task. -/
theorem task_move_of_transport {s s' : AdvertisementSession Update} {k : ℕ} {o : Operation Update}
    {result : Except String Unit} (h : s.transport k result o = some s') : TaskMove s k o s' := by
  unfold AdvertisementSession.transport at h
  split at h
  · next htask =>
    rw [← Option.some.inj h]
    exact .applied htask
  · next htask =>
    rw [← Option.some.inj h]
    exact .failed htask
  · cases h

/-- A turn of a task is one of its moves. -/
theorem task_move_of_task {s s' : AdvertisementSession Update} {k : ℕ} {o : Operation Update}
    (h : s.task k o = some s') : TaskMove s k o s' := by
  unfold AdvertisementSession.task at h
  split at h
  · next error htask =>
    rw [← Option.some.inj h]
    by_cases hclosed : s.closed = true
    · simp only [if_pos hclosed]
      exact .late htask hclosed
    · simp only [if_neg hclosed]
      exact .swap htask (Bool.eq_false_iff.mpr hclosed)
  · next error htask =>
    rw [← Option.some.inj h]
    exact .request htask
  · cases h

/-- The calls that begin. -/
inductive Begins : Call Update → Prop
  | update (u : Update) : Begins (.update_gate u)
  | close : Begins (.close_swap .close)
  | wait_closed : Begins (.close_swap .wait_closed)

/-- **What one step can do**: a new call, a move of a call, a move of a task. -/
theorem step_cases [DecidableEq Update] {s s' : AdvertisementSession Update} {a : Label Update}
    (h : s.step a = some s') :
    (∃ c, Begins c ∧ s' = s.begin_call c) ∨
    (∃ i c, s.calls[i]? = some c ∧ Move s i c s') ∨
    (∃ k o, s.operations[k]? = some o ∧ TaskMove s k o s') := by
  cases a with
  | update u => exact .inl ⟨_, .update u, (Option.some.inj h).symm⟩
  | close => exact .inl ⟨_, .close, (Option.some.inj h).symm⟩
  | wait_closed => exact .inl ⟨_, .wait_closed, (Option.some.inj h).symm⟩
  | advance i =>
      obtain ⟨c, hc, hmove⟩ := Option.bind_eq_some_iff.mp h
      exact .inr (.inl ⟨i, c, hc, move_of_advance hmove⟩)
  | cancel i =>
      obtain ⟨c, hc, hmove⟩ := Option.bind_eq_some_iff.mp h
      exact .inr (.inl ⟨i, c, hc, move_of_cancel hmove⟩)
  | transport k result =>
      obtain ⟨o, ho, hmove⟩ := Option.bind_eq_some_iff.mp h
      exact .inr (.inr ⟨k, o, ho, task_move_of_transport hmove⟩)
  | task k =>
      obtain ⟨o, ho, hmove⟩ := Option.bind_eq_some_iff.mp h
      exact .inr (.inr ⟨k, o, ho, task_move_of_task hmove⟩)

/-! ## The gate -/

/-- Whether the call holds the gate. -/
def Call.holds : Call Update → Bool
  | .update_previous _ _ => true
  | .update_check _ => true
  | .update_wait _ _ => true
  | .close_swap (.returns _ _) => true
  | .close_request (.returns _ _) => true
  | .wait_operation _ => true
  | .wait_handle => true
  | _ => false

/-- The gate has one holder at most. -/
abbrev Gate (s : AdvertisementSession Update) : Prop := Held Call.holds s.update_gate s.calls

theorem gate_start (initial : Option Update) : Gate (.from_parts initial) := held_nil _

theorem gate_after_close {s : AdvertisementSession Update} (h : Gate s) {i : ℕ} {c : Call Update}
    (hi : s.calls[i]? = some c) {after : After Update}
    (hc : c = .close_swap after ∨ c = .close_request after) : Gate (s.after_close i after) := by
  cases after with
  | returns u error =>
      apply h.release hi _ rfl
      rcases hc with rfl | rfl <;> rfl
  | close =>
      apply h.keep hi
      rcases hc with rfl | rfl <;> rfl
  | wait_closed =>
      apply h.keep hi
      rcases hc with rfl | rfl <;> rfl

/-- A move keeps the gate. -/
theorem gate_move {s s' : AdvertisementSession Update} (h : Gate s) {i : ℕ} {c : Call Update}
    (hi : s.calls[i]? = some c) (hmove : Move s i c s') : Gate s' := by
  cases hmove with
  | enter_check hfree =>
      rw [Gate, hfree] at h
      exact h.acquire hi rfl
  | enter_previous hfree =>
      rw [Gate, hfree] at h
      exact h.acquire hi rfl
  | previous_failed => exact h.keep hi rfl
  | previous_done => exact h.keep hi rfl
  | refused => exact h.release hi rfl rfl
  | unchanged => exact h.release hi rfl rfl
  | begin_operation => exact h.keep hi rfl
  | failed => exact h.keep hi rfl
  | done => exact h.release hi rfl rfl
  | closed => exact gate_after_close h hi (.inl rfl)
  | @swap after =>
      apply h.keep hi
      cases after <;> rfl
  | request => exact gate_after_close (s := { s with requests := s.requests + 1 }) h hi (.inr rfl)
  | enter_handle hfree =>
      rw [Gate, hfree] at h
      exact h.acquire hi rfl
  | enter_operation hfree =>
      rw [Gate, hfree] at h
      exact h.acquire hi rfl
  | waited => exact h.keep hi rfl
  | handle => exact h.release hi rfl rfl
  | cancel_outside hc =>
      apply h.keep hi
      rcases hc with rfl | ⟨u, rfl⟩ <;> rfl
  | cancel_inside hc =>
      apply h.release hi _ rfl
      rcases hc with rfl | ⟨k, rfl⟩ | ⟨u, k, rfl⟩ | ⟨u, k, rfl⟩ <;> rfl

/-- **One step** keeps the gate. -/
theorem gate_step [DecidableEq Update] {s s' : AdvertisementSession Update} {a : Label Update}
    (h : Gate s) (hstep : s.step a = some s') : Gate s' := by
  rcases step_cases hstep with ⟨c, hc, rfl⟩ | ⟨i, c, hi, hmove⟩ | ⟨k, o, -, hmove⟩
  · apply h.add
    cases hc <;> rfl
  · exact gate_move h hi hmove
  · cases hmove <;> exact h

/-! ## What stands -/

/-- The updates that the transport has applied. -/
def applied (operations : List (Operation Update)) : List Update :=
  operations.filterMap fun o =>
    match o.task with
    | .completed (.ok _) => some o.update
    | _ => none

/-- An operation that has failed or is about to. -/
def Operation.refused (o : Operation Update) : Bool :=
  match o.task with
  | .failed _ => true
  | .requesting _ => true
  | .completed (.error _) => true
  | _ => false

/-- A refusal after which the task has seen to the flag. -/
def Operation.reported (o : Operation Update) : Bool :=
  match o.task with
  | .requesting _ => true
  | .completed (.error _) => true
  | _ => false

namespace AdvertisementSession

/-- The last update that the transport has applied, or the first. -/
def latest (s : AdvertisementSession Update) : Option Update :=
  (applied s.operations).getLast?.or s.initial

/-- The operations that calls have taken from the slot. -/
def reconciled (s : AdvertisementSession Update) : List (Operation Update) :=
  s.update_operation.elim s.operations fun k => s.operations.take k

/-- What a call relies on, and what it may return. -/
def Placed (s : AdvertisementSession Update) (i : ℕ) : Call Update → Prop
  | .update_previous _ k => s.update_operation = some k
  | .update_check _ => s.update_operation = none
  | .update_wait u k => s.update_operation = some k ∧
      ∃ o : Operation Update, s.operations[k]? = some o ∧ o.call = i ∧ o.update = u
  | .update_returned u (.ok true) => ∃ (k : ℕ) (o : Operation Update),
      s.operations[k]? = some o ∧ o.call = i ∧ o.update = u ∧ o.task = .completed (.ok ())
  | .close_request _ => s.closed = true
  | .wait_gate => s.closed = true
  | .wait_operation k => s.update_operation = some k ∧ s.closed = true
  | .wait_handle => s.closed = true
  | _ => True

end AdvertisementSession

/-- The slot has the operation that is under way, which is the last one, and every call is where its
operation is. -/
structure Slots (s : AdvertisementSession Update) : Prop where
  flight : ∀ (k : ℕ) (o : Operation Update), s.operations[k]? = some o → o.result = none →
    s.update_operation = some k
  last : ∀ k, s.update_operation = some k → k + 1 = s.operations.length
  placed : ∀ (i : ℕ) (c : Call Update), s.calls[i]? = some c → s.Placed i c
  recorded : s.closed = true ∨ s.current_update = (applied s.reconciled).getLast?.or s.initial
  refused : ∀ (k : ℕ) (o : Operation Update), s.operations[k]? = some o → o.refused = true →
    k + 1 = s.operations.length
  reported : ∀ (k : ℕ) (o : Operation Update), s.operations[k]? = some o → o.reported = true →
    s.closed = true

theorem slots_start (initial : Option Update) : Slots (.from_parts initial) where
  flight k o ho _ := by
    rw [AdvertisementSession.from_parts, List.getElem?_nil] at ho
    cases ho
  last k hk := by cases hk
  placed i c hi := by
    rw [AdvertisementSession.from_parts, List.getElem?_nil] at hi
    cases hi
  recorded := .inr rfl
  refused k o ho _ := by
    rw [AdvertisementSession.from_parts, List.getElem?_nil] at ho
    cases ho
  reported k o ho _ := by
    rw [AdvertisementSession.from_parts, List.getElem?_nil] at ho
    cases ho

/-- A result is that of a completed task. -/
theorem result_of_result {s : AdvertisementSession Update} {k : ℕ} {v : Update}
    {r : Except String Unit} (h : s.result k = some (v, r)) :
    ∃ o, s.operations[k]? = some o ∧ o.update = v ∧ o.task = .completed r := by
  obtain ⟨o, ho, hr⟩ := Option.bind_eq_some_iff.mp h
  obtain ⟨r', hr', heq⟩ := Option.map_eq_some_iff.mp hr
  obtain ⟨rfl, rfl⟩ := Prod.mk.inj heq
  refine ⟨o, ho, rfl, ?_⟩
  unfold Operation.result at hr'
  split at hr'
  · next r htask =>
    rw [htask, Option.some.inj hr']
  · cases hr'

/-- An operation with a result is no longer awaited by its task. -/
theorem Operation.result_ne_none {o : Operation Update} {r : Except String Unit}
    (h : o.task = .completed r) : o.result ≠ none := by
  rw [Operation.result, h]
  intro hno
  cases hno

/-! ### What stays in place -/

/-- The operations go on, and the flag stays set. -/
structure Grows (s s' : AdvertisementSession Update) : Prop where
  closed : s.closed = true → s'.closed = true
  operations : ∀ (k : ℕ) (o : Operation Update), s.operations[k]? = some o →
    ∃ o', s'.operations[k]? = some o' ∧ o'.call = o.call ∧ o'.update = o.update ∧
      ∀ r, o.task = .completed r → o'.task = .completed r

theorem grows_of_eq {s s' : AdvertisementSession Update} (hclosed : s.closed = true → s'.closed = true)
    (hoperations : s'.operations = s.operations) : Grows s s' := by
  refine ⟨hclosed, fun k o ho => ⟨o, ?_, rfl, rfl, fun _ h => h⟩⟩
  rw [hoperations]
  exact ho

/-- A call without the gate does not rely on the slot. -/
theorem placed_outside {s s' : AdvertisementSession Update} {i : ℕ} {c : Call Update}
    (h : s.Placed i c) (hgrows : Grows s s') (hc : c.holds = false) : s'.Placed i c := by
  cases c with
  | update_previous u k => cases hc
  | update_check u => cases hc
  | update_wait u k => cases hc
  | wait_operation k => cases hc
  | wait_handle => cases hc
  | update_returned u outcome =>
      rcases outcome with error | _ | _
      · exact trivial
      · exact trivial
      · obtain ⟨k, o, ho, hcall, hupdate, htask⟩ := h
        obtain ⟨o', ho', hcall', hupdate', hdone⟩ := hgrows.operations k o ho
        exact ⟨k, o', ho', hcall'.trans hcall, hupdate'.trans hupdate, hdone _ htask⟩
  | close_request after => exact hgrows.closed h
  | wait_gate => exact hgrows.closed h
  | _ => exact trivial

/-- A call stays in place where the slot does. -/
theorem placed_congr {s s' : AdvertisementSession Update} {i : ℕ} {c : Call Update}
    (h : s.Placed i c) (hgrows : Grows s s') (hslot : s'.update_operation = s.update_operation) :
    s'.Placed i c := by
  cases c with
  | update_previous u k => exact hslot.trans h
  | update_check u => exact hslot.trans h
  | update_wait u k =>
      obtain ⟨hk, o, ho, hcall, hupdate⟩ := h
      obtain ⟨o', ho', hcall', hupdate', -⟩ := hgrows.operations k o ho
      exact ⟨hslot.trans hk, o', ho', hcall'.trans hcall, hupdate'.trans hupdate⟩
  | wait_operation k => exact ⟨hslot.trans h.1, hgrows.closed h.2⟩
  | wait_handle => exact hgrows.closed h
  | update_gate u => exact trivial
  | update_returned u outcome => exact placed_outside h hgrows rfl
  | close_swap after => exact trivial
  | close_request after => exact hgrows.closed h
  | wait_gate => exact hgrows.closed h
  | _ => exact trivial

/-- One call moves, and the others stay in place. -/
theorem Slots.placed_set {s s' : AdvertisementSession Update} (h : Slots s) (hgrows : Grows s s')
    {i : ℕ} {c' : Call Update} (hcalls : s'.calls = s.calls.set i c') (hc : s'.Placed i c')
    (hslot : s'.update_operation = s.update_operation) (j : ℕ) (d : Call Update)
    (hj : s'.calls[j]? = some d) : s'.Placed j d := by
  rw [hcalls] at hj
  rcases getElem?_set_cases hj with ⟨rfl, rfl⟩ | ⟨-, hj⟩
  · exact hc
  · exact placed_congr (h.placed j d hj) hgrows hslot

/-- The holder of the gate moves, and nobody else looks at the slot. -/
theorem Slots.placed_holder {s s' : AdvertisementSession Update} (h : Slots s) (hg : Gate s)
    (hgrows : Grows s s') {i : ℕ} {c c' : Call Update} (hi : s.calls[i]? = some c)
    (hholds : c.holds = true) (hcalls : s'.calls = s.calls.set i c') (hc : s'.Placed i c') (j : ℕ)
    (d : Call Update) (hj : s'.calls[j]? = some d) : s'.Placed j d := by
  rw [hcalls] at hj
  rcases getElem?_set_cases hj with ⟨rfl, rfl⟩ | ⟨hne, hj⟩
  · exact hc
  · apply placed_outside (h.placed j d hj) hgrows
    rw [Bool.eq_false_iff]
    intro hd
    exact hne (hg.only hi hholds hj hd)

/-- A call moves, and all it may change besides is the flag. -/
theorem Slots.move_call {s s' : AdvertisementSession Update} (h : Slots s) {i : ℕ} {c' : Call Update}
    (hcalls : s'.calls = s.calls.set i c') (hslot : s'.update_operation = s.update_operation)
    (hoperations : s'.operations = s.operations) (hcurrent : s'.current_update = s.current_update)
    (hinitial : s'.initial = s.initial) (hclosed : s.closed = true → s'.closed = true)
    (hc : s'.Placed i c') : Slots s' := by
  refine ⟨?_, ?_, h.placed_set (grows_of_eq hclosed hoperations) hcalls hc hslot, ?_, ?_, ?_⟩
  · rw [hoperations, hslot]
    exact h.flight
  · rw [hoperations, hslot]
    exact h.last
  · rw [AdvertisementSession.reconciled, hoperations, hslot, hcurrent, hinitial]
    exact h.recorded.imp_left hclosed
  · rw [hoperations]
    exact h.refused
  · rw [hoperations]
    exact fun k o ho hr => hclosed (h.reported k o ho hr)

/-! ### What changes the slot -/

/-- What two lists of operations have applied. -/
theorem applied_append (l l' : List (Operation Update)) :
    applied (l ++ l') = applied l ++ applied l' := List.filterMap_append

/-- An operation without a result has changed nothing yet. -/
theorem applied_singleton {o : Operation Update} (h : ∀ done, o.task ≠ .completed (.ok done)) :
    applied [o] = [] := by
  unfold applied
  rw [List.filterMap_cons]
  split
  · rfl
  · next v heq =>
    split at heq
    · next done htask => exact absurd htask (h done)
    · cases heq

theorem applied_singleton_done {o : Operation Update} {done : Unit}
    (h : o.task = .completed (.ok done)) : applied [o] = [o.update] := by
  simp only [applied, List.filterMap_cons, h, List.filterMap_nil]

/-- The operation in the slot is the last one, after those that were reconciled. -/
theorem Slots.reconciled_split {s : AdvertisementSession Update} (h : Slots s) {k : ℕ}
    (hslot : s.update_operation = some k) {o : Operation Update} (ho : s.operations[k]? = some o) :
    s.operations = s.reconciled ++ [o] ∧
      ∀ o', s.operations.set k o' = s.reconciled ++ [o'] := by
  obtain ⟨before, heq, hset⟩ := set_last_split ho (h.last k hslot)
  have hlen : before.length = k := by
    have hlast := h.last k hslot
    rw [heq, List.length_append, List.length_singleton] at hlast
    omega
  have hbefore : s.reconciled = before := by
    rw [AdvertisementSession.reconciled, hslot, Option.elim_some, heq, ← hlen, List.take_left]
  rw [hbefore]
  exact ⟨heq, hset⟩

/-- The call with the gate takes a result from the slot. -/
theorem Slots.cleared {s s' : AdvertisementSession Update} (h : Slots s) (hg : Gate s) {i k : ℕ}
    {c c' : Call Update} {v : Update} {r : Except String Unit} (hi : s.calls[i]? = some c)
    (hholds : c.holds = true) (hslot : s.update_operation = some k)
    (hr : s.result k = some (v, r)) (hcalls : s'.calls = s.calls.set i c')
    (hslot' : s'.update_operation = clear_operation s.update_operation k)
    (hoperations : s'.operations = s.operations) (hinitial : s'.initial = s.initial)
    (hclosed : s'.closed = s.closed)
    (hcurrent : s.closed = true ∨ (∃ error, r = .error error) ∧ s'.current_update = s.current_update ∨
      (∃ done, r = .ok done) ∧ s'.current_update = some v)
    (hc : s'.Placed i c') : Slots s' := by
  obtain ⟨o, ho, rfl, htask⟩ := result_of_result hr
  have hempty : s'.update_operation = none := by
    rw [hslot', clear_operation, if_pos hslot]
  have hgrows : Grows s s' := grows_of_eq (fun hc => hclosed.trans hc) hoperations
  refine ⟨?_, ?_, h.placed_holder hg hgrows hi hholds hcalls hc, ?_, ?_, ?_⟩
  · intro j p hp hpnone
    rw [hoperations] at hp
    have hj := h.flight j p hp hpnone
    rw [hslot, Option.some.injEq] at hj
    subst hj
    rw [ho, Option.some.injEq] at hp
    rw [← hp] at hpnone
    exact absurd hpnone (Operation.result_ne_none htask)
  · intro j hj
    rw [hempty] at hj
    cases hj
  · have hsplit := (h.reconciled_split hslot ho).1
    have hall : s'.reconciled = s.reconciled ++ [o] := by
      rw [AdvertisementSession.reconciled, hempty, Option.elim_none, hoperations]
      exact hsplit
    rw [hclosed, hinitial, hall, applied_append]
    rcases hcurrent with hcl | ⟨⟨error, rfl⟩, hsame⟩ | ⟨⟨done, rfl⟩, hsome⟩
    · exact .inl hcl
    · rw [applied_singleton (fun done hd => by rw [htask] at hd; cases hd), List.append_nil, hsame]
      exact h.recorded
    · rw [applied_singleton_done htask, hsome, List.getLast?_concat]
      exact .inr rfl
  · rw [hoperations]
    exact h.refused
  · rw [hoperations, hclosed]
    exact h.reported

/-- Once the slot is empty, a refusal has closed the session. -/
theorem Slots.closed_of_refused {s : AdvertisementSession Update} (h : Slots s)
    (hslot : s.update_operation = none) {k : ℕ} {o : Operation Update}
    (ho : s.operations[k]? = some o) (hrefused : o.refused = true) : s.closed = true := by
  have hdone : o.result ≠ none := by
    intro hnone
    rw [h.flight k o ho hnone] at hslot
    cases hslot
  apply h.reported k o ho
  unfold Operation.refused at hrefused
  unfold Operation.result at hdone
  unfold Operation.reported
  cases htask : o.task with
  | updating => rw [htask] at hrefused; cases hrefused
  | failed error => rw [htask] at hdone; exact absurd rfl hdone
  | requesting error => rfl
  | completed r =>
      cases r with
      | error error => rfl
      | ok done => rw [htask] at hrefused; cases hrefused

/-- A new operation fills the empty slot. -/
theorem Slots.begin_operation {s : AdvertisementSession Update} (h : Slots s) (hg : Gate s) {i : ℕ}
    {u : Update} (hi : s.calls[i]? = some (.update_check u)) (hopen : s.closed = false) :
    Slots (s.begin_operation i u) := by
  have hslot : s.update_operation = none := h.placed i _ hi
  have hdone : ∀ (k : ℕ) (o : Operation Update), s.operations[k]? = some o → o.result ≠ none := by
    intro k o ho hnone
    rw [h.flight k o ho hnone] at hslot
    cases hslot
  have hgrows : Grows s (s.begin_operation i u) := by
    refine ⟨id, fun k o ho => ⟨o, ?_, rfl, rfl, fun _ hr => hr⟩⟩
    exact (List.getElem?_append_left (lt_of_getElem? ho)).trans ho
  have hplaced : (s.begin_operation i u).Placed i (.update_wait u s.operations.length) :=
    ⟨rfl, { call := i, update := u }, List.getElem?_concat_length, rfl, rfl⟩
  refine ⟨?_, ?_, h.placed_holder hg hgrows hi rfl rfl hplaced, ?_, ?_, ?_⟩
  · intro k o ho hnone
    rcases getElem?_concat_cases ho with ⟨rfl, -⟩ | ho
    · rfl
    · exact absurd hnone (hdone k o ho)
  · intro k hk
    obtain rfl := Option.some.inj hk
    simp only [AdvertisementSession.begin_operation, AdvertisementSession.move, List.length_append,
      List.length_singleton]
  · have hsame : (s.begin_operation i u).reconciled = s.reconciled := by
      simp only [AdvertisementSession.reconciled, AdvertisementSession.begin_operation,
        AdvertisementSession.move, hslot, Option.elim_some, Option.elim_none, List.take_left]
    rw [hsame]
    exact h.recorded
  · -- nothing was refused, since the session is open
    intro k o ho hrefused
    rcases getElem?_concat_cases ho with ⟨-, rfl⟩ | ho
    · cases hrefused
    · rw [h.closed_of_refused hslot ho hrefused] at hopen
      cases hopen
  · intro k o ho hreported
    rcases getElem?_concat_cases ho with ⟨-, rfl⟩ | ho
    · cases hreported
    · exact h.reported k o ho hreported

/-- An operation goes on. -/
theorem Slots.task {s s' : AdvertisementSession Update} (h : Slots s) {k : ℕ}
    {o : Operation Update} (ho : s.operations[k]? = some o) {t : Task} (hnone : o.result = none)
    (hoperations : s'.operations = s.operations.set k { o with task := t })
    (hcalls : s'.calls = s.calls) (hslot' : s'.update_operation = s.update_operation)
    (hcurrent : s'.current_update = s.current_update) (hinitial : s'.initial = s.initial)
    (hclosed : s.closed = true → s'.closed = true)
    (hreported : ({ o with task := t } : Operation Update).reported = true → s'.closed = true) :
    Slots s' := by
  have hslot := h.flight k o ho hnone
  have hgrows : Grows s s' := by
    refine ⟨hclosed, fun j p hp => ?_⟩
    rw [hoperations]
    by_cases hj : k = j
    · subst hj
      rw [ho, Option.some.injEq] at hp
      subst hp
      exact ⟨_, getElem?_set_self ho, rfl, rfl, fun r hr => absurd hnone (Operation.result_ne_none hr)⟩
    · exact ⟨p, (List.getElem?_set_ne hj).trans hp, rfl, rfl, fun _ hr => hr⟩
  refine ⟨?_, ?_, ?_, ?_, ?_, ?_⟩
  · intro j p hp hpnone
    rw [hoperations] at hp
    rw [hslot']
    rcases getElem?_set_cases hp with ⟨rfl, -⟩ | ⟨-, hp⟩
    · exact hslot
    · exact h.flight j p hp hpnone
  · intro j hj
    rw [hoperations, List.length_set]
    rw [hslot'] at hj
    exact h.last j hj
  · intro j d hj
    rw [hcalls] at hj
    exact placed_congr (h.placed j d hj) hgrows hslot'
  · have hsame : s'.reconciled = s.reconciled := by
      have hset := (h.reconciled_split hslot ho).2 { o with task := t }
      have hlen : s.reconciled.length = k := by
        have hlast := h.last k hslot
        rw [(h.reconciled_split hslot ho).1, List.length_append, List.length_singleton] at hlast
        omega
      rw [AdvertisementSession.reconciled, hslot', hslot, Option.elim_some, hoperations, hset]
      conv_lhs => rw [← hlen]
      exact List.take_left
    rw [hsame, hcurrent, hinitial]
    exact h.recorded.imp_left hclosed
  · intro j p hp hrefused
    rw [hoperations] at hp ⊢
    rw [List.length_set]
    rcases getElem?_set_cases hp with ⟨rfl, -⟩ | ⟨-, hp⟩
    · exact h.last j hslot
    · exact h.refused j p hp hrefused
  · intro j p hp hr
    rw [hoperations] at hp
    rcases getElem?_set_cases hp with ⟨-, rfl⟩ | ⟨-, hp⟩
    · exact hreported hr
    · exact hclosed (h.reported j p hp hr)

theorem Slots.after_close {s : AdvertisementSession Update} (h : Slots s) {i : ℕ} (after : After Update)
    (hclosed : s.closed = true) : Slots (s.after_close i after) := by
  cases after with
  | returns u error =>
      have hcalls : (s.leave i (.update_returned u (.error error))).calls =
        s.calls.set i (.update_returned u (.error error)) := rfl
      exact h.move_call hcalls rfl rfl rfl rfl id trivial
  | close =>
      have hcalls : (s.move i .close_returned).calls = s.calls.set i .close_returned := rfl
      exact h.move_call hcalls rfl rfl rfl rfl id trivial
  | wait_closed =>
      have hcalls : (s.move i .wait_gate).calls = s.calls.set i .wait_gate := rfl
      exact h.move_call hcalls rfl rfl rfl rfl id hclosed

theorem Slots.asked {s : AdvertisementSession Update} (h : Slots s) (requests : ℕ) :
    Slots { s with requests := requests } :=
  ⟨h.flight, h.last, h.placed, h.recorded, h.refused, h.reported⟩

/-- **A move of a call** keeps the slot. -/
theorem Slots.move {s s' : AdvertisementSession Update} (h : Slots s) (hg : Gate s) {i : ℕ}
    {c : Call Update} (hi : s.calls[i]? = some c) (hmove : Move s i c s') : Slots s' := by
  have hplaced := h.placed i c hi
  cases hmove with
  | enter_check _ hslot => exact h.move_call rfl rfl rfl rfl rfl id hslot
  | enter_previous _ hslot => exact h.move_call rfl rfl rfl rfl rfl id hslot
  | previous_failed hr =>
      exact h.cleared hg hi rfl hplaced hr rfl rfl rfl rfl rfl (.inr (.inl ⟨⟨_, rfl⟩, rfl⟩)) trivial
  | @previous_done u v k done hr =>
      exact h.cleared hg hi rfl hplaced hr rfl rfl rfl rfl rfl (.inr (.inr ⟨⟨_, rfl⟩, rfl⟩))
        (if_pos hplaced)
  | refused => exact h.move_call rfl rfl rfl rfl rfl id trivial
  | unchanged => exact h.move_call rfl rfl rfl rfl rfl id trivial
  | begin_operation hopen => exact h.begin_operation hg hi hopen
  | failed hr =>
      exact h.cleared hg hi rfl hplaced.1 hr rfl rfl rfl rfl rfl (.inr (.inl ⟨⟨_, rfl⟩, rfl⟩)) trivial
  | @done u v k done hr =>
      -- the result is that of the call's own operation
      obtain ⟨hslot, o, ho, hcall, hupdate⟩ := hplaced
      obtain ⟨o', ho', -, htask⟩ := result_of_result hr
      have hown : o' = o := Option.some.inj (ho'.symm.trans ho)
      rw [hown] at htask
      exact h.cleared hg hi rfl hslot hr rfl rfl rfl rfl rfl (.inr (.inr ⟨⟨_, rfl⟩, rfl⟩))
        ⟨k, o, ho, hcall, hupdate, htask⟩
  | closed hclosed => exact h.after_close _ hclosed
  | @swap after hopen => exact h.move_call rfl rfl rfl rfl rfl (fun _ => rfl) rfl
  | request => exact (h.asked (s.requests + 1)).after_close _ hplaced
  | enter_handle => exact h.move_call rfl rfl rfl rfl rfl id hplaced
  | enter_operation _ hslot => exact h.move_call rfl rfl rfl rfl rfl id ⟨hslot, hplaced⟩
  | @waited k r hr =>
      exact h.cleared hg hi rfl hplaced.1 (r := r.2) hr rfl rfl rfl rfl rfl (.inl hplaced.2) hplaced.2
  | handle => exact h.move_call rfl rfl rfl rfl rfl id trivial
  | cancel_outside => exact h.move_call rfl rfl rfl rfl rfl id trivial
  | cancel_inside => exact h.move_call rfl rfl rfl rfl rfl id trivial

/-- **A move of a task** keeps the slot. -/
theorem Slots.task_move {s s' : AdvertisementSession Update} (h : Slots s) {k : ℕ}
    {o : Operation Update} (ho : s.operations[k]? = some o) (hmove : TaskMove s k o s') :
    Slots s' := by
  cases hmove with
  | applied ht =>
      exact h.task ho (by rw [Operation.result, ht]) rfl rfl rfl rfl rfl id (fun hr => by cases hr)
  | failed ht =>
      exact h.task ho (by rw [Operation.result, ht]) rfl rfl rfl rfl rfl id (fun hr => by cases hr)
  | late ht hclosed =>
      exact h.task ho (by rw [Operation.result, ht]) rfl rfl rfl rfl rfl (fun _ => rfl) (fun _ => rfl)
  | swap ht =>
      exact h.task ho (by rw [Operation.result, ht]) rfl rfl rfl rfl rfl (fun _ => rfl) (fun _ => rfl)
  | request ht =>
      have hclosed : s.closed = true := h.reported k o ho (by rw [Operation.reported, ht])
      exact h.task ho (by rw [Operation.result, ht]) rfl rfl rfl rfl rfl id (fun _ => hclosed)

/-- **One step** keeps the slot. -/
theorem slots_step [DecidableEq Update] {s s' : AdvertisementSession Update} {a : Label Update}
    (h : Slots s) (hg : Gate s) (hstep : s.step a = some s') : Slots s' := by
  rcases step_cases hstep with ⟨c, hc, rfl⟩ | ⟨i, c, hi, hmove⟩ | ⟨k, o, ho, hmove⟩
  · refine ⟨h.flight, h.last, fun j d hj => ?_, h.recorded, h.refused, h.reported⟩
    rcases getElem?_concat_cases hj with ⟨-, rfl⟩ | hj
    · cases hc <;> exact trivial
    · exact placed_congr (h.placed j d hj) (grows_of_eq id rfl) rfl
  · exact h.move hg hi hmove
  · exact h.task_move ho hmove

/-! ## Asking the handle -/

/-- A call that has set the flag, about to ask the handle to close. -/
def Call.requesting : Call Update → Bool
  | .close_request _ => true
  | _ => false

/-- The task is about to ask for the close. -/
def Operation.requesting (o : Operation Update) : Bool :=
  match o.task with
  | .requesting _ => true
  | _ => false

/-- The handle was asked once, or who set the flag is about to ask it. -/
def AskedOnce (s : AdvertisementSession Update) : Prop :=
  s.requests + s.calls.countP Call.requesting + s.operations.countP Operation.requesting =
    if s.closed then 1 else 0

theorem asked_start (initial : Option Update) : AskedOnce (.from_parts initial) := rfl

theorem asked_call {s s' : AdvertisementSession Update} (h : AskedOnce s) {i : ℕ} {c c' : Call Update}
    (hi : s.calls[i]? = some c) (hcalls : s'.calls = s.calls.set i c')
    (hoperations : s'.operations.countP Operation.requesting =
      s.operations.countP Operation.requesting)
    (hsum : s'.requests + (if c'.requesting then 1 else 0) + (if s.closed then 1 else 0) =
      s.requests + (if c.requesting then 1 else 0) + (if s'.closed then 1 else 0)) :
    AskedOnce s' := by
  unfold AskedOnce at h ⊢
  have hcount := countP_set Call.requesting hi c'
  rw [hcalls, hoperations]
  omega

theorem asked_after_close {s s' : AdvertisementSession Update} (h : AskedOnce s) {i : ℕ}
    {c : Call Update} (hi : s.calls[i]? = some c) (after : After Update)
    (hsame : s'.calls = s.calls ∧ s'.operations = s.operations ∧ s'.closed = s.closed)
    (hsum : s'.requests = s.requests + if c.requesting then 1 else 0) :
    AskedOnce (s'.after_close i after) := by
  obtain ⟨hcalls, hoperations, hclosed⟩ := hsame
  cases after with
  | returns u error =>
      have hset : (s'.after_close i (.returns u error)).calls =
          s.calls.set i (.update_returned u (.error error)) := by
        rw [← hcalls]
        rfl
      apply asked_call h hi hset (congrArg _ hoperations)
      simp only [AdvertisementSession.after_close, AdvertisementSession.leave,
        AdvertisementSession.move, Call.requesting, Bool.false_eq_true, if_false, hclosed, hsum]
      omega
  | close =>
      have hset : (s'.after_close i .close).calls = s.calls.set i .close_returned := by
        rw [← hcalls]
        rfl
      apply asked_call h hi hset (congrArg _ hoperations)
      simp only [AdvertisementSession.after_close, AdvertisementSession.move, Call.requesting,
        Bool.false_eq_true, if_false, hclosed, hsum]
      omega
  | wait_closed =>
      have hset : (s'.after_close i .wait_closed).calls = s.calls.set i .wait_gate := by
        rw [← hcalls]
        rfl
      apply asked_call h hi hset (congrArg _ hoperations)
      simp only [AdvertisementSession.after_close, AdvertisementSession.move, Call.requesting,
        Bool.false_eq_true, if_false, hclosed, hsum]
      omega

/-- A move of a call asks once. -/
theorem asked_move {s s' : AdvertisementSession Update} (h : AskedOnce s) (hslots : Slots s) {i : ℕ}
    {c : Call Update} (hi : s.calls[i]? = some c) (hmove : Move s i c s') : AskedOnce s' := by
  have hplaced := hslots.placed i c hi
  cases hmove with
  | begin_operation =>
      refine asked_call h hi rfl ?_ rfl
      simp only [AdvertisementSession.begin_operation, AdvertisementSession.move, List.countP_append,
        List.countP_cons, List.countP_nil, Operation.requesting, Bool.false_eq_true, if_false]
      rfl
  | closed => exact asked_after_close h hi _ ⟨rfl, rfl, rfl⟩ rfl
  | swap hopen =>
      refine asked_call h hi rfl rfl ?_
      simp only [AdvertisementSession.move, Call.requesting, hopen, Bool.false_eq_true, if_false,
        if_true]
  | request => exact asked_after_close h hi _ ⟨rfl, rfl, rfl⟩ rfl
  | cancel_outside hc =>
      refine asked_call h hi rfl rfl ?_
      rcases hc with rfl | ⟨u, rfl⟩ <;> rfl
  | cancel_inside hc =>
      refine asked_call h hi rfl rfl ?_
      rcases hc with rfl | ⟨k, rfl⟩ | ⟨u, k, rfl⟩ | ⟨u, k, rfl⟩ <;> rfl
  | _ => exact asked_call h hi rfl rfl rfl

/-- A move of a task asks once. -/
theorem asked_task_move {s s' : AdvertisementSession Update} (h : AskedOnce s) {k : ℕ}
    {o : Operation Update} (ho : s.operations[k]? = some o) (hmove : TaskMove s k o s') :
    AskedOnce s' := by
  have hcount := countP_set Operation.requesting ho
  unfold AskedOnce at h ⊢
  cases hmove with
  | @applied done ht =>
      have hset := hcount { o with task := .completed (.ok done) }
      simp only [Operation.requesting, ht, Bool.false_eq_true, if_false] at hset
      simp only [← h]
      omega
  | @failed error ht =>
      have hset := hcount { o with task := .failed error }
      simp only [Operation.requesting, ht, Bool.false_eq_true, if_false] at hset
      simp only [← h]
      omega
  | @late error ht hclosed =>
      have hset := hcount { o with task := .completed (.error error) }
      simp only [Operation.requesting, ht, Bool.false_eq_true, if_false] at hset
      simp only [hclosed, if_true] at h ⊢
      omega
  | @swap error ht hopen =>
      have hset := hcount { o with task := .requesting error }
      simp only [Operation.requesting, ht, Bool.false_eq_true, if_false, if_true] at hset
      simp only [hopen, Bool.false_eq_true, if_false] at h
      simp only [if_true]
      omega
  | @request error ht =>
      have hset := hcount { o with task := .completed (.error error) }
      simp only [Operation.requesting, ht, Bool.false_eq_true, if_false, if_true] at hset
      simp only [← h]
      omega

/-- **One step**: the close is asked for once. -/
theorem asked_step [DecidableEq Update] {s s' : AdvertisementSession Update} {a : Label Update}
    (h : AskedOnce s) (hslots : Slots s) (hstep : s.step a = some s') : AskedOnce s' := by
  rcases step_cases hstep with ⟨c, hc, rfl⟩ | ⟨i, c, hi, hmove⟩ | ⟨k, o, ho, hmove⟩
  · unfold AskedOnce at h ⊢
    have hno : c.requesting = false := by
      cases hc <;> rfl
    simp only [AdvertisementSession.begin_call, List.countP_append, List.countP_cons,
      List.countP_nil, hno, Bool.false_eq_true, if_false]
    exact h
  · exact asked_move h hslots hi hmove
  · exact asked_task_move h ho hmove

/-! ## What calls return -/

theorem after_close_calls (s : AdvertisementSession Update) (i : ℕ) (after : After Update) :
    (s.after_close i after).operations = s.operations ∧
      ∃ c', (s.after_close i after).calls = s.calls.set i c' ∧
        ∀ u b, c' ≠ .update_returned u (.ok b) := by
  cases after with
  | returns u error => exact ⟨rfl, _, rfl, fun _ _ hno => by cases hno⟩
  | close => exact ⟨rfl, _, rfl, fun _ _ hno => by cases hno⟩
  | wait_closed => exact ⟨rfl, _, rfl, fun _ _ hno => by cases hno⟩

/-- A call that moves has not returned. It returns `Ok(false)` where the update it has is
the one that was recorded, and `Ok(true)` with the result of its operation. -/
theorem Move.effect {s s' : AdvertisementSession Update} {i : ℕ} {c : Call Update}
    (h : Move s i c s') :
    (∀ u outcome, c ≠ .update_returned u outcome) ∧
    (∀ (k : ℕ) (o : Operation Update), s.operations[k]? = some o → s'.operations[k]? = some o) ∧
    ∃ c', s'.calls = s.calls.set i c' ∧ ∀ u b, c' = .update_returned u (.ok b) →
      (b = false ∧ c = .update_check u ∧ s.closed = false ∧ s.current_update = some u) ∨
      (b = true ∧ ∃ k v done, c = .update_wait u k ∧ s.result k = some (v, .ok done)) := by
  cases h with
  | @unchanged u hopen hsame =>
      refine ⟨fun _ _ hno => (by cases hno), fun _ _ ho => ho, _, rfl, ?_⟩
      intro u' b hb
      obtain ⟨rfl, heq⟩ := Call.update_returned.inj hb
      exact .inl ⟨(Except.ok.inj heq).symm, rfl, hopen, hsame⟩
  | @begin_operation u =>
      refine ⟨fun _ _ hno => (by cases hno), ?_, _, rfl, fun _ _ hno => by cases hno⟩
      intro k o ho
      exact (List.getElem?_append_left (lt_of_getElem? ho)).trans ho
  | @done u v k done hr =>
      refine ⟨fun _ _ hno => (by cases hno), fun _ _ ho => ho, _, rfl, ?_⟩
      intro u' b hb
      obtain ⟨rfl, heq⟩ := Call.update_returned.inj hb
      exact .inr ⟨(Except.ok.inj heq).symm, k, v, done, rfl, hr⟩
  | @closed after hclosed =>
      obtain ⟨hoperations, c', hcalls, hno⟩ := after_close_calls s i after
      refine ⟨fun _ _ hno => (by cases hno), ?_, c', hcalls, fun u b hb => absurd hb (hno u b)⟩
      rw [hoperations]
      exact fun _ _ ho => ho
  | @request after =>
      obtain ⟨hoperations, c', hcalls, hno⟩ :=
        after_close_calls { s with requests := s.requests + 1 } i after
      refine ⟨fun _ _ hno => (by cases hno), ?_, c', hcalls, fun u b hb => absurd hb (hno u b)⟩
      rw [hoperations]
      exact fun _ _ ho => ho
  | cancel_outside hc =>
      refine ⟨?_, fun _ _ ho => ho, _, rfl, fun _ _ hno => by cases hno⟩
      rintro u outcome rfl
      rcases hc with hc | ⟨v, hc⟩ <;> cases hc
  | cancel_inside hc =>
      refine ⟨?_, fun _ _ ho => ho, _, rfl, fun _ _ hno => by cases hno⟩
      rintro u outcome rfl
      rcases hc with hc | ⟨k, hc⟩ | ⟨v, k, hc⟩ | ⟨v, k, hc⟩ <;> cases hc
  | _ => exact ⟨fun _ _ hno => (by cases hno), fun _ _ ho => ho, _, rfl, fun _ _ hno => by cases hno⟩

/-- With the slot empty, what was recorded is what the transport applied last. -/
theorem Slots.current {s : AdvertisementSession Update} (h : Slots s)
    (hslot : s.update_operation = none) (hopen : s.closed = false) :
    s.current_update = s.latest := by
  rcases h.recorded with hclosed | hcurrent
  · rw [hopen] at hclosed
    cases hclosed
  · rw [hcurrent, AdvertisementSession.reconciled, hslot]
    rfl

/-! ## Every run -/

/-- The invariant: the gate, the slot, and one request for the close. -/
structure Inv (s : AdvertisementSession Update) : Prop where
  gate : Gate s
  slots : Slots s
  asked : AskedOnce s

section Runs

variable [DecidableEq Update]

/-- **One step** keeps the invariant. -/
theorem inv_step {s s' : AdvertisementSession Update} {a : Label Update} (h : Inv s)
    (hstep : s.step a = some s') : Inv s' :=
  ⟨gate_step h.gate hstep, slots_step h.slots h.gate hstep, asked_step h.asked h.slots hstep⟩

/-- The invariant in every run. -/
theorem inv_run {initial : Option Update} {l : List (Label Update)} {s : AdvertisementSession Update}
    (hrun : Machine.run AdvertisementSession.step (.from_parts initial) l = some s) : Inv s :=
  Machine.run_invariant (fun _ _ _ h hs => inv_step h hs)
    ⟨gate_start initial, slots_start initial, asked_start initial⟩ hrun

/-- Where an update returns `Ok(false)`. -/
theorem unchanged_iff {s s' : AdvertisementSession Update} {a : Label Update} (h : Slots s)
    (hstep : s.step a = some s') (i : ℕ) (u : Update) :
    (s'.calls[i]? = some (.update_returned u (.ok false)) ∧
        s.calls[i]? ≠ some (.update_returned u (.ok false))) ↔
      a = .advance i ∧ s.calls[i]? = some (.update_check u) ∧ s.closed = false ∧
        s.latest = some u := by
  constructor
  · rintro ⟨hnow, hbefore⟩
    -- a call that begins has not returned
    have hbegin : ∀ c, Begins c → s' = s.begin_call c → False := by
      rintro c hc rfl
      rcases getElem?_concat_cases hnow with ⟨-, heq⟩ | hold
      · rw [← heq] at hc
        cases hc
      · exact hbefore hold
    -- of the moves, only the check returns `unchanged`, and then the latest update is this one
    have hmoved : ∀ j c, s.calls[j]? = some c → Move s j c s' →
        j = i ∧ s.calls[i]? = some (.update_check u) ∧ s.closed = false ∧ s.latest = some u := by
      intro j c hj hmove
      obtain ⟨-, -, c', hcalls, hreturns⟩ := hmove.effect
      rw [hcalls] at hnow
      rcases getElem?_set_cases hnow with ⟨rfl, rfl⟩ | ⟨-, hold⟩
      · rcases hreturns u false rfl with ⟨-, rfl, hopen, hsame⟩ | ⟨hno, -⟩
        · have hslot : s.update_operation = none := h.placed i _ hj
          exact ⟨rfl, hj, hopen, (h.current hslot hopen).symm.trans hsame⟩
        · cases hno
      · exact absurd hold hbefore
    cases a with
    | update v => exact (hbegin _ (.update v) (Option.some.inj hstep).symm).elim
    | close => exact (hbegin _ .close (Option.some.inj hstep).symm).elim
    | wait_closed => exact (hbegin _ .wait_closed (Option.some.inj hstep).symm).elim
    | advance j =>
        obtain ⟨c, hc, hadvance⟩ := Option.bind_eq_some_iff.mp hstep
        obtain ⟨rfl, hrest⟩ := hmoved j c hc (move_of_advance hadvance)
        exact ⟨rfl, hrest⟩
    | cancel j =>
        obtain ⟨c, hc, hcancel⟩ := Option.bind_eq_some_iff.mp hstep
        obtain ⟨rfl, hcheck, -⟩ := hmoved j c hc (move_of_cancel hcancel)
        obtain rfl := Option.some.inj (hcheck.symm.trans hc)
        cases hcancel
    | transport k result =>
        obtain ⟨o, ho, htransport⟩ := Option.bind_eq_some_iff.mp hstep
        cases task_move_of_transport htransport <;> exact absurd hnow hbefore
    | task k =>
        obtain ⟨o, ho, htask⟩ := Option.bind_eq_some_iff.mp hstep
        cases task_move_of_task htask <;> exact absurd hnow hbefore
  · rintro ⟨rfl, hi, hopen, hlatest⟩
    have hslot : s.update_operation = none := h.placed i _ hi
    have hcurrent : s.current_update = some u := (h.current hslot hopen).trans hlatest
    simp only [AdvertisementSession.step, hi, Option.bind_some, AdvertisementSession.advance,
      AdvertisementSession.check, hopen, Bool.false_eq_true, if_false, hcurrent, if_true,
      Option.some.injEq] at hstep
    rw [← hstep, hi]
    exact ⟨getElem?_set_self hi, fun hno => by cases hno⟩

end Runs

/-- The transport has refused an update. -/
def Refused (s : AdvertisementSession Update) : Prop :=
  ∃ (k : ℕ) (o : Operation Update), s.operations[k]? = some o ∧ o.refused = true

/-- The updates that have succeeded in `s'` had succeeded in `s`. -/
def NoSuccess (s s' : AdvertisementSession Update) : Prop :=
  ∀ (j : ℕ) (u : Update) (b : Bool), s'.calls[j]? = some (.update_returned u (.ok b)) →
    s.calls[j]? = some (.update_returned u (.ok b))

/-- After a refusal no update succeeds any more. -/
theorem refused_move {s s' : AdvertisementSession Update} (h : Slots s) (hrefused : Refused s)
    {i : ℕ} {c : Call Update} (hi : s.calls[i]? = some c) (hmove : Move s i c s') :
    Refused s' ∧ NoSuccess s s' := by
  obtain ⟨k, o, ho, hr⟩ := hrefused
  obtain ⟨-, hoperations, c', hcalls, hreturns⟩ := hmove.effect
  refine ⟨⟨k, o, hoperations k o ho, hr⟩, fun j u b hj => ?_⟩
  rw [hcalls] at hj
  rcases getElem?_set_cases hj with ⟨rfl, rfl⟩ | ⟨-, hold⟩
  · rcases hreturns u b rfl with ⟨-, rfl, hopen, -⟩ | ⟨-, k', v, done, rfl, hresult⟩
    · -- the refusal has closed the session before the slot was empty
      rw [h.closed_of_refused (h.placed j _ hi) ho hr] at hopen
      cases hopen
    · -- the operation waited for is the last, and that is the one refused
      have hlast := h.last k' (h.placed j _ hi).1
      have hlast' := h.refused k o ho hr
      obtain rfl : k = k' := by omega
      obtain ⟨o', ho', -, htask⟩ := result_of_result hresult
      obtain rfl := Option.some.inj (ho.symm.trans ho')
      rw [Operation.refused, htask] at hr
      cases hr
  · exact hold

/-- An operation that fails makes no call succeed. -/
theorem refused_task {s s' : AdvertisementSession Update} (hrefused : Refused s) {k : ℕ}
    {o : Operation Update} (ho : s.operations[k]? = some o) (hmove : TaskMove s k o s') :
    Refused s' ∧ s'.calls = s.calls := by
  obtain ⟨j, p, hp, hr⟩ := hrefused
  have hset : ∀ t, (({ o with task := t } : Operation Update).refused = true ∨ o.task = .updating) →
      ∃ (j : ℕ) (p : Operation Update),
        (s.operations.set k { o with task := t })[j]? = some p ∧ p.refused = true := by
    intro t ht
    by_cases hjk : k = j
    · subst hjk
      obtain rfl := Option.some.inj (ho.symm.trans hp)
      rcases ht with ht | ht
      · exact ⟨k, _, getElem?_set_self ho, ht⟩
      · rw [Operation.refused, ht] at hr
        cases hr
    · exact ⟨j, p, (List.getElem?_set_ne hjk).trans hp, hr⟩
  cases hmove with
  | applied ht => exact ⟨hset _ (.inr ht), rfl⟩
  | failed ht => exact ⟨hset _ (.inr ht), rfl⟩
  | late ht => exact ⟨hset _ (.inl rfl), rfl⟩
  | swap ht => exact ⟨hset _ (.inl rfl), rfl⟩
  | request ht => exact ⟨hset _ (.inl rfl), rfl⟩

/-- **One step** behind a refusal: no update succeeds any more. -/
theorem refused_step [DecidableEq Update] {s s' : AdvertisementSession Update} {a : Label Update} (h : Slots s)
    (hrefused : Refused s) (hstep : s.step a = some s') :
    Refused s' ∧ NoSuccess s s' := by
  rcases step_cases hstep with ⟨c, hc, rfl⟩ | ⟨i, c, hi, hmove⟩ | ⟨k, o, ho, hmove⟩
  · refine ⟨hrefused, fun j u b hj => ?_⟩
    rcases getElem?_concat_cases hj with ⟨-, heq⟩ | hold
    · rw [← heq] at hc
      cases hc
    · exact hold
  · exact refused_move h hrefused hi hmove
  · obtain ⟨hr, hcalls⟩ := refused_task hrefused ho hmove
    refine ⟨hr, fun j u b hj => ?_⟩
    rw [hcalls] at hj
    exact hj

/-- The same in every run. -/
theorem refused_run [DecidableEq Update] {s s' : AdvertisementSession Update} (hinv : Inv s) (hrefused : Refused s)
    {l : List (Label Update)} (hrun : Machine.run AdvertisementSession.step s l = some s') :
    NoSuccess s s' := by
  have hstep : ∀ (t : AdvertisementSession Update) (a : Label Update) (t' : AdvertisementSession Update),
      Inv t ∧ Refused t ∧ NoSuccess s t → t.step a = some t' → Inv t' ∧ Refused t' ∧ NoSuccess s t' := by
    rintro t a t' ⟨hi, hr, hold⟩ hs
    obtain ⟨hr', hnew⟩ := refused_step hi.slots hr hs
    exact ⟨inv_step hi hs, hr', fun j u b hj => hold j u b (hnew j u b hj)⟩
  exact (Machine.run_invariant hstep ⟨hinv, hrefused, fun _ _ _ h => h⟩ hrun).2.2

/-- One transport update at a time; `Ok(true)` only for an update that the transport has
applied for the call; and once an operation has failed the session is closed, and the
handle has been asked to close, if no `close` that came first is about to ask it. -/
structure Sound (s : AdvertisementSession Update) : Prop where
  in_flight : s.operations.countP (fun o => o.result.isNone) ≤ 1
  applied : ∀ (i : ℕ) (u : Update), s.calls[i]? = some (.update_returned u (.ok true)) →
    ∃ (k : ℕ) (o : Operation Update), s.operations[k]? = some o ∧ o.call = i ∧ o.update = u ∧
      o.task = .completed (.ok ())
  requests : s.requests ≤ 1
  failed : ∀ (k : ℕ) (o : Operation Update) (error : String), s.operations[k]? = some o →
    o.task = .completed (.error error) → s.closed = true ∧
      ((∀ (i : ℕ) (after : After Update), s.calls[i]? ≠ some (.close_request after)) → s.requests = 1)

/-- One operation at a time. -/
theorem Slots.in_flight {s : AdvertisementSession Update} (h : Slots s) :
    s.operations.countP (fun o => o.result.isNone) ≤ 1 := by
  apply countP_le_one
  intro j k p o hj hp hk ho
  have hjslot := h.flight j p hj (Option.isNone_iff_eq_none.mp hp)
  have hkslot := h.flight k o hk (Option.isNone_iff_eq_none.mp ho)
  rw [hjslot] at hkslot
  exact Option.some.inj hkslot

/-- What is asked of a session follows from the invariant. -/
theorem Inv.sound {s : AdvertisementSession Update} (h : Inv s) : Sound s := by
  refine ⟨h.slots.in_flight, fun i u hi => h.slots.placed i _ hi, ?_, ?_⟩
  · have hasked := h.asked
    unfold AskedOnce at hasked
    split at hasked
    · omega
    · omega
  · intro k o error ho htask
    have hclosed : s.closed = true := h.slots.reported k o ho (by rw [Operation.reported, htask])
    refine ⟨hclosed, fun hnone => ?_⟩
    have hcalls : s.calls.countP Call.requesting = 0 := by
      rw [List.countP_eq_zero]
      intro c hc hreq
      obtain ⟨i, hi⟩ := List.mem_iff_getElem?.mp hc
      cases c with
      | close_request after => exact hnone i after hi
      | _ => cases hreq
    have hoperations : s.operations.countP Operation.requesting = 0 := by
      rw [List.countP_eq_zero]
      intro p hp hreq
      obtain ⟨j, hj⟩ := List.mem_iff_getElem?.mp hp
      -- both were refused, so both are the last operation
      have hlast := h.slots.refused k o ho (by rw [Operation.refused, htask])
      have hrefused : p.refused = true := by
        unfold Operation.requesting at hreq
        unfold Operation.refused
        split at hreq
        · next heq => rw [heq]
        · cases hreq
      have hlast' := h.slots.refused j p hj hrefused
      obtain rfl : j = k := by omega
      obtain rfl := Option.some.inj (hj.symm.trans ho)
      rw [Operation.requesting, htask] at hreq
      cases hreq
    have hasked := h.asked
    rw [AskedOnce, hcalls, hoperations, hclosed, if_pos rfl] at hasked
    exact hasked

/-- In every run an update returns `Ok(false)` exactly where the session is open and the
update stands already, and none succeeds once the transport has refused one. -/
theorem advertisement_updates_sound [DecidableEq Update] (initial : Option Update)
    (l : List (Label Update)) {s : AdvertisementSession Update}
    (hrun : Machine.run AdvertisementSession.step (.from_parts initial) l = some s) :
    Sound s ∧
    (∀ (a : Label Update) (s' : AdvertisementSession Update), s.step a = some s' →
      ∀ (i : ℕ) (u : Update),
        (s'.calls[i]? = some (.update_returned u (.ok false)) ∧
            s.calls[i]? ≠ some (.update_returned u (.ok false))) ↔
          a = .advance i ∧ s.calls[i]? = some (.update_check u) ∧ s.closed = false ∧
            s.latest = some u) ∧
    (Refused s → ∀ (l' : List (Label Update)) (s' : AdvertisementSession Update),
      Machine.run AdvertisementSession.step s l' = some s' → NoSuccess s s') := by
  have hinv := inv_run hrun
  exact ⟨hinv.sound, fun _ _ hstep => unchanged_iff hinv.slots hstep,
    fun hrefused _ _ hrest => refused_run hinv hrefused hrest⟩

/-- An update whose call was dropped is applied, and the next call finds it there. -/
theorem advertisement_updates_sound_cancelled : ∃ s : AdvertisementSession ℕ,
    Machine.run AdvertisementSession.step (.from_parts none) [.update 5, .advance 0, .advance 0,
      .cancel 0, .update 5, .advance 1, .transport 0 (.ok ()), .advance 1, .advance 1] = some s ∧
    s.calls = [.dropped, .update_returned 5 (.ok false)] ∧ Sound s :=
  ⟨_, rfl, rfl, (advertisement_updates_sound none [.update 5, .advance 0, .advance 0, .cancel 0,
    .update 5, .advance 1, .transport 0 (.ok ()), .advance 1, .advance 1] rfl).1⟩

/-- An update has returned its error, and the handle has not been asked to close: the
call that set the flag has yet to do it. -/
theorem close_still_to_ask : ∃ s : AdvertisementSession ℕ,
    Machine.run AdvertisementSession.step (.from_parts none) [.update 5, .advance 0, .advance 0,
      .close, .advance 1, .transport 0 (.error "update failed"), .task 0, .advance 0, .advance 0] =
        some s ∧
    s.calls = [.update_returned 5 (.error "update failed"), .close_request .close] ∧
    s.requests = 0 :=
  ⟨_, rfl, rfl, rfl⟩

end IrohHttp.EngineAdvertise
