/-
`createDiscoveryIterator` of `iroh-http-shared/src/dns-sd.ts`: one discovery session as
an async iterator.

Calls of `next` take turns: each waits for the one before it to settle, so one at most
runs `nextValue`. `return` and the abort listener run at any time, also from inside
`start`, `poll` and `map`; the first of them finishes the iterator.

One step is what runs between two suspensions, or a result of one of the callbacks. The
order of microtasks is left open except for one thing: the first reaction to the start
promise, which stores the handle or closes it, runs before the race that `nextValue` put
after it. A handle is then in one place at any time: in `handle`, or with its cleanup.
-/
import IrohHttp.Machine
import IrohHttp.Parties

set_option autoImplicit false

open Machine

namespace IrohHttp.DiscoveryIterator

open Parties

variable {H V W E : Type}

/-! ## The iterator -/

/-- `startPromise`. `observed` is after its first reaction. -/
inductive StartPromise (H E : Type)
  | idle
  | queued
  | called
  | settled (result : Except E H)
  | observed (result : Except E H)

/-- How far the close of a handle is. -/
inductive CleanupPhase (E : Type)
  | queued
  | called
  | settled (result : Except E Unit)

/-- `cleanup(close, handle)`. -/
structure Cleanup (H E : Type) where
  handle : H
  phase : CleanupPhase E := .queued

/-- A call of `poll`, with its result and with what `map` made of that. -/
structure Poll (H V W E : Type) where
  handle : H
  result : Option (Except E (Option V)) := none
  output : Option (Except E (Option W)) := none

/-- A running `nextValue`, by what it waits for. The last three await `finish()`: without
a handle, in the loop, and in the outer `catch`. -/
inductive Next (H V E : Type)
  | racing
  | ensured (handle : Option H)
  | polling (handle : H) (poll : ℕ)
  | mapping (handle : H) (poll : ℕ) (value : V)
  | closing
  | ending
  | failing (error : E)

/-- What a call of `next` or `return` comes to. -/
inductive Outcome (W E : Type)
  | done
  | value (value : W)
  | threw (error : E)

/-- `waiting` counts the calls of `next` that have not begun, `outcomes` has what the
settled ones came to; a call of `return` is `none` while it waits. -/
structure Iterator (H V W E : Type) where
  signal : Bool
  aborted : Bool
  finished : Bool := false
  start : StartPromise H E := .idle
  start_calls : ℕ := 0
  handle : Option H := none
  close_promise : Option (Cleanup H E) := none
  late : List (Cleanup H E) := []
  close_failure_consumed : Bool := false
  abort_listener_registered : Bool := false
  waiting : ℕ := 0
  next : Option (Next H V E) := none
  outcomes : List (Outcome W E) := []
  returns : List (Option (Outcome W E)) := []
  polls : List (Poll H V W E) := []

/-- What can happen: calls of the consumer, the abort, and the turns of what they wait for. -/
inductive Label (H V W E : Type)
  | next
  | return_
  | abort
  | on_abort
  | begin_next
  | start_call
  | start_settle (result : Except E H)
  | start_observe
  | race_start
  | race_finished
  | proceed
  | poll_settle (poll : ℕ) (result : Except E (Option V))
  | race_poll
  | map (output : Except E (Option W))
  | finish_awaited
  | return_awaited (call : ℕ)
  | close_call
  | close_settle (result : Except E Unit)
  | late_call (cleanup : ℕ)
  | late_settle (cleanup : ℕ) (result : Except E Unit)

/-- The call of `close` is a microtask of its own. -/
def Cleanup.call (c : Cleanup H E) : Option (Cleanup H E) :=
  match c.phase with
  | .queued => some { c with phase := .called }
  | _ => none

/-- The close of the host comes to its result. -/
def Cleanup.settle (c : Cleanup H E) (result : Except E Unit) : Option (Cleanup H E) :=
  match c.phase with
  | .called => some { c with phase := .settled result }
  | _ => none

namespace Iterator

/-- Only the stored handle is closed here. -/
def close_handle (s : Iterator H V W E) (value : H) : Iterator H V W E :=
  if s.close_promise.isSome then s
  else { s with handle := none, close_promise := some { handle := value } }

/-- `finish`: no more values, no listener, and the handle goes to its close. -/
def finish (s : Iterator H V W E) : Iterator H V W E :=
  let s := if s.finished then s else { s with finished := true, abort_listener_registered := false }
  match s.handle with
  | some value => s.close_handle value
  | none => s

/-- What an awaited `finish()` settles with. Once the iterator has finished without a
close promise it gets none, and `finish()` has resolved. -/
def close_result (s : Iterator H V W E) : Option (Except E Unit) :=
  match s.close_promise with
  | none => some (.ok ())
  | some c =>
    match c.phase with
    | .settled result => some result
    | _ => none

/-- `ensureHandle`, up to its first suspension, with `observeSignal`. -/
def ensure_handle (s : Iterator H V W E) : Iterator H V W E :=
  if s.finished then { s with next := some (.ensured none) }
  else if s.signal && s.aborted then { s.finish with next := some (.ensured none) }
  else
    let s := { s with abort_listener_registered := s.signal }
    match s.handle with
    | some value => { s with next := some (.ensured (some value)) }
    | none =>
      match s.start with
      | .idle => { s with start := .queued, next := some .racing }
      | _ => { s with next := some .racing }

/-- The call of `next` is over. -/
def settle (s : Iterator H V W E) (o : Outcome W E) : Iterator H V W E :=
  { s with next := none, outcomes := s.outcomes ++ [o] }

/-- `finish()`, and await it. -/
def await_finish (s : Iterator H V W E) (next : Next H V E) : Iterator H V W E :=
  { s.finish with next := some next }

/-- The head of the loop. -/
def loop (s : Iterator H V W E) (handle : H) : Iterator H V W E :=
  if s.finished then s.settle .done
  else { s with
    polls := s.polls ++ [{ handle }]
    next := some (.polling handle s.polls.length) }

/-- The first reaction to the start promise. -/
def start_observe (s : Iterator H V W E) (result : Except E H) : Iterator H V W E :=
  let s := { s with start := .observed result }
  match result with
  | .ok value =>
    -- nobody will use this handle: it is closed here
    if s.finished then { s with late := s.late ++ [{ handle := value }] }
    else { s with handle := some value }
  | .error _ => s

/-- A poll has settled before the race was over. -/
def polled (s : Iterator H V W E) (handle : H) (poll : ℕ) :
    Except E (Option V) → Iterator H V W E
  | .error error => s.await_finish (.failing error)
  | .ok none => s.await_finish .ending
  | .ok (some value) =>
    -- finished meanwhile: the value is dropped
    if s.finished then s.await_finish .ending
    else { s with next := some (.mapping handle poll value) }

/-- `map` has returned, or thrown. -/
def mapped (s : Iterator H V W E) (handle : H) (poll : ℕ) (p : Poll H V W E)
    (output : Except E (Option W)) : Iterator H V W E :=
  let s := { s with polls := s.polls.set poll { p with output := some output } }
  match output with
  | .error error => s.await_finish (.failing error)
  | .ok (some value) => s.settle (.value value)
  | .ok none => s.loop handle

/-- `await finish()` has settled. -/
def finish_awaited (s : Iterator H V W E) (result : Except E Unit) :
    Next H V E → Option (Iterator H V W E)
  | .closing =>
    match result with
    | .ok _ => some (s.settle .done)
    | .error error =>
      if s.close_failure_consumed then some (s.settle .done)
      else some (s.await_finish (.failing error))
  | .ending =>
    match result with
    | .ok _ => some (s.settle .done)
    | .error error => some (s.await_finish (.failing error))
  | .failing error =>
    match result with
    | .ok _ => some (s.settle (.threw error))
    | .error _ => some ({ s with close_failure_consumed := true }.settle (.threw error))
  | _ => none

/-- The end of `return`: a close that failed is reported to one call only. -/
def return_awaited (s : Iterator H V W E) (call : ℕ) : Except E Unit → Iterator H V W E
  | .ok _ => { s with returns := s.returns.set call (some .done) }
  | .error error =>
    if s.close_failure_consumed then { s with returns := s.returns.set call (some .done) }
    else { s with
      close_failure_consumed := true
      returns := s.returns.set call (some (.threw error)) }

/-- One step, `none` where the label is not enabled. -/
def step (s : Iterator H V W E) : Label H V W E → Option (Iterator H V W E)
  | .next => some { s with waiting := s.waiting + 1 }
  | .return_ =>
    let s := s.finish
    some { s with returns := s.returns ++ [none] }
  | .abort => if s.signal then some { s with aborted := true } else none
  | .on_abort => if s.aborted && s.abort_listener_registered then some s.finish else none
  | .begin_next =>
    match s.next, s.waiting with
    | none, waiting + 1 => some { s with waiting }.ensure_handle
    | _, _ => none
  | .start_call =>
    match s.start with
    | .queued => some { s with start := .called, start_calls := s.start_calls + 1 }
    | _ => none
  | .start_settle result =>
    match s.start with
    | .called => some { s with start := .settled result }
    | _ => none
  | .start_observe =>
    match s.start with
    | .settled result => some (s.start_observe result)
    | _ => none
  | .race_start =>
    match s.next, s.start with
    | some .racing, .observed (.ok value) =>
      -- the reaction of `ensureHandle`, after the one that stored the handle
      if s.finished then some { s with next := some (.ensured none) }
      else some { s with handle := some value, next := some (.ensured (some value)) }
    | some .racing, .observed (.error error) => some (s.await_finish (.failing error))
    | _, _ => none
  | .race_finished =>
    if s.finished then
      match s.next with
      | some .racing => some { s with next := some (.ensured none) }
      -- the poll in flight is left to itself
      | some (.polling _ _) => some (s.await_finish .ending)
      | _ => none
    else none
  | .proceed =>
    match s.next with
    | some (.ensured none) => some (s.await_finish .closing)
    | some (.ensured (some handle)) => some (s.loop handle)
    | _ => none
  | .poll_settle poll result =>
    (s.polls[poll]?).bind fun p =>
      if p.result.isNone then
        some { s with polls := s.polls.set poll { p with result := some result } }
      else none
  | .race_poll =>
    match s.next with
    | some (.polling handle poll) =>
      (s.polls[poll]?).bind fun p => p.result.map fun result => s.polled handle poll result
    | _ => none
  | .map output =>
    match s.next with
    | some (.mapping handle poll _) =>
      (s.polls[poll]?).map fun p => s.mapped handle poll p output
    | _ => none
  | .finish_awaited =>
    s.close_result.bind fun result => s.next.bind fun next => s.finish_awaited result next
  | .return_awaited call =>
    match s.returns[call]? with
    | some none => s.close_result.map fun result => s.return_awaited call result
    | _ => none
  | .close_call =>
    (s.close_promise.bind Cleanup.call).map fun c => { s with close_promise := some c }
  | .close_settle result =>
    (s.close_promise.bind fun c => c.settle result).map fun c => { s with close_promise := some c }
  | .late_call cleanup =>
    ((s.late[cleanup]?).bind Cleanup.call).map fun c => { s with late := s.late.set cleanup c }
  | .late_settle cleanup result =>
    ((s.late[cleanup]?).bind fun c => c.settle result).map fun c =>
      { s with late := s.late.set cleanup c }

/-! ## What `finish` leaves as it is -/

theorem close_handle_frame (s : Iterator H V W E) (value : H) : ∃ handle close_promise,
    s.close_handle value = { s with handle := handle, close_promise := close_promise } := by
  rw [close_handle]
  split
  · exact ⟨s.handle, s.close_promise, rfl⟩
  · exact ⟨none, some { handle := value }, rfl⟩

/-- What `finish` changes. -/
theorem finish_frame (s : Iterator H V W E) : ∃ registered handle close_promise, s.finish =
    { s with
      finished := true
      abort_listener_registered := registered
      handle := handle
      close_promise := close_promise } := by
  have hmark : ∃ registered, (if s.finished then s
      else { s with finished := true, abort_listener_registered := false }) =
      { s with finished := true, abort_listener_registered := registered } := by
    cases hfinished : s.finished with
    | true =>
        refine ⟨s.abort_listener_registered, ?_⟩
        rw [if_pos rfl, ← hfinished]
    | false => exact ⟨false, rfl⟩
  obtain ⟨registered, hmark⟩ := hmark
  simp only [finish, hmark]
  split
  · next value _ =>
    obtain ⟨handle, close_promise, h⟩ := close_handle_frame
      { s with finished := true, abort_listener_registered := registered } value
    exact ⟨registered, handle, close_promise, h⟩
  · exact ⟨registered, s.handle, s.close_promise, rfl⟩

@[simp] theorem finish_finished (s : Iterator H V W E) : s.finish.finished = true := by
  obtain ⟨_, _, _, h⟩ := finish_frame s
  rw [h]

@[simp] theorem finish_start (s : Iterator H V W E) : s.finish.start = s.start := by
  obtain ⟨_, _, _, h⟩ := finish_frame s
  rw [h]

@[simp] theorem finish_start_calls (s : Iterator H V W E) :
    s.finish.start_calls = s.start_calls := by
  obtain ⟨_, _, _, h⟩ := finish_frame s
  rw [h]

@[simp] theorem finish_late (s : Iterator H V W E) : s.finish.late = s.late := by
  obtain ⟨_, _, _, h⟩ := finish_frame s
  rw [h]

@[simp] theorem finish_close_failure_consumed (s : Iterator H V W E) :
    s.finish.close_failure_consumed = s.close_failure_consumed := by
  obtain ⟨_, _, _, h⟩ := finish_frame s
  rw [h]

@[simp] theorem finish_next (s : Iterator H V W E) : s.finish.next = s.next := by
  obtain ⟨_, _, _, h⟩ := finish_frame s
  rw [h]

@[simp] theorem finish_outcomes (s : Iterator H V W E) : s.finish.outcomes = s.outcomes := by
  obtain ⟨_, _, _, h⟩ := finish_frame s
  rw [h]

@[simp] theorem finish_polls (s : Iterator H V W E) : s.finish.polls = s.polls := by
  obtain ⟨_, _, _, h⟩ := finish_frame s
  rw [h]

/-- A second `finish` does nothing. -/
theorem finish_of_finished {s : Iterator H V W E} (hfinished : s.finished = true)
    (hhandle : s.handle = none) : s.finish = s := by
  simp only [finish, hfinished, if_true, hhandle]

/-- A `finish` before the handle is there has nothing to close. -/
theorem finish_unstarted {s : Iterator H V W E} (hfinished : s.finished = false)
    (hhandle : s.handle = none) :
    s.finish = { s with finished := true, abort_listener_registered := false } := by
  rw [finish, if_neg (by rw [hfinished]; exact Bool.false_ne_true)]
  simp only [hhandle]

/-- The first `finish` behind the handle asks for its close. -/
theorem finish_started {s : Iterator H V W E} (hfinished : s.finished = false) {value : H}
    (hhandle : s.handle = some value) (hpromise : s.close_promise = none) :
    s.finish = { s with
      finished := true
      abort_listener_registered := false
      handle := none
      close_promise := some { handle := value } } := by
  rw [finish, if_neg (by rw [hfinished]; exact Bool.false_ne_true)]
  simp only [hhandle, close_handle, hpromise]
  rfl

/-! ## Where the handle is -/

/-- The handle, once the first reaction to the start promise has run. -/
def observed_handle (s : Iterator H V W E) : Option H :=
  match s.start with
  | .observed (.ok value) => some value
  | _ => none

/-- All closes that were asked for. -/
def cleanups (s : Iterator H V W E) : List (Cleanup H E) := s.close_promise.toList ++ s.late

/-- A handle is stored until the iterator has finished, and then has one cleanup. -/
def place : Option H → Bool → Option H × List H
  | none, _ => (none, [])
  | some value, false => (some value, [])
  | some value, true => (none, [value])

/-- The handle: it is started once, and where it is observed it is held, or on its way to its close.
-/
structure Owns (s : Iterator H V W E) : Prop where
  calls : s.start_calls = match s.start with
    | .idle => 0
    | .queued => 0
    | _ => 1
  placed : (s.handle, s.cleanups.map Cleanup.handle) = place s.observed_handle s.finished

/-- A finished iterator holds no handle. -/
theorem Owns.handle_none {s : Iterator H V W E} (h : Owns s) (hfinished : s.finished = true) :
    s.handle = none := by
  have hplaced := h.placed
  rw [hfinished] at hplaced
  cases hobserved : s.observed_handle with
  | none =>
      rw [hobserved] at hplaced
      exact congrArg Prod.fst hplaced
  | some value =>
      rw [hobserved] at hplaced
      exact congrArg Prod.fst hplaced

theorem Owns.finish_eq {s : Iterator H V W E} (h : Owns s) (hfinished : s.finished = true) :
    s.finish = s := finish_of_finished hfinished (h.handle_none hfinished)

/-- What the handle depends on. -/
theorem Owns.congr {s s' : Iterator H V W E} (h : Owns s) (hcalls : s'.start_calls = s.start_calls)
    (hstart : s'.start = s.start) (hfinished : s'.finished = s.finished)
    (hhandle : s'.handle = s.handle)
    (hcleanups : s'.cleanups.map Cleanup.handle = s.cleanups.map Cleanup.handle) : Owns s' where
  calls := by
    rw [hcalls, hstart]
    exact h.calls
  placed := by
    have hobserved : s'.observed_handle = s.observed_handle := by
      rw [observed_handle, hstart]
      rfl
    rw [hhandle, hcleanups, hobserved, hfinished]
    exact h.placed

/-- **`finish` hands the handle over**, once. -/
theorem Owns.finish {s : Iterator H V W E} (h : Owns s) : Owns s.finish := by
  -- a second `finish` finds nothing to do
  cases hfinished : s.finished with
  | true =>
      rw [h.finish_eq hfinished]
      exact h
  | false =>
      have hobserved : s.finish.observed_handle = s.observed_handle := by
        rw [observed_handle, finish_start]
        rfl
      refine ⟨by rw [finish_start_calls, finish_start]; exact h.calls, ?_⟩
      rw [hobserved, finish_finished]
      have hplaced := h.placed
      rw [hfinished] at hplaced
      cases hvalue : s.observed_handle with
      | none =>
          rw [hvalue, place, Prod.mk.injEq] at hplaced
          obtain ⟨hhandle, hcleanups⟩ := hplaced
          rw [finish_unstarted hfinished hhandle, place, hhandle]
          exact congrArg (Prod.mk none) hcleanups
      | some value =>
          rw [hvalue, place, Prod.mk.injEq] at hplaced
          obtain ⟨hhandle, hcleanups⟩ := hplaced
          rw [cleanups, List.map_append, List.append_eq_nil_iff, List.map_eq_nil_iff,
            Option.toList_eq_nil_iff, List.map_eq_nil_iff] at hcleanups
          obtain ⟨hpromise, hlate⟩ := hcleanups
          rw [finish_started hfinished hhandle hpromise, cleanups, hlate]
          rfl

end Iterator

/-! ## Polls and what they yield -/

/-- The value of an outcome. -/
def Outcome.yielded : Outcome W E → Option W
  | .value output => some output
  | _ => none

/-- The value that a poll came to. -/
def Poll.yielded (p : Poll H V W E) : Option W :=
  match p.output with
  | some (.ok output) => output
  | _ => none

/-- A value that `map` has taken. -/
def Poll.complete (p : Poll H V W E) : Prop :=
  ∃ value output, p.result = some (.ok (some value)) ∧ p.output = some (.ok output)

/-- What a call of `next` knows where it is. -/
def Placed (observed : Option H) (finished : Bool) (polls : List (Poll H V W E)) :
    Option (Next H V E) → Prop
  | none => finished = false → ∀ p ∈ polls, p.complete
  | some .racing => finished = false → ∀ p ∈ polls, p.complete
  | some (.ensured none) => finished = true
  | some (.ensured (some handle)) =>
    observed = some handle ∧ (finished = false → ∀ p ∈ polls, p.complete)
  | some (.polling handle poll) => observed = some handle ∧ poll + 1 = polls.length ∧
      ∃ p, polls[poll]? = some p ∧ p.output = none
  | some (.mapping handle poll value) => observed = some handle ∧ poll + 1 = polls.length ∧
      ∃ p, polls[poll]? = some p ∧ p.result = some (.ok (some value)) ∧ p.output = none
  | some .closing => finished = true
  | some .ending => finished = true
  | some (.failing _) => finished = true

/-- All polls but the last one are complete, and all were made with the one handle. -/
structure Polled (observed : Option H) (finished : Bool) (polls : List (Poll H V W E))
    (outcomes : List (Outcome W E)) (next : Option (Next H V E)) : Prop where
  handle : ∀ p ∈ polls, observed = some p.handle
  segment : ∀ (i : ℕ) (p : Poll H V W E), polls[i]? = some p → i + 1 < polls.length → p.complete
  yields : outcomes.filterMap Outcome.yielded = polls.filterMap Poll.yielded
  placed : Placed observed finished polls next

section Polled

variable {observed : Option H} {finished : Bool} {polls : List (Poll H V W E)}
  {outcomes : List (Outcome W E)} {next : Option (Next H V E)}

theorem Placed.finish (h : Placed observed finished polls next) :
    Placed observed true polls next := by
  cases next with
  | none =>
      intro hno
      cases hno
  | some next =>
      cases next with
      | racing =>
          intro hno
          cases hno
      | ensured handle =>
          cases handle with
          | none => rfl
          | some handle =>
              refine ⟨h.1, ?_⟩
              intro hno
              cases hno
      | polling handle poll => exact h
      | mapping handle poll value => exact h
      | closing => rfl
      | ending => rfl
      | failing error => rfl

theorem Polled.finish (h : Polled observed finished polls outcomes next) :
    Polled observed true polls outcomes next :=
  ⟨h.handle, h.segment, h.yields, h.placed.finish⟩

/-- A call may go on where its place is right. -/
theorem Polled.move (h : Polled observed finished polls outcomes next) {next' : Option (Next H V E)}
    (hplaced : Placed observed finished polls next') :
    Polled observed finished polls outcomes next' :=
  ⟨h.handle, h.segment, h.yields, hplaced⟩

/-- An outcome without a value ends the call. -/
theorem Polled.settle (h : Polled observed finished polls outcomes next) {o : Outcome W E}
    (ho : o.yielded = none) (hcomplete : finished = false → ∀ p ∈ polls, p.complete) :
    Polled observed finished polls (outcomes ++ [o]) none := by
  refine ⟨h.handle, h.segment, ?_, hcomplete⟩
  rw [List.filterMap_append, h.yields, List.filterMap_cons_none ho, List.filterMap_nil,
    List.append_nil]

/-- A new poll is of the handle, behind the ones that are complete. -/
theorem Polled.poll (h : Polled observed finished polls outcomes next) {handle : H}
    (hobserved : observed = some handle) (hcomplete : ∀ p ∈ polls, p.complete) :
    Polled observed finished (polls ++ [{ handle := handle }]) outcomes
      (some (.polling handle polls.length)) := by
  refine ⟨?_, ?_, ?_, hobserved, ?_, { handle := handle }, List.getElem?_concat_length, rfl⟩
  · intro p hp
    rcases List.mem_append.mp hp with hp | hp
    · exact h.handle p hp
    · rw [List.mem_singleton.mp hp]
      exact hobserved
  · intro i p hp hi
    rw [List.length_append, List.length_singleton] at hi
    rw [List.getElem?_append_left (by omega)] at hp
    exact hcomplete p (List.mem_of_getElem? hp)
  · rw [List.filterMap_append, h.yields]
    exact (List.append_nil _).symm
  · rw [List.length_append, List.length_singleton]

/-- The last poll is the only one that may still change. -/
theorem Polled.last (h : Polled observed finished polls outcomes next) {i : ℕ} {p : Poll H V W E}
    (hp : polls[i]? = some p) (hno : p.result = none ∨ p.output = none) : i + 1 = polls.length := by
  have hlt := lt_of_getElem? hp
  by_contra hne
  obtain ⟨value, output, hresult, houtput⟩ := h.segment i p hp (by omega)
  rcases hno with hno | hno
  · rw [hno] at hresult
    cases hresult
  · rw [hno] at houtput
    cases houtput

theorem segment_set (h : Polled observed finished polls outcomes next) {i : ℕ}
    (hi : i + 1 = polls.length) (q : Poll H V W E) :
    ∀ (j : ℕ) (p : Poll H V W E), (polls.set i q)[j]? = some p → j + 1 < (polls.set i q).length →
      p.complete := by
  intro j p hp hj
  rw [List.length_set] at hj
  rw [List.getElem?_set_ne (by omega)] at hp
  exact h.segment j p hp hj

theorem handle_set (h : Polled observed finished polls outcomes next) {i : ℕ} {p q : Poll H V W E}
    (hp : polls[i]? = some p) (hq : q.handle = p.handle) :
    ∀ p' ∈ polls.set i q, observed = some p'.handle := by
  intro p' hp'
  rcases List.mem_or_eq_of_mem_set hp' with hmem | rfl
  · exact h.handle p' hmem
  · rw [hq]
    exact h.handle p (List.mem_of_getElem? hp)

theorem filterMap_set {i : ℕ} {p q : Poll H V W E} (hp : polls[i]? = some p)
    (hq : q.yielded = p.yielded) :
    polls.filterMap Poll.yielded = (polls.set i q).filterMap Poll.yielded := by
  obtain ⟨l₁, l₂, hsplit, -, hset⟩ := set_split hp
  rw [hset, hsplit]
  simp only [List.filterMap_append, List.filterMap_cons, hq]

/-- The result of the poll in flight. -/
theorem Polled.poll_settle (h : Polled observed finished polls outcomes next) {i : ℕ}
    {p : Poll H V W E} (hp : polls[i]? = some p) (hno : p.result = none)
    (result : Except E (Option V)) :
    Polled observed finished (polls.set i { p with result := some result }) outcomes next := by
  have hlast := h.last hp (Or.inl hno)
  have hmem := List.mem_of_getElem? hp
  have hincomplete : ¬ p.complete := by
    rintro ⟨value, output, hresult, -⟩
    rw [hno] at hresult
    cases hresult
  -- only a finished iterator leaves a poll in flight
  have hfinished : (finished = false → ∀ p ∈ polls, p.complete) → finished = false → False :=
    fun hall hopen => hincomplete (hall hopen p hmem)
  refine ⟨handle_set h hp rfl, segment_set h hlast _, ?_, ?_⟩
  · rw [h.yields]
    exact filterMap_set hp rfl
  · have hplaced := h.placed
    cases next with
    | none => exact fun hopen => (hfinished hplaced hopen).elim
    | some next =>
        cases next with
        | racing => exact fun hopen => (hfinished hplaced hopen).elim
        | ensured handle =>
            cases handle with
            | none => exact hplaced
            | some handle =>
                exact ⟨hplaced.1, fun hopen => (hfinished hplaced.2 hopen).elim⟩
        | polling handle poll =>
            obtain ⟨hobserved, hpoll, q, hq, houtput⟩ := hplaced
            have hsame : poll = i := by omega
            subst hsame
            rw [hp, Option.some.injEq] at hq
            subst hq
            refine ⟨hobserved, ?_, _, getElem?_set_self hp, houtput⟩
            rw [List.length_set]
            exact hpoll
        | mapping handle poll value =>
            obtain ⟨hobserved, hpoll, q, hq, hresult, -⟩ := hplaced
            have hsame : poll = i := by omega
            subst hsame
            rw [hp, Option.some.injEq] at hq
            subst hq
            rw [hno] at hresult
            cases hresult
        | closing => exact hplaced
        | ending => exact hplaced
        | failing error => exact hplaced

/-- `map` has run on the result of the last poll. -/
theorem Polled.map (h : Polled observed finished polls outcomes next) {i : ℕ} {p : Poll H V W E}
    (hp : polls[i]? = some p) (hno : p.output = none) (output : Except E (Option W))
    {l : List (Outcome W E)}
    (hl : l.filterMap Outcome.yielded = ({ p with output := some output }).yielded.toList)
    {next' : Option (Next H V E)}
    (hplaced : Placed observed finished (polls.set i { p with output := some output }) next') :
    Polled observed finished (polls.set i { p with output := some output }) (outcomes ++ l) next' := by
  have hlast := h.last hp (Or.inr hno)
  refine ⟨handle_set h hp rfl, segment_set h hlast _, ?_, hplaced⟩
  obtain ⟨l₁, hsplit, hset⟩ := set_last_split hp hlast
  have hyields := h.yields
  have hsilent : p.yielded = none := by
    rw [Poll.yielded, hno]
  rw [hsplit, List.filterMap_append, List.filterMap_cons_none hsilent, List.filterMap_nil,
    List.append_nil] at hyields
  rw [hset, List.filterMap_append, List.filterMap_append, hyields, hl]
  congr 1

/-- The polls are all complete once `map` has returned. -/
theorem Polled.complete_set (h : Polled observed finished polls outcomes next) {i : ℕ}
    {p : Poll H V W E} (hp : polls[i]? = some p) {value : V}
    (hresult : p.result = some (.ok (some value))) (hno : p.output = none) (output : Option W) :
    ∀ q ∈ polls.set i { p with output := some (.ok output) }, q.complete := by
  have hlast := h.last hp (Or.inr hno)
  intro q hq
  obtain ⟨j, hj⟩ := List.mem_iff_getElem?.mp hq
  have hlt := lt_of_getElem? hj
  rw [List.length_set] at hlt
  rcases Nat.lt_or_ge (j + 1) polls.length with hbefore | hat
  · exact segment_set h hlast _ j q hj (by rw [List.length_set]; exact hbefore)
  · have hsame : j = i := by omega
    rw [hsame, getElem?_set_self hp, Option.some.injEq] at hj
    rw [← hj]
    exact ⟨value, output, hresult, rfl⟩

/-- **One poll at a time.** -/
theorem one_in_flight (h : Polled observed finished polls outcomes next) :
    polls.countP (fun p => p.result.isNone) ≤ 1 := by
  apply countP_le_one
  intro i j p q hi hp hj hq
  have hilast := h.last hi (Or.inl (Option.isNone_iff_eq_none.mp hp))
  have hjlast := h.last hj (Or.inl (Option.isNone_iff_eq_none.mp hq))
  omega

end Polled

/-! ## The end is sticky -/

/-- Whether the iteration is over for the caller. -/
def Outcome.ends : Outcome W E → Bool
  | .value _ => false
  | _ => true

/-- Whether the caller was told of a failure. -/
def Outcome.failed : Outcome W E → Bool
  | .threw _ => true
  | _ => false

/-- After a `done`, every call is done, or throws what closing failed with, one at most. -/
def Sticky (closed : Option (Except E Unit)) (outcomes : List (Outcome W E)) : Prop :=
  ∀ before after, outcomes = before ++ .done :: after →
    (∀ o ∈ after, o = .done ∨ ∃ error, o = .threw error ∧ closed = some (.error error)) ∧
      after.countP Outcome.failed ≤ 1

/-- What may still be running once a call has ended the iteration. -/
def Late (closed : Option (Except E Unit)) (outcomes : List (Outcome W E)) :
    Option (Next H V E) → Prop
  | none => True
  | some (.ensured none) => True
  | some .closing => True
  | some (.failing error) => closed = some (.error error) ∧ outcomes.countP Outcome.failed = 0
  | _ => False

/-- What is known once a call has ended: the iterator is finished, a failure was told once, and it
stays so. -/
structure Ended (finished consumed : Bool) (closed : Option (Except E Unit))
    (outcomes : List (Outcome W E)) (next : Option (Next H V E)) : Prop where
  finished : (∃ o ∈ outcomes, o.ends = true) → finished = true
  reported : (∃ o ∈ outcomes, o.failed = true) → consumed = true ∨ closed = some (.ok ())
  late : (∃ o ∈ outcomes, o.ends = true) → Late closed outcomes next
  sticky : Sticky closed outcomes

section Ended

variable {finished consumed : Bool} {closed : Option (Except E Unit)}
  {outcomes : List (Outcome W E)} {next : Option (Next H V E)}

theorem ends_of_failed {o : Outcome W E} (h : o.failed = true) : o.ends = true := by
  cases o with
  | done => rfl
  | value output => cases h
  | threw error => rfl

/-- Nothing has ended: nothing to keep. -/
theorem Ended.of_open (hopen : ¬ ∃ o ∈ outcomes, o.ends = true) :
    Ended finished consumed closed outcomes next := by
  refine ⟨fun h => absurd h hopen, ?_, fun h => absurd h hopen, ?_⟩
  · rintro ⟨o, ho, hfailed⟩
    exact absurd ⟨o, ho, ends_of_failed hfailed⟩ hopen
  · intro before after heq
    refine absurd ⟨.done, ?_, rfl⟩ hopen
    rw [heq]
    exact List.mem_append_right before List.mem_cons_self

/-- Before the end no call has ended. -/
theorem Ended.open_of_unfinished (h : Ended false consumed closed outcomes next) :
    ¬ ∃ o ∈ outcomes, o.ends = true := by
  intro hends
  cases h.finished hends

theorem Ended.move (h : Ended finished consumed closed outcomes next) {next' : Option (Next H V E)}
    (hlate : (∃ o ∈ outcomes, o.ends = true) → Late closed outcomes next') :
    Ended finished consumed closed outcomes next' :=
  ⟨h.finished, h.reported, hlate, h.sticky⟩

theorem Ended.consume (h : Ended finished consumed closed outcomes next) :
    Ended finished true closed outcomes next :=
  ⟨h.finished, fun _ => Or.inl rfl, h.late, h.sticky⟩

/-- A cleanup that settles was not settled before. -/
theorem Ended.close (h : Ended finished consumed none outcomes next) :
    Ended finished consumed closed outcomes next := by
  refine ⟨h.finished, ?_, ?_, ?_⟩
  · intro hfailed
    rcases h.reported hfailed with hconsumed | hno
    · exact Or.inl hconsumed
    · cases hno
  · intro hends
    have hlate := h.late hends
    cases next with
    | none => trivial
    | some next =>
        cases next with
        | ensured handle =>
            cases handle with
            | none => trivial
            | some handle => exact hlate
        | closing => trivial
        | failing error => cases hlate.1
        | racing => exact hlate
        | polling handle poll => exact hlate
        | mapping handle poll value => exact hlate
        | ending => exact hlate
  · intro before after heq
    obtain ⟨hall, hcount⟩ := h.sticky before after heq
    refine ⟨?_, hcount⟩
    intro o ho
    rcases hall o ho with hdone | ⟨error, -, hno⟩
    · exact Or.inl hdone
    · cases hno

/-- Once a call has ended, the next ones are done or told of the failure once. -/
theorem sticky_concat (h : Sticky closed outcomes) {o : Outcome W E}
    (ho : (∃ o ∈ outcomes, o.ends = true) →
      o = .done ∨ ∃ error, o = .threw error ∧ closed = some (.error error) ∧
        outcomes.countP Outcome.failed = 0) : Sticky closed (outcomes ++ [o]) := by
  intro before after heq
  rcases List.eq_nil_or_concat after with rfl | ⟨after', o', rfl⟩
  · exact ⟨fun o ho => absurd ho List.not_mem_nil, Nat.zero_le 1⟩
  · rw [List.concat_eq_append] at heq ⊢
    rw [← List.cons_append, ← List.append_assoc] at heq
    obtain ⟨hbefore, hlast⟩ := List.append_inj' heq rfl
    rw [List.cons.injEq] at hlast
    obtain ⟨rfl, -⟩ := hlast
    obtain ⟨hall, hcount⟩ := h before after' hbefore
    have hdone : ∃ o ∈ outcomes, o.ends = true := by
      refine ⟨.done, ?_, rfl⟩
      rw [hbefore]
      exact List.mem_append_right before List.mem_cons_self
    -- a `done` before it leaves the new outcome two ways
    rcases ho hdone with rfl | ⟨error, rfl, hclosed, hnone⟩
    · refine ⟨?_, ?_⟩
      · intro o ho
        rcases List.mem_append.mp ho with ho | ho
        · exact hall o ho
        · exact Or.inl (List.mem_singleton.mp ho)
      · rw [List.countP_append]
        exact hcount
    · refine ⟨?_, ?_⟩
      · intro o ho
        rcases List.mem_append.mp ho with ho | ho
        · exact hall o ho
        · exact Or.inr ⟨error, List.mem_singleton.mp ho, hclosed⟩
      · have hzero : after'.countP Outcome.failed = 0 := by
          rw [hbefore, List.countP_append, List.countP_cons] at hnone
          omega
        rw [List.countP_append, hzero]
        exact Nat.le_refl 1

end Ended

namespace Iterator

/-! ## Every run -/

/-- The invariant: the handle, the polls and the outcomes. -/
structure Inv (s : Iterator H V W E) : Prop where
  owns : Owns s
  polled : Polled s.observed_handle s.finished s.polls s.outcomes s.next
  ended : Ended s.finished s.close_failure_consumed s.close_result s.outcomes s.next

/-- Before the first call. -/
theorem inv_start (signal aborted : Bool) : Inv ({ signal, aborted } : Iterator H V W E) where
  owns := ⟨rfl, rfl⟩
  polled := by
    refine ⟨fun p hp => absurd hp List.not_mem_nil, ?_, rfl, fun _ p hp => absurd hp List.not_mem_nil⟩
    intro i p hp
    rw [List.getElem?_nil] at hp
    cases hp
  ended := by
    apply Ended.of_open
    rintro ⟨o, ho, -⟩
    cases ho

/-- A step that leaves all that the invariant reads. -/
theorem Inv.congr {s s' : Iterator H V W E} (h : Inv s) (howns : Owns s')
    (hobserved : s'.observed_handle = s.observed_handle) (hfinished : s'.finished = s.finished)
    (hpolls : s'.polls = s.polls) (houtcomes : s'.outcomes = s.outcomes)
    (hconsumed : s'.close_failure_consumed = s.close_failure_consumed)
    (hclosed : s'.close_result = s.close_result) (hnext : s'.next = s.next) : Inv s' where
  owns := howns
  polled := by
    rw [hobserved, hfinished, hpolls, houtcomes, hnext]
    exact h.polled
  ended := by
    rw [hfinished, hconsumed, hclosed, houtcomes, hnext]
    exact h.ended

/-- A call goes on. -/
theorem Inv.move {s : Iterator H V W E} (h : Inv s) {next : Option (Next H V E)}
    (hplaced : Placed s.observed_handle s.finished s.polls next)
    (hlate : (∃ o ∈ s.outcomes, o.ends = true) → Late s.close_result s.outcomes next) :
    Inv { s with next := next } where
  owns := h.owns.congr rfl rfl rfl rfl rfl
  polled := h.polled.move hplaced
  ended := h.ended.move hlate

theorem finish_observed_handle (s : Iterator H V W E) :
    s.finish.observed_handle = s.observed_handle := by
  rw [observed_handle, finish_start]
  rfl

/-- The invariant behind `finish`. -/
theorem Inv.finish {s : Iterator H V W E} (h : Inv s) : Inv s.finish := by
  refine ⟨h.owns.finish, ?_, ?_⟩
  · rw [finish_observed_handle, finish_finished, finish_polls, finish_outcomes, finish_next]
    exact h.polled.finish
  -- an iterator that has not finished has ended no call
  · cases hfinished : s.finished with
    | true =>
        rw [h.owns.finish_eq hfinished]
        exact h.ended
    | false =>
        have hended := h.ended
        rw [hfinished] at hended
        apply Ended.of_open
        rw [finish_outcomes]
        exact hended.open_of_unfinished

/-- The three places that await `finish()`. -/
theorem Inv.await_finish {s : Iterator H V W E} (h : Inv s) {next : Next H V E}
    (hplaced : Placed s.observed_handle true s.polls (some next))
    (hlate : (∃ o ∈ s.outcomes, o.ends = true) → Late s.close_result s.outcomes (some next)) :
    Inv (s.await_finish next) := by
  apply h.finish.move
  · rw [finish_observed_handle, finish_finished, finish_polls]
    exact hplaced
  · rw [finish_outcomes]
    intro hends
    rw [h.owns.finish_eq (h.ended.finished hends)]
    exact hlate hends

/-- A call of `next` is over, without a value. -/
theorem Inv.settle {s : Iterator H V W E} (h : Inv s) {o : Outcome W E} (ho : o.yielded = none)
    (hfinished : s.finished = true)
    (hfailed : o.failed = true → s.close_failure_consumed = true ∨ s.close_result = some (.ok ()))
    (hlate : (∃ o ∈ s.outcomes, o.ends = true) → o = .done ∨ ∃ error, o = .threw error ∧
      s.close_result = some (.error error) ∧ s.outcomes.countP Outcome.failed = 0) :
    Inv (s.settle o) where
  owns := h.owns.congr rfl rfl rfl rfl rfl
  polled := by
    apply h.polled.settle ho
    intro hno
    rw [hfinished] at hno
    cases hno
  ended := by
    refine ⟨fun _ => hfinished, ?_, fun _ => trivial, sticky_concat h.ended.sticky hlate⟩
    rintro ⟨o', ho', hfail⟩
    rcases List.mem_append.mp ho' with hmem | hmem
    · exact h.ended.reported ⟨o', hmem, hfail⟩
    · rw [List.mem_singleton.mp hmem] at hfail
      exact hfailed hfail

/-- A call of a finished iterator is done. -/
theorem Inv.settle_done {s : Iterator H V W E} (h : Inv s) (hfinished : s.finished = true) :
    Inv (s.settle .done) := by
  refine h.settle rfl hfinished ?_ fun _ => Or.inl rfl
  intro hno
  cases hno

/-- The loop of `next` begins its next poll or ends. -/
theorem Inv.loop {s : Iterator H V W E} (h : Inv s) {handle : H}
    (hobserved : s.observed_handle = some handle)
    (hcomplete : s.finished = false → ∀ p ∈ s.polls, p.complete) : Inv (s.loop handle) := by
  rw [Iterator.loop]
  split
  · next hfinished => exact h.settle_done hfinished
  · next hno =>
    have hfinished : s.finished = false := Bool.eq_false_iff.mpr hno
    have hended := h.ended
    rw [hfinished] at hended
    refine ⟨h.owns.congr rfl rfl rfl rfl rfl, ?_, Ended.of_open hended.open_of_unfinished⟩
    exact h.polled.poll hobserved (hcomplete hfinished)

/-- The iteration goes on only if no call has ended it. -/
theorem Inv.unended {s : Iterator H V W E} (h : Inv s) {next : Option (Next H V E)}
    (hnext : s.next = next) (hno : ¬ Late s.close_result s.outcomes next) :
    ¬ ∃ o ∈ s.outcomes, o.ends = true := by
  intro hends
  have hlate := h.ended.late hends
  rw [hnext] at hlate
  exact hno hlate

/-- `ensureHandle` starts the handle once. -/
theorem Inv.ensure_handle {s : Iterator H V W E} (h : Inv s) (hnext : s.next = none) :
    Inv s.ensure_handle := by
  have hcomplete : s.finished = false → ∀ p ∈ s.polls, p.complete := by
    have hplaced := h.polled.placed
    rw [hnext] at hplaced
    exact hplaced
  rw [Iterator.ensure_handle]
  split
  · next hfinished => exact h.move hfinished fun _ => trivial
  · next hno =>
    have hfinished : s.finished = false := Bool.eq_false_iff.mpr hno
    have hopen : ¬ ∃ o ∈ s.outcomes, o.ends = true := by
      have hended := h.ended
      rw [hfinished] at hended
      exact hended.open_of_unfinished
    split
    · exact h.finish.move (finish_finished s) fun _ => trivial
    · have hreg : Inv { s with abort_listener_registered := s.signal } :=
        h.congr (h.owns.congr rfl rfl rfl rfl rfl) rfl rfl rfl rfl rfl rfl rfl
      dsimp only
      split
      · next value hhandle =>
        -- a stored handle is the one that start produced
        have hplaced := h.owns.placed
        rw [hfinished, hhandle] at hplaced
        have hobserved : s.observed_handle = some value := by
          cases hvalue : s.observed_handle with
          | none =>
              rw [hvalue] at hplaced
              cases hplaced
          | some value' =>
              rw [hvalue, place, Prod.mk.injEq] at hplaced
              rw [hplaced.1]
        exact hreg.move ⟨hobserved, hcomplete⟩ fun hends => absurd hends hopen
      · split
        · next hstart =>
          refine ⟨⟨?_, ?_⟩, ?_, Ended.of_open hopen⟩
          · have hcalls := h.owns.calls
            rw [hstart] at hcalls
            exact hcalls
          · have hplaced := h.owns.placed
            rw [observed_handle, hstart] at hplaced
            exact hplaced
          · have hpolled := h.polled
            rw [observed_handle, hstart] at hpolled
            exact hpolled.move hcomplete
        · exact hreg.move hcomplete fun hends => absurd hends hopen

/-- What the start came to is observed by the call that waits for it. -/
theorem Inv.start_observe {s : Iterator H V W E} (h : Inv s) {result : Except E H}
    (hstart : s.start = .settled result) : Inv (s.start_observe result) := by
  have hobserved : s.observed_handle = none := by
    rw [observed_handle, hstart]
  have hcalls : s.start_calls = 1 := by
    rw [h.owns.calls, hstart]
  have hplaced := h.owns.placed
  rw [hobserved, place, Prod.mk.injEq] at hplaced
  obtain ⟨hhandle, hcleanups⟩ := hplaced
  -- no poll can have been made yet
  have hpolls : s.polls = [] := by
    apply List.eq_nil_iff_forall_not_mem.mpr
    intro p hp
    have hp' := h.polled.handle p hp
    rw [hobserved] at hp'
    cases hp'
  have hnext : ∀ o, Placed o s.finished s.polls s.next := by
    intro o
    have hplaced := h.polled.placed
    rw [hobserved] at hplaced
    cases hs : s.next with
    | none =>
        rw [hs] at hplaced
        exact hplaced
    | some next =>
        rw [hs] at hplaced
        cases next with
        | racing => exact hplaced
        | ensured handle =>
            cases handle with
            | none => exact hplaced
            | some handle => cases hplaced.1
        | polling handle poll => cases hplaced.1
        | mapping handle poll value => cases hplaced.1
        | closing => exact hplaced
        | ending => exact hplaced
        | failing error => exact hplaced
  have hpolled : ∀ o, Polled o s.finished s.polls s.outcomes s.next := by
    intro o
    refine ⟨?_, h.polled.segment, h.polled.yields, hnext o⟩
    intro p hp
    rw [hpolls] at hp
    exact absurd hp List.not_mem_nil
  cases result with
  | error error =>
      refine ⟨⟨hcalls, ?_⟩, hpolled none, h.ended⟩
      rw [Iterator.start_observe]
      exact h.owns.placed.trans (by rw [hobserved]; rfl)
  | ok value =>
      rw [Iterator.start_observe]
      dsimp only
      split
      · next hfinished =>
        refine ⟨⟨hcalls, ?_⟩, hpolled (some value), h.ended⟩
        have hnone : (s.close_promise.toList ++ s.late).map Cleanup.handle = [] := hcleanups
        have hone : (s.close_promise.toList ++
            (s.late ++ [({ handle := value } : Cleanup H E)])).map Cleanup.handle = [value] := by
          rw [← List.append_assoc, List.map_append, hnone]
          rfl
        change (s.handle, _) = place (some value) s.finished
        rw [hfinished, hhandle]
        exact congrArg (Prod.mk none) hone
      · next hno =>
        have hfinished : s.finished = false := Bool.eq_false_iff.mpr hno
        refine ⟨⟨hcalls, ?_⟩, hpolled (some value), h.ended⟩
        change (some value, _) = place (some value) s.finished
        rw [hfinished]
        exact congrArg (Prod.mk (some value)) hcleanups

/-- In the loop, with a poll whose result `map` has not had. -/
theorem Inv.polled_result {s : Iterator H V W E} (h : Inv s) {handle : H} {poll : ℕ}
    (hnext : s.next = some (.polling handle poll)) {p : Poll H V W E} (hp : s.polls[poll]? = some p)
    {result : Except E (Option V)} (hresult : p.result = some result) :
    Inv (s.polled handle poll result) := by
  have hopen := h.unended hnext fun hno => hno
  have hplaced := h.polled.placed
  rw [hnext] at hplaced
  obtain ⟨hobserved, hpoll, q, hq, houtput⟩ := hplaced
  rw [hp, Option.some.injEq] at hq
  subst hq
  cases result with
  | error error => exact h.await_finish rfl fun hends => absurd hends hopen
  | ok value =>
      cases value with
      | none => exact h.await_finish rfl fun hends => absurd hends hopen
      | some value =>
          rw [Iterator.polled]
          split
          · exact h.await_finish rfl fun hends => absurd hends hopen
          · refine h.move ?_ fun hends => absurd hends hopen
            exact ⟨hobserved, hpoll, p, hp, hresult, houtput⟩

/-- A value that was mapped is yielded, and one that is none goes on. -/
theorem Inv.mapped {s : Iterator H V W E} (h : Inv s) {handle : H} {poll : ℕ} {value : V}
    (hnext : s.next = some (.mapping handle poll value)) {p : Poll H V W E}
    (hp : s.polls[poll]? = some p) (output : Except E (Option W)) :
    Inv (s.mapped handle poll p output) := by
  have hopen := h.unended hnext fun hno => hno
  have hplaced := h.polled.placed
  rw [hnext] at hplaced
  obtain ⟨hobserved, hpoll, q, hq, hresult, houtput⟩ := hplaced
  rw [hp, Option.some.injEq] at hq
  subst hq
  have hcomplete := h.polled.complete_set hp hresult houtput
  have howns : Owns { s with polls := s.polls.set poll { p with output := some output } } :=
    h.owns.congr rfl rfl rfl rfl rfl
  cases output with
  | error error =>
      have hpolled : Polled s.observed_handle true
          (s.polls.set poll { p with output := some (.error error) }) (s.outcomes ++ [])
          (some (.failing error)) := h.polled.finish.map hp houtput (.error error) rfl rfl
      refine ⟨howns.finish.congr rfl rfl rfl rfl rfl, ?_, Ended.of_open ?_⟩
      · rw [List.append_nil] at hpolled
        rw [Iterator.mapped, Iterator.await_finish]
        simp only [observed_handle, finish_start, finish_finished, finish_polls, finish_outcomes]
        exact hpolled
      · rw [Iterator.mapped, Iterator.await_finish]
        simp only [finish_outcomes]
        exact hopen
  | ok output =>
      cases output with
      | none =>
          have hpolled : Polled s.observed_handle s.finished
              (s.polls.set poll { p with output := some (.ok none) }) (s.outcomes ++ []) none :=
            h.polled.map hp houtput (.ok none) rfl fun _ => hcomplete none
          rw [List.append_nil] at hpolled
          have hinv : Inv { s with
              polls := s.polls.set poll { p with output := some (.ok none) }
              next := none } :=
            ⟨howns.congr rfl rfl rfl rfl rfl, hpolled, Ended.of_open hopen⟩
          exact hinv.loop hobserved fun _ => hcomplete none
      | some output =>
          have hpolled : Polled s.observed_handle s.finished
              (s.polls.set poll { p with output := some (.ok (some output)) })
              (s.outcomes ++ [.value output]) none :=
            h.polled.map hp houtput (.ok (some output)) rfl fun _ => hcomplete (some output)
          refine ⟨howns.congr rfl rfl rfl rfl rfl, hpolled, Ended.of_open ?_⟩
          rintro ⟨o, ho, hends⟩
          rcases List.mem_append.mp ho with ho | ho
          · exact hopen ⟨o, ho, hends⟩
          · rw [List.mem_singleton.mp ho] at hends
            cases hends

theorem Inv.consume {s : Iterator H V W E} (h : Inv s) :
    Inv { s with close_failure_consumed := true } :=
  ⟨h.owns.congr rfl rfl rfl rfl rfl, h.polled, h.ended.consume⟩

/-- An awaited `finish()` has settled: this call is done, or throws. -/
theorem Inv.finish_awaited {s s' : Iterator H V W E} (h : Inv s) {next : Next H V E}
    (hnext : s.next = some next) {result : Except E Unit} (hclosed : s.close_result = some result)
    (hstep : s.finish_awaited result next = some s') : Inv s' := by
  have hplaced := h.polled.placed
  rw [hnext] at hplaced
  cases next with
  | closing =>
      cases result with
      | ok _ =>
          cases hstep
          exact h.settle_done hplaced
      | error error =>
          rw [Iterator.finish_awaited] at hstep
          split at hstep
          · cases hstep
            exact h.settle_done hplaced
          · next hconsumed =>
            cases hstep
            refine h.await_finish rfl ?_
            intro _
            refine ⟨hclosed, ?_⟩
            -- a call that threw would have consumed the failure
            rw [List.countP_eq_zero]
            intro o ho hfailed
            rcases h.ended.reported ⟨o, ho, hfailed⟩ with hyes | hok
            · exact hconsumed hyes
            · rw [hclosed] at hok
              cases hok
  | ending =>
      have hopen := h.unended hnext fun hno => hno
      cases result with
      | ok _ =>
          cases hstep
          exact h.settle_done hplaced
      | error error =>
          cases hstep
          exact h.await_finish rfl fun hends => absurd hends hopen
  | failing error =>
      have hlate : (∃ o ∈ s.outcomes, o.ends = true) →
          s.close_result = some (.error error) ∧ s.outcomes.countP Outcome.failed = 0 := by
        intro hends
        have hlate := h.ended.late hends
        rw [hnext] at hlate
        exact hlate
      cases result with
      | ok _ =>
          cases hstep
          refine h.settle rfl hplaced (fun _ => Or.inr hclosed) ?_
          intro hends
          exact Or.inr ⟨error, rfl, hlate hends⟩
      | error error' =>
          cases hstep
          refine h.consume.settle rfl hplaced (fun _ => Or.inl rfl) ?_
          intro hends
          exact Or.inr ⟨error, rfl, hlate hends⟩
  | racing => cases hstep
  | ensured handle => cases hstep
  | polling handle poll => cases hstep
  | mapping handle poll value => cases hstep

/-- A `return` behind the close. -/
theorem Inv.return_awaited {s : Iterator H V W E} (h : Inv s) (call : ℕ)
    (result : Except E Unit) : Inv (s.return_awaited call result) := by
  have hreturns : ∀ returns, Inv { s with returns := returns } := fun returns =>
    h.congr (h.owns.congr rfl rfl rfl rfl rfl) rfl rfl rfl rfl rfl rfl rfl
  cases result with
  | ok _ => exact hreturns _
  | error error =>
      rw [Iterator.return_awaited]
      split
      · exact hreturns _
      · exact (hreturns (s.returns.set call (some (.threw error)))).consume

/-- The terminal cleanup makes a step. -/
theorem Inv.close_step {s : Iterator H V W E} (h : Inv s) {c c' : Cleanup H E}
    (hc : s.close_promise = some c) (hhandle : c'.handle = c.handle)
    (hunsettled : ∀ result, c.phase ≠ .settled result) :
    Inv { s with close_promise := some c' } := by
  refine ⟨h.owns.congr rfl rfl rfl rfl ?_, h.polled, ?_⟩
  · simp only [cleanups, hc, Option.toList_some, List.map_append, List.map_cons, hhandle]
  -- the result is settled by this step at the earliest
  · have hended := h.ended
    have hnone : s.close_result = none := by
      rw [close_result, hc]
      cases hphase : c.phase with
      | queued => simp only [hphase]
      | called => simp only [hphase]
      | settled result => exact absurd hphase (hunsettled result)
    rw [hnone] at hended
    exact hended.close

theorem map_handle_set {l : List (Cleanup H E)} {i : ℕ} {c c' : Cleanup H E} (hc : l[i]? = some c)
    (hhandle : c'.handle = c.handle) :
    (l.set i c').map Cleanup.handle = l.map Cleanup.handle := by
  obtain ⟨l₁, l₂, hsplit, -, hset⟩ := set_split hc
  rw [hset, hsplit, List.map_append, List.map_append, List.map_cons, List.map_cons, hhandle]

/-- A close that comes late goes on by itself. -/
theorem Inv.late_step {s : Iterator H V W E} (h : Inv s) {i : ℕ} {c c' : Cleanup H E}
    (hc : s.late[i]? = some c) (hhandle : c'.handle = c.handle) :
    Inv { s with late := s.late.set i c' } := by
  refine h.congr (h.owns.congr rfl rfl rfl rfl ?_) rfl rfl rfl rfl rfl rfl rfl
  simp only [cleanups, List.map_append, map_handle_set hc hhandle]

theorem cleanup_call {c c' : Cleanup H E} (h : c.call = some c') :
    c'.handle = c.handle ∧ c.phase = .queued ∧ c'.phase = .called := by
  rw [Cleanup.call] at h
  split at h
  · next hphase =>
    cases h
    exact ⟨rfl, hphase, rfl⟩
  · cases h

theorem cleanup_settle {c c' : Cleanup H E} {result : Except E Unit}
    (h : c.settle result = some c') : c'.handle = c.handle ∧ c.phase = .called := by
  rw [Cleanup.settle] at h
  split at h
  · next hphase =>
    cases h
    exact ⟨rfl, hphase⟩
  · cases h

/-- **One step** keeps the invariant. -/
theorem inv_step {s : Iterator H V W E} {a : Label H V W E} {s' : Iterator H V W E} (h : Inv s)
    (hstep : s.step a = some s') : Inv s' := by
  cases a with
  | next =>
      cases hstep
      exact h.congr (h.owns.congr rfl rfl rfl rfl rfl) rfl rfl rfl rfl rfl rfl rfl
  | return_ =>
      cases hstep
      have hf := h.finish
      exact hf.congr (hf.owns.congr rfl rfl rfl rfl rfl) rfl rfl rfl rfl rfl rfl rfl
  | abort =>
      simp only [step] at hstep
      split at hstep
      · cases hstep
        exact h.congr (h.owns.congr rfl rfl rfl rfl rfl) rfl rfl rfl rfl rfl rfl rfl
      · cases hstep
  | on_abort =>
      simp only [step] at hstep
      split at hstep
      · cases hstep
        exact h.finish
      · cases hstep
  | begin_next =>
      simp only [step] at hstep
      split at hstep
      · next waiting hnext _ =>
        cases hstep
        have hw : Inv { s with waiting := waiting } :=
          h.congr (h.owns.congr rfl rfl rfl rfl rfl) rfl rfl rfl rfl rfl rfl rfl
        exact hw.ensure_handle hnext
      · cases hstep
  | start_call =>
      simp only [step] at hstep
      split at hstep
      · next hstart =>
        cases hstep
        have hobserved : s.observed_handle = none := by
          rw [observed_handle, hstart]
        have hcalls := h.owns.calls
        rw [hstart] at hcalls
        refine h.congr ⟨congrArg (· + 1) hcalls, ?_⟩ hobserved.symm rfl rfl rfl rfl rfl rfl
        exact h.owns.placed.trans (by rw [hobserved]; rfl)
      · cases hstep
  | start_settle result =>
      simp only [step] at hstep
      split at hstep
      · next hstart =>
        cases hstep
        have hobserved : s.observed_handle = none := by
          rw [observed_handle, hstart]
        have hcalls := h.owns.calls
        rw [hstart] at hcalls
        refine h.congr ⟨hcalls, ?_⟩ hobserved.symm rfl rfl rfl rfl rfl rfl
        exact h.owns.placed.trans (by rw [hobserved]; rfl)
      · cases hstep
  | start_observe =>
      simp only [step] at hstep
      split at hstep
      · next result hstart =>
        cases hstep
        exact h.start_observe hstart
      · cases hstep
  | race_start =>
      simp only [step] at hstep
      split at hstep
      · next value hnext hstart =>
        have hopen := h.unended hnext fun hno => hno
        have hobserved : s.observed_handle = some value := by
          rw [observed_handle, hstart]
        have hplaced := h.polled.placed
        rw [hnext] at hplaced
        split at hstep
        · next hfinished =>
          cases hstep
          exact h.move hfinished fun hends => absurd hends hopen
        · next hno =>
          cases hstep
          have hfinished : s.finished = false := Bool.eq_false_iff.mpr hno
          -- the first reaction has stored this handle already
          have hhandle : s.handle = some value := by
            have howns := h.owns.placed
            rw [hobserved, hfinished] at howns
            exact congrArg Prod.fst howns
          have hsame : ({ s with handle := some value } : Iterator H V W E) = s := by
            rw [← hhandle]
          have hmove : Inv { s with next := some (.ensured (some value)) } :=
            h.move ⟨hobserved, hplaced⟩ fun hends => absurd hends hopen
          rw [← hsame] at hmove
          exact hmove
      · next error hnext hstart =>
        cases hstep
        have hopen := h.unended hnext fun hno => hno
        exact h.await_finish rfl fun hends => absurd hends hopen
      · cases hstep
  | race_finished =>
      simp only [step] at hstep
      split at hstep
      · next hfinished =>
        split at hstep
        · next hnext =>
          cases hstep
          exact h.move hfinished fun _ => trivial
        · next handle poll hnext =>
          cases hstep
          have hopen := h.unended hnext fun hno => hno
          exact h.await_finish rfl fun hends => absurd hends hopen
        · cases hstep
      · cases hstep
  | proceed =>
      simp only [step] at hstep
      split at hstep
      · cases hstep
        exact h.await_finish rfl fun _ => trivial
      · next handle hnext =>
        cases hstep
        have hplaced := h.polled.placed
        rw [hnext] at hplaced
        exact h.loop hplaced.1 hplaced.2
      · cases hstep
  | poll_settle poll result =>
      simp only [step, Option.bind_eq_some_iff] at hstep
      obtain ⟨p, hp, hstep⟩ := hstep
      split at hstep
      · next hno =>
        cases hstep
        refine ⟨h.owns.congr rfl rfl rfl rfl rfl, ?_, h.ended⟩
        exact h.polled.poll_settle hp (Option.isNone_iff_eq_none.mp hno) result
      · cases hstep
  | race_poll =>
      simp only [step] at hstep
      split at hstep
      · next handle poll hnext =>
        rw [Option.bind_eq_some_iff] at hstep
        obtain ⟨p, hp, hstep⟩ := hstep
        rw [Option.map_eq_some_iff] at hstep
        obtain ⟨result, hresult, rfl⟩ := hstep
        exact h.polled_result hnext hp hresult
      · cases hstep
  | map output =>
      simp only [step] at hstep
      split at hstep
      · next handle poll value hnext =>
        rw [Option.map_eq_some_iff] at hstep
        obtain ⟨p, hp, rfl⟩ := hstep
        exact h.mapped hnext hp output
      · cases hstep
  | finish_awaited =>
      simp only [step, Option.bind_eq_some_iff] at hstep
      obtain ⟨result, hclosed, next, hnext, hstep⟩ := hstep
      exact h.finish_awaited hnext hclosed hstep
  | return_awaited call =>
      simp only [step] at hstep
      split at hstep
      · rw [Option.map_eq_some_iff] at hstep
        obtain ⟨result, -, rfl⟩ := hstep
        exact h.return_awaited call result
      · cases hstep
  | close_call =>
      simp only [step, Option.map_eq_some_iff, Option.bind_eq_some_iff] at hstep
      obtain ⟨c', ⟨c, hc, hcall⟩, rfl⟩ := hstep
      obtain ⟨hhandle, hphase, -⟩ := cleanup_call hcall
      apply h.close_step hc hhandle
      intro result hno
      rw [hphase] at hno
      cases hno
  | close_settle result =>
      simp only [step, Option.map_eq_some_iff, Option.bind_eq_some_iff] at hstep
      obtain ⟨c', ⟨c, hc, hsettle⟩, rfl⟩ := hstep
      obtain ⟨hhandle, hphase⟩ := cleanup_settle hsettle
      apply h.close_step hc hhandle
      intro result hno
      rw [hphase] at hno
      cases hno
  | late_call cleanup =>
      simp only [step, Option.map_eq_some_iff, Option.bind_eq_some_iff] at hstep
      obtain ⟨c', ⟨c, hc, hcall⟩, rfl⟩ := hstep
      exact h.late_step hc (cleanup_call hcall).1
  | late_settle cleanup result =>
      simp only [step, Option.map_eq_some_iff, Option.bind_eq_some_iff] at hstep
      obtain ⟨c', ⟨c, hc, hsettle⟩, rfl⟩ := hstep
      exact h.late_step hc (cleanup_settle hsettle).1

/-! ## The lifecycle -/

/-- What `start` has resolved with. -/
def produced (s : Iterator H V W E) : Option H :=
  match s.start with
  | .settled (.ok value) => some value
  | .observed (.ok value) => some value
  | _ => none

/-- The calls of `close`. -/
def close_calls (s : Iterator H V W E) : List H :=
  (s.cleanups.filter fun c => match c.phase with
    | .queued => false
    | _ => true).map Cleanup.handle

/-- What the runtime runs by itself: the first reaction, and the calls of `close`. -/
def is_job : Label H V W E → Bool
  | .start_observe => true
  | .close_call => true
  | .late_call _ => true
  | _ => false

/-- Nothing is left to happen by itself. -/
def no_jobs (s : Iterator H V W E) : Prop := ∀ a, is_job a = true → s.step a = none

/-- The lifecycle of one iterator, in each state of a run. -/
structure Lifecycle (s : Iterator H V W E) : Prop where
  start_once : s.start_calls ≤ 1
  one_poll : s.polls.countP (fun p => p.result.isNone) ≤ 1
  poll_handle : ∀ p ∈ s.polls, s.produced = some p.handle
  closed : ∀ value ∈ s.close_calls, s.finished = true ∧ s.produced = some value
  closed_once : s.close_calls.length ≤ 1
  retired : s.finished = true → s.no_jobs → s.close_calls = s.produced.toList
  yields : s.outcomes.filterMap Outcome.yielded = s.polls.filterMap Poll.yielded
  segment : ∀ (i : ℕ) (p : Poll H V W E), s.polls[i]? = some p → i + 1 < s.polls.length → p.complete
  sticky : Sticky s.close_result s.outcomes

theorem produced_of_observed {s : Iterator H V W E} {value : H}
    (h : s.observed_handle = some value) : s.produced = some value := by
  rw [observed_handle] at h
  split at h
  · next hstart =>
    cases h
    rw [produced, hstart]
  · cases h

/-- Closes are called for what was asked for. -/
theorem close_calls_sublist (s : Iterator H V W E) :
    s.close_calls.Sublist (s.cleanups.map Cleanup.handle) := List.filter_sublist.map _

/-- A handle is closed because the iterator has finished, and once. -/
theorem Owns.cleanups {s : Iterator H V W E} (h : Owns s) :
    s.cleanups.map Cleanup.handle = [] ∨ s.finished = true ∧
      ∃ value, s.observed_handle = some value ∧ s.cleanups.map Cleanup.handle = [value] := by
  have hplaced := h.placed
  cases hobserved : s.observed_handle with
  | none =>
      rw [hobserved, place, Prod.mk.injEq] at hplaced
      exact Or.inl hplaced.2
  | some value =>
      cases hfinished : s.finished with
      | false =>
          rw [hobserved, hfinished, place, Prod.mk.injEq] at hplaced
          exact Or.inl hplaced.2
      | true =>
          rw [hobserved, hfinished, place, Prod.mk.injEq] at hplaced
          exact Or.inr ⟨rfl, value, rfl, hplaced.2⟩

/-- At rest every close was called. -/
theorem no_jobs_cleanups {s : Iterator H V W E} (h : s.no_jobs) :
    s.close_calls = s.cleanups.map Cleanup.handle := by
  rw [close_calls, List.filter_eq_self.mpr]
  intro c hc
  cases hphase : c.phase with
  | queued =>
      -- its call is still to come, and would be a job
      have hcall : c.call = some { c with phase := .called } := by
        rw [Cleanup.call, hphase]
      rcases List.mem_append.mp hc with hc | hc
      · have hjob := h .close_call rfl
        rw [Option.mem_toList] at hc
        simp only [step, hc, Option.bind_some, hcall, Option.map_some] at hjob
        cases hjob
      · obtain ⟨i, hi⟩ := List.mem_iff_getElem?.mp hc
        have hjob := h (.late_call i) rfl
        simp only [step, hi, Option.bind_some, hcall, Option.map_some] at hjob
        cases hjob
  | called => rfl
  | settled result => rfl

/-- At rest what was produced was observed. -/
theorem no_jobs_produced {s : Iterator H V W E} (h : s.no_jobs) :
    s.produced = s.observed_handle := by
  have hjob := h .start_observe rfl
  rw [produced, observed_handle]
  cases hstart : s.start with
  | idle => rfl
  | queued => rfl
  | called => rfl
  | settled result =>
      simp only [step, hstart] at hjob
      cases hjob
  | observed result =>
      cases result with
      | error error => rfl
      | ok value => rfl

/-- **The lifecycle of the handle** follows from the invariant. -/
theorem Inv.lifecycle {s : Iterator H V W E} (h : Inv s) : Lifecycle s where
  start_once := by
    rw [h.owns.calls]
    split
    · exact Nat.zero_le 1
    · exact Nat.zero_le 1
    · exact Nat.le_refl 1
  one_poll := one_in_flight h.polled
  poll_handle p hp := produced_of_observed (h.polled.handle p hp)
  closed value hvalue := by
    have hmem := (close_calls_sublist s).subset hvalue
    rcases h.owns.cleanups with hnil | ⟨hfinished, value', hobserved, hone⟩
    · rw [hnil] at hmem
      exact absurd hmem List.not_mem_nil
    · rw [hone, List.mem_singleton] at hmem
      rw [hmem]
      exact ⟨hfinished, produced_of_observed hobserved⟩
  closed_once := by
    apply Nat.le_trans (close_calls_sublist s).length_le
    rcases h.owns.cleanups with hnil | ⟨-, value, -, hone⟩
    · rw [hnil]
      exact Nat.zero_le 1
    · rw [hone]
      exact Nat.le_refl 1
  retired hfinished hjobs := by
    have hplaced := h.owns.placed
    rw [no_jobs_cleanups hjobs, no_jobs_produced hjobs]
    rw [hfinished] at hplaced
    cases hobserved : s.observed_handle with
    | none =>
        rw [hobserved] at hplaced
        exact congrArg Prod.snd hplaced
    | some value =>
        rw [hobserved] at hplaced
        exact congrArg Prod.snd hplaced
  yields := h.polled.yields
  segment := h.polled.segment
  sticky := h.ended.sticky

@[simp] theorem await_finish_finished (s : Iterator H V W E) (next : Next H V E) :
    (s.await_finish next).finished = true := finish_finished s

@[simp] theorem await_finish_polls (s : Iterator H V W E) (next : Next H V E) :
    (s.await_finish next).polls = s.polls := finish_polls s

@[simp] theorem settle_finished (s : Iterator H V W E) (o : Outcome W E) :
    (s.settle o).finished = s.finished := rfl

@[simp] theorem settle_polls (s : Iterator H V W E) (o : Outcome W E) :
    (s.settle o).polls = s.polls := rfl

/-- The loop ends a call of a finished iterator. -/
theorem loop_of_finished {s : Iterator H V W E} (hfinished : s.finished = true) (handle : H) :
    s.loop handle = s.settle .done := by
  rw [loop, if_pos hfinished]

theorem mapped_of_finished {s : Iterator H V W E} (hfinished : s.finished = true) (handle : H)
    (poll : ℕ) (p : Poll H V W E) (output : Except E (Option W)) :
    (s.mapped handle poll p output).finished = true ∧
      (s.mapped handle poll p output).polls.length = s.polls.length := by
  cases output with
  | error error => simp [mapped]
  | ok output =>
      cases output with
      | none =>
          rw [mapped, loop, if_pos hfinished]
          exact ⟨hfinished, List.length_set⟩
      | some output => simp [mapped, hfinished]

theorem finish_awaited_of_finished {s s' : Iterator H V W E} (hfinished : s.finished = true)
    {result : Except E Unit} {next : Next H V E} (hstep : s.finish_awaited result next = some s') :
    s'.finished = true ∧ s'.polls = s.polls := by
  cases next with
  | closing =>
      cases result with
      | ok _ =>
          cases hstep
          exact ⟨hfinished, rfl⟩
      | error error =>
          rw [finish_awaited] at hstep
          split at hstep
          · cases hstep
            exact ⟨hfinished, rfl⟩
          · cases hstep
            exact ⟨await_finish_finished s _, await_finish_polls s _⟩
  | ending =>
      cases result with
      | ok _ =>
          cases hstep
          exact ⟨hfinished, rfl⟩
      | error error =>
          cases hstep
          exact ⟨await_finish_finished s _, await_finish_polls s _⟩
  | failing error =>
      cases result with
      | ok _ =>
          cases hstep
          exact ⟨hfinished, rfl⟩
      | error error' =>
          cases hstep
          exact ⟨hfinished, rfl⟩
  | racing => cases hstep
  | ensured handle => cases hstep
  | polling handle poll => cases hstep
  | mapping handle poll value => cases hstep

/-- An iterator that has finished stays finished, and polls no more. -/
theorem step_of_finished {s : Iterator H V W E} {a : Label H V W E} {s' : Iterator H V W E}
    (hstep : s.step a = some s') (hfinished : s.finished = true) :
    s'.finished = true ∧ s'.polls.length = s.polls.length := by
  -- the only steps that touch `finished` or the polls ask for `finished` first
  cases a with
  | next =>
      cases hstep
      exact ⟨hfinished, rfl⟩
  | return_ =>
      cases hstep
      exact ⟨finish_finished s, congrArg List.length (finish_polls s)⟩
  | abort =>
      simp only [step] at hstep
      split at hstep
      · cases hstep
        exact ⟨hfinished, rfl⟩
      · cases hstep
  | on_abort =>
      simp only [step] at hstep
      split at hstep
      · cases hstep
        exact ⟨finish_finished s, congrArg List.length (finish_polls s)⟩
      · cases hstep
  | begin_next =>
      simp only [step] at hstep
      split at hstep
      · cases hstep
        rw [ensure_handle, if_pos hfinished]
        exact ⟨hfinished, rfl⟩
      · cases hstep
  | start_call =>
      simp only [step] at hstep
      split at hstep
      · cases hstep
        exact ⟨hfinished, rfl⟩
      · cases hstep
  | start_settle result =>
      simp only [step] at hstep
      split at hstep
      · cases hstep
        exact ⟨hfinished, rfl⟩
      · cases hstep
  | start_observe =>
      simp only [step] at hstep
      split at hstep
      · next result _ =>
        cases hstep
        cases result with
        | error error => exact ⟨hfinished, rfl⟩
        | ok value =>
            rw [start_observe, if_pos hfinished]
            exact ⟨hfinished, rfl⟩
      · cases hstep
  | race_start =>
      simp only [step, hfinished, if_true] at hstep
      split at hstep
      · cases hstep
        exact ⟨rfl, rfl⟩
      · cases hstep
        exact ⟨await_finish_finished s _, congrArg List.length (await_finish_polls s _)⟩
      · cases hstep
  | race_finished =>
      simp only [step, hfinished, if_true] at hstep
      split at hstep
      · cases hstep
        exact ⟨rfl, rfl⟩
      · cases hstep
        exact ⟨await_finish_finished s _, congrArg List.length (await_finish_polls s _)⟩
      · cases hstep
  | proceed =>
      simp only [step] at hstep
      split at hstep
      · cases hstep
        exact ⟨await_finish_finished s _, congrArg List.length (await_finish_polls s _)⟩
      · cases hstep
        rw [loop_of_finished hfinished]
        exact ⟨hfinished, rfl⟩
      · cases hstep
  | poll_settle poll result =>
      simp only [step, Option.bind_eq_some_iff] at hstep
      obtain ⟨p, hp, hstep⟩ := hstep
      split at hstep
      · cases hstep
        exact ⟨hfinished, List.length_set⟩
      · cases hstep
  | race_poll =>
      simp only [step] at hstep
      split at hstep
      · next handle poll _ =>
        rw [Option.bind_eq_some_iff] at hstep
        obtain ⟨p, hp, hstep⟩ := hstep
        rw [Option.map_eq_some_iff] at hstep
        obtain ⟨result, hresult, rfl⟩ := hstep
        cases result with
        | error error =>
            exact ⟨await_finish_finished s _, congrArg List.length (await_finish_polls s _)⟩
        | ok value =>
            cases value with
            | none =>
                exact ⟨await_finish_finished s _, congrArg List.length (await_finish_polls s _)⟩
            | some value =>
                rw [polled, if_pos hfinished]
                exact ⟨await_finish_finished s _, congrArg List.length (await_finish_polls s _)⟩
      · cases hstep
  | map output =>
      simp only [step] at hstep
      split at hstep
      · rw [Option.map_eq_some_iff] at hstep
        obtain ⟨p, hp, rfl⟩ := hstep
        exact mapped_of_finished hfinished _ _ p output
      · cases hstep
  | finish_awaited =>
      simp only [step, Option.bind_eq_some_iff] at hstep
      obtain ⟨result, hclosed, next, hnext, hstep⟩ := hstep
      have h := finish_awaited_of_finished hfinished hstep
      exact ⟨h.1, congrArg List.length h.2⟩
  | return_awaited call =>
      simp only [step] at hstep
      split at hstep
      · rw [Option.map_eq_some_iff] at hstep
        obtain ⟨result, -, rfl⟩ := hstep
        cases result with
        | ok _ => exact ⟨hfinished, rfl⟩
        | error error =>
            rw [return_awaited]
            split
            · exact ⟨hfinished, rfl⟩
            · exact ⟨hfinished, rfl⟩
      · cases hstep
  | close_call =>
      simp only [step, Option.map_eq_some_iff] at hstep
      obtain ⟨c, -, rfl⟩ := hstep
      exact ⟨hfinished, rfl⟩
  | close_settle result =>
      simp only [step, Option.map_eq_some_iff] at hstep
      obtain ⟨c, -, rfl⟩ := hstep
      exact ⟨hfinished, rfl⟩
  | late_call cleanup =>
      simp only [step, Option.map_eq_some_iff] at hstep
      obtain ⟨c, -, rfl⟩ := hstep
      exact ⟨hfinished, rfl⟩
  | late_settle cleanup result =>
      simp only [step, Option.map_eq_some_iff] at hstep
      obtain ⟨c, -, rfl⟩ := hstep
      exact ⟨hfinished, rfl⟩

/-- For any schedule of `next`, `return`, abort and the callbacks' results. -/
theorem discovery_iterator_lifecycle (signal aborted : Bool) (l : List (Label H V W E))
    (s : Iterator H V W E) (hrun : run step { signal, aborted } l = some s) :
    Lifecycle s ∧ ∀ a s', s.step a = some s' → s.finished = true →
      s'.finished = true ∧ s'.polls.length = s.polls.length := by
  have h : Inv s := run_invariant (fun _ _ _ h hs => inv_step h hs) (inv_start signal aborted) hrun
  exact ⟨h.lifecycle, fun _ _ hstep hfinished => step_of_finished hstep hfinished⟩

/-- A value is yielded; `return` comes while the next poll is in flight, and closing fails. -/
theorem discovery_iterator_lifecycle_returned :
    ∃ s : Iterator ℕ ℕ String String, run step { signal := false, aborted := false }
        [.next, .next, .begin_next, .start_call, .start_settle (.ok 7), .start_observe, .race_start,
          .proceed, .poll_settle 0 (.ok (some 5)), .race_poll, .map (.ok (some "5")), .begin_next,
          .proceed, .return_, .race_finished, .close_call, .close_settle (.error "native"),
          .finish_awaited, .finish_awaited, .return_awaited 0] = some s ∧
      s.outcomes = [.value "5", .threw "native"] ∧ s.returns = [some .done] ∧
      s.close_calls = [7] ∧ Lifecycle s := by
  obtain ⟨s, hrun, houtcomes, hreturns, hcalls⟩ : ∃ s : Iterator ℕ ℕ String String,
      run step { signal := false, aborted := false }
        [.next, .next, .begin_next, .start_call, .start_settle (.ok 7), .start_observe, .race_start,
          .proceed, .poll_settle 0 (.ok (some 5)), .race_poll, .map (.ok (some "5")), .begin_next,
          .proceed, .return_, .race_finished, .close_call, .close_settle (.error "native"),
          .finish_awaited, .finish_awaited, .return_awaited 0] = some s ∧
      s.outcomes = [.value "5", .threw "native"] ∧ s.returns = [some .done] ∧ s.close_calls = [7] :=
    ⟨_, rfl, rfl, rfl, rfl⟩
  exact ⟨s, hrun, houtcomes, hreturns, hcalls,
    (discovery_iterator_lifecycle false false _ s hrun).1⟩

end Iterator

end IrohHttp.DiscoveryIterator
