/-
`mobile_discovery_transport.rs`: the tasks that own a native browse and a native
advertisement.

A handle sends commands to its task through an unbounded channel, each `next` or
`update` with a oneshot channel for the reply. The browse task answers a `next` from its
buffer, or polls native until there is a record, waiting up to 250 ms between two polls
for a command of its own: `Close` ends it there, and a second `next` is refused at once,
since calls must be serialized. Every error ends the task, after it has stopped the
native session; only a session that native reports as closed is not stopped.

Steps are the actions of the handle, of the futures it has returned, and the task's
runs from one await to the next. Nothing else of the task can be seen in between: it
shares only the channel and the outcome cell.

What a record is converted to does not matter here, so `convert` stands for
`raw_event_from_mobile` as any function.
-/
import IrohHttp.Machine
import IrohHttp.Parties
import Mathlib.Data.List.Pairwise

set_option autoImplicit false

namespace IrohHttp.NativeActors

/-! ## Shared parts -/

/-- `CloseOutcome`. `sets` counts how often the cell was written. -/
structure CloseOutcome where
  result : Option (Except String Unit) := none
  sets : ℕ := 0

/-- The close is completed once; the count says how often it was set. -/
def CloseOutcome.complete (c : CloseOutcome) (result : Except String Unit) : CloseOutcome :=
  if c.result.isNone then ⟨some result, c.sets + 1⟩ else c

/-- A call of `next` or `update`: what the task has sent it, what its future returned,
and whether the future was dropped before it did. -/
structure CallState (R : Type) where
  answer : Option R := none
  returned : Option R := none
  dropped : Bool := false

/-- The future takes the reply, or `lost` if the task has ended without one. -/
def CallState.take {R : Type} (c : CallState R) (ended : Bool) (lost : R) : Option (CallState R) :=
  if c.dropped || c.returned.isSome then none
  else
    match c.answer with
    | some reply => some { c with returned := some reply }
    | none => if ended then some { c with returned := some lost } else none

/-- A caller that goes away before its answer. -/
def CallState.drop {R : Type} (c : CallState R) : Option (CallState R) :=
  if c.dropped || c.returned.isSome then none else some { c with dropped := true }

/-- What a poll says of the session. -/
inductive MobileSessionStatus
  | Active
  | Closed
  | Failed
  deriving DecidableEq

/-- The response to a poll. -/
structure DnsSdBrowsePollResponse (Record : Type) where
  status : MobileSessionStatus
  records : List Record
  error : Option String

/-! ## The browse task -/

section Browse

variable {Record Event : Type}

/-- What a call of `next` is told. -/
abbrev BrowseReply (Event : Type) := Except String (Option Event)

/-- What the handle sends to the actor. -/
inductive BrowseCommand
  | Next (call : ℕ)
  | Close
  deriving DecidableEq

/-- Where the browse task awaits: the next command, a poll, the command or timeout
between two polls, or the native stop, after which it may have an error to send. -/
inductive BrowseActor
  | receiving
  | polling (call : ℕ)
  | waiting (call : ℕ)
  | stopping (last : Option (ℕ × String))
  | ended
  deriving DecidableEq

/-- A handle and its task. What follows `closed` is a record: the native calls begun and
done, the events that polls have yielded and those handed to calls, whether the task has
taken the end as given (a `Close`, or no sender left when it looked for a command), and
the polls begun after that. -/
structure Browse (Event : Type) where
  alive : Bool := true
  closing : Bool := false
  queue : List BrowseCommand := []
  calls : List (CallState (BrowseReply Event)) := []
  actor : BrowseActor := .receiving
  buffered : List Event := []
  closed : CloseOutcome := {}
  stops : ℕ := 0
  stop_completed : Bool := false
  native_closed : Bool := false
  converted : List Event := []
  handed : List (ℕ × Event) := []
  told : Bool := false
  late : ℕ := 0

/-- What can happen to a browse: calls of the handle, callers that take their answer or go, and the
actor's turns. -/
inductive BrowseLabel (Record : Type)
  | next
  | request_close
  | drop_handle
  | take (call : ℕ)
  | drop_call (call : ℕ)
  | receive
  | polled (result : Except String (DnsSdBrowsePollResponse Record))
  | wake
  | stopped (result : Except String Unit)

/-- The events of a batch up to the first record that is refused, and its error. -/
def convert_records (convert : Record → Except String Event) :
    List Record → List Event × Option String
  | [] => ([], none)
  | record :: records =>
    match convert record with
    | .ok event =>
      let rest := convert_records convert records
      (event :: rest.1, rest.2)
    | .error error => ([], some error)

namespace Browse

/-- Whether the actor has returned. -/
def is_ended (b : Browse Event) : Bool :=
  match b.actor with
  | .ended => true
  | _ => false

/-- `reply.send`. A future that is gone does not take it. -/
def reply (b : Browse Event) (call : ℕ) (r : BrowseReply Event) : Browse Event :=
  { b with
    calls := b.calls.modify call fun c => { c with answer := some r }
    handed := b.handed ++
      match r with
      | .ok (some event) => [(call, event)]
      | _ => [] }

/-- The actor polls the native session for a call. -/
def poll (b : Browse Event) (call : ℕ) : Browse Event :=
  { b with actor := .polling call, late := if b.told then b.late + 1 else b.late }

/-- `close_native_browse`, up to its await. -/
def close_native (b : Browse Event) (last : Option (ℕ × String)) : Browse Event :=
  { b with actor := .stopping last, stops := b.stops + 1 }

/-- `next`: a command for the actor, or the end when it has returned. -/
def next (b : Browse Event) : Browse Event :=
  if b.closing || b.is_ended then { b with calls := b.calls ++ [{ returned := some (.ok none) }] }
  else { b with calls := b.calls ++ [{}], queue := b.queue ++ [.Next b.calls.length] }

/-- `request_close`, once. -/
def request_close (b : Browse Event) : Browse Event :=
  if b.closing then b
  else if b.is_ended then { b with closing := true, closed := b.closed.complete (.ok ()) }
  else { b with closing := true, queue := b.queue ++ [.Close] }

/-- `commands.recv` in the outer loop. -/
def receive (b : Browse Event) : Option (Browse Event) :=
  match b.queue with
  | .Next call :: rest =>
    match b.buffered with
    | event :: events =>
      some ({ b with queue := rest, buffered := events }.reply call (.ok (some event)))
    | [] => some ({ b with queue := rest }.poll call)
  | .Close :: rest => some ({ b with queue := rest, told := true }.close_native none)
  | [] => if b.alive then none else some ({ b with told := true }.close_native none)

/-- The end of a poll for `call`. A task that ends drops what is in its channel. -/
def polled (convert : Record → Except String Event) (b : Browse Event) (call : ℕ) :
    Except String (DnsSdBrowsePollResponse Record) → Browse Event
  | .error error => b.close_native (some (call, error))
  | .ok batch =>
    match batch.status with
    | .Active =>
      let r := convert_records convert batch.records
      let b := { b with buffered := b.buffered ++ r.1, converted := b.converted ++ r.1 }
      match r.2, b.buffered with
      | some error, _ => b.close_native (some (call, error))
      | none, event :: events =>
        { b with buffered := events, actor := .receiving }.reply call (.ok (some event))
      | none, [] => { b with actor := .waiting call }
    | .Closed =>
      let b := b.reply call (.ok none)
      { b with
        closed := b.closed.complete (.ok ()), native_closed := true, actor := .ended, queue := [] }
    | .Failed =>
      b.close_native (some (call, batch.error.getD "native browse failed"))

/-- The end of the wait between two polls. With no command there is the next poll,
whether the time is up or the channel has no sender left. -/
def wake (b : Browse Event) (call : ℕ) : Browse Event :=
  match b.queue with
  | .Close :: rest => ({ b with queue := rest, told := true }.reply call (.ok none)).close_native none
  | .Next concurrent :: rest =>
    ({ b with queue := rest }.reply concurrent
      (.error "native browse next calls must be serialized")).poll call
  | [] => b.poll call

/-- The end of the native stop. -/
def stopped (b : Browse Event) (last : Option (ℕ × String))
    (result : Except String Unit) : Browse Event :=
  let b := { b with
    closed := b.closed.complete result, stop_completed := true, actor := .ended, queue := [] }
  match last with
  | some (call, error) => b.reply call (.error error)
  | none => b

/-- A call goes on. -/
def set_call (b : Browse Event) (call : ℕ) (c : CallState (BrowseReply Event)) : Browse Event :=
  { b with calls := b.calls.set call c }

/-- One step of a browse, `none` where the label is not enabled. -/
def step (convert : Record → Except String Event) (b : Browse Event) :
    BrowseLabel Record → Option (Browse Event)
  | .next => if b.alive then some b.next else none
  | .request_close => if b.alive then some b.request_close else none
  | .drop_handle => if b.alive then some { b with alive := false } else none
  | .take call => (b.calls[call]?).bind fun c => (c.take b.is_ended (.ok none)).map (b.set_call call)
  | .drop_call call => (b.calls[call]?).bind fun c => c.drop.map (b.set_call call)
  | .receive =>
    match b.actor with
    | .receiving => b.receive
    | _ => none
  | .polled result =>
    match b.actor with
    | .polling call => some (b.polled convert call result)
    | _ => none
  | .wake =>
    match b.actor with
    | .waiting call => some (b.wake call)
    | _ => none
  | .stopped result =>
    match b.actor with
    | .stopping last => some (b.stopped last result)
    | _ => none

end Browse

/-! ### Who was given what -/

/-- The calls a task has still to answer, in their order, come after those that were
given an event and have no answer, and an event was given to the call whose answer it
is. -/
structure Ledger (calls : List (CallState (BrowseReply Event))) (handed : List (ℕ × Event))
    (pending : List ℕ) : Prop where
  order : (handed.map Prod.fst ++ pending).Pairwise (· < ·)
  bound : ∀ i ∈ handed.map Prod.fst ++ pending, i < calls.length
  answers : ∀ i c e, calls[i]? = some c → (c.answer = some (.ok (some e)) ↔ (i, e) ∈ handed)
  waiting : ∀ i ∈ pending, ∀ c, calls[i]? = some c → c.answer = none ∧ c.returned = none

/-- Calls that are answered wait no more. -/
theorem Ledger.sublist {calls : List (CallState (BrowseReply Event))} {handed : List (ℕ × Event)}
    {pending rest : List ℕ} (h : Ledger calls handed pending) (hsub : rest.Sublist pending) :
    Ledger calls handed rest where
  order := h.order.sublist (hsub.append_left _)
  bound i hi := h.bound i ((hsub.append_left _).subset hi)
  answers := h.answers
  waiting i hi := h.waiting i (hsub.subset hi)

/-- A call that is still to be answered was given nothing. -/
theorem Ledger.not_handed {calls : List (CallState (BrowseReply Event))}
    {handed : List (ℕ × Event)} {pending : List ℕ} (h : Ledger calls handed pending) {call : ℕ}
    (hc : call ∈ pending) (e : Event) : (call, e) ∉ handed := by
  intro hmem
  have hlt := (List.pairwise_append.mp h.order).2.2 call (List.mem_map.mpr ⟨_, hmem, rfl⟩) call hc
  exact Nat.lt_irrefl _ hlt

/-- A call changes, but not its answer, and returns nothing while it waits for one. -/
theorem Ledger.set {calls : List (CallState (BrowseReply Event))} {handed : List (ℕ × Event)}
    {pending : List ℕ} (h : Ledger calls handed pending) {call : ℕ}
    {c c' : CallState (BrowseReply Event)} (hc : calls[call]? = some c)
    (hsame : c'.answer = c.answer)
    (hwait : call ∈ pending → c.answer = none → c.returned = none → c'.returned = none) :
    Ledger (calls.set call c') handed pending where
  order := h.order
  bound i hi := by
    rw [List.length_set]
    exact h.bound i hi
  answers i d e hi := by
    rcases Parties.getElem?_set_cases hi with ⟨rfl, rfl⟩ | ⟨-, hi⟩
    · rw [hsame]
      exact h.answers i c e hc
    · exact h.answers i d e hi
  waiting i hi d hd := by
    rcases Parties.getElem?_set_cases hd with ⟨rfl, rfl⟩ | ⟨-, hd⟩
    · obtain ⟨hans, hret⟩ := h.waiting i hi c hc
      rw [hsame]
      exact ⟨hans, hwait hi hans hret⟩
    · exact h.waiting i hi d hd

/-- A new call has no answer yet; it waits for one, unless it was refused. -/
theorem Ledger.add {calls : List (CallState (BrowseReply Event))} {handed : List (ℕ × Event)}
    {pending new : List ℕ} (h : Ledger calls handed pending) {c : CallState (BrowseReply Event)}
    (hc : c.answer = none) (hnew : new = [] ∨ new = [calls.length] ∧ c.returned = none) :
    Ledger (calls ++ [c]) handed (pending ++ new) := by
  have hlast : ∀ i ∈ new, i = calls.length := by
    intro i hi
    rcases hnew with rfl | ⟨rfl, -⟩
    · exact absurd hi List.not_mem_nil
    · exact List.mem_singleton.mp hi
  have hlength : (calls ++ [c]).length = calls.length + 1 := List.length_append
  refine ⟨?_, ?_, ?_, ?_⟩
  · rw [← List.append_assoc]
    refine List.pairwise_append.mpr ⟨h.order, ?_, ?_⟩
    · rcases hnew with rfl | ⟨rfl, -⟩
      · exact List.Pairwise.nil
      · exact List.pairwise_singleton _ _
    · intro i hi j hj
      rw [hlast j hj]
      exact h.bound i hi
  · intro i hi
    rw [← List.append_assoc] at hi
    rw [hlength]
    rcases List.mem_append.mp hi with hi | hi
    · have hlt := h.bound i hi
      omega
    · have heq := hlast i hi
      omega
  · intro i d e hi
    rcases Parties.getElem?_concat_cases hi with ⟨rfl, rfl⟩ | hi
    · rw [hc]
      constructor
      · intro hno
        cases hno
      · intro hmem
        have hbound := h.bound _ (List.mem_append_left _ (List.mem_map.mpr ⟨_, hmem, rfl⟩))
        exact absurd hbound (Nat.lt_irrefl _)
    · exact h.answers i d e hi
  · intro i hi d hd
    rcases Parties.getElem?_concat_cases hd with ⟨rfl, rfl⟩ | hd
    · rcases hnew with rfl | ⟨rfl, hret⟩
      · rw [List.append_nil] at hi
        exact absurd (h.bound _ (List.mem_append_right _ hi)) (Nat.lt_irrefl _)
      · exact ⟨hc, hret⟩
    · rcases List.mem_append.mp hi with hi | hi
      · exact h.waiting i hi d hd
      · have heq := hlast i hi
        have hlt := Parties.lt_of_getElem? hd
        omega

/-- One call has its answer, and the others stay. -/
theorem getElem?_reply {calls : List (CallState (BrowseReply Event))} {call i : ℕ}
    {r : BrowseReply Event} {d : CallState (BrowseReply Event)}
    (hi : (calls.modify call fun c => { c with answer := some r })[i]? = some d) :
    (call = i ∧ d.answer = some r) ∨ (call ≠ i ∧ calls[i]? = some d) := by
  rcases Parties.getElem?_modify_cases hi with ⟨rfl, c, -, rfl⟩ | ⟨hne, hi⟩
  · exact .inl ⟨rfl, rfl⟩
  · exact .inr ⟨hne.symm, hi⟩

/-- The first call that waits is given an event. -/
theorem Ledger.give {calls : List (CallState (BrowseReply Event))} {handed : List (ℕ × Event)}
    {call : ℕ} {rest : List ℕ} (h : Ledger calls handed (call :: rest)) (event : Event) :
    Ledger (calls.modify call fun c => { c with answer := some (.ok (some event)) })
      (handed ++ [(call, event)]) rest := by
  have hlist : (handed ++ [(call, event)]).map Prod.fst ++ rest =
      handed.map Prod.fst ++ call :: rest := by
    rw [List.map_append, List.append_assoc]
    rfl
  refine ⟨?_, ?_, ?_, ?_⟩
  · rw [hlist]
    exact h.order
  · rw [hlist, List.length_modify]
    exact h.bound
  · intro i d e hi
    rw [List.mem_append, List.mem_singleton, Prod.mk.injEq]
    rcases getElem?_reply hi with ⟨rfl, hd⟩ | ⟨hne, hold⟩
    · rw [hd]
      have hno := h.not_handed List.mem_cons_self e
      simp only [Option.some.injEq, Except.ok.injEq, true_and]
      constructor
      · intro heq
        exact .inr heq.symm
      · rintro (hmem | heq)
        · exact absurd hmem hno
        · exact heq.symm
    · rw [h.answers i d e hold]
      constructor
      · exact .inl
      · rintro (hmem | ⟨heq, -⟩)
        · exact hmem
        · exact absurd heq.symm hne
  · intro i hi d hd
    have hlt := (List.pairwise_cons.mp (List.pairwise_append.mp h.order).2.1).1 i hi
    rcases getElem?_reply hd with ⟨rfl, -⟩ | ⟨-, hold⟩
    · exact absurd hlt (Nat.lt_irrefl _)
    · exact h.waiting i (List.mem_cons_of_mem _ hi) d hold

/-- A call that waits is answered without an event. -/
theorem Ledger.answer {calls : List (CallState (BrowseReply Event))} {handed : List (ℕ × Event)}
    {call : ℕ} {pending rest : List ℕ} (h : Ledger calls handed pending) (hc : call ∈ pending)
    {r : BrowseReply Event} (hr : ∀ e, r ≠ .ok (some e)) (hsub : rest.Sublist pending)
    (hno : call ∉ rest) :
    Ledger (calls.modify call fun c => { c with answer := some r }) handed rest := by
  have hrest := h.sublist hsub
  refine ⟨hrest.order, ?_, ?_, ?_⟩
  · rw [List.length_modify]
    exact hrest.bound
  · intro i d e hi
    rcases getElem?_reply hi with ⟨rfl, hd⟩ | ⟨-, hold⟩
    · rw [hd]
      constructor
      · intro heq
        exact absurd (Option.some.inj heq) (hr e)
      · intro hmem
        exact absurd hmem (h.not_handed hc e)
    · exact h.answers i d e hold
  · intro i hi d hd
    rcases getElem?_reply hd with ⟨rfl, -⟩ | ⟨-, hold⟩
    · exact absurd hi hno
    · exact hrest.waiting i hi d hold

/-! ### The invariant -/

/-- The one error that is sent while the session is open. -/
def serialized : String := "native browse next calls must be serialized"

/-- The call whose reply the task holds. -/
def BrowseActor.current : BrowseActor → List ℕ
  | .polling call => [call]
  | .waiting call => [call]
  | .stopping (some (call, _)) => [call]
  | _ => []

/-- The call that a command is of. -/
def BrowseCommand.call : BrowseCommand → Option ℕ
  | .Next call => some call
  | .Close => none

/-- The calls to be answered, in their order. -/
def Browse.pending (b : Browse Event) : List ℕ := b.actor.current ++ b.queue.filterMap (·.call)

/-- Whether the actor still takes commands. -/
def BrowseActor.running : BrowseActor → Bool
  | .receiving => true
  | .polling _ => true
  | .waiting _ => true
  | _ => false

/-- The native session is open, being stopped, stopped, or was closed by native. -/
inductive Browse.Phase (b : Browse Event) : Prop
  | running (hactor : b.actor.running = true) (hstops : b.stops = 0)
      (hcompleted : b.stop_completed = false) (hnative : b.native_closed = false)
      (hclosed : b.closed = {}) (htold : b.told = false)
  | stopping (last : Option (ℕ × String)) (hactor : b.actor = .stopping last)
      (hstops : b.stops = 1) (hcompleted : b.stop_completed = false)
      (hnative : b.native_closed = false) (hclosed : b.closed = {})
  | stopped (hactor : b.actor = .ended) (hstops : b.stops = 1) (hcompleted : b.stop_completed = true)
      (hnative : b.native_closed = false) (hsome : b.closed.result.isSome = true)
      (hsets : b.closed.sets = 1)
  | closed (hactor : b.actor = .ended) (hstops : b.stops = 0) (hnative : b.native_closed = true)
      (hsome : b.closed.result.isSome = true) (hsets : b.closed.sets = 1)

/-- The invariant: each event goes to one call, in order, and what a caller is told is what the
actor said. -/
structure BrowseInv (b : Browse Event) : Prop where
  ledger : Ledger b.calls b.handed b.pending
  events : b.handed.map Prod.snd ++ b.buffered = b.converted
  returned : ∀ c ∈ b.calls, ∀ r, c.returned = some r →
    c.answer = some r ∨ c.answer = none ∧ r = .ok none
  errors : ∀ c ∈ b.calls, ∀ e, c.answer = some (.error e) →
    e = serialized ∨ b.stop_completed = true
  phase : b.Phase
  settled : b.actor = .ended → b.pending = []
  late : b.late = 0

theorem browse_inv_start : BrowseInv ({} : Browse Event) where
  ledger := ⟨List.Pairwise.nil, fun _ hi => absurd hi List.not_mem_nil,
    fun _ _ _ hi => (by simp at hi), fun _ hi => absurd hi List.not_mem_nil⟩
  events := rfl
  returned _ hc := absurd hc List.not_mem_nil
  errors _ hc := absurd hc List.not_mem_nil
  phase := .running rfl rfl rfl rfl rfl rfl
  settled ha := by cases ha
  late := rfl

theorem CloseOutcome.complete_new (result : Except String Unit) :
    ({} : CloseOutcome).complete result = ⟨some result, 1⟩ := rfl

/-- The cell is written once. -/
theorem CloseOutcome.complete_again {c : CloseOutcome} (h : c.result.isSome = true)
    (result : Except String Unit) : c.complete result = c := by
  unfold CloseOutcome.complete
  rw [if_neg]
  simp [Option.isSome_iff_ne_none.mp h]

theorem Browse.is_ended_iff {b : Browse Event} : b.is_ended = true ↔ b.actor = .ended := by
  unfold Browse.is_ended
  cases b.actor <;> simp

/-- A session that has ended has its outcome. -/
theorem Browse.Phase.ended {b : Browse Event} (h : b.Phase) (hended : b.actor = .ended) :
    b.closed.result.isSome = true ∧ b.closed.sets = 1 := by
  cases h with
  | running hactor => simp [hended, BrowseActor.running] at hactor
  | stopping _ hactor => simp [hended] at hactor
  | stopped _ _ _ _ hsome hsets => exact ⟨hsome, hsets⟩
  | closed _ _ _ hsome hsets => exact ⟨hsome, hsets⟩

/-- The phase of a task that is running. -/
theorem Browse.Phase.of_running {b : Browse Event} (h : b.Phase)
    (hrunning : b.actor.running = true) :
    b.stops = 0 ∧ b.stop_completed = false ∧ b.native_closed = false ∧ b.closed = {} ∧
      b.told = false := by
  cases h with
  | running _ hstops hcompleted hnative hclosed htold =>
      exact ⟨hstops, hcompleted, hnative, hclosed, htold⟩
  | stopping _ hactor => simp [hactor, BrowseActor.running] at hrunning
  | stopped hactor => simp [hactor, BrowseActor.running] at hrunning
  | closed hactor => simp [hactor, BrowseActor.running] at hrunning

/-- What the phase depends on. -/
theorem Browse.Phase.congr {b b' : Browse Event} (h : b.Phase) (hactor : b'.actor = b.actor)
    (hstops : b'.stops = b.stops) (hcompleted : b'.stop_completed = b.stop_completed)
    (hnative : b'.native_closed = b.native_closed) (hclosed : b'.closed = b.closed)
    (htold : b'.told = b.told) : b'.Phase := by
  cases h with
  | running ha hs hc hn hcl ht =>
      apply Browse.Phase.running
      · rw [hactor, ha]
      · rw [hstops, hs]
      · rw [hcompleted, hc]
      · rw [hnative, hn]
      · rw [hclosed, hcl]
      · rw [htold, ht]
  | stopping last ha hs hc hn hcl =>
      apply Browse.Phase.stopping last
      · rw [hactor, ha]
      · rw [hstops, hs]
      · rw [hcompleted, hc]
      · rw [hnative, hn]
      · rw [hclosed, hcl]
  | stopped ha hs hc hn hsome hsets =>
      apply Browse.Phase.stopped
      · rw [hactor, ha]
      · rw [hstops, hs]
      · rw [hcompleted, hc]
      · rw [hnative, hn]
      · rw [hclosed, hsome]
      · rw [hclosed, hsets]
  | closed ha hs hn hsome hsets =>
      apply Browse.Phase.closed
      · rw [hactor, ha]
      · rw [hstops, hs]
      · rw [hnative, hn]
      · rw [hclosed, hsome]
      · rw [hclosed, hsets]

/-! ### The handle and the futures -/

/-- A new call of `next`. -/
theorem BrowseInv.next {b : Browse Event} (h : BrowseInv b) : BrowseInv b.next := by
  have hlast : ∀ {c c' : CallState (BrowseReply Event)}, c' ∈ b.calls ++ [c] →
      c' ∈ b.calls ∨ c' = c := by
    intro c c' hc
    rcases List.mem_append.mp hc with hc | hc
    · exact .inl hc
    · exact .inr (List.mem_singleton.mp hc)
  unfold Browse.next
  split
  · refine ⟨?_, h.events, ?_, ?_, ?_, h.settled, h.late⟩
    · have hadd := h.ledger.add (c := { returned := some (.ok none) }) rfl (.inl rfl)
      rwa [List.append_nil] at hadd
    · intro c hc r hr
      rcases hlast hc with hc | rfl
      · exact h.returned c hc r hr
      · exact .inr ⟨rfl, (Option.some.inj hr).symm⟩
    · intro c hc e he
      rcases hlast hc with hc | rfl
      · exact h.errors c hc e he
      · cases he
    · exact h.phase.congr rfl rfl rfl rfl rfl rfl
  · next hopen =>
    refine ⟨?_, h.events, ?_, ?_, ?_, ?_, h.late⟩
    · have hadd := h.ledger.add (c := {}) rfl (.inr ⟨rfl, rfl⟩)
      simp only [Browse.pending, List.filterMap_append, List.append_assoc] at hadd ⊢
      exact hadd
    · intro c hc r hr
      rcases hlast hc with hc | rfl
      · exact h.returned c hc r hr
      · cases hr
    · intro c hc e he
      rcases hlast hc with hc | rfl
      · exact h.errors c hc e he
      · cases he
    · exact h.phase.congr rfl rfl rfl rfl rfl rfl
    · intro ha
      have hended : b.is_ended = true := Browse.is_ended_iff.mpr ha
      simp [hended] at hopen

/-- Closing sends a command, or finds the outcome written. -/
theorem BrowseInv.request_close {b : Browse Event} (h : BrowseInv b) :
    BrowseInv b.request_close := by
  unfold Browse.request_close
  split
  · exact h
  · split
    · next hended =>
      have hsome := (h.phase.ended (Browse.is_ended_iff.mp hended)).1
      rw [CloseOutcome.complete_again hsome]
      exact ⟨h.ledger, h.events, h.returned, h.errors, h.phase.congr rfl rfl rfl rfl rfl rfl, h.settled,
        h.late⟩
    · next hopen =>
      refine ⟨?_, h.events, h.returned, h.errors, h.phase.congr rfl rfl rfl rfl rfl rfl,
        fun ha => absurd (Browse.is_ended_iff.mpr ha) hopen, h.late⟩
      have hsame : (b.queue ++ [BrowseCommand.Close]).filterMap (fun c => c.call) =
          b.queue.filterMap (fun c => c.call) := by
        rw [List.filterMap_append]
        exact List.append_nil _
      have hledger := h.ledger
      rw [Browse.pending, ← hsame] at hledger
      exact hledger

theorem BrowseInv.drop_handle {b : Browse Event} (h : BrowseInv b) :
    BrowseInv { b with alive := false } :=
  ⟨h.ledger, h.events, h.returned, h.errors, h.phase.congr rfl rfl rfl rfl rfl rfl, h.settled, h.late⟩

/-- A future takes its reply or is dropped. -/
theorem BrowseInv.set_call {b : Browse Event} (h : BrowseInv b) {call : ℕ}
    {c c' : CallState (BrowseReply Event)} (hc : b.calls[call]? = some c)
    (hsame : c'.answer = c.answer)
    (hreturned : ∀ r, c'.returned = some r →
      c.returned = some r ∨ c'.answer = some r ∨ c'.answer = none ∧ r = .ok none)
    (hwait : call ∈ b.pending → c.answer = none → c.returned = none → c'.returned = none) :
    BrowseInv (b.set_call call c') := by
  have hmem := List.mem_of_getElem? hc
  refine ⟨h.ledger.set hc hsame hwait, h.events, ?_, ?_, h.phase.congr rfl rfl rfl rfl rfl rfl,
    h.settled, h.late⟩
  · intro d hd r hr
    rcases List.mem_or_eq_of_mem_set hd with hd | rfl
    · exact h.returned d hd r hr
    · rcases hreturned r hr with hold | hnew
      · rw [hsame]
        exact h.returned c hmem r hold
      · exact hnew
  · intro d hd e he
    rcases List.mem_or_eq_of_mem_set hd with hd | rfl
    · exact h.errors d hd e he
    · rw [hsame] at he
      exact h.errors c hmem e he

/-- A caller takes its answer, or what it is told when the actor is gone. -/
theorem CallState.take_cases {R : Type} {c c' : CallState R} {ended : Bool} {lost : R}
    (h : c.take ended lost = some c') :
    c'.answer = c.answer ∧
      (∀ r, c'.returned = some r →
        c.returned = some r ∨ c'.answer = some r ∨ c'.answer = none ∧ r = lost) ∧
      (c.answer = none → ended = true) := by
  unfold CallState.take at h
  split at h
  · cases h
  · split at h
    · next reply hreply =>
      obtain rfl := Option.some.inj h
      refine ⟨rfl, fun r hr => .inr (.inl ?_), fun hnone => ?_⟩
      · rw [← hr]
        exact hreply
      · rw [hreply] at hnone
        cases hnone
    · next hnone =>
      split at h
      · next hended =>
        obtain rfl := Option.some.inj h
        exact ⟨rfl, fun r hr => .inr (.inr ⟨hnone, (Option.some.inj hr).symm⟩), fun _ => hended⟩
      · cases h

theorem CallState.drop_cases {R : Type} {c c' : CallState R} (h : c.drop = some c') :
    c'.answer = c.answer ∧ c'.returned = c.returned := by
  unfold CallState.drop at h
  split at h
  · cases h
  · obtain rfl := Option.some.inj h
    exact ⟨rfl, rfl⟩

/-! ### The task -/

/-- After a reply to a call that waits for one, what futures return is still what they
were sent, and the errors are still those allowed. -/
theorem BrowseInv.replied {b : Browse Event} (h : BrowseInv b) (r : BrowseReply Event)
    (completed : Bool) {call : ℕ} (hc : call ∈ b.pending)
    (hr : ∀ e, r = .error e → e = serialized ∨ completed = true)
    (hmono : b.stop_completed = true → completed = true) :
    (∀ c ∈ b.calls.modify call fun c => { c with answer := some r },
      ∀ r', c.returned = some r' → c.answer = some r' ∨ c.answer = none ∧ r' = .ok none) ∧
    ∀ c ∈ b.calls.modify call fun c => { c with answer := some r }, ∀ e,
      c.answer = some (.error e) → e = serialized ∨ completed = true := by
  refine ⟨?_, ?_⟩
  · intro d hd r' hr'
    obtain ⟨i, hi⟩ := List.mem_iff_getElem?.mp hd
    rcases Parties.getElem?_modify_cases hi with ⟨rfl, c, hget, rfl⟩ | ⟨-, hold⟩
    · -- it has not returned yet
      have hnone := (h.ledger.waiting i hc c hget).2
      cases hnone.symm.trans hr'
    · exact h.returned d (List.mem_of_getElem? hold) r' hr'
  · intro c hmem e he
    obtain ⟨i, hi⟩ := List.mem_iff_getElem?.mp hmem
    rcases getElem?_reply hi with ⟨-, hans⟩ | ⟨-, hold⟩
    · exact hr e (Option.some.inj (hans.symm.trans he))
    · exact (h.errors c (List.mem_of_getElem? hold) e he).imp_right hmono

/-- The task turns to the native stop, with nothing of its calls settled by that. -/
theorem BrowseInv.close_native {b : Browse Event} (h : BrowseInv b)
    (hrunning : b.actor.running = true) (told : Bool) {last : Option (ℕ × String)}
    {queue : List BrowseCommand}
    (hpending : (BrowseActor.stopping last).current ++ queue.filterMap (·.call) = b.pending) :
    BrowseInv ({ b with queue := queue, told := told }.close_native last) := by
  obtain ⟨hstops, hcompleted, hnative, hclosed, -⟩ := h.phase.of_running hrunning
  refine ⟨?_, h.events, h.returned, h.errors, ?_, fun ha => (by cases ha), h.late⟩
  · have hledger := h.ledger
    rw [← hpending] at hledger
    exact hledger
  · refine .stopping last rfl ?_ hcompleted hnative hclosed
    simp only [Browse.close_native, hstops]

/-- The task begins another poll, which is never after it was told to end. -/
theorem BrowseInv.poll {b : Browse Event} (h : BrowseInv b) (hrunning : b.actor.running = true)
    {call : ℕ} {queue : List BrowseCommand}
    (hpending : call :: queue.filterMap (·.call) = b.pending) :
    BrowseInv ({ b with queue := queue }.poll call) := by
  obtain ⟨hstops, hcompleted, hnative, hclosed, htold⟩ := h.phase.of_running hrunning
  refine ⟨?_, h.events, h.returned, h.errors, .running rfl hstops hcompleted hnative hclosed htold,
    fun ha => (by cases ha), ?_⟩
  · have hledger := h.ledger
    rw [← hpending] at hledger
    exact hledger
  · simp only [Browse.poll, htold, Bool.false_eq_true, if_false]
    exact h.late

/-- The first call that waits is given the first event of the buffer. -/
theorem BrowseInv.give {b : Browse Event} (h : BrowseInv b) (hrunning : b.actor.running = true)
    {call : ℕ} {event : Event} {events : List Event} {queue : List BrowseCommand}
    (hbuffered : b.buffered = event :: events)
    (hpending : call :: queue.filterMap (·.call) = b.pending) :
    BrowseInv ({ b with queue := queue, buffered := events, actor := .receiving }.reply call
      (.ok (some event))) := by
  obtain ⟨hstops, hcompleted, hnative, hclosed, htold⟩ := h.phase.of_running hrunning
  have hledger := h.ledger
  rw [← hpending] at hledger
  obtain ⟨hreturned, herrors⟩ := h.replied (.ok (some event)) b.stop_completed
    (hpending ▸ List.mem_cons_self) (fun e he => by cases he) id
  refine ⟨hledger.give event, ?_, hreturned, herrors,
    .running rfl hstops hcompleted hnative hclosed htold, fun ha => (by cases ha), h.late⟩
  have hevents := h.events
  rw [hbuffered] at hevents
  simp only [Browse.reply, List.map_append, List.append_assoc]
  exact hevents

/-- **The actor takes a command.** -/
theorem BrowseInv.receive {b b' : Browse Event} (h : BrowseInv b) (hactor : b.actor = .receiving)
    (hstep : b.receive = some b') : BrowseInv b' := by
  have hrunning : b.actor.running = true := by rw [hactor]; rfl
  unfold Browse.receive at hstep
  split at hstep
  · next call rest hqueue =>
    have hpending : call :: rest.filterMap (·.call) = b.pending := by
      rw [Browse.pending, hactor, hqueue]
      rfl
    split at hstep
    · next event events hbuffered =>
      obtain rfl := Option.some.inj hstep
      have hgive := h.give hrunning hbuffered hpending
      rwa [← hactor] at hgive
    · obtain rfl := Option.some.inj hstep
      exact h.poll hrunning hpending
  · next rest hqueue =>
    obtain rfl := Option.some.inj hstep
    apply h.close_native hrunning true
    rw [Browse.pending, hactor, hqueue]
    rfl
  · next hqueue =>
    split at hstep
    · cases hstep
    · obtain rfl := Option.some.inj hstep
      apply h.close_native hrunning true
      rw [Browse.pending, hactor]
      rfl

/-- The records of a batch join the buffer. -/
theorem BrowseInv.push {b : Browse Event} (h : BrowseInv b) (events : List Event) :
    BrowseInv { b with buffered := b.buffered ++ events, converted := b.converted ++ events } := by
  refine ⟨h.ledger, ?_, h.returned, h.errors, h.phase.congr rfl rfl rfl rfl rfl rfl,
    h.settled, h.late⟩
  rw [← List.append_assoc, h.events]

/-- A call waits once. -/
theorem Ledger.head_not_mem {calls : List (CallState (BrowseReply Event))}
    {handed : List (ℕ × Event)} {call : ℕ} {rest : List ℕ}
    (h : Ledger calls handed (call :: rest)) : call ∉ rest := by
  intro hmem
  have hlt := (List.pairwise_cons.mp (List.pairwise_append.mp h.order).2.1).1 call hmem
  exact Nat.lt_irrefl _ hlt

/-- **A poll returns**: its events go to the call and behind it into the buffer. -/
theorem BrowseInv.polled {convert : Record → Except String Event} {b : Browse Event}
    (h : BrowseInv b) {call : ℕ} (hactor : b.actor = .polling call)
    (result : Except String (DnsSdBrowsePollResponse Record)) :
    BrowseInv (b.polled convert call result) := by
  have hrunning : b.actor.running = true := by rw [hactor]; rfl
  have hpending : call :: b.queue.filterMap (·.call) = b.pending := by
    rw [Browse.pending, hactor]
    rfl
  have hclose : ∀ error, BrowseInv (b.close_native (some (call, error))) :=
    fun error => h.close_native hrunning b.told hpending
  cases result with
  | error error => exact hclose error
  | ok batch =>
      unfold Browse.polled
      dsimp only
      split
      · have hpush := h.push (convert_records convert batch.records).1
        split
        · next error events _ =>
          exact hpush.close_native hrunning b.told hpending
        · next event events _ hbuffered => exact hpush.give hrunning hbuffered hpending
        · have hledger := h.ledger
          rw [← hpending] at hledger
          refine ⟨?_, hpush.events, hpush.returned, hpush.errors, ?_, fun ha => (by cases ha),
            hpush.late⟩
          · exact hledger
          · obtain ⟨hstops, hcompleted, hnative, hclosed, htold⟩ := h.phase.of_running hrunning
            exact .running rfl hstops hcompleted hnative hclosed htold
      · obtain ⟨hstops, hcompleted, hnative, hclosed, htold⟩ := h.phase.of_running hrunning
        have hledger := h.ledger
        rw [← hpending] at hledger
        obtain ⟨hreturned, herrors⟩ := h.replied (.ok none) b.stop_completed
          (hpending ▸ List.mem_cons_self) (fun e he => by cases he) id
        refine ⟨?_, ?_, hreturned, herrors, ?_, fun _ => rfl, h.late⟩
        · simp only [Browse.reply, List.append_nil]
          exact hledger.answer List.mem_cons_self (fun e he => by cases he) (List.nil_sublist _)
            List.not_mem_nil
        · simp only [Browse.reply, List.append_nil]
          exact h.events
        · refine .closed rfl hstops rfl ?_ ?_
          · simp only [Browse.reply, hclosed, CloseOutcome.complete_new]
            rfl
          · simp only [Browse.reply, hclosed, CloseOutcome.complete_new]
      · exact hclose _

/-- The actor polls again for the same call. -/
theorem BrowseInv.wake {b : Browse Event} (h : BrowseInv b) {call : ℕ}
    (hactor : b.actor = .waiting call) : BrowseInv (b.wake call) := by
  have hrunning : b.actor.running = true := by rw [hactor]; rfl
  obtain ⟨hstops, hcompleted, hnative, hclosed, htold⟩ := h.phase.of_running hrunning
  have hpending : call :: b.queue.filterMap (·.call) = b.pending := by
    rw [Browse.pending, hactor]
    rfl
  have hledger := h.ledger
  rw [← hpending] at hledger
  unfold Browse.wake
  split
  · next rest hqueue =>
    rw [hqueue] at hledger hpending
    obtain ⟨hreturned, herrors⟩ := h.replied (.ok none) b.stop_completed
      (hpending ▸ List.mem_cons_self) (fun e he => by cases he) id
    refine ⟨?_, ?_, hreturned, herrors, ?_, fun ha => (by cases ha), h.late⟩
    · simp only [Browse.close_native, Browse.reply, List.append_nil]
      exact hledger.answer List.mem_cons_self (fun e he => by cases he)
        (List.sublist_cons_self _ _) hledger.head_not_mem
    · simp only [Browse.close_native, Browse.reply, List.append_nil]
      exact h.events
    · refine .stopping none rfl ?_ hcompleted hnative hclosed
      simp only [Browse.close_native, Browse.reply, hstops]
  · next concurrent rest hqueue =>
    rw [hqueue] at hledger hpending
    have hmem : concurrent ∈ call :: (BrowseCommand.Next concurrent :: rest).filterMap (·.call) :=
      List.mem_cons_of_mem _ List.mem_cons_self
    obtain ⟨hreturned, herrors⟩ := h.replied (.error serialized) b.stop_completed
      (hpending ▸ hmem) (fun e he => .inl (Except.error.inj he).symm) id
    have hsub : (call :: rest.filterMap (·.call)).Sublist
        (call :: (BrowseCommand.Next concurrent :: rest).filterMap (·.call)) :=
      (List.sublist_cons_self _ _).cons_cons call
    refine ⟨?_, ?_, hreturned, herrors, .running rfl hstops hcompleted hnative hclosed htold,
      fun ha => (by cases ha), ?_⟩
    · simp only [Browse.poll, Browse.reply, List.append_nil]
      refine hledger.answer hmem (fun e he => by cases he) hsub ?_
      intro hin
      rcases List.mem_cons.mp hin with rfl | hin
      · exact hledger.head_not_mem List.mem_cons_self
      · have htail : Ledger b.calls b.handed (concurrent :: rest.filterMap (·.call)) :=
          hledger.sublist (List.sublist_cons_self _ _)
        exact htail.head_not_mem hin
    · simp only [Browse.poll, Browse.reply, List.append_nil]
      exact h.events
    · simp only [Browse.poll, Browse.reply, htold, Bool.false_eq_true, if_false]
      exact h.late
  · next hqueue => exact h.poll hrunning hpending

/-- The stop has ended: now the outcome is written and the error may be sent. -/
theorem BrowseInv.stopped {b : Browse Event} (h : BrowseInv b) {last : Option (ℕ × String)}
    (hactor : b.actor = .stopping last) (result : Except String Unit) :
    BrowseInv (b.stopped last result) := by
  have hphase : b.stops = 1 ∧ b.native_closed = false ∧ b.closed = {} := by
    cases h.phase with
    | running ha => simp [hactor, BrowseActor.running] at ha
    | stopping _ _ hs _ hn hcl => exact ⟨hs, hn, hcl⟩
    | stopped ha => simp [hactor] at ha
    | closed ha => simp [hactor] at ha
  obtain ⟨hstops, hnative, hclosed⟩ := hphase
  have hdone : ∀ (calls : List (CallState (BrowseReply Event))) (handed : List (ℕ × Event)),
      Browse.Phase { b with
        closed := b.closed.complete result, stop_completed := true, actor := .ended, queue := []
        calls := calls, handed := handed } := by
    intro calls handed
    refine .stopped rfl hstops rfl hnative ?_ ?_
    · rw [hclosed, CloseOutcome.complete_new]
      rfl
    · rw [hclosed, CloseOutcome.complete_new]
  unfold Browse.stopped
  cases last with
  | none =>
      refine ⟨?_, h.events, h.returned, fun c hc e he => .inr rfl, hdone _ _, fun _ => rfl, h.late⟩
      exact h.ledger.sublist (List.nil_sublist _)
  | some last =>
      obtain ⟨call, error⟩ := last
      have hledger := h.ledger
      have hpending : b.pending = call :: b.queue.filterMap (·.call) := by
        rw [Browse.pending, hactor]
        rfl
      rw [hpending] at hledger
      obtain ⟨hreturned, herrors⟩ := h.replied (.error error) true
        (hpending ▸ List.mem_cons_self) (fun _ _ => .inr rfl) (fun _ => rfl)
      refine ⟨?_, ?_, hreturned, herrors, hdone _ _, fun _ => rfl, h.late⟩
      · simp only [Browse.reply, List.append_nil]
        exact hledger.answer List.mem_cons_self (fun e he => by cases he) (List.nil_sublist _)
          List.not_mem_nil
      · simp only [Browse.reply, List.append_nil]
        exact h.events

/-- **One step** keeps the invariant. -/
theorem browse_inv_step {convert : Record → Except String Event} {b b' : Browse Event}
    {a : BrowseLabel Record} (h : BrowseInv b) (hstep : b.step convert a = some b') :
    BrowseInv b' := by
  cases a with
  | next =>
      simp only [Browse.step] at hstep
      split at hstep
      · rw [← Option.some.inj hstep]
        exact h.next
      · cases hstep
  | request_close =>
      simp only [Browse.step] at hstep
      split at hstep
      · rw [← Option.some.inj hstep]
        exact h.request_close
      · cases hstep
  | drop_handle =>
      simp only [Browse.step] at hstep
      split at hstep
      · rw [← Option.some.inj hstep]
        exact h.drop_handle
      · cases hstep
  | take call =>
      obtain ⟨c, hc, htake⟩ := Option.bind_eq_some_iff.mp hstep
      obtain ⟨c', hc', rfl⟩ := Option.map_eq_some_iff.mp htake
      obtain ⟨hsame, hret, hlost⟩ := CallState.take_cases hc'
      refine h.set_call hc hsame hret ?_
      intro hpending hnone _
      -- nothing is pending once the task has ended
      rw [h.settled (Browse.is_ended_iff.mp (hlost hnone))] at hpending
      exact absurd hpending List.not_mem_nil
  | drop_call call =>
      obtain ⟨c, hc, hdrop⟩ := Option.bind_eq_some_iff.mp hstep
      obtain ⟨c', hc', rfl⟩ := Option.map_eq_some_iff.mp hdrop
      obtain ⟨hsame, hret⟩ := CallState.drop_cases hc'
      exact h.set_call hc hsame (fun r hr => .inl (hret.symm.trans hr)) fun _ _ hnone =>
        hret.trans hnone
  | receive =>
      simp only [Browse.step] at hstep
      split at hstep
      · next hactor => exact h.receive hactor hstep
      · cases hstep
  | polled result =>
      simp only [Browse.step] at hstep
      split at hstep
      · next call hactor =>
        rw [← Option.some.inj hstep]
        exact h.polled hactor result
      · cases hstep
  | wake =>
      simp only [Browse.step] at hstep
      split at hstep
      · next call hactor =>
        rw [← Option.some.inj hstep]
        exact h.wake hactor
      · cases hstep
  | stopped result =>
      simp only [Browse.step] at hstep
      split at hstep
      · next last hactor =>
        rw [← Option.some.inj hstep]
        exact h.stopped hactor result
      · cases hstep

/-! ### The events that calls return -/

/-- Values noted with the places that have them, in order, are the values of the list. -/
theorem filterMap_of_noted {α β : Type} {f : α → Option β} {l : List α} {n : ℕ}
    {noted : List (ℕ × β)} (horder : (noted.map Prod.fst).Pairwise (· < ·))
    (hbound : ∀ p ∈ noted, n ≤ p.1 ∧ p.1 < n + l.length)
    (hiff : ∀ i c e, l[i]? = some c → (f c = some e ↔ (n + i, e) ∈ noted)) :
    l.filterMap f = noted.map Prod.snd := by
  induction l generalizing n noted with
  | nil =>
      cases noted with
      | nil => rfl
      | cons p rest =>
          have hp := hbound p List.mem_cons_self
          simp only [List.length_nil] at hp
          omega
  | cons c l ih =>
      have hlater : ∀ {rest : List (ℕ × β)}, (∀ p ∈ rest, n < p.1 ∧ p ∈ noted) →
          ∀ p ∈ rest, n + 1 ≤ p.1 ∧ p.1 < n + 1 + l.length := by
        intro rest hrest p hp
        obtain ⟨hlt, hmem⟩ := hrest p hp
        have hb := (hbound p hmem).2
        rw [List.length_cons] at hb
        omega
      have htail : ∀ i d e, l[i]? = some d → (f d = some e ↔ (n + 1 + i, e) ∈ noted) := by
        intro i d e hd
        rw [hiff (i + 1) d e hd, show n + (i + 1) = n + 1 + i by omega]
      cases hf : f c with
      | none =>
          rw [List.filterMap_cons_none hf]
          refine ih horder (hlater ?_) htail
          intro p hp
          refine ⟨?_, hp⟩
          have hne : p.1 ≠ n := by
            intro heq
            have hsome := (hiff 0 c p.2 rfl).mpr (by rw [Nat.add_zero, ← heq]; exact hp)
            rw [hf] at hsome
            cases hsome
          have hle := (hbound p hp).1
          omega
      | some e =>
          have hmem : (n, e) ∈ noted := (hiff 0 c e rfl).mp hf
          cases noted with
          | nil => exact absurd hmem List.not_mem_nil
          | cons p rest =>
              rw [List.map_cons] at horder
              obtain ⟨hfirst, hrest⟩ := List.pairwise_cons.mp horder
              have hlt : ∀ q ∈ rest, p.1 < q.1 := fun q hq => hfirst q.1 (List.mem_map.mpr ⟨q, hq, rfl⟩)
              -- the value at `n` is noted first
              have hp : p = (n, e) := by
                rcases List.mem_cons.mp hmem with heq | hin
                · exact heq.symm
                · have hbelow := hlt _ hin
                  have hle := (hbound p List.mem_cons_self).1
                  omega
              subst hp
              rw [List.filterMap_cons_some hf, List.map_cons]
              congr 1
              refine ih hrest (hlater fun q hq => ⟨hlt q hq, List.mem_cons_of_mem _ hq⟩) ?_
              intro i d e' hd
              rw [htail i d e' hd, List.mem_cons, Prod.mk.injEq]
              constructor
              · rintro (⟨heq, -⟩ | hin)
                · omega
                · exact hin
              · exact .inr

/-- The event in a reply. -/
def event_of (r : Option (BrowseReply Event)) : Option Event :=
  match r with
  | some (.ok (some event)) => some event
  | _ => none

theorem event_of_eq_some {r : Option (BrowseReply Event)} {e : Event} :
    event_of r = some e ↔ r = some (.ok (some e)) := by
  unfold event_of
  split
  · simp
  · next hno =>
    constructor
    · intro hnone
      cases hnone
    · intro heq
      exact absurd heq (hno e)

/-- The calls are given the events of the batches in order, and none twice. -/
theorem BrowseInv.given {b : Browse Event} (h : BrowseInv b) :
    b.calls.filterMap (fun c => event_of c.answer) ++ b.buffered = b.converted := by
  have horder := (List.pairwise_append.mp h.ledger.order).1
  rw [filterMap_of_noted (n := 0) horder, h.events]
  · intro p hp
    have hb := h.ledger.bound p.1 (List.mem_append_left _ (List.mem_map.mpr ⟨p, hp, rfl⟩))
    omega
  · intro i c e hc
    rw [event_of_eq_some, Nat.zero_add]
    exact h.ledger.answers i c e hc

/-- A call that returns has returned what it was sent. -/
theorem BrowseInv.returned_event {b : Browse Event} (h : BrowseInv b)
    {c : CallState (BrowseReply Event)} (hc : c ∈ b.calls) {r : BrowseReply Event}
    (hans : c.answer = some r) : c.returned = none ∨ c.returned = some r := by
  rcases hr : c.returned with _ | r'
  · exact .inl rfl
  · rcases h.returned c hc r' hr with hsame | ⟨hnone, -⟩
    · rw [← hsame, hans]
      exact .inr rfl
    · rw [hans] at hnone
      cases hnone

/-- If every call that was given an event has been awaited, what calls have returned is
the beginning of what the batches held. -/
theorem BrowseInv.awaited {b : Browse Event} (h : BrowseInv b)
    (hawaited : ∀ c ∈ b.calls, (event_of c.answer).isSome = true → c.returned ≠ none) :
    b.calls.filterMap (fun c => event_of c.returned) <+: b.converted := by
  have hsame : ∀ c ∈ b.calls, event_of c.returned = event_of c.answer := by
    intro c hc
    cases hans : c.answer with
    | none =>
        cases hret : c.returned with
        | none => rfl
        | some r =>
            rcases h.returned c hc r hret with hsome | ⟨-, rfl⟩
            · rw [hans] at hsome
              cases hsome
            · rfl
    | some r =>
        rcases h.returned_event hc hans with hnone | hsame
        · cases hev : event_of (some r) with
          | none => rw [hnone]; rfl
          | some e =>
              have hno := hawaited c hc (by rw [hans, hev]; rfl)
              exact absurd hnone hno
        · rw [hsame]
  rw [List.filterMap_congr hsame]
  exact ⟨b.buffered, h.given⟩

end Browse

/-! ## The advertisement task -/

section Advertise

variable {Update : Type}

/-- What a call of `update` is told. -/
abbrev AdvertiseReply := Except String Unit

/-- What the handle sends to the actor. -/
inductive AdvertisementCommand (Update : Type)
  | Update (call : ℕ) (update : Update)
  | Close

/-- Where the actor of an advertisement is. -/
inductive AdvertiseActor (Update : Type)
  | receiving
  | updating (call : ℕ) (update : Update)
  | stopping (last : Option (ℕ × String))
  | ended

/-- A handle and its task; `told` and `late` as for a browse, of updates. -/
structure Advertise (Update : Type) where
  alive : Bool := true
  closing : Bool := false
  queue : List (AdvertisementCommand Update) := []
  calls : List (CallState AdvertiseReply) := []
  actor : AdvertiseActor Update := .receiving
  closed : CloseOutcome := {}
  stops : ℕ := 0
  stop_completed : Bool := false
  told : Bool := false
  late : ℕ := 0

/-- What can happen to an advertisement. -/
inductive AdvertiseLabel (Update : Type)
  | update (update : Update)
  | request_close
  | drop_handle
  | take (call : ℕ)
  | drop_call (call : ℕ)
  | receive
  | updated (result : Except String Unit)
  | stopped (result : Except String Unit)

namespace Advertise

/-- Whether the actor has returned. -/
def is_ended (b : Advertise Update) : Bool :=
  match b.actor with
  | .ended => true
  | _ => false

/-- A call has its answer. -/
def reply (b : Advertise Update) (call : ℕ) (r : AdvertiseReply) : Advertise Update :=
  { b with calls := b.calls.modify call fun c => { c with answer := some r } }

/-- The actor stops the native session, and answers the call that failed behind that. -/
def close_native (b : Advertise Update) (last : Option (ℕ × String)) : Advertise Update :=
  { b with actor := .stopping last, stops := b.stops + 1 }

/-- `update`: a command for the actor, or an error when it has returned. -/
def update (b : Advertise Update) (update : Update) : Advertise Update :=
  if b.closing || b.is_ended then
    { b with calls := b.calls ++ [{ returned := some (.error "advertisement is closed") }] }
  else { b with calls := b.calls ++ [{}], queue := b.queue ++ [.Update b.calls.length update] }

/-- `request_close`, once. -/
def request_close (b : Advertise Update) : Advertise Update :=
  if b.closing then b
  else if b.is_ended then { b with closing := true, closed := b.closed.complete (.ok ()) }
  else { b with closing := true, queue := b.queue ++ [.Close] }

/-- The actor takes the next command; without one and without senders it stops the session. -/
def receive (b : Advertise Update) : Option (Advertise Update) :=
  match b.queue with
  | .Update call update :: rest =>
    some { b with
      queue := rest, actor := .updating call update, late := if b.told then b.late + 1 else b.late }
  | .Close :: rest => some ({ b with queue := rest, told := true }.close_native none)
  | [] => if b.alive then none else some ({ b with told := true }.close_native none)

/-- What the native update came to; an error closes the session. -/
def updated (b : Advertise Update) (call : ℕ) : Except String Unit → Advertise Update
  | .ok () => { b with actor := .receiving }.reply call (.ok ())
  | .error error => b.close_native (some (call, error))

/-- The native session is stopped: the close is completed, and the calls that wait are told. -/
def stopped (b : Advertise Update) (last : Option (ℕ × String)) (result : Except String Unit) :
    Advertise Update :=
  let b := { b with
    closed := b.closed.complete result, stop_completed := true, actor := .ended, queue := [] }
  match last with
  | some (call, error) => b.reply call (.error error)
  | none => b

/-- A call goes on. -/
def set_call (b : Advertise Update) (call : ℕ) (c : CallState AdvertiseReply) : Advertise Update :=
  { b with calls := b.calls.set call c }

/-- One step of an advertisement, `none` where the label is not enabled. -/
def step (b : Advertise Update) : AdvertiseLabel Update → Option (Advertise Update)
  | .update update => if b.alive then some (b.update update) else none
  | .request_close => if b.alive then some b.request_close else none
  | .drop_handle => if b.alive then some { b with alive := false } else none
  | .take call => (b.calls[call]?).bind fun c =>
    (c.take b.is_ended (.error "advertisement is closed")).map (b.set_call call)
  | .drop_call call => (b.calls[call]?).bind fun c => c.drop.map (b.set_call call)
  | .receive =>
    match b.actor with
    | .receiving => b.receive
    | _ => none
  | .updated result =>
    match b.actor with
    | .updating call _ => some (b.updated call result)
    | _ => none
  | .stopped result =>
    match b.actor with
    | .stopping last => some (b.stopped last result)
    | _ => none

/-- Whether the actor still takes commands. -/
def running (b : Advertise Update) : Bool :=
  match b.actor with
  | .receiving => true
  | .updating _ _ => true
  | _ => false

/-- The native session is open, being stopped, or stopped. -/
inductive Phase (b : Advertise Update) : Prop
  | running (hactor : b.running = true) (hstops : b.stops = 0) (hcompleted : b.stop_completed = false)
      (hclosed : b.closed = {}) (htold : b.told = false)
  | stopping (last : Option (ℕ × String)) (hactor : b.actor = .stopping last) (hstops : b.stops = 1)
      (hcompleted : b.stop_completed = false) (hclosed : b.closed = {})
  | stopped (hactor : b.actor = .ended) (hstops : b.stops = 1) (hcompleted : b.stop_completed = true)
      (hsome : b.closed.result.isSome = true) (hsets : b.closed.sets = 1)

end Advertise

/-- The invariant: an error is told behind the stop, and nothing native happens behind a close. -/
structure AdvertiseInv (b : Advertise Update) : Prop where
  errors : ∀ c ∈ b.calls, ∀ e, c.answer = some (.error e) → b.stop_completed = true
  phase : b.Phase
  late : b.late = 0

theorem advertise_inv_start : AdvertiseInv ({} : Advertise Update) where
  errors _ hc := absurd hc List.not_mem_nil
  phase := .running rfl rfl rfl rfl rfl
  late := rfl

theorem Advertise.Phase.congr {b b' : Advertise Update} (h : b.Phase) (hactor : b'.actor = b.actor)
    (hstops : b'.stops = b.stops) (hcompleted : b'.stop_completed = b.stop_completed)
    (hclosed : b'.closed = b.closed) (htold : b'.told = b.told) : b'.Phase := by
  cases h with
  | running ha hs hc hcl ht =>
      apply Advertise.Phase.running
      · rw [Advertise.running, hactor]
        exact ha
      · rw [hstops, hs]
      · rw [hcompleted, hc]
      · rw [hclosed, hcl]
      · rw [htold, ht]
  | stopping last ha hs hc hcl =>
      apply Advertise.Phase.stopping last
      · rw [hactor, ha]
      · rw [hstops, hs]
      · rw [hcompleted, hc]
      · rw [hclosed, hcl]
  | stopped ha hs hc hsome hsets =>
      apply Advertise.Phase.stopped
      · rw [hactor, ha]
      · rw [hstops, hs]
      · rw [hcompleted, hc]
      · rw [hclosed, hsome]
      · rw [hclosed, hsets]

/-- A running actor has stopped nothing. -/
theorem Advertise.Phase.of_running {b : Advertise Update} (h : b.Phase) (hrunning : b.running = true) :
    b.stops = 0 ∧ b.stop_completed = false ∧ b.closed = {} ∧ b.told = false := by
  cases h with
  | running _ hstops hcompleted hclosed htold => exact ⟨hstops, hcompleted, hclosed, htold⟩
  | stopping _ hactor => simp [Advertise.running, hactor] at hrunning
  | stopped hactor => simp [Advertise.running, hactor] at hrunning

/-- Calls change, but not what was sent them. -/
theorem AdvertiseInv.set_call {b : Advertise Update} (h : AdvertiseInv b) {call : ℕ}
    {c c' : CallState AdvertiseReply} (hc : b.calls[call]? = some c)
    (hsame : c'.answer = c.answer) :
    AdvertiseInv (b.set_call call c') := by
  refine ⟨?_, h.phase.congr rfl rfl rfl rfl rfl, h.late⟩
  intro d hd e he
  rcases List.mem_or_eq_of_mem_set hd with hd | rfl
  · exact h.errors d hd e he
  · rw [hsame] at he
    exact h.errors c (List.mem_of_getElem? hc) e he

theorem AdvertiseInv.update {b : Advertise Update} (h : AdvertiseInv b) (update : Update) :
    AdvertiseInv (b.update update) := by
  have herrors : ∀ c : CallState AdvertiseReply, c.answer = none →
      ∀ d ∈ b.calls ++ [c], ∀ e, d.answer = some (.error e) → b.stop_completed = true := by
    intro c hc d hd e he
    rcases List.mem_append.mp hd with hd | hd
    · exact h.errors d hd e he
    · rw [List.mem_singleton.mp hd, hc] at he
      cases he
  unfold Advertise.update
  split
  · exact ⟨herrors _ rfl, h.phase.congr rfl rfl rfl rfl rfl, h.late⟩
  · exact ⟨herrors _ rfl, h.phase.congr rfl rfl rfl rfl rfl, h.late⟩

theorem AdvertiseInv.request_close {b : Advertise Update} (h : AdvertiseInv b) :
    AdvertiseInv b.request_close := by
  unfold Advertise.request_close
  split
  · exact h
  · split
    · next hended =>
      have hsome : b.closed.result.isSome = true := by
        cases h.phase with
        | running hactor => cases ha : b.actor <;> simp_all [Advertise.running, Advertise.is_ended]
        | stopping _ hactor => simp [Advertise.is_ended, hactor] at hended
        | stopped _ _ _ hsome => exact hsome
      rw [CloseOutcome.complete_again hsome]
      exact ⟨h.errors, h.phase.congr rfl rfl rfl rfl rfl, h.late⟩
    · exact ⟨h.errors, h.phase.congr rfl rfl rfl rfl rfl, h.late⟩

/-- The actor stops the native session once. -/
theorem AdvertiseInv.close_native {b : Advertise Update} (h : AdvertiseInv b)
    (hrunning : b.running = true) (told : Bool) (queue : List (AdvertisementCommand Update))
    (last : Option (ℕ × String)) :
    AdvertiseInv ({ b with queue := queue, told := told }.close_native last) := by
  obtain ⟨hstops, hcompleted, hclosed, -⟩ := h.phase.of_running hrunning
  refine ⟨h.errors, .stopping last rfl ?_ hcompleted hclosed, h.late⟩
  simp only [Advertise.close_native, hstops]

/-- The actor takes a command, or stops without senders. -/
theorem AdvertiseInv.receive {b b' : Advertise Update} (h : AdvertiseInv b)
    (hactor : b.actor = .receiving) (hstep : b.receive = some b') : AdvertiseInv b' := by
  have hrunning : b.running = true := by rw [Advertise.running, hactor]
  unfold Advertise.receive at hstep
  split at hstep
  · obtain rfl := Option.some.inj hstep
    obtain ⟨hstops, hcompleted, hclosed, htold⟩ := h.phase.of_running hrunning
    refine ⟨h.errors, .running rfl hstops hcompleted hclosed htold, ?_⟩
    simp only [htold, Bool.false_eq_true, if_false]
    exact h.late
  · obtain rfl := Option.some.inj hstep
    exact h.close_native hrunning true _ none
  · split at hstep
    · cases hstep
    · obtain rfl := Option.some.inj hstep
      exact h.close_native hrunning true _ none

theorem AdvertiseInv.updated {b : Advertise Update} (h : AdvertiseInv b)
    (hrunning : b.running = true) (call : ℕ) (result : Except String Unit) :
    AdvertiseInv (b.updated call result) := by
  cases result with
  | error error => exact h.close_native hrunning b.told b.queue _
  | ok done =>
      obtain ⟨hstops, hcompleted, hclosed, htold⟩ := h.phase.of_running hrunning
      refine ⟨?_, .running rfl hstops hcompleted hclosed htold, h.late⟩
      intro c hc e he
      obtain ⟨i, hi⟩ := List.mem_iff_getElem?.mp hc
      have hi : (b.calls.modify call fun c => { c with answer := some (.ok ()) })[i]? = some c := hi
      rcases Parties.getElem?_modify_cases hi with ⟨-, d, -, rfl⟩ | ⟨-, hold⟩
      · cases he
      · exact h.errors c (List.mem_of_getElem? hold) e he

/-- **The stop returns**, and the close is completed. -/
theorem AdvertiseInv.stopped {b : Advertise Update} (h : AdvertiseInv b) {last : Option (ℕ × String)}
    (hactor : b.actor = .stopping last) (result : Except String Unit) :
    AdvertiseInv (b.stopped last result) := by
  have hphase : b.stops = 1 ∧ b.closed = {} := by
    cases h.phase with
    | running ha => simp [Advertise.running, hactor] at ha
    | stopping _ _ hs _ hcl => exact ⟨hs, hcl⟩
    | stopped ha => simp [hactor] at ha
  obtain ⟨hstops, hclosed⟩ := hphase
  have hsome : (b.closed.complete result).result.isSome = true ∧ (b.closed.complete result).sets = 1 := by
    rw [hclosed, CloseOutcome.complete_new]
    exact ⟨rfl, rfl⟩
  unfold Advertise.stopped
  cases last with
  | none => exact ⟨fun _ _ _ _ => rfl, .stopped rfl hstops rfl hsome.1 hsome.2, h.late⟩
  | some last => exact ⟨fun _ _ _ _ => rfl, .stopped rfl hstops rfl hsome.1 hsome.2, h.late⟩

/-- **One step** keeps the invariant. -/
theorem advertise_inv_step {b b' : Advertise Update} {a : AdvertiseLabel Update}
    (h : AdvertiseInv b) (hstep : b.step a = some b') : AdvertiseInv b' := by
  cases a with
  | update update =>
      simp only [Advertise.step] at hstep
      split at hstep
      · rw [← Option.some.inj hstep]
        exact h.update update
      · cases hstep
  | request_close =>
      simp only [Advertise.step] at hstep
      split at hstep
      · rw [← Option.some.inj hstep]
        exact h.request_close
      · cases hstep
  | drop_handle =>
      simp only [Advertise.step] at hstep
      split at hstep
      · rw [← Option.some.inj hstep]
        exact ⟨h.errors, h.phase.congr rfl rfl rfl rfl rfl, h.late⟩
      · cases hstep
  | take call =>
      obtain ⟨c, hc, htake⟩ := Option.bind_eq_some_iff.mp hstep
      obtain ⟨c', hc', rfl⟩ := Option.map_eq_some_iff.mp htake
      exact h.set_call hc (CallState.take_cases hc').1
  | drop_call call =>
      obtain ⟨c, hc, hdrop⟩ := Option.bind_eq_some_iff.mp hstep
      obtain ⟨c', hc', rfl⟩ := Option.map_eq_some_iff.mp hdrop
      exact h.set_call hc (CallState.drop_cases hc').1
  | receive =>
      simp only [Advertise.step] at hstep
      split at hstep
      · next hactor => exact h.receive hactor hstep
      · cases hstep
  | updated result =>
      simp only [Advertise.step] at hstep
      split at hstep
      · next call update hactor =>
        rw [← Option.some.inj hstep]
        exact h.updated (by rw [Advertise.running, hactor]) call result
      · cases hstep
  | stopped result =>
      simp only [Advertise.step] at hstep
      split at hstep
      · next last hactor =>
        rw [← Option.some.inj hstep]
        exact h.stopped hactor result
      · cases hstep

end Advertise

/-! ## Closing once -/

section Runs

variable {Record Event Update : Type}

/-- The native session is stopped at most once, and left alone only if native closed it;
the outcome is written once, at the end; errors follow the stop, but for the refusal of a
second `next`; and no poll begins once the task was told to end. What the calls were sent
are the first events of the batches, in order; a call returns what it was sent. -/
structure Browse.ClosesOnce (b : Browse Event) : Prop where
  stops : b.stops ≤ 1
  ended : b.is_ended = true → (b.stops = 0 ↔ b.native_closed = true)
  outcome : b.closed.sets = if b.is_ended then 1 else 0
  errors : ∀ c ∈ b.calls, ∀ e, c.answer = some (.error e) → e = serialized ∨ b.stop_completed = true
  given : b.calls.filterMap (fun c => event_of c.answer) <+: b.converted
  returned : ∀ c ∈ b.calls, ∀ r, c.returned = some r →
    c.answer = some r ∨ c.answer = none ∧ r = .ok none
  awaited : (∀ c ∈ b.calls, (event_of c.answer).isSome = true → c.returned ≠ none) →
    b.calls.filterMap (fun c => event_of c.returned) <+: b.converted
  late : b.late = 0

/-- The native session is stopped once, and the close has its result once. -/
structure Advertise.ClosesOnce (b : Advertise Update) : Prop where
  stops : b.stops ≤ 1
  ended : b.is_ended = true → b.stops = 1
  outcome : b.closed.sets = if b.is_ended then 1 else 0
  errors : ∀ c ∈ b.calls, ∀ e, c.answer = some (.error e) → b.stop_completed = true
  late : b.late = 0

/-- The native browse is closed once. -/
theorem BrowseInv.closes_once {b : Browse Event} (h : BrowseInv b) : b.ClosesOnce := by
  have hphase : b.stops ≤ 1 ∧ (b.is_ended = true → (b.stops = 0 ↔ b.native_closed = true)) ∧
      b.closed.sets = if b.is_ended then 1 else 0 := by
    cases h.phase with
    | running hactor hstops hcompleted hnative hclosed =>
        have hno : b.is_ended = false := by
          cases ha : b.actor <;> simp_all [BrowseActor.running, Browse.is_ended]
        simp [hstops, hclosed, hno]
    | stopping last hactor hstops hcompleted hnative hclosed =>
        simp [Browse.is_ended, hactor, hstops, hclosed]
    | stopped hactor hstops hcompleted hnative hsome hsets =>
        simp [Browse.is_ended, hactor, hstops, hnative, hsets]
    | closed hactor hstops hnative hsome hsets =>
        simp [Browse.is_ended, hactor, hstops, hnative, hsets]
  exact ⟨hphase.1, hphase.2.1, hphase.2.2, h.errors, ⟨b.buffered, h.given⟩, h.returned, h.awaited,
    h.late⟩

/-- The native advertisement is closed once. -/
theorem AdvertiseInv.closes_once {b : Advertise Update} (h : AdvertiseInv b) : b.ClosesOnce := by
  have hphase : b.stops ≤ 1 ∧ (b.is_ended = true → b.stops = 1) ∧
      b.closed.sets = if b.is_ended then 1 else 0 := by
    cases h.phase with
    | running hactor hstops hcompleted hclosed =>
        have hno : b.is_ended = false := by
          cases ha : b.actor <;> simp_all [Advertise.running, Advertise.is_ended]
        simp [hstops, hclosed, hno]
    | stopping last hactor hstops hcompleted hclosed =>
        simp [Advertise.is_ended, hactor, hstops, hclosed]
    | stopped hactor hstops hcompleted hsome hsets =>
        simp [Advertise.is_ended, hactor, hstops, hsets]
  exact ⟨hphase.1, hphase.2.1, hphase.2.2, h.errors, h.late⟩

/-- Whatever native answers and whatever becomes of a handle and its futures, both tasks
close their session once. -/
theorem native_actors_close_once (convert : Record → Except String Event)
    (browsing : List (BrowseLabel Record)) {b : Browse Event}
    (hbrowsing : Machine.run (Browse.step convert) {} browsing = some b)
    (advertising : List (AdvertiseLabel Update)) {a : Advertise Update}
    (hadvertising : Machine.run Advertise.step {} advertising = some a) :
    b.ClosesOnce ∧ a.ClosesOnce := by
  have hb : BrowseInv b :=
    Machine.run_invariant (fun _ _ _ h hs => browse_inv_step h hs) browse_inv_start hbrowsing
  have ha : AdvertiseInv a :=
    Machine.run_invariant (fun _ _ _ h hs => advertise_inv_step h hs) advertise_inv_start
      hadvertising
  exact ⟨hb.closes_once, ha.closes_once⟩

/-- A poll fails, and so does an update; each call has its error once the native session
is stopped. -/
theorem native_actors_close_once_failed : ∃ (b : Browse ℕ) (a : Advertise ℕ),
    Machine.run (Browse.step (.ok : ℕ → Except String ℕ)) {} [.next, .receive, .polled (.error "poll"),
      .stopped (.ok ()), .take 0] = some b ∧
    Machine.run Advertise.step {} [.update 5, .receive, .updated (.error "update"), .drop_handle,
      .stopped (.error "stop"), .take 0] = some a ∧
    b.is_ended = true ∧ a.is_ended = true ∧ b.ClosesOnce ∧ a.ClosesOnce := by
  have hboth := native_actors_close_once (.ok : ℕ → Except String ℕ) [.next, .receive,
    .polled (.error "poll"), .stopped (.ok ()), .take 0] rfl [.update 5, .receive,
    .updated (.error "update"), .drop_handle, .stopped (.error "stop"), .take 0] rfl
  exact ⟨_, _, rfl, rfl, rfl, rfl, hboth⟩

/-- A second `next` is refused while the session is open, and the event for a call whose
future was dropped is lost: so it is meant to be. That a task without a handle polls on for
a call, as long as there is no record, is a defect: the inner loop passes over the end of the
commands that the outer loop stops at. -/
theorem native_browse_stays_open : ∃ b₁ b₂ b₃ : Browse ℕ,
    (Machine.run (Browse.step (.ok : ℕ → Except String ℕ)) {} [.next, .next, .receive,
        .polled (.ok ⟨.Active, [], none⟩), .wake, .take 1] = some b₁ ∧
      b₁.stop_completed = false ∧ (b₁.calls[1]?).bind (·.returned) = some (.error serialized)) ∧
    (Machine.run (Browse.step (.ok : ℕ → Except String ℕ)) {} [.next, .drop_call 0, .receive,
        .polled (.ok ⟨.Active, [3, 4], none⟩), .next, .receive, .take 1] = some b₂ ∧
      b₂.converted = [3, 4] ∧ b₂.calls.filterMap (fun c => event_of c.returned) = [4]) ∧
    (Machine.run (Browse.step (.ok : ℕ → Except String ℕ)) {} [.next, .drop_call 0, .drop_handle,
        .receive, .polled (.ok ⟨.Active, [], none⟩), .wake, .polled (.ok ⟨.Active, [], none⟩),
        .wake] = some b₃ ∧
      b₃.actor = .polling 0 ∧ b₃.stops = 0) :=
  ⟨_, _, _, ⟨rfl, rfl, rfl⟩, ⟨rfl, rfl, rfl⟩, ⟨rfl, rfl, rfl⟩⟩

end Runs

end IrohHttp.NativeActors
