/-
The `Sink` of `BodyWriter` of `iroh-http-core/src/ffi/handles.rs` against
`BodyWriter::send_chunk`.

The caller keeps the contract of a sink: an item is only given to it behind a `poll_ready`
that returned `Ok`. The awaiting caller makes a call of `send_chunk` for the item instead, and
polls that where the sink is polled. Either way there is one future in flight, which starts
with its first poll: `send_chunk` tries the channel at once and only waits where it is full,
the sink's future waits from the start. Both waits are a `timeout` around `tx.send`.

A poll outside the task's budget does nothing to a `timeout`. It does not hold up `try_send`,
so there a call of `send_chunk` matches the sink that is polled later.
-/
import IrohHttp.PollFrame

set_option autoImplicit false

namespace IrohHttp.PollPaths

open Machine

/-- The error of a writer whose reader is gone. -/
def READER_DROPPED : String := "body reader dropped"

/-- The error of a writer that waited too long. -/
def DRAIN_TIMEOUT : String := "drain timeout: body reader is too slow"

/-! ## The writer -/

/-- A send in flight; it has a deadline once it has been polled. -/
structure Sending where
  item : Bytes
  deadline : Option ℕ := none
  deriving DecidableEq, Repr

/-- The channel and its one sender. `pushed` are the chunks that have entered, `results` what
the sends have returned, and `ready` is whether the last poll returned `Ok`. -/
structure Writer where
  capacity : ℕ
  drain_timeout : ℕ
  now : ℕ := 0
  queue : List Bytes := []
  rx_alive : Bool := true
  pushed : List Bytes := []
  sending : Option Sending := none
  ready : Bool := false
  results : List (Except String Unit) := []

namespace Writer

/-- The chunk enters the channel. -/
def push (w : Writer) (chunk : Bytes) : Writer :=
  { w with queue := w.queue ++ [chunk], pushed := w.pushed ++ [chunk] }

/-- A permit of the channel is free. -/
def room (w : Writer) : Bool := decide (w.queue.length < w.capacity)

/-- The future in flight returns. -/
def finish (w : Writer) (result : Except String Unit) : Writer :=
  { w with sending := none, ready := result.isOk, results := w.results ++ [result] }

/-- The future in flight stays in flight. -/
def wait (w : Writer) (item : Bytes) (deadline : ℕ) : Writer :=
  { w with sending := some ⟨item, some deadline⟩, ready := false }

/-- One poll of `timeout(drain_timeout, tx.send(item))`: the send first, then the clock. -/
def poll_timeout (w : Writer) (item : Bytes) (deadline : ℕ) (budget : Bool) : Writer :=
  if !budget then w.wait item deadline
  else if !w.rx_alive then w.finish (.error READER_DROPPED)
  else if w.room then (w.push item).finish (.ok ())
  else if deadline ≤ w.now then w.finish (.error DRAIN_TIMEOUT)
  else w.wait item deadline

/-- `mpsc::error::TrySendError`, without the item that it gives back. -/
inductive TrySendError
  | Closed
  | Full
  deriving DecidableEq, Repr

/-- `Sender::try_send`. -/
def try_send (w : Writer) (item : Bytes) : Except TrySendError Writer :=
  if !w.rx_alive then .error .Closed
  else if w.room then .ok (w.push item)
  else .error .Full

/-- One poll of a call of `send_chunk`. -/
def send_chunk (w : Writer) (call : Sending) (budget : Bool) : Writer :=
  match call.deadline with
  | some deadline => w.poll_timeout call.item deadline budget
  | none =>
    match w.try_send call.item with
    | .ok w => w.finish (.ok ())
    | .error .Closed => w.finish (.error READER_DROPPED)
    | .error .Full => w.poll_timeout call.item (w.now + w.drain_timeout) budget

/-- One poll of the future that `start_send` builds. -/
def poll_sending (w : Writer) (fut : Sending) (budget : Bool) : Writer :=
  w.poll_timeout fut.item (fut.deadline.getD (w.now + w.drain_timeout)) budget

/-- `poll_ready` of the sink: what is being sent goes first. -/
def poll_ready (w : Writer) (budget : Bool) : Writer :=
  match w.sending with
  | none => { w with ready := true }
  | some fut => w.poll_sending fut budget

/-- `start_send` keeps the item for the next poll. -/
def start_send (w : Writer) (item : Bytes) : Writer :=
  { w with sending := some ⟨item, none⟩, ready := false }

/-- `poll_flush` waits for the item that is being sent. -/
def poll_flush (w : Writer) (budget : Bool) : Writer := w.poll_ready budget

/-- `poll_close` is a flush. -/
def poll_close (w : Writer) (budget : Bool) : Writer := w.poll_flush budget

/-- The awaiting caller is polled: its call, where it has made one. -/
def poll_call (w : Writer) (budget : Bool) : Writer :=
  match w.sending with
  | none => { w with ready := true }
  | some call => w.send_chunk call budget

end Writer

/-! ## Histories -/

/-- The two ways to write a body: the sink of the server and `send_chunk` of the host. -/
inductive SinkPath
  | sink
  | send_chunk
  deriving DecidableEq, Repr

/-- The polls of a sink. -/
inductive SinkPoll
  | poll_ready
  | poll_flush
  | poll_close
  deriving DecidableEq, Repr

/-- What the reader does, the clock, and the caller of either path. -/
inductive SinkEvent
  | recv
  | drop_reader
  | tick (duration : ℕ)
  | start_send (item : Bytes)
  | poll (op : SinkPoll) (budget : Bool)
  | idle
  deriving DecidableEq, Repr

namespace Writer

/-- A poll by either path; a `send_chunk` is polled as the call it is. -/
def poll (path : SinkPath) (w : Writer) (op : SinkPoll) (budget : Bool) : Writer :=
  match path, op with
  | .send_chunk, _ => w.poll_call budget
  | .sink, .poll_ready => w.poll_ready budget
  | .sink, .poll_flush => w.poll_flush budget
  | .sink, .poll_close => w.poll_close budget

/-- One step of a writer on a path. -/
def step (path : SinkPath) (w : Writer) : SinkEvent → Option Writer
  | .recv =>
    match w.queue with
    | _ :: rest => if w.rx_alive then some { w with queue := rest } else none
    | [] => none
  | .drop_reader => some { w with rx_alive := false }
  | .tick duration => some { w with now := w.now + duration }
  -- the contract: an item is given only behind a poll that returned `Ok`
  | .start_send item => if w.ready then some (w.start_send item) else none
  | .poll op budget => some (w.poll path op budget)
  | .idle => some w

/-- A writer of an empty channel. -/
def start (capacity drain_timeout : ℕ) : Writer := { capacity, drain_timeout }

/-! ## One poll of either future -/

/-- Every poll of the sink waits for the item that is being sent. -/
theorem poll_sink (w : Writer) (op : SinkPoll) (budget : Bool) :
    w.poll .sink op budget = w.poll_ready budget := by
  cases op <;> rfl

/-- Without a reader the send ends with its error. -/
theorem poll_timeout_of_dropped {w : Writer} (hdropped : w.rx_alive = false) (item : Bytes)
    (deadline : ℕ) : w.poll_timeout item deadline true = w.finish (.error READER_DROPPED) := by
  rw [poll_timeout, hdropped]
  rfl

/-- With room the send ends at its first poll. -/
theorem poll_timeout_of_room {w : Writer} (halive : w.rx_alive = true) (hroom : w.room = true)
    (item : Bytes) (deadline : ℕ) :
    w.poll_timeout item deadline true = (w.push item).finish (.ok ()) := by
  rw [poll_timeout, halive, hroom]
  rfl

/-- Where the channel has room, or the reader is gone, the deadline of a wait does not matter,
and neither does what was in flight. -/
theorem poll_timeout_sending {w : Writer} {item : Bytes}
    (hopen : w.rx_alive = false ∨ w.room = true) (flight : Option Sending)
    (deadline deadline' : ℕ) :
    ({ w with sending := flight } : Writer).poll_timeout item deadline true =
      w.poll_timeout item deadline' true := by
  by_cases halive : w.rx_alive = true
  · have hroom : w.room = true := hopen.resolve_left (by rw [halive]; simp)
    have hroom' : ({ w with sending := flight } : Writer).room = true := hroom
    rw [poll_timeout_of_room halive hroom item deadline']
    exact poll_timeout_of_room (w := { w with sending := flight }) halive hroom' item deadline
  · rw [Bool.not_eq_true] at halive
    rw [poll_timeout_of_dropped halive item deadline']
    exact poll_timeout_of_dropped (w := { w with sending := flight }) halive item deadline

/-- There a call of `send_chunk` is done with its first poll. -/
theorem send_chunk_of_open {w : Writer} {item : Bytes}
    (hopen : w.rx_alive = false ∨ w.room = true) (deadline : ℕ) :
    w.send_chunk ⟨item, none⟩ true = w.poll_timeout item deadline true := by
  unfold send_chunk try_send
  by_cases halive : w.rx_alive = true
  · have hroom : w.room = true := hopen.resolve_left (by rw [halive]; simp)
    rw [poll_timeout_of_room halive hroom item deadline, halive, hroom]
    rfl
  · rw [Bool.not_eq_true] at halive
    rw [poll_timeout_of_dropped halive item deadline, halive]
    rfl

/-- Where it cannot, a call of `send_chunk` waits from its first poll on, as the sink does. -/
theorem send_chunk_of_full {w : Writer} {item : Bytes} (halive : w.rx_alive = true)
    (hfull : w.room = false) (budget : Bool) :
    w.send_chunk ⟨item, none⟩ budget = w.poll_sending ⟨item, none⟩ budget := by
  unfold send_chunk try_send poll_sending
  simp [halive, hfull]

end Writer

/-! ## The sink against the awaited calls -/

/-- The same event; or where the sink is polled outside the task's budget, no poll. -/
inductive Delayed : SinkEvent → SinkEvent → Prop
  | same (e : SinkEvent) : Delayed e e
  | idle (op : SinkPoll) : Delayed (.poll op false) .idle

/-- The states of the sink and of the awaited calls. The sink may have a deadline where the
call has not been polled yet; then the call will not have to wait. -/
structure Matched (w v : Writer) : Prop where
  rest : v = { w with sending := v.sending }
  sending : w.sending = v.sending ∨ ∃ item deadline, w.sending = some ⟨item, some deadline⟩ ∧
    v.sending = some ⟨item, none⟩ ∧ (w.rx_alive = false ∨ w.room = true)
  waiting : w.sending ≠ none → w.ready = false

theorem Matched.same {w : Writer} (hwaiting : w.sending ≠ none → w.ready = false) :
    Matched w w := ⟨rfl, .inl rfl, hwaiting⟩

/-- Whatever a poll of a `timeout` comes to, a future in flight is not ready. -/
theorem poll_timeout_waiting (w : Writer) (item : Bytes) (deadline : ℕ) (budget : Bool) :
    (w.poll_timeout item deadline budget).sending ≠ none →
      (w.poll_timeout item deadline budget).ready = false := by
  unfold Writer.poll_timeout
  split_ifs
  · exact fun _ => rfl
  · exact fun h => absurd rfl h
  · exact fun h => absurd rfl h
  · exact fun h => absurd rfl h
  · exact fun _ => rfl

/-- A poll of the sink is a poll of the call or a wait. -/
theorem matched_poll {w v w' : Writer} {op : SinkPoll} {budget : Bool} (h : Matched w v)
    (hstep : w.step .sink (.poll op budget) = some w') :
    ∃ e' v', Delayed (.poll op budget) e' ∧ v.step .send_chunk e' = some v' ∧ Matched w' v' := by
  rw [Writer.step, Option.some.injEq, Writer.poll_sink] at hstep
  obtain ⟨hrest, hsending, hwaiting⟩ := h
  rcases hsending with hsame | ⟨item, deadline, hw, hv, hopen⟩
  · have hv : v = w := by rw [hrest, ← hsame]
    subst hv
    rcases hflight : v.sending with _ | ⟨item, _ | deadline⟩
    · -- nothing is in flight
      rw [Writer.poll_ready, hflight] at hstep
      refine ⟨.poll op budget, w', .same _, ?_, ?_⟩
      · rw [Writer.step, Writer.poll, Writer.poll_call, hflight, hstep]
      · rw [← hstep]
        exact Matched.same fun h => absurd rfl h
    · rw [Writer.poll_ready, hflight] at hstep
      have hidle : v.ready = false := hwaiting (by rw [hflight]; exact Option.some_ne_none _)
      by_cases hopen : v.rx_alive = false ∨ v.room = true
      · cases budget with
        | true =>
            refine ⟨.poll op true, w', .same _, ?_, ?_⟩
            · rw [Writer.step, Writer.poll, Writer.poll_call, hflight, ← hstep]
              exact congrArg some (Writer.send_chunk_of_open hopen _)
            · rw [← hstep]
              exact Matched.same (poll_timeout_waiting _ _ _ _)
        | false =>
            -- the sink starts its clock here, and the call has not begun
            refine ⟨.idle, v, .idle op, rfl, ?_⟩
            rw [← hstep]
            refine ⟨?_, .inr ⟨item, _, rfl, hflight, hopen⟩, fun _ => rfl⟩
            rcases v with ⟨_, _, _, _, _, _, _, ready, _⟩
            have hready : ready = false := hidle
            rw [hready]
            rfl
      · rw [not_or, Bool.not_eq_false, Bool.not_eq_true] at hopen
        refine ⟨.poll op budget, w', .same _, ?_, ?_⟩
        · rw [Writer.step, Writer.poll, Writer.poll_call, hflight, ← hstep]
          exact congrArg some (Writer.send_chunk_of_full hopen.1 hopen.2 budget)
        · rw [← hstep]
          exact Matched.same (poll_timeout_waiting _ _ _ _)
    · rw [Writer.poll_ready, hflight] at hstep
      refine ⟨.poll op budget, w', .same _, ?_, ?_⟩
      · rw [Writer.step, Writer.poll, Writer.poll_call, hflight, ← hstep]
        rfl
      · rw [← hstep]
        exact Matched.same (poll_timeout_waiting _ _ _ _)
  · rw [Writer.poll_ready, hw] at hstep
    have hidle : w.ready = false := hwaiting (by rw [hw]; exact Option.some_ne_none _)
    have hcall : v = { w with sending := some ⟨item, none⟩ } := by rw [hrest, hv]
    cases budget with
    | true =>
        have hopen' : v.rx_alive = false ∨ v.room = true := by
          rw [hcall]
          exact hopen
        refine ⟨.poll op true, w', .same _, ?_, ?_⟩
        · rw [Writer.step, Writer.poll, Writer.poll_call, hv, ← hstep]
          apply congrArg some
          dsimp only
          rw [Writer.send_chunk_of_open hopen' deadline, hcall]
          exact Writer.poll_timeout_sending hopen _ _ _
        · rw [← hstep]
          exact Matched.same (poll_timeout_waiting _ _ _ _)
    | false =>
        refine ⟨.idle, v, .idle op, rfl, ?_⟩
        rw [← hstep]
        refine ⟨?_, .inr ⟨item, deadline, rfl, hv, hopen⟩, fun _ => rfl⟩
        rw [hcall]
        rcases w with ⟨_, _, _, _, _, _, _, ready, _⟩
        have hready : ready = false := hidle
        rw [hready]
        rfl

/-- The flight of the call in progress changes nothing about the other steps. -/
theorem matched_other {w v : Writer} (f : Writer → Writer) (h : Matched w v)
    (hframe : ∀ (t : Writer) (flight : Option Sending), f { t with sending := flight } =
      { f t with sending := flight })
    (hready : (f w).ready = w.ready)
    (hroom : w.rx_alive = false ∨ w.room = true → (f w).rx_alive = false ∨ (f w).room = true) :
    Matched (f w) (f v) := by
  have hflight : ∀ t : Writer, (f t).sending = t.sending := fun t => by
    have hsame := hframe t t.sending
    change f t = { f t with sending := t.sending } at hsame
    rw [hsame]
  have hv : (f v).sending = v.sending := hflight v
  constructor
  · rw [hv]
    calc f v = f { w with sending := v.sending } := congrArg f h.rest
      _ = { f w with sending := v.sending } := hframe w v.sending
  · rw [hflight w, hv]
    rcases h.sending with hsame | ⟨item, deadline, hw, hcall, hopen⟩
    · exact .inl hsame
    · exact .inr ⟨item, deadline, hw, hcall, hroom hopen⟩
  · intro hwaiting
    rw [hflight w] at hwaiting
    rw [hready]
    exact h.waiting hwaiting

/-- **One step of the sink** is a step of `send_chunk`, or the same step later. -/
theorem matched_step (w v : Writer) (e : SinkEvent) (w' : Writer) (h : Matched w v)
    (hstep : w.step .sink e = some w') :
    ∃ e' v', Delayed e e' ∧ v.step .send_chunk e' = some v' ∧ Matched w' v' := by
  -- the two differ in nothing but the send in flight
  have hqueue : v.queue = w.queue := by rw [h.rest]
  have halive : v.rx_alive = w.rx_alive := by rw [h.rest]
  have hready : v.ready = w.ready := by rw [h.rest]
  cases e with
  | recv =>
      rcases hchunks : w.queue with _ | ⟨chunk, rest⟩
      · rw [Writer.step, hchunks] at hstep
        cases hstep
      · rw [Writer.step, hchunks] at hstep
        dsimp only at hstep
        rw [Option.ite_none_right_eq_some, Option.some.injEq] at hstep
        refine ⟨.recv, { v with queue := rest }, .same _, ?_, ?_⟩
        · rw [Writer.step, hqueue, hchunks]
          dsimp only
          rw [halive, if_pos hstep.1]
        · rw [← hstep.2]
          apply matched_other (fun t => { t with queue := rest }) h
          · intro t flight
            rfl
          · rfl
          · -- a chunk taken leaves room
            rintro (hdropped | hroom)
            · exact .inl hdropped
            · refine .inr (decide_eq_true ?_)
              have hlt : w.queue.length < w.capacity := of_decide_eq_true hroom
              rw [hchunks, List.length_cons] at hlt
              change rest.length < w.capacity
              omega
  | drop_reader =>
      rw [Writer.step, Option.some.injEq] at hstep
      refine ⟨.drop_reader, { v with rx_alive := false }, .same _, rfl, ?_⟩
      rw [← hstep]
      exact matched_other (fun t => { t with rx_alive := false }) h (fun _ _ => rfl) rfl
        fun _ => .inl rfl
  | tick duration =>
      rw [Writer.step, Option.some.injEq] at hstep
      refine ⟨.tick duration, { v with now := v.now + duration }, .same _, rfl, ?_⟩
      rw [← hstep]
      exact matched_other (fun t => { t with now := t.now + duration }) h (fun _ _ => rfl) rfl id
  | start_send item =>
      rw [Writer.step, Option.ite_none_right_eq_some, Option.some.injEq] at hstep
      refine ⟨.start_send item, v.start_send item, .same _, ?_, ?_⟩
      · rw [Writer.step, hready, if_pos hstep.1]
      · -- behind a poll that returned `Ok` nothing is in flight
        have hnone : w.sending = none := by
          by_contra hsome
          rw [h.waiting hsome] at hstep
          exact absurd hstep.1 Bool.false_ne_true
        have hsame : v = w := by
          rcases h.sending with heq | ⟨_, _, hsome, _⟩
          · rw [h.rest, ← heq]
          · rw [hnone] at hsome
            cases hsome
        rw [← hstep.2, hsame]
        exact Matched.same fun _ => rfl
  | poll op budget => exact matched_poll h hstep
  | idle =>
      rw [Writer.step, Option.some.injEq] at hstep
      exact ⟨.idle, v, .same _, rfl, hstep ▸ h⟩

/-- What a sink has come to over a history: calls of `send_chunk` for the same items, over the
same history of the channel, come to the same. -/
def SinkRefines (capacity drain_timeout : ℕ) (history : List SinkEvent) (w : Writer) : Prop :=
  ∃ history' v, List.Forall₂ Delayed history history' ∧
    run (Writer.step .send_chunk) (Writer.start capacity drain_timeout) history' = some v ∧
    v.pushed = w.pushed ∧ v.results = w.results

/-- **The sink does what `send_chunk` does**, in every run. -/
theorem sink_refines {capacity drain_timeout : ℕ} {history : List SinkEvent} {w : Writer}
    (hrun : run (Writer.step .sink) (Writer.start capacity drain_timeout) history = some w) :
    SinkRefines capacity drain_timeout history w := by
  have hstart : Matched (Writer.start capacity drain_timeout) (Writer.start capacity drain_timeout) :=
    Matched.same fun h => absurd rfl h
  obtain ⟨history', v, hdelayed, hrun', hmatched⟩ := run_relabelled matched_step hstart hrun
  refine ⟨history', v, hdelayed, hrun', ?_, ?_⟩
  · rw [hmatched.rest]
  · rw [hmatched.rest]

/-- The poll paths of a body channel refine the async ones, whatever the order of polls,
budgets, chunks, closing and cancelling, and of what the reader and the clock do. -/
theorem poll_paths_refine {history : List Event} {s : Reader}
    (hread : run (Reader.step .poll_frame) {} history = some s)
    {capacity drain_timeout : ℕ} {writes : List SinkEvent} {w : Writer}
    (hwrite : run (Writer.step .sink) (Writer.start capacity drain_timeout) writes = some w) :
    FramesRefine history s ∧ SinkRefines capacity drain_timeout writes w :=
  ⟨frames_refine hread, sink_refines hwrite⟩

/-- A body polled in vain, left, and polled again; a sink that waits for room and then too
long. -/
theorem left_poll_and_slow_reader_refine :
    FramesRefine
      [.poll .full, .leave true, .push [1], .push [2], .poll .full, .poll .full, .close, .poll .full]
      { tx_open := false,
        polled := [.pending, .ready (some [1]), .ready (some [2]), .ready none] } ∧
    SinkRefines 1 5
      [.poll .poll_ready true, .start_send [1], .poll .poll_ready true, .start_send [2],
        .poll .poll_ready false, .tick 5, .poll .poll_flush true]
      { capacity := 1, drain_timeout := 5, now := 5, queue := [[1]], pushed := [[1]],
        results := [.ok (), .error DRAIN_TIMEOUT] } :=
  poll_paths_refine rfl rfl

end IrohHttp.PollPaths
