/-
`BodyReader::poll_frame` of `iroh-http-core/src/ffi/handles.rs` against `next_chunk`, which is
`recv_with_cancel` and nothing else.

Both read one channel, so the reader is one state, and its history is one list: chunks come
in, the sender goes, the cancel signal is given, and a consumer polls. It polls the body, or
the call of `next_chunk` it has in progress and else a new one. A future is in `pending` from
its first `Pending` on. There `poll_frame` keeps it for the next poll; a caller of
`next_chunk` that leaves may keep its call or drop it.

An operation of Tokio may also be pending because the task is out of budget. Which of the
operations of one poll may go on is part of the poll (`Budget`).
-/
import IrohHttp.CoreError
import IrohHttp.Machine
import Mathlib.Data.List.Infix

set_option autoImplicit false

namespace IrohHttp.PollPaths

open Machine

/-- `Poll` -/
inductive Poll (α : Type)
  | pending
  | ready (value : α)
  deriving DecidableEq, Repr

/-- `Poll::is_ready` -/
def Poll.is_ready {α : Type} : Poll α → Bool
  | .pending => false
  | .ready _ => true

/-! ## The reader -/

/-- A future of `recv_with_cancel` that has been polled: whether the signal has been given
since, and whether it is past the lock, which it then holds. -/
structure RecvWithCancel where
  notified : Bool := false
  locked : Bool := false
  deriving DecidableEq, Repr

/-- What the operations of one poll find of the task's budget. -/
structure Budget where
  select : Bool
  cancel : Bool
  lock : Bool
  recv : Bool
  deriving DecidableEq, Repr

/-- A task with budget left. -/
def Budget.full : Budget := ⟨true, true, true, true⟩

/-- The channel behind its lock, the future in flight, and what the polls have returned. -/
structure Reader where
  queue : List Bytes := []
  tx_open : Bool := true
  lock : Bool := false
  pending : Option RecvWithCancel := none
  polled : List (Poll (Option Bytes)) := []
  deriving DecidableEq, Repr

namespace Reader

/-- The future goes, and with it its hold of the lock. -/
def finish (s : Reader) (fut : RecvWithCancel) : Reader :=
  { s with lock := s.lock && !fut.locked, pending := none }

/-- `rx.lock().await` -/
def acquire (s : Reader) (fut : RecvWithCancel) (b : Budget) : RecvWithCancel × Reader :=
  if !fut.locked && b.lock && !s.lock then ({ fut with locked := true }, { s with lock := true })
  else (fut, s)

/-- `recv().await` of the receiver; `none` where it is pending. -/
def recv (s : Reader) (b : Budget) : Option (Option Bytes × Reader) :=
  if b.recv then
    match s.queue with
    | chunk :: rest => some (some chunk, { s with queue := rest })
    | [] => if s.tx_open then none else some (none, s)
  else none

/-- One poll of the future: the signal is looked at first. -/
def recv_with_cancel (s : Reader) (fut : RecvWithCancel) (b : Budget) :
    Poll (Option Bytes) × Reader :=
  if !b.select then (.pending, { s with pending := some fut })
  else if fut.notified && b.cancel then (.ready none, s.finish fut)
  else
    let (fut, s) := s.acquire fut b
    if fut.locked then
      match s.recv b with
      | some (chunk, s) => (.ready chunk, s.finish fut)
      | none => (.pending, { s with pending := some fut })
    else (.pending, { s with pending := some fut })

/-- `rx.try_lock()` and `rx.try_recv()`; `none` where there is nothing to return at once. -/
def try_recv (s : Reader) : Option (Option Bytes × Reader) :=
  if s.lock then none
  else
    match s.queue with
    | chunk :: rest => some (some chunk, { s with queue := rest })
    | [] => if s.tx_open then none else some (none, s)

/-- `poll_frame`: the queue first, unless a receive is pending. -/
def poll_frame (s : Reader) (b : Budget) : Poll (Option Bytes) × Reader :=
  match if s.pending.isNone then s.try_recv else none with
  | some (frame, s) => (.ready frame, s)
  | none => s.recv_with_cancel (s.pending.getD {}) b

/-- A poll of the call of `next_chunk` in progress, or of a new one. -/
def next_chunk (s : Reader) (b : Budget) : Poll (Option Bytes) × Reader :=
  s.recv_with_cancel (s.pending.getD {}) b

end Reader

/-! ## Histories -/

/-- The two ways to read a body. -/
inductive Path
  | poll_frame
  | next_chunk
  deriving DecidableEq, Repr

/-- What can happen to a reader. -/
inductive Event
  | push (chunk : Bytes)
  | close
  | notify
  | poll (b : Budget)
  | leave (dropped : Bool)
  deriving DecidableEq, Repr

namespace Reader

/-- A poll by either path. -/
def poll (path : Path) (s : Reader) (b : Budget) : Poll (Option Bytes) × Reader :=
  match path with
  | .poll_frame => s.poll_frame b
  | .next_chunk => s.next_chunk b

/-- A poll with its result written down. -/
def after_poll (path : Path) (s : Reader) (b : Budget) : Reader :=
  { (s.poll path b).2 with polled := s.polled ++ [(s.poll path b).1] }

/-- The consumer gives its poll up. Only a call of `next_chunk` can be dropped with it. -/
def leave (path : Path) (s : Reader) (dropped : Bool) : Reader :=
  match path, s.pending with
  | .next_chunk, some fut => if dropped then s.finish fut else s
  | _, _ => s

/-- One step, `none` where the event is not enabled. -/
def step (path : Path) (s : Reader) : Event → Option Reader
  | .push chunk => if s.tx_open then some { s with queue := s.queue ++ [chunk] } else none
  | .close => some { s with tx_open := false }
  -- `notify_waiters` reaches the futures that have been polled
  | .notify => some { s with pending := s.pending.map fun fut => { fut with notified := true } }
  | .poll b => some (s.after_poll path b)
  | .leave dropped => some (s.leave path dropped)

/-! ## One poll -/

/-- The lock is held by the future in flight, if at all. -/
def Held (s : Reader) : Prop := s.lock = (s.pending.getD {}).locked

/-- What one poll of the channel can find. -/
theorem recv_cases (s : Reader) (b : Budget) :
    s.recv b = none ∨
    (∃ chunk rest, s.queue = chunk :: rest ∧ s.recv b = some (some chunk, { s with queue := rest })) ∨
    (s.queue = [] ∧ s.tx_open = false ∧ s.recv b = some (none, s)) := by
  rcases s with ⟨_ | ⟨chunk, rest⟩, tx_open, lock, pending, polled⟩
  all_goals
    unfold recv
    by_cases hrecv : b.recv = true
    · rw [if_pos hrecv]
      cases tx_open <;> simp
    · exact .inl (if_neg hrecv)

/-- A poll of a future is pending and keeps it, or it gives way to the signal, or it takes the
first chunk, or it sees the end. -/
theorem recv_with_cancel_cases {s : Reader} {fut : RecvWithCancel} (hlock : s.lock = fut.locked)
    (b : Budget) :
    (∃ fut', fut'.notified = fut.notified ∧ s.recv_with_cancel fut b =
      (.pending, { s with lock := fut'.locked, pending := some fut' })) ∨
    (fut.notified = true ∧
      s.recv_with_cancel fut b = (.ready none, { s with lock := false, pending := none })) ∨
    (∃ chunk rest, s.queue = chunk :: rest ∧ s.recv_with_cancel fut b =
      (.ready (some chunk), { s with queue := rest, lock := false, pending := none })) ∨
    (s.queue = [] ∧ s.tx_open = false ∧
      s.recv_with_cancel fut b = (.ready none, { s with lock := false, pending := none })) := by
  -- a future that ends gives the lock back, if it had it
  have hfinish : ∀ t : Reader, ∀ fut' : RecvWithCancel, t.lock = fut'.locked →
      t.finish fut' = { t with lock := false, pending := none } := by
    intro t fut' h
    rw [finish, h, Bool.and_not_self]
  -- without budget for the `select!` nothing is polled
  by_cases hselect : b.select = true
  · by_cases hnotified : (fut.notified && b.cancel) = true
    · refine .inr (.inl ⟨(Bool.and_eq_true_iff.mp hnotified).1, ?_⟩)
      rw [recv_with_cancel, hselect, if_pos hnotified, hfinish s fut hlock]
      rfl
    · -- what the future is past the lock's operation, and the lock with it
      obtain ⟨fut', hacquire, hsame⟩ : ∃ fut' : RecvWithCancel,
          s.acquire fut b = (fut', { s with lock := fut'.locked }) ∧
            fut'.notified = fut.notified := by
        unfold acquire
        by_cases h : (!fut.locked && b.lock && !s.lock) = true
        · rw [if_pos h]
          exact ⟨_, rfl, rfl⟩
        · rw [if_neg h]
          refine ⟨fut, ?_, rfl⟩
          rw [← hlock]
      have hpoll : s.recv_with_cancel fut b =
          if fut'.locked then
            match ({ s with lock := fut'.locked } : Reader).recv b with
            | some (chunk, t) => (.ready chunk, t.finish fut')
            | none => (.pending, { s with lock := fut'.locked, pending := some fut' })
          else (.pending, { s with lock := fut'.locked, pending := some fut' }) := by
        rw [recv_with_cancel, hselect, if_neg hnotified, hacquire]
        rfl
      rw [hpoll]
      by_cases hlocked : fut'.locked = true
      · rw [if_pos hlocked]
        rcases recv_cases { s with lock := fut'.locked } b with
          hnone | ⟨chunk, rest, hqueue, hsome⟩ | ⟨hqueue, hopen, hsome⟩
        · rw [hnone]
          exact .inl ⟨fut', hsame, rfl⟩
        · rw [hsome]
          refine .inr (.inr (.inl ⟨chunk, rest, hqueue, ?_⟩))
          exact congrArg _ (hfinish { s with queue := rest, lock := fut'.locked } fut' rfl)
        · rw [hsome]
          refine .inr (.inr (.inr ⟨hqueue, hopen, ?_⟩))
          exact congrArg _ (hfinish { s with lock := fut'.locked } fut' rfl)
      · rw [if_neg hlocked]
        exact .inl ⟨fut', hsame, rfl⟩
  · refine .inl ⟨fut, rfl, ?_⟩
    rw [Bool.not_eq_true] at hselect
    rw [recv_with_cancel, hselect, ← hlock]
    rfl

/-- What `poll_frame` takes at once, a call of `next_chunk` within its budget takes too. -/
theorem exists_next_chunk_eq {s : Reader} (hheld : s.Held) (b : Budget) :
    ∃ b', s.next_chunk b' = s.poll_frame b := by
  rcases s with ⟨queue, tx_open, lock, _ | fut, polled⟩
  · -- nothing is in flight, so the lock is free
    have hfree : lock = false := hheld
    rw [hfree]
    rcases queue with _ | ⟨chunk, rest⟩
    · cases tx_open with
      | false => exact ⟨.full, rfl⟩
      | true => exact ⟨b, rfl⟩
    · exact ⟨.full, rfl⟩
  · exact ⟨b, rfl⟩

/-- What one poll of the reader can do. -/
theorem poll_cases {s : Reader} (hheld : s.Held) (path : Path) (b : Budget) :
    (∃ fut, fut.notified = (s.pending.getD {}).notified ∧ s.poll path b =
      (.pending, { s with lock := fut.locked, pending := some fut })) ∨
    ((s.pending.getD {}).notified = true ∧
      s.poll path b = (.ready none, { s with lock := false, pending := none })) ∨
    (∃ chunk rest, s.queue = chunk :: rest ∧ s.poll path b =
      (.ready (some chunk), { s with queue := rest, lock := false, pending := none })) ∨
    (s.queue = [] ∧ s.tx_open = false ∧
      s.poll path b = (.ready none, { s with lock := false, pending := none })) := by
  cases path with
  | next_chunk => exact recv_with_cancel_cases hheld b
  | poll_frame =>
      obtain ⟨b', heq⟩ := exists_next_chunk_eq hheld b
      change (∃ fut, _ ∧ s.poll_frame b = _) ∨ (_ ∧ s.poll_frame b = _) ∨
        (∃ chunk rest, _ ∧ s.poll_frame b = _) ∨ (_ ∧ _ ∧ s.poll_frame b = _)
      rw [← heq]
      exact recv_with_cancel_cases hheld b'

/-- The lock is held by the pending future, or by nobody. -/
theorem held_step {path : Path} {s s' : Reader} {e : Event} (hheld : s.Held)
    (hstep : s.step path e = some s') : s'.Held := by
  cases e with
  | push chunk =>
      rw [step, Option.ite_none_right_eq_some, Option.some.injEq] at hstep
      rw [← hstep.2]
      exact hheld
  | close =>
      rw [step, Option.some.injEq] at hstep
      rw [← hstep]
      exact hheld
  | notify =>
      rw [step, Option.some.injEq] at hstep
      rw [← hstep]
      rcases s with ⟨queue, tx_open, lock, _ | fut, polled⟩
      · exact hheld
      · exact hheld
  | poll b =>
      rw [step, Option.some.injEq] at hstep
      rw [← hstep]
      rcases poll_cases hheld path b with
        ⟨fut, _, h⟩ | ⟨_, h⟩ | ⟨chunk, rest, _, h⟩ | ⟨_, _, h⟩
      all_goals
        rw [after_poll, h]
        rfl
  | leave dropped =>
      rw [step, Option.some.injEq] at hstep
      rw [← hstep]
      rcases s with ⟨queue, tx_open, lock, _ | fut, polled⟩
      · cases path <;> exact hheld
      · cases path with
        | poll_frame => exact hheld
        | next_chunk =>
            cases dropped with
            | false => exact hheld
            | true =>
                have hlock : lock = fut.locked := hheld
                change (lock && !fut.locked) = false
                rw [hlock, Bool.and_not_self]

end Reader

/-! ## The polled body against the awaited calls -/

/-- The same event of the channel, or a poll within some budget, or a consumer that leaves and
keeps its call. -/
inductive Retimed : Event → Event → Prop
  | push (chunk : Bytes) : Retimed (.push chunk) (.push chunk)
  | close : Retimed .close .close
  | notify : Retimed .notify .notify
  | poll (b b' : Budget) : Retimed (.poll b) (.poll b')
  | leave (dropped : Bool) : Retimed (.leave dropped) (.leave false)

/-- Poll by poll, the calls of `next_chunk` return what the polls of the body do. -/
theorem run_next_chunk {history : List Event} {s : Reader}
    (hrun : run (Reader.step .poll_frame) {} history = some s) :
    ∃ history', List.Forall₂ Retimed history history' ∧
      run (Reader.step .next_chunk) {} history' = some s := by
  have hstep : ∀ (s t : Reader) (e : Event) (s' : Reader), s = t ∧ s.Held →
      s.step .poll_frame e = some s' →
      ∃ e' t', Retimed e e' ∧ t.step .next_chunk e' = some t' ∧ s' = t' ∧ s'.Held := by
    rintro s _ e s' ⟨rfl, hheld⟩ hs
    have hheld' := Reader.held_step hheld hs
    cases e with
    | push chunk => exact ⟨.push chunk, s', .push chunk, hs, rfl, hheld'⟩
    | close => exact ⟨.close, s', .close, hs, rfl, hheld'⟩
    | notify => exact ⟨.notify, s', .notify, hs, rfl, hheld'⟩
    | poll b =>
        obtain ⟨b', heq⟩ := Reader.exists_next_chunk_eq hheld b
        refine ⟨.poll b', s', .poll b b', ?_, rfl, hheld'⟩
        rw [← hs, Reader.step, Reader.step, Reader.after_poll, Reader.after_poll, Reader.poll,
          Reader.poll, heq]
    | leave dropped =>
        refine ⟨.leave false, s', .leave dropped, ?_, rfl, hheld'⟩
        rw [← hs, Reader.step, Reader.step]
        rcases s with ⟨queue, tx_open, lock, _ | fut, polled⟩
        · rfl
        · rfl
  have hstart : ({} : Reader) = {} ∧ Reader.Held {} := ⟨rfl, rfl⟩
  obtain ⟨history', t, hrelated, hrun', rfl, _⟩ := run_relabelled hstep hstart hrun
  exact ⟨history', hrelated, hrun'⟩

/-! ## Histories without the signal -/

/-- The chunks among what the polls returned. -/
def frames (polled : List (Poll (Option Bytes))) : List Bytes :=
  polled.filterMap fun | .ready frame => frame | .pending => none

/-- A poll has returned the end. -/
def Ended (polled : List (Poll (Option Bytes))) : Prop := .ready none ∈ polled

/-- The chunk an event brings into the channel. -/
def Event.chunk : Event → Option Bytes
  | .push chunk => some chunk
  | _ => none

/-- What holds on both paths while no signal is given. -/
structure Reader.Quiet (s : Reader) : Prop where
  held : s.Held
  silent : (s.pending.getD {}).notified = false
  ended : Ended s.polled → s.tx_open = false ∧ s.queue = []

theorem frames_append (polled : List (Poll (Option Bytes))) (result : Poll (Option Bytes)) :
    frames (polled ++ [result]) = frames polled ++ frames [result] := by
  unfold frames
  exact List.filterMap_append

theorem ended_append (polled : List (Poll (Option Bytes))) (result : Poll (Option Bytes)) :
    Ended (polled ++ [result]) ↔ Ended polled ∨ .ready none = result := by
  rw [Ended, List.mem_append, List.mem_singleton]
  rfl

theorem quiet_start : Reader.Quiet {} where
  held := rfl
  silent := rfl
  ended h := absurd h List.not_mem_nil

/-- What has been returned and what is in the channel is what has come in. -/
theorem quiet_step {path : Path} {s s' : Reader} {e : Event} (h : s.Quiet) (he : e ≠ .notify)
    (hstep : s.step path e = some s') :
    s'.Quiet ∧ frames s'.polled ++ s'.queue = frames s.polled ++ s.queue ++ e.chunk.toList := by
  have hheld := Reader.held_step h.held hstep
  cases e with
  | push chunk =>
      rw [Reader.step, Option.ite_none_right_eq_some, Option.some.injEq] at hstep
      obtain ⟨hopen, rfl⟩ := hstep
      refine ⟨⟨hheld, h.silent, fun hended => ?_⟩, (List.append_assoc _ _ _).symm⟩
      rw [(h.ended hended).1] at hopen
      cases hopen
  | close =>
      rw [Reader.step, Option.some.injEq] at hstep
      rw [← hstep] at hheld ⊢
      exact ⟨⟨hheld, h.silent, fun hended => ⟨rfl, (h.ended hended).2⟩⟩, (List.append_nil _).symm⟩
  | notify => exact absurd rfl he
  | poll b =>
      rw [Reader.step, Option.some.injEq] at hstep
      rw [← hstep] at hheld ⊢
      rcases Reader.poll_cases h.held path b with
        ⟨fut, hsame, hpoll⟩ | ⟨hnotified, _⟩ | ⟨chunk, rest, hqueue, hpoll⟩ | ⟨hqueue, hopen, hpoll⟩
      · rw [Reader.after_poll, hpoll] at hheld ⊢
        refine ⟨⟨hheld, hsame.trans h.silent, fun hended => ?_⟩, ?_⟩
        · exact h.ended ((ended_append _ _).mp hended |>.resolve_right (by simp))
        · rw [frames_append]
          simp [frames, Event.chunk]
      · -- there was no signal to give way to
        rw [h.silent] at hnotified
        cases hnotified
      · rw [Reader.after_poll, hpoll] at hheld ⊢
        refine ⟨⟨hheld, rfl, fun hended => ?_⟩, ?_⟩
        · have hbefore := h.ended ((ended_append _ _).mp hended |>.resolve_right (by simp))
          rw [hqueue] at hbefore
          exact absurd hbefore.2 (List.cons_ne_nil _ _)
        · rw [frames_append, hqueue]
          simp [frames, Event.chunk]
      · rw [Reader.after_poll, hpoll] at hheld ⊢
        refine ⟨⟨hheld, rfl, fun _ => ⟨hopen, hqueue⟩⟩, ?_⟩
        rw [frames_append]
        simp [frames, Event.chunk]
  -- leaving a poll touches neither the channel nor what was returned
  | leave dropped =>
      have hleave : (s.leave path dropped).queue = s.queue ∧
          (s.leave path dropped).tx_open = s.tx_open ∧
          (s.leave path dropped).polled = s.polled ∧
          ((s.leave path dropped).pending.getD {}).notified = false := by
        have hsilent := h.silent
        rcases s with ⟨queue, tx_open, lock, _ | fut, polled⟩
        · cases path <;> exact ⟨rfl, rfl, rfl, rfl⟩
        · cases path <;> cases dropped <;> exact ⟨rfl, rfl, rfl, by first | exact hsilent | rfl⟩
      obtain ⟨hqueue, hopen, hpolled, hsilent⟩ := hleave
      rw [Reader.step, Option.some.injEq] at hstep
      rw [← hstep] at hheld ⊢
      refine ⟨⟨hheld, hsilent, ?_⟩, ?_⟩
      · rw [hqueue, hopen, hpolled]
        exact h.ended
      · rw [hqueue, hpolled]
        exact (List.append_nil _).symm

/-- The chunks that come in during a history. -/
def chunks_of (history : List Event) : List Bytes := history.filterMap Event.chunk

/-- Without a cancellation, the frames polled and those in the queue are the chunks sent, in order.
-/
theorem quiet_run {path : Path} {history : List Event} {s s' : Reader} (h : s.Quiet)
    (hsilent : .notify ∉ history) (hrun : run (Reader.step path) s history = some s') :
    s'.Quiet ∧
      frames s'.polled ++ s'.queue = frames s.polled ++ s.queue ++ chunks_of history := by
  induction history generalizing s with
  | nil =>
      rw [run_nil, Option.some.injEq] at hrun
      rw [← hrun]
      exact ⟨h, (List.append_nil _).symm⟩
  | cons e history ih =>
      obtain ⟨t, hstep, hrest⟩ := run_cons_eq_some.mp hrun
      rw [List.mem_cons, not_or] at hsilent
      obtain ⟨hquiet, hfirst⟩ := quiet_step h (Ne.symm hsilent.1) hstep
      obtain ⟨hquiet', hsecond⟩ := ih hquiet hsilent.2 hrest
      refine ⟨hquiet', ?_⟩
      rw [hsecond, hfirst, List.append_assoc, chunks_of, chunks_of, List.filterMap_cons]
      cases e.chunk <;> rfl

/-- Over a history without the signal, either path returns the chunks that came in, in order,
and the end behind the last of them. -/
theorem frames_of_run {path : Path} {history : List Event} {s : Reader}
    (hsilent : .notify ∉ history) (hrun : run (Reader.step path) {} history = some s) :
    frames s.polled <+: chunks_of history ∧
      (Ended s.polled → frames s.polled = chunks_of history) := by
  obtain ⟨hquiet, hall⟩ := quiet_run quiet_start hsilent hrun
  change frames s.polled ++ s.queue = chunks_of history at hall
  refine ⟨⟨s.queue, hall⟩, fun hended => ?_⟩
  rw [← hall, (hquiet.ended hended).2, List.append_nil]

/-- A poll within its budget is ready on a channel whose sender is gone. -/
theorem poll_full_ready {path : Path} {s : Reader} (h : s.Quiet) (hclosed : s.tx_open = false) :
    (s.poll path .full).1.is_ready = true := by
  have hfull : ∀ (t : Reader) (fut : RecvWithCancel), t.lock = fut.locked →
      fut.notified = false → t.tx_open = false → (t.recv_with_cancel fut .full).1.is_ready = true := by
    rintro ⟨queue, tx_open, lock, pending, polled⟩ ⟨notified, locked⟩ hlock hnotified hopen
    dsimp only at hlock hnotified hopen
    rw [hlock, hnotified, hopen]
    rcases queue with _ | ⟨chunk, rest⟩
    · cases locked <;> rfl
    · cases locked <;> rfl
  have hnext := hfull s (s.pending.getD {}) h.held h.silent hclosed
  cases path with
  | next_chunk => exact hnext
  | poll_frame =>
      rcases s with ⟨queue, tx_open, lock, _ | fut, polled⟩
      · have hfree : lock = false := h.held
        have hgone : tx_open = false := hclosed
        rw [hfree, hgone]
        rcases queue with _ | ⟨chunk, rest⟩
        · rfl
        · rfl
      · exact hnext

/-- Such a poll takes the first chunk, or it returns the end. -/
theorem poll_closed (path : Path) {s : Reader} (h : s.Quiet) (hclosed : s.tx_open = false) :
    ∃ s', s.step path (.poll .full) = some s' ∧ s'.Quiet ∧ s'.tx_open = false ∧
      (Ended s'.polled ∨ s.queue.length = s'.queue.length + 1) := by
  have hne : Event.poll .full ≠ .notify := by simp
  refine ⟨s.after_poll path .full, rfl, (quiet_step h hne rfl).1, ?_⟩
  have hready : (s.poll path .full).1.is_ready = true := poll_full_ready h hclosed
  rcases Reader.poll_cases h.held path .full with
    ⟨fut, _, hpoll⟩ | ⟨hnotified, _⟩ | ⟨chunk, rest, hqueue, hpoll⟩ | ⟨_, _, hpoll⟩
  · rw [hpoll] at hready
    cases hready
  · rw [h.silent] at hnotified
    cases hnotified
  · rw [Reader.after_poll, hpoll]
    refine ⟨hclosed, .inr ?_⟩
    rw [hqueue]
    rfl
  · rw [Reader.after_poll, hpoll]
    refine ⟨hclosed, .inl ?_⟩
    exact (ended_append _ _).mpr (.inr rfl)

/-- Once the sender is gone, polls within their budget bring what is left, and then the end. -/
theorem exists_ended (path : Path) {s : Reader} (h : s.Quiet) (hclosed : s.tx_open = false) :
    ∃ k s', run (Reader.step path) s (List.replicate k (.poll .full)) = some s' ∧
      Ended s'.polled := by
  induction hlength : s.queue.length generalizing s with
  | zero =>
      obtain ⟨s', hstep, _, _, hended | hqueue⟩ := poll_closed path h hclosed
      · exact ⟨1, s', run_cons_eq_some.mpr ⟨s', hstep, rfl⟩, hended⟩
      · omega
  | succ n ih =>
      obtain ⟨s', hstep, hquiet, hclosed', hended | hqueue⟩ := poll_closed path h hclosed
      · exact ⟨1, s', run_cons_eq_some.mpr ⟨s', hstep, rfl⟩, hended⟩
      · obtain ⟨k, s'', hrest, hended⟩ := ih hquiet hclosed' (by omega)
        exact ⟨k + 1, s'', run_cons_eq_some.mpr ⟨s', hstep, hrest⟩, hended⟩

/-- What the polls of a body have returned over a history, against the calls of `next_chunk`. -/
structure FramesRefine (history : List Event) (s : Reader) : Prop where
  /-- Calls polled where the body is polled return the same, poll by poll. -/
  same_polls : ∃ history', List.Forall₂ Retimed history history' ∧
    run (Reader.step .next_chunk) {} history' = some s
  /-- Calls polled at any other times return the same chunks, and the end behind the same. -/
  same_chunks : .notify ∉ history → ∀ history' s', .notify ∉ history' →
    chunks_of history' = chunks_of history → run (Reader.step .next_chunk) {} history' = some s' →
    (frames s.polled <+: frames s'.polled ∨ frames s'.polled <+: frames s.polled) ∧
    (Ended s.polled → frames s'.polled <+: frames s.polled) ∧
    (Ended s'.polled → frames s.polled <+: frames s'.polled)
  /-- Behind the last chunk there is an end, once the sender is gone. -/
  ends : .notify ∉ history → s.tx_open = false → ∃ k s',
    run (Reader.step .poll_frame) s (List.replicate k (.poll .full)) = some s' ∧
    Ended s'.polled ∧ frames s'.polled = chunks_of history

/-- The frames polled are a refinement of `next_chunk`'s reads. -/
theorem frames_refine {history : List Event} {s : Reader}
    (hrun : run (Reader.step .poll_frame) {} history = some s) : FramesRefine history s where
  same_polls := run_next_chunk hrun
  same_chunks hsilent history' s' hsilent' hsame hrun' := by
    obtain ⟨hfirst, hend⟩ := frames_of_run hsilent hrun
    obtain ⟨hfirst', hend'⟩ := frames_of_run hsilent' hrun'
    rw [hsame] at hfirst' hend'
    refine ⟨List.prefix_or_prefix_of_prefix hfirst hfirst', fun hended => ?_, fun hended => ?_⟩
    · rw [hend hended]
      exact hfirst'
    · rw [hend' hended]
      exact hfirst
  ends hsilent hclosed := by
    obtain ⟨hquiet, _⟩ := quiet_run quiet_start hsilent hrun
    obtain ⟨k, s', hrest, hended⟩ := exists_ended .poll_frame hquiet hclosed
    have hall : run (Reader.step .poll_frame) {} (history ++ List.replicate k (.poll .full)) =
        some s' := by
      rw [run_append hrun]
      exact hrest
    have hpolls : chunks_of (history ++ List.replicate k (.poll .full)) = chunks_of history := by
      have hnone : chunks_of (List.replicate k (.poll .full)) = [] := by
        rw [chunks_of, List.filterMap_eq_nil_iff]
        intro e he
        rw [List.eq_of_mem_replicate he]
        rfl
      rw [chunks_of, List.filterMap_append]
      change chunks_of history ++ chunks_of _ = _
      rw [hnone, List.append_nil]
    have hquiet' : .notify ∉ history ++ List.replicate k (Event.poll .full) := by
      intro hmem
      rcases List.mem_append.mp hmem with hmem | hmem
      · exact hsilent hmem
      · cases List.eq_of_mem_replicate hmem
    refine ⟨k, s', hrest, hended, ?_⟩
    rw [(frames_of_run hquiet' hall).2 hended, hpolls]

end IrohHttp.PollPaths
