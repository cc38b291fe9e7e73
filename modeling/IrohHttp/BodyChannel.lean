/-
The body channel of `iroh-http-core/src/ffi/handles.rs`: a bounded queue of
chunks, a terminal-error cell beside it, and the calls on the reader handle.

`BodyReader` is the channel with its registered reader. Any number of
`next_chunk` and `try_next_chunk` calls may be in progress on the handle. Each
goes through the phases of its source: it clones the channel ends out of the
registry, waits for the receiver's lock, receives, and on end of channel removes
the handle and only then looks into the error cell. The last three are separate
critical sections, so calls interleave between them.

The producers are in `Pumps.lean` and `SessionStream.lean`; they use `push`,
`abort` and `hang_up`.
-/
import IrohHttp.CoreError
import Mathlib.Logic.Function.Basic
import Mathlib.Data.List.Basic

set_option autoImplicit false

namespace IrohHttp.Body

/-! ## Calls -/

/-- The two accessors. -/
inductive Accessor
  | next_chunk
  | try_next_chunk
  deriving DecidableEq, Repr

/-- Where one call is. `notified` is set once the cancel signal has reached it. -/
inductive Call
  | idle
  | cloned (accessor : Accessor)
  | waiting (notified : Bool)
  | locked (accessor : Accessor) (notified : Bool)
  | hung_up
  | removed
  | returned
  deriving DecidableEq, Repr

/-- The call has looked its handle up and not yet returned. -/
def Call.in_progress : Call → Bool
  | .idle => false
  | .returned => false
  | _ => true

/-- The call has seen the end of the channel. -/
def Call.ended : Call → Bool
  | .hung_up => true
  | .removed => true
  | _ => false

/-- The cancel signal has reached the call. -/
def Call.notified : Call → Bool
  | .waiting n => n
  | .locked _ n => n
  | _ => false

/-- `notify_waiters`: the calls that have created their notified future, which
only `next_chunk` does. -/
def Call.notify : Call → Call
  | .waiting _ => .waiting true
  | .locked .next_chunk _ => .locked .next_chunk true
  | c => c

/-- What a call returns. -/
inductive Return
  | chunk (data : Bytes)
  | eof
  | error (e : CoreError)
  deriving DecidableEq, Repr

/-! ## The channel and its reader -/

/-- A body channel whose reader is registered under `handle`. `lock` is the call
that holds the receiver, `started` lists the calls made and `returned` what they
returned, in order. -/
structure BodyReader where
  handle : ℕ
  capacity : ℕ
  queue : List Bytes
  tx_open : Bool
  terminal_error : Option CoreError
  registered : Bool
  lock : Option ℕ
  calls : ℕ → Call
  started : List ℕ
  returned : List Return

/-- The steps of the calls, each by the number of the call, and the removal of
the handle by `cancel_reader` or a sweep. -/
inductive ReaderLabel
  | open_call (accessor : Accessor) (call : ℕ)
  | enlist (call : ℕ)
  | acquire (call : ℕ)
  | recv (call : ℕ)
  | wake_cancelled (call : ℕ)
  | remove (call : ℕ)
  | take_error (call : ℕ)
  | cancel_reader
  deriving DecidableEq, Repr

namespace BodyReader

/-- `make_body_channel`: an empty queue, and both ends there. -/
def make_body_channel (handle capacity : ℕ) : BodyReader where
  handle := handle
  capacity := capacity
  queue := []
  tx_open := true
  terminal_error := none
  registered := true
  lock := none
  calls := fun _ => .idle
  started := []
  returned := []

/-- The chunks returned so far, in order. -/
def delivered (r : BodyReader) : List Bytes :=
  r.returned.filterMap fun
    | .chunk data => some data
    | _ => none

/-- The receiver still exists: the registry or a call holds it. -/
def rx_alive (r : BodyReader) : Bool :=
  r.registered || r.started.any fun c => (r.calls c).in_progress

/-! ### The producer's side -/

/-- What the writer's `send` puts into the queue. -/
def push (r : BodyReader) (data : Bytes) : BodyReader := { r with queue := r.queue ++ [data] }

/-- `BodyWriter::abort`. -/
def abort (r : BodyReader) (e : CoreError) : BodyReader := { r with terminal_error := some e }

/-- The last sender is dropped. -/
def hang_up (r : BodyReader) : BodyReader := { r with tx_open := false }

/-! ### The consumer's side -/

/-- Call `c` gets to the place `p`. -/
def move (r : BodyReader) (c : ℕ) (p : Call) : BodyReader :=
  { r with calls := Function.update r.calls c p }

/-- Return from call `c`. -/
def ret (r : BodyReader) (c : ℕ) (v : Return) : BodyReader :=
  { r with calls := Function.update r.calls c .returned, returned := r.returned ++ [v] }

/-- Look the handle up and clone the channel ends out. -/
def open_call (r : BodyReader) (accessor : Accessor) (c : ℕ) : Option BodyReader :=
  if r.calls c = .idle then
    if r.registered then some ({ r with started := r.started ++ [c] }.move c (.cloned accessor))
    else some (r.ret c (.error (CoreError.invalid_handle r.handle)))
  else none

/-- Create the notified future of `recv_with_cancel`. -/
def enlist (r : BodyReader) (c : ℕ) : Option BodyReader :=
  if r.calls c = .cloned .next_chunk then some (r.move c (.waiting false)) else none

/-- Lock the receiver: `next_chunk` waits for it, `try_next_chunk` gives up. -/
def acquire (r : BodyReader) (c : ℕ) : Option BodyReader :=
  match r.calls c, r.lock with
  | .waiting false, none => some ({ r with lock := some c }.move c (.locked .next_chunk false))
  | .cloned .try_next_chunk, none =>
    some ({ r with lock := some c }.move c (.locked .try_next_chunk false))
  | .cloned .try_next_chunk, some _ =>
    some (r.ret c (.error (CoreError.internal "try_next_chunk: lock contended")))
  -- a `next_chunk` waits for the lock as long as another call has it
  | _, _ => none

/-- Receive under the lock, which is released either way. -/
def recv (r : BodyReader) (c : ℕ) : Option BodyReader :=
  match r.calls c with
  | .locked accessor false =>
    match r.queue, r.tx_open, accessor with
    | data :: rest, _, _ => some ({ r with queue := rest, lock := none }.ret c (.chunk data))
    | [], false, _ => some ({ r with lock := none }.move c .hung_up)
    | [], true, .try_next_chunk =>
      some ({ r with lock := none }.ret c
        (.error (CoreError.internal "try_next_chunk: channel empty")))
    -- the future stays pending, with the lock in its hand
    | [], true, .next_chunk => none
  | _ => none

/-- The cancel branch of `recv_with_cancel`, which is polled first. -/
def wake_cancelled (r : BodyReader) (c : ℕ) : Option BodyReader :=
  match r.calls c with
  | .waiting true => some (r.move c .hung_up)
  | .locked .next_chunk true => some ({ r with lock := none }.move c .hung_up)
  | _ => none

/-- Release the slot on end of channel. -/
def remove (r : BodyReader) (c : ℕ) : Option BodyReader :=
  if r.calls c = .hung_up then some ({ r with registered := false }.move c .removed) else none

/-- Take the terminal error, and return it or a clean end. -/
def take_error (r : BodyReader) (c : ℕ) : Option BodyReader :=
  if r.calls c = .removed then
    match r.terminal_error with
    -- the cell is left empty, so a later call finds a clean end
    | some e => some ({ r with terminal_error := none }.ret c (.error e))
    | none => some (r.ret c .eof)
  else none

/-- Remove the handle and wake the calls that wait. -/
def cancel_reader (r : BodyReader) : BodyReader :=
  if r.registered then { r with registered := false, calls := fun c => (r.calls c).notify } else r

/-- One step of a reader, `none` where the label is not enabled. -/
def step (r : BodyReader) : ReaderLabel → Option BodyReader
  | .open_call accessor c => r.open_call accessor c
  | .enlist c => r.enlist c
  | .acquire c => r.acquire c
  | .recv c => r.recv c
  | .wake_cancelled c => r.wake_cancelled c
  | .remove c => r.remove c
  | .take_error c => r.take_error c
  | .cancel_reader => some r.cancel_reader

/-! ## What one step can do -/

/-- The steps of the reader as a relation, guards included. -/
inductive Step (r : BodyReader) : ReaderLabel → BodyReader → Prop
  | opened (accessor : Accessor) (c : ℕ) (hidle : r.calls c = .idle)
      (hreg : r.registered = true) :
      Step r (.open_call accessor c)
        ({ r with started := r.started ++ [c] }.move c (.cloned accessor))
  | refused (accessor : Accessor) (c : ℕ) (hidle : r.calls c = .idle)
      (hreg : r.registered = false) :
      Step r (.open_call accessor c) (r.ret c (.error (CoreError.invalid_handle r.handle)))
  | enlisted (c : ℕ) (hc : r.calls c = .cloned .next_chunk) :
      Step r (.enlist c) (r.move c (.waiting false))
  | acquired (accessor : Accessor) (c : ℕ) (hc : (r.calls c).in_progress = true)
      (hn : (r.calls c).ended = false) :
      Step r (.acquire c) ({ r with lock := some c }.move c (.locked accessor false))
  | contended (c : ℕ) (hc : r.calls c = .cloned .try_next_chunk) :
      Step r (.acquire c)
        (r.ret c (.error (CoreError.internal "try_next_chunk: lock contended")))
  | received (accessor : Accessor) (c : ℕ) (data : Bytes) (rest : List Bytes)
      (hc : r.calls c = .locked accessor false) (hq : r.queue = data :: rest) :
      Step r (.recv c) ({ r with queue := rest, lock := none }.ret c (.chunk data))
  | disconnected (accessor : Accessor) (c : ℕ) (hc : r.calls c = .locked accessor false)
      (hq : r.queue = []) (htx : r.tx_open = false) :
      Step r (.recv c) ({ r with lock := none }.move c .hung_up)
  | empty (c : ℕ) (hc : r.calls c = .locked .try_next_chunk false) (hq : r.queue = [])
      (htx : r.tx_open = true) :
      Step r (.recv c) ({ r with lock := none }.ret c
        (.error (CoreError.internal "try_next_chunk: channel empty")))
  | cancelled (c : ℕ) (lock : Option ℕ) (hc : (r.calls c).notified = true) :
      Step r (.wake_cancelled c) ({ r with lock := lock }.move c .hung_up)
  | released (c : ℕ) (hc : r.calls c = .hung_up) :
      Step r (.remove c) ({ r with registered := false }.move c .removed)
  | failed (c : ℕ) (e : CoreError) (hc : r.calls c = .removed) (he : r.terminal_error = some e) :
      Step r (.take_error c) ({ r with terminal_error := none }.ret c (.error e))
  | finished (c : ℕ) (hc : r.calls c = .removed) (he : r.terminal_error = none) :
      Step r (.take_error c) (r.ret c .eof)
  | unregistered : Step r .cancel_reader r.cancel_reader

/-- **Every step of the reader is one of these.** -/
theorem step_cases {r r' : BodyReader} {a : ReaderLabel} (h : r.step a = some r') :
    Step r a r' := by
  cases a with
  | open_call accessor c =>
      simp only [step, open_call, Option.ite_none_right_eq_some] at h
      obtain ⟨hidle, h⟩ := h
      split at h
      · next hreg =>
        rw [Option.some.injEq] at h
        exact h ▸ .opened accessor c hidle hreg
      · next hreg =>
        rw [Option.some.injEq] at h
        exact h ▸ .refused accessor c hidle (Bool.eq_false_iff.mpr hreg)
  | enlist c =>
      simp only [step, enlist, Option.ite_none_right_eq_some, Option.some.injEq] at h
      exact h.2 ▸ .enlisted c h.1
  | acquire c =>
      simp only [step, acquire] at h
      split at h
      · next hc _ =>
        rw [Option.some.injEq] at h
        exact h ▸ .acquired .next_chunk c (by rw [hc]; rfl) (by rw [hc]; rfl)
      · next hc _ =>
        rw [Option.some.injEq] at h
        exact h ▸ .acquired .try_next_chunk c (by rw [hc]; rfl) (by rw [hc]; rfl)
      · next hc _ =>
        rw [Option.some.injEq] at h
        exact h ▸ .contended c hc
      · cases h
  | recv c =>
      simp only [step, recv] at h
      split at h
      · next hc =>
        split at h
        · next hq =>
          rw [Option.some.injEq] at h
          exact h ▸ .received _ c _ _ hc hq
        · next _ hq htx =>
          rw [Option.some.injEq] at h
          exact h ▸ .disconnected _ c hc hq htx
        · next hq htx =>
          rw [Option.some.injEq] at h
          exact h ▸ .empty c hc hq htx
        · cases h
      · cases h
  | wake_cancelled c =>
      simp only [step, wake_cancelled] at h
      split at h
      · next hc =>
        rw [Option.some.injEq] at h
        exact h ▸ .cancelled c r.lock (by rw [hc]; rfl)
      · next hc =>
        rw [Option.some.injEq] at h
        exact h ▸ .cancelled c none (by rw [hc]; rfl)
      · cases h
  | remove c =>
      simp only [step, remove, Option.ite_none_right_eq_some, Option.some.injEq] at h
      exact h.2 ▸ .released c h.1
  | take_error c =>
      simp only [step, take_error, Option.ite_none_right_eq_some] at h
      obtain ⟨hc, h⟩ := h
      split at h
      · next e he =>
        rw [Option.some.injEq] at h
        exact h ▸ .failed c e hc he
      · next he =>
        rw [Option.some.injEq] at h
        exact h ▸ .finished c hc he
  | cancel_reader =>
      simp only [step, Option.some.injEq] at h
      exact h ▸ .unregistered

/-! ### Chunks are neither lost nor reordered -/

@[simp] theorem ret_queue (r : BodyReader) (c : ℕ) (v : Return) : (r.ret c v).queue = r.queue := rfl

/-- A chunk that is returned has been delivered. -/
theorem ret_delivered (r : BodyReader) (c : ℕ) (v : Return) :
    (r.ret c v).delivered = r.delivered ++ (match v with | .chunk data => [data] | _ => []) := by
  rw [delivered, ret, List.filterMap_append]
  cases v <;> rfl

/-- A cancelled reader keeps its queue, its writer, its errors and what it has delivered. -/
theorem cancel_reader_eq (r : BodyReader) : r.cancel_reader.queue = r.queue ∧
    r.cancel_reader.tx_open = r.tx_open ∧ r.cancel_reader.delivered = r.delivered ∧
    r.cancel_reader.terminal_error = r.terminal_error := by
  unfold cancel_reader
  split <;> exact ⟨rfl, rfl, rfl, rfl⟩

/-- A step of the reader leaves the sender alone, and what has been returned
followed by what is queued stays the same list. -/
theorem step_frame {r r' : BodyReader} {a : ReaderLabel} (h : r.step a = some r') :
    r'.tx_open = r.tx_open ∧ r'.delivered ++ r'.queue = r.delivered ++ r.queue := by
  cases step_cases h with
  | opened accessor c hidle hreg => exact ⟨rfl, rfl⟩
  | refused accessor c hidle hreg => exact ⟨rfl, by rw [ret_delivered, List.append_nil]; rfl⟩
  | enlisted c hc => exact ⟨rfl, rfl⟩
  | acquired accessor c hc hn => exact ⟨rfl, rfl⟩
  | contended c hc => exact ⟨rfl, by rw [ret_delivered, List.append_nil]; rfl⟩
  | received accessor c data rest hc hq =>
      refine ⟨rfl, ?_⟩
      rw [ret_delivered, ret_queue, hq, List.append_assoc]
      rfl
  | disconnected accessor c hc hq htx => exact ⟨rfl, rfl⟩
  | empty c hc hq htx => exact ⟨rfl, by rw [ret_delivered, List.append_nil]; rfl⟩
  | cancelled c lock hc => exact ⟨rfl, rfl⟩
  | released c hc => exact ⟨rfl, rfl⟩
  | failed c e hc he => exact ⟨rfl, by rw [ret_delivered, List.append_nil]; rfl⟩
  | finished c hc he => exact ⟨rfl, by rw [ret_delivered, List.append_nil]; rfl⟩
  | unregistered =>
      obtain ⟨hq, htx, hd, -⟩ := cancel_reader_eq r
      rw [htx, hd, hq]
      exact ⟨rfl, rfl⟩

/-- A step returns at most one value. A chunk is the head of the queue, which no
other step takes anything from. -/
theorem step_return {r r' : BodyReader} {a : ReaderLabel} (h : r.step a = some r') :
    (r'.returned = r.returned ∧ r'.queue = r.queue) ∨
      (∃ c accessor data, a = .recv c ∧ r.calls c = .locked accessor false ∧
        r.queue = data :: r'.queue ∧ r'.returned = r.returned ++ [.chunk data]) ∨
      (r'.returned = r.returned ++ [.eof] ∧ r'.queue = r.queue) ∨
      ∃ e, r'.returned = r.returned ++ [.error e] ∧ r'.queue = r.queue := by
  cases step_cases h with
  | refused accessor c hidle hreg => exact .inr (.inr (.inr ⟨_, rfl, rfl⟩))
  | contended c hc => exact .inr (.inr (.inr ⟨_, rfl, rfl⟩))
  | received accessor c data rest hc hq => exact .inr (.inl ⟨c, accessor, data, rfl, hc, hq, rfl⟩)
  | empty c hc hq htx => exact .inr (.inr (.inr ⟨_, rfl, rfl⟩))
  | failed c e hc he => exact .inr (.inr (.inr ⟨e, rfl, rfl⟩))
  | finished c hc he => exact .inr (.inr (.inl ⟨rfl, rfl⟩))
  | unregistered =>
      unfold cancel_reader
      split <;> exact .inl ⟨rfl, rfl⟩
  | _ => exact .inl ⟨rfl, rfl⟩

/-! ### The end of the channel

A call only ends on a channel that has hung up and is drained, as long as no
cancellation reaches a waiting call; and as long as nobody cancels the reader at
all, the handle only goes away on such a channel too. -/

/-- The senders are gone and everything they sent has been received. -/
def Drained (r : BodyReader) : Prop := r.tx_open = false ∧ r.queue = []

/-- What holds of a reader at any time: the end of a call and an end of file mean that the channel
was drained, nothing is notified that waits, and every call in progress was started. -/
structure Settled (r : BodyReader) : Prop where
  ending : ∀ c, (r.calls c).ended = true → r.Drained
  eof : Return.eof ∈ r.returned → r.Drained
  unnotified : ∀ c, (r.calls c).notified = false
  removed : ∀ c, r.calls c = .removed → r.registered = false
  listed : ∀ c, (r.calls c).in_progress = true → c ∈ r.started

/-- The handle stays registered until the channel is drained. -/
def Held (r : BodyReader) : Prop := r.registered = false → r.Drained

theorem settled_make_body_channel (handle capacity : ℕ) :
    Settled (make_body_channel handle capacity) where
  ending c hc := by cases hc
  eof h := absurd h List.not_mem_nil
  unnotified c := rfl
  removed c hc := by cases hc
  listed c hc := by cases hc

/-- A call may go on to a place whose conditions hold. -/
theorem settled_move {r : BodyReader} (h : Settled r) {c : ℕ} {p : Call}
    (hend : p.ended = true → r.Drained) (hn : p.notified = false)
    (hrem : p = .removed → r.registered = false) (hlist : p.in_progress = true → c ∈ r.started) :
    Settled (r.move c p) where
  ending d hd := by
    by_cases hdc : d = c
    · simp only [move, hdc, Function.update_self] at hd
      exact hend hd
    · simp only [move, Function.update_of_ne hdc] at hd
      exact h.ending d hd
  eof := h.eof
  unnotified d := by
    by_cases hdc : d = c
    · simp only [move, hdc, Function.update_self, hn]
    · simp only [move, Function.update_of_ne hdc, h.unnotified d]
  removed d hd := by
    by_cases hdc : d = c
    · simp only [move, hdc, Function.update_self] at hd
      exact hrem hd
    · simp only [move, Function.update_of_ne hdc] at hd
      exact h.removed d hd
  listed d hd := by
    by_cases hdc : d = c
    · simp only [move, hdc, Function.update_self] at hd
      exact hdc ▸ hlist hd
    · simp only [move, Function.update_of_ne hdc] at hd
      exact h.listed d hd

/-- A call may return; an end of file wants the channel drained. -/
theorem settled_ret {r : BodyReader} (h : Settled r) {c : ℕ} {v : Return}
    (hv : v = .eof → r.Drained) : Settled (r.ret c v) := by
  have hm : Settled (r.move c .returned) :=
    settled_move h (by rintro ⟨⟩) rfl (by rintro ⟨⟩) (by rintro ⟨⟩)
  refine ⟨hm.ending, ?_, hm.unnotified, hm.removed, hm.listed⟩
  intro he
  rcases List.mem_append.mp he with he | he
  · exact h.eof he
  · exact hv (List.mem_singleton.mp he).symm

/-- A reader stays settled unless it is cancelled under a waiting call. -/
theorem settled_step {r r' : BodyReader} {a : ReaderLabel} (h : Settled r)
    (ha : a = .cancel_reader → r.registered = true → ∀ c, (r.calls c).notify = r.calls c)
    (hs : r.step a = some r') : Settled r' := by
  cases step_cases hs with
  | opened accessor c hidle hreg =>
      have h' : Settled { r with started := r.started ++ [c] } :=
        ⟨h.ending, h.eof, h.unnotified, h.removed,
          fun d hd => List.mem_append_left _ (h.listed d hd)⟩
      exact settled_move h' (by rintro ⟨⟩) rfl (by rintro ⟨⟩)
        (fun _ => List.mem_append_right _ (List.mem_singleton_self c))
  | refused accessor c hidle hreg => exact settled_ret h (by rintro ⟨⟩)
  | enlisted c hc =>
      exact settled_move h (by rintro ⟨⟩) rfl (by rintro ⟨⟩)
        (fun _ => h.listed c (by rw [hc]; rfl))
  | acquired accessor c hc hn =>
      have h' : Settled { r with lock := some c } :=
        ⟨h.ending, h.eof, h.unnotified, h.removed, h.listed⟩
      exact settled_move h' (by rintro ⟨⟩) rfl (by rintro ⟨⟩) (fun _ => h.listed c hc)
  | contended c hc => exact settled_ret h (by rintro ⟨⟩)
  | received accessor c data rest hc hq =>
      -- the queue was not empty, so nothing had ended yet
      have hne : ¬ r.Drained := fun hd => by rw [hd.2] at hq; cases hq
      have h' : Settled { r with queue := rest, lock := none } :=
        ⟨fun d hd => absurd (h.ending d hd) hne, fun hd => absurd (h.eof hd) hne, h.unnotified,
          h.removed, h.listed⟩
      exact settled_ret h' (by rintro ⟨⟩)
  | disconnected accessor c hc hq htx =>
      have h' : Settled { r with lock := none } :=
        ⟨h.ending, h.eof, h.unnotified, h.removed, h.listed⟩
      exact settled_move h' (fun _ => ⟨htx, hq⟩) rfl (by rintro ⟨⟩)
        (fun _ => h.listed c (by rw [hc]; rfl))
  | empty c hc hq htx =>
      have h' : Settled { r with lock := none } :=
        ⟨h.ending, h.eof, h.unnotified, h.removed, h.listed⟩
      exact settled_ret h' (by rintro ⟨⟩)
  | cancelled c lock hc =>
      -- no cancellation has reached any call
      rw [h.unnotified c] at hc
      cases hc
  | released c hc =>
      have hd : r.Drained := h.ending c (by rw [hc]; rfl)
      have h' : Settled { r with registered := false } :=
        ⟨h.ending, h.eof, h.unnotified, fun _ _ => rfl, h.listed⟩
      exact settled_move h' (fun _ => hd) rfl (fun _ => rfl)
        (fun _ => h.listed c (by rw [hc]; rfl))
  | failed c e hc he =>
      have h' : Settled { r with terminal_error := none } :=
        ⟨h.ending, h.eof, h.unnotified, h.removed, h.listed⟩
      exact settled_ret h' (by rintro ⟨⟩)
  | finished c hc he => exact settled_ret h (fun _ => h.ending c (by rw [hc]; rfl))
  | unregistered =>
      unfold cancel_reader
      split
      · next hreg =>
        have hcalls : (fun c => (r.calls c).notify) = r.calls := funext (ha rfl hreg)
        rw [hcalls]
        exact ⟨h.ending, h.eof, h.unnotified, fun _ _ => rfl, h.listed⟩
      · exact h

/-- The handle of a reader that is not cancelled is held to the end. -/
theorem held_step {r r' : BodyReader} {a : ReaderLabel} (h : Settled r) (hh : Held r)
    (ha : a ≠ .cancel_reader) (hs : r.step a = some r') : Held r' := by
  cases step_cases hs with
  | released c hc =>
      intro _
      exact h.ending c (by rw [hc]; rfl)
  | received accessor c data rest hc hq =>
      -- a handle that was gone would have left the queue empty
      intro hreg
      have hdrained := (hh hreg).2
      rw [hq] at hdrained
      cases hdrained
  | unregistered => exact absurd rfl ha
  | _ => exact hh

/-- Pushing into an open channel. -/
theorem settled_push {r : BodyReader} (h : Settled r) (htx : r.tx_open = true) (data : Bytes) :
    Settled (r.push data) := by
  have hne : ¬ r.Drained := fun hd => by rw [hd.1] at htx; cases htx
  exact ⟨fun c hc => absurd (h.ending c hc) hne, fun he => absurd (h.eof he) hne, h.unnotified,
    h.removed, h.listed⟩

theorem settled_abort {r : BodyReader} (h : Settled r) (e : CoreError) : Settled (r.abort e) :=
  ⟨h.ending, h.eof, h.unnotified, h.removed, h.listed⟩

theorem settled_hang_up {r : BodyReader} (h : Settled r) : Settled r.hang_up :=
  ⟨fun c hc => ⟨rfl, (h.ending c hc).2⟩, fun he => ⟨rfl, (h.eof he).2⟩, h.unnotified, h.removed,
    h.listed⟩

/-! ### Who looks into the error cell -/

/-- Only a call that returns the terminal error empties the cell. -/
theorem step_terminal_error {r r' : BodyReader} {a : ReaderLabel} (h : r.step a = some r') :
    r'.terminal_error = r.terminal_error ∨
      ∃ c, a = .take_error c ∧ r.calls c = .removed ∧ r.terminal_error ≠ none ∧
        r'.registered = r.registered ∧ r'.calls = Function.update r.calls c .returned := by
  cases step_cases h with
  | failed c e hc he => exact .inr ⟨c, rfl, hc, by rw [he]; simp, rfl, rfl⟩
  | unregistered => exact .inl (cancel_reader_eq r).2.2.2
  | _ => exact .inl rfl

/-- A clean end is reported by a call that found the cell empty. -/
theorem step_eof {r r' : BodyReader} {a : ReaderLabel} (h : r.step a = some r')
    (he : Return.eof ∈ r'.returned) :
    Return.eof ∈ r.returned ∨
      ∃ c, a = .take_error c ∧ r.calls c = .removed ∧ r.terminal_error = none := by
  -- returning anything else adds no clean end
  have hret : ∀ (v : Return) (c : ℕ), v ≠ .eof → Return.eof ∈ (r.ret c v).returned →
      Return.eof ∈ r.returned := by
    intro v c hv hmem
    rcases List.mem_append.mp hmem with hmem | hmem
    · exact hmem
    · exact absurd (List.mem_singleton.mp hmem).symm hv
  cases step_cases h with
  | finished c hc hnone => exact .inr ⟨c, rfl, hc, hnone⟩
  | refused accessor c hidle hreg => exact .inl (hret _ c (by simp) he)
  | contended c hc => exact .inl (hret _ c (by simp) he)
  | received accessor c data rest hc hq => exact .inl (hret (.chunk data) c (by simp) he)
  | empty c hc hq htx => exact .inl (hret (.error _) c (by simp) he)
  | failed c e hc hsome => exact .inl (hret (.error e) c (by simp) he)
  | unregistered =>
      unfold cancel_reader at he
      split at he <;> exact .inl he
  | _ => exact .inl he

/-- The handle is gone and no call is in progress on it. -/
def Abandoned (r : BodyReader) : Prop :=
  r.registered = false ∧ ∀ c, (r.calls c).in_progress = false

/-- From then on every call is refused at once. -/
theorem abandoned_step {r r' : BodyReader} {a : ReaderLabel} (ha : r.Abandoned)
    (h : r.step a = some r') : r'.Abandoned := by
  obtain ⟨hreg, hcalls⟩ := ha
  -- every step but the refusal is by a call in progress
  have hno : ∀ {c : ℕ} {p : Call}, r.calls c = p → p.in_progress = true → False := by
    intro c p hc hp
    rw [← hc, hcalls c] at hp
    cases hp
  cases step_cases h with
  | opened accessor c hidle hreg' =>
      rw [hreg] at hreg'
      cases hreg'
  | refused accessor c hidle hreg' =>
      refine ⟨hreg, fun d => ?_⟩
      by_cases hd : d = c
      · simp only [ret, hd, Function.update_self, Call.in_progress]
      · simp only [ret, Function.update_of_ne hd, hcalls d]
  | enlisted c hc => exact (hno hc rfl).elim
  | acquired accessor c hc hn => exact (hno rfl hc).elim
  | contended c hc => exact (hno hc rfl).elim
  | received accessor c data rest hc hq => exact (hno hc rfl).elim
  | disconnected accessor c hc hq htx => exact (hno hc rfl).elim
  | empty c hc hq htx => exact (hno hc rfl).elim
  | cancelled c lock hc =>
      refine (hno (c := c) rfl ?_).elim
      cases hcall : r.calls c with
      | waiting n => rfl
      | locked accessor n => rfl
      | _ => rw [hcall] at hc; cases hc
  | released c hc => exact (hno hc rfl).elim
  | failed c e hc he => exact (hno hc rfl).elim
  | finished c hc he => exact (hno hc rfl).elim
  | unregistered =>
      rw [cancel_reader, hreg]
      exact ⟨hreg, hcalls⟩

/-- Once nothing holds the receiver, the reader is abandoned. -/
theorem Settled.abandoned {r : BodyReader} (h : Settled r) (hrx : r.rx_alive = false) :
    r.Abandoned := by
  rw [rx_alive, Bool.or_eq_false_iff] at hrx
  refine ⟨hrx.1, fun c => ?_⟩
  by_contra hc
  have hlisted := h.listed c ((Bool.not_eq_false _).mp hc)
  have hnone := List.any_eq_false.mp hrx.2 c hlisted
  exact hnone ((Bool.not_eq_false _).mp hc)

end BodyReader

end IrohHttp.Body
