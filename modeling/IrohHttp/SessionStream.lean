/-
One direction of a session stream, end to end: `send_chunk` and `finish_body` on
the write handle, `pump_body_to_quic_send`, the QUIC stream,
`pump_quic_recv_to_body`, and the reader handle at the far end
(`iroh-http-core/src/ffi/{handles,pumps,session}.rs`,
`iroh-http-shared/src/session.ts`).

The QUIC stream is what its documentation promises: the bytes written arrive in
order, a finished stream is reported as finished after its last byte, and once
it has been reset or the connection is lost, reads and writes may fail. How much
a write takes and how much a read returns is up to the schedule.

`sent` are the bytes `send_chunk` has handed to the channel, and `finished` says
that the sender closed the body itself; the program has neither.
-/
import IrohHttp.Pumps

set_option autoImplicit false

namespace IrohHttp.Body

/-! ## The two ends and the wire -/

/-- The `send_chunk` call in progress, if any: the piece it waits to send and
what is left of its chunk. -/
inductive Sender
  | idle
  | sending (piece rest : Bytes)
  deriving DecidableEq, Repr

/-- `pump_body_to_quic_send`: waiting for a chunk, inside `write_all`, or gone. -/
inductive QuicSend
  | reading
  | writing (rest : Bytes)
  | done
  deriving DecidableEq, Repr

/-- What `write_all` has still to write. -/
def QuicSend.pending : QuicSend → Bytes
  | .writing rest => rest
  | _ => []

/-- A stream between two sessions: the sender's call and channel, the near pump, what is on the
wire, the far pump and the reader it feeds. -/
structure SessionStream where
  max_chunk_size : ℕ
  near_capacity : ℕ
  write_registered : Bool
  sender : Sender
  near_queue : List Bytes
  near : QuicSend
  sent : Bytes
  finished : Bool
  data : Bytes
  read : ℕ
  fin : Bool
  broken : Bool
  far_pump : Pump
  far : BodyReader

/-- What the writer, the sweep, the near pump, the wire, the far pump or the reader does next. -/
inductive StreamLabel
  | send_chunk (chunk : Bytes)
  | send_piece
  | send_timeout
  | close
  | abort
  | sweep_writer
  | near_recv
  | near_end
  | near_write (n : ℕ)
  | near_write_error
  | reset
  | far_read (n : ℕ)
  | far_fin
  | far_error
  | far_send
  | far_drain_timeout
  | far (a : ReaderLabel)
  deriving DecidableEq, Repr

namespace SessionStream

/-- A stream that was just opened, with nothing written. -/
def start (max_chunk_size near_capacity handle far_capacity : ℕ) : SessionStream where
  max_chunk_size := max_chunk_size
  near_capacity := near_capacity
  write_registered := true
  sender := .idle
  near_queue := []
  near := .reading
  sent := []
  finished := false
  data := []
  read := 0
  fin := false
  broken := false
  far_pump := .awaiting
  far := BodyReader.make_body_channel handle far_capacity

/-! ### `HandleStore::send_chunk` -/

/-- Look the handle up. A chunk above the maximum is sent in pieces. -/
def send_chunk (s : SessionStream) (chunk : Bytes) : Option SessionStream :=
  if s.sender = .idle then
    if s.write_registered then
      some { s with
        -- an empty chunk is sent too, as one piece
        sender := if chunk.length ≤ s.max_chunk_size then .sending chunk []
          else .sending (chunk.take s.max_chunk_size) (chunk.drop s.max_chunk_size) }
    -- the call fails with an invalid handle and sends nothing
    else some s
  else none

/-- The channel takes the piece, and the call goes on to the next or returns. -/
def send_piece (s : SessionStream) : Option SessionStream :=
  match s.sender with
  | .idle => none
  | .sending piece rest =>
    -- the receiver went with the pump, so the send fails
    if s.near = .done then some { s with sender := .idle }
    else if s.near_queue.length < s.near_capacity then
      some { s with
        near_queue := s.near_queue ++ [piece]
        sent := s.sent ++ piece
        sender := if rest = [] then .idle
          else .sending (rest.take s.max_chunk_size) (rest.drop s.max_chunk_size) }
    else none

/-- The drain timeout of `send_chunk`; the rest of its chunk is not sent. -/
def send_timeout (s : SessionStream) : Option SessionStream :=
  match s.sender with
  | .idle => none
  | .sending _ _ => some { s with sender := .idle }

/-! ### The ways the write handle goes away

`close` and `abort` of the writable stream both call `finish_body`. -/

/-- `finish_body` removes the writer. -/
def finish_body (s : SessionStream) : SessionStream := { s with write_registered := false }

/-- `close` of the writable: the body is finished, which counts as a close when the writer was
there. -/
def close (s : SessionStream) : SessionStream :=
  { s.finish_body with finished := s.finished || s.write_registered }

/-- `abort` of the writable. -/
def abort (s : SessionStream) : SessionStream := s.finish_body

/-- The writer expires. -/
def sweep_writer (s : SessionStream) : SessionStream := { s with write_registered := false }

/-! ### `pump_body_to_quic_send` -/

/-- A sender is left: the registered one or the clone of a call. -/
def near_tx_open (s : SessionStream) : Bool := s.write_registered || decide (s.sender ≠ .idle)

/-- The near pump takes a chunk from its channel. -/
def near_recv (s : SessionStream) : Option SessionStream :=
  match s.near, s.near_queue with
  | .reading, chunk :: rest => some { s with near := .writing chunk, near_queue := rest }
  | _, _ => none

/-- End of the channel: the loop breaks and the stream is finished. -/
def near_end (s : SessionStream) : Option SessionStream :=
  if s.near = .reading ∧ s.near_queue = [] ∧ s.near_tx_open = false then
    -- `finish` on a stream that was reset or lost has no effect
    some { s with near := .done, fin := !s.broken }
  else none

/-- `write_all` writes `n` more bytes, and returns once nothing is left. -/
def near_write (s : SessionStream) (n : ℕ) : Option SessionStream :=
  match s.near with
  | .writing rest =>
    some { s with
      data := s.data ++ rest.take n
      near := if rest.drop n = [] then .reading else .writing (rest.drop n) }
  | _ => none

/-- `write_all` fails on a stream that was reset or lost. The loop breaks; the
`finish` after it has no stream to finish. -/
def near_write_error (s : SessionStream) : Option SessionStream :=
  match s.near with
  | .writing _ => if s.broken then some { s with near := .done } else none
  | _ => none

/-! ### `pump_quic_recv_to_body` -/

/-- Leave the loop and drop the writer. -/
def far_stop (s : SessionStream) : SessionStream :=
  { s with far_pump := .stopped, far := s.far.hang_up }

/-- `BodyWriter::send_chunk` into the far channel. -/
def far_send_chunk (s : SessionStream) (chunk : Bytes) : SessionStream :=
  if !s.far.rx_alive then s.far_stop
  else if s.far.queue.length < s.far.capacity then
    { s with far_pump := .awaiting, far := s.far.push chunk }
  else { s with far_pump := .sending chunk }

/-- The largest chunk the far pump reads at once. -/
def PUMP_READ_BUF : ℕ := 64 * 1024

/-- `read_chunk` returns `n` of the bytes that have arrived. -/
def far_read (s : SessionStream) (n : ℕ) : Option SessionStream :=
  if s.far_pump = .awaiting ∧ 0 < n ∧ n ≤ PUMP_READ_BUF ∧ s.read + n ≤ s.data.length then
    some ({ s with read := s.read + n }.far_send_chunk ((s.data.drop s.read).take n))
  else none

/-- `read_chunk` reports the end of the stream. -/
def far_fin (s : SessionStream) : Option SessionStream :=
  if s.far_pump = .awaiting ∧ s.fin = true ∧ s.read = s.data.length then some s.far_stop else none

/-- `read_chunk` reports a reset or a lost connection, and the loop ends all the
same. -/
def far_error (s : SessionStream) : Option SessionStream :=
  if s.far_pump = .awaiting ∧ s.broken = true then some s.far_stop else none

/-- The far pump hands its chunk to the reader, when there is room or no reader. -/
def far_send (s : SessionStream) : Option SessionStream :=
  match s.far_pump with
  | .sending chunk =>
    if s.far.rx_alive && decide (s.far.capacity ≤ s.far.queue.length) then none
    else some (s.far_send_chunk chunk)
  | _ => none

/-- The far pump gives up on a reader that does not read. -/
def far_drain_timeout (s : SessionStream) : Option SessionStream :=
  match s.far_pump with
  | .sending _ => some s.far_stop
  | _ => none

/-- One step of the stream. -/
def step (s : SessionStream) : StreamLabel → Option SessionStream
  | .send_chunk chunk => s.send_chunk chunk
  | .send_piece => s.send_piece
  | .send_timeout => s.send_timeout
  | .close => some s.close
  | .abort => some s.abort
  | .sweep_writer => some s.sweep_writer
  | .near_recv => s.near_recv
  | .near_end => s.near_end
  | .near_write n => s.near_write n
  | .near_write_error => s.near_write_error
  | .reset => some { s with broken := true }
  | .far_read n => s.far_read n
  | .far_fin => s.far_fin
  | .far_error => s.far_error
  | .far_send => s.far_send
  | .far_drain_timeout => s.far_drain_timeout
  | .far a => (s.far.step a).map fun r => { s with far := r }

/-! ## Bytes are neither invented nor reordered

This half needs no condition on the run: a component that fails drops what it
holds, and nothing behind it passes any more. -/

/-- The bytes the far channel was given. -/
def far_bytes (s : SessionStream) : Bytes :=
  (s.far.delivered ++ s.far.queue ++ s.far_pump.pending).flatten

/-- No byte is lost or invented on the way: what each place holds is a prefix of what the place
before it sent, and together they make it up. -/
structure Conserved (s : SessionStream) : Prop where
  near_le : s.data <+: s.sent
  near_eq : s.near ≠ .done → s.data ++ s.near.pending ++ s.near_queue.flatten = s.sent
  read_le : s.read ≤ s.data.length
  far_le : s.far_bytes <+: s.data.take s.read
  far_eq : s.far_pump ≠ .stopped → s.far_bytes = s.data.take s.read

theorem conserved_start (max_chunk_size near_capacity handle far_capacity : ℕ) :
    Conserved (start max_chunk_size near_capacity handle far_capacity) where
  near_le := List.prefix_rfl
  near_eq _ := rfl
  read_le := Nat.le_refl 0
  far_le := List.prefix_rfl
  far_eq _ := rfl

theorem far_stop_bytes (s : SessionStream) :
    s.far_stop.far_bytes = (s.far.delivered ++ s.far.queue).flatten := by
  simp only [far_bytes, far_stop, Pump.pending, List.append_nil, BodyReader.hang_up,
    BodyReader.delivered]

/-- What a live far channel holds after it was given a chunk. -/
theorem far_send_chunk_bytes (s : SessionStream) (chunk : Bytes) (halive : s.far.rx_alive = true) :
    (s.far_send_chunk chunk).far_bytes = (s.far.delivered ++ s.far.queue).flatten ++ chunk ∧
      (s.far_send_chunk chunk).far_pump ≠ .stopped := by
  unfold far_send_chunk
  rw [halive, Bool.not_true, if_neg Bool.false_ne_true]
  split
  · refine ⟨?_, by simp⟩
    simp only [far_bytes, BodyReader.push, BodyReader.delivered, Pump.pending, List.append_nil,
      List.flatten_append, List.flatten_cons, List.flatten_nil, List.append_assoc]
  · refine ⟨?_, by simp⟩
    simp only [far_bytes, Pump.pending, List.flatten_append, List.flatten_cons, List.flatten_nil,
      List.append_nil]

theorem far_send_chunk_of_dead (s : SessionStream) (chunk : Bytes)
    (hdead : s.far.rx_alive = false) : s.far_send_chunk chunk = s.far_stop := by
  rw [far_send_chunk, hdead, Bool.not_false, if_pos rfl]

theorem far_send_chunk_fields (s : SessionStream) (chunk : Bytes) :
    (s.far_send_chunk chunk).data = s.data ∧ (s.far_send_chunk chunk).read = s.read ∧
      (s.far_send_chunk chunk).near = s.near ∧
      (s.far_send_chunk chunk).near_queue = s.near_queue ∧
      (s.far_send_chunk chunk).sent = s.sent := by
  unfold far_send_chunk
  split
  · exact ⟨rfl, rfl, rfl, rfl, rfl⟩
  · split <;> exact ⟨rfl, rfl, rfl, rfl, rfl⟩

/-- Stopping the far pump loses at most the chunk it held. -/
theorem conserved_far_stop {s : SessionStream} (h : Conserved s) : Conserved s.far_stop := by
  refine ⟨h.near_le, h.near_eq, h.read_le, ?_, fun hne => absurd rfl hne⟩
  rw [far_stop_bytes]
  exact (List.prefix_append (s.far.delivered ++ s.far.queue) _).flatten.trans h.far_le

/-- More bytes on the wire leave those already read where they are. -/
theorem conserved_append {s : SessionStream} (h : Conserved s) {more : Bytes} {near : QuicSend}
    {near_queue : List Bytes} (hle : s.data ++ more <+: s.sent)
    (heq : near ≠ .done → s.data ++ more ++ near.pending ++ near_queue.flatten = s.sent) :
    Conserved { s with data := s.data ++ more, near := near, near_queue := near_queue } where
  near_le := hle
  near_eq := heq
  read_le := by
    simp only [List.length_append]
    exact Nat.le_add_right_of_le h.read_le
  far_le := by
    rw [List.take_append_of_le_length h.read_le]
    exact h.far_le
  far_eq hne := by
    rw [List.take_append_of_le_length h.read_le]
    exact h.far_eq hne

/-- A piece enters the near channel. -/
theorem conserved_send_piece {s s' : SessionStream} (h : Conserved s)
    (hs : s.send_piece = some s') : Conserved s' := by
  unfold send_piece at hs
  split at hs
  · cases hs
  · next piece rest hsend =>
    split at hs
    · rw [Option.some.injEq] at hs
      subst hs
      exact ⟨h.near_le, h.near_eq, h.read_le, h.far_le, h.far_eq⟩
    · rw [Option.ite_none_right_eq_some, Option.some.injEq] at hs
      obtain ⟨-, hs⟩ := hs
      subst hs
      refine ⟨h.near_le.trans (List.prefix_append _ _), fun hne => ?_, h.read_le, h.far_le,
        h.far_eq⟩
      rw [List.flatten_append, ← List.append_assoc, h.near_eq hne]
      simp only [List.flatten_cons, List.flatten_nil, List.append_nil]

/-- The near pump writes to the wire. -/
theorem conserved_near_write {s s' : SessionStream} {n : ℕ} (h : Conserved s)
    (hs : s.near_write n = some s') : Conserved s' := by
  unfold near_write at hs
  split at hs
  · next rest hnear =>
    rw [Option.some.injEq] at hs
    subst hs
    have hne : s.near ≠ .done := by rw [hnear]; simp
    have heq := h.near_eq hne
    rw [hnear, QuicSend.pending] at heq
    refine conserved_append h ?_ fun _ => ?_
    · rw [← heq]
      refine List.IsPrefix.trans ?_ (List.prefix_append _ _)
      exact (List.prefix_append_right_inj _).mpr (List.take_prefix n rest)
    · -- what is left to write is the rest, whether or not the call returned
      have hpend : (if rest.drop n = [] then QuicSend.reading
          else .writing (rest.drop n)).pending = rest.drop n := by
        split
        · next hnil => rw [hnil]; rfl
        · rfl
      rw [hpend, List.append_assoc s.data, List.take_append_drop, heq]
  · cases hs

/-- The far pump hands on the last bytes it read. -/
theorem conserved_far_send_chunk {s : SessionStream} {chunk : Bytes} (hle : s.data <+: s.sent)
    (heq : s.near ≠ .done → s.data ++ s.near.pending ++ s.near_queue.flatten = s.sent)
    (hread : s.read ≤ s.data.length)
    (hbytes : (s.far.delivered ++ s.far.queue).flatten ++ chunk = s.data.take s.read) :
    Conserved (s.far_send_chunk chunk) := by
  cases halive : s.far.rx_alive with
  | true =>
      obtain ⟨hd, hr, hn, hq, hs⟩ := far_send_chunk_fields s chunk
      obtain ⟨hfar, -⟩ := far_send_chunk_bytes s chunk halive
      refine ⟨by rw [hd, hs]; exact hle, by rw [hd, hs, hn, hq]; exact heq,
        by rw [hd, hr]; exact hread, ?_, fun _ => ?_⟩
      · rw [hfar, hbytes, hd, hr]
      · rw [hfar, hbytes, hd, hr]
  | false =>
      rw [far_send_chunk_of_dead s chunk halive]
      refine ⟨hle, heq, hread, ?_, fun hne => absurd rfl hne⟩
      rw [far_stop_bytes]
      exact ⟨chunk, hbytes⟩

/-- The far pump reads from it. -/
theorem conserved_far_read {s s' : SessionStream} {n : ℕ} (h : Conserved s)
    (hs : s.far_read n = some s') : Conserved s' := by
  unfold far_read at hs
  rw [Option.ite_none_right_eq_some, Option.some.injEq] at hs
  obtain ⟨⟨hp, -, -, hle⟩, hs⟩ := hs
  subst hs
  have hne : s.far_pump ≠ .stopped := by rw [hp]; simp
  have hbytes : (s.far.delivered ++ s.far.queue).flatten = s.data.take s.read := by
    rw [← h.far_eq hne, far_bytes, hp]
    simp only [Pump.pending, List.append_nil]
  refine conserved_far_send_chunk h.near_le h.near_eq hle ?_
  dsimp only
  rw [hbytes, List.take_add]

/-- It hands the chunk over. -/
theorem conserved_far_send {s s' : SessionStream} (h : Conserved s)
    (hs : s.far_send = some s') : Conserved s' := by
  unfold far_send at hs
  split at hs
  · next chunk hp =>
    rw [Option.ite_none_left_eq_some, Option.some.injEq] at hs
    obtain ⟨-, hs⟩ := hs
    subst hs
    have hne : s.far_pump ≠ .stopped := by rw [hp]; simp
    refine conserved_far_send_chunk h.near_le h.near_eq h.read_le ?_
    rw [← h.far_eq hne, far_bytes, hp]
    simp only [Pump.pending, List.flatten_append, List.flatten_cons, List.flatten_nil,
      List.append_nil]
  · cases hs

/-- Every step conserves the bytes. -/
theorem conserved_step {s s' : SessionStream} {a : StreamLabel} (h : Conserved s)
    (hs : s.step a = some s') : Conserved s' := by
  cases a with
  | send_chunk chunk =>
      simp only [step, send_chunk, Option.ite_none_right_eq_some] at hs
      obtain ⟨-, hs⟩ := hs
      split at hs
      · rw [Option.some.injEq] at hs
        exact hs ▸ ⟨h.near_le, h.near_eq, h.read_le, h.far_le, h.far_eq⟩
      · rw [Option.some.injEq] at hs
        exact hs ▸ h
  | send_piece => exact conserved_send_piece h hs
  | send_timeout =>
      simp only [step, send_timeout] at hs
      split at hs
      · cases hs
      · rw [Option.some.injEq] at hs
        exact hs ▸ ⟨h.near_le, h.near_eq, h.read_le, h.far_le, h.far_eq⟩
  | close =>
      rw [step, Option.some.injEq] at hs
      exact hs ▸ ⟨h.near_le, h.near_eq, h.read_le, h.far_le, h.far_eq⟩
  | abort =>
      rw [step, Option.some.injEq] at hs
      exact hs ▸ ⟨h.near_le, h.near_eq, h.read_le, h.far_le, h.far_eq⟩
  | sweep_writer =>
      rw [step, Option.some.injEq] at hs
      exact hs ▸ ⟨h.near_le, h.near_eq, h.read_le, h.far_le, h.far_eq⟩
  | near_recv =>
      simp only [step, near_recv] at hs
      split at hs
      · next chunk rest hnear hq =>
        rw [Option.some.injEq] at hs
        subst hs
        refine ⟨h.near_le, fun _ => ?_, h.read_le, h.far_le, h.far_eq⟩
        rw [← h.near_eq (by rw [hnear]; simp), hnear, hq]
        simp only [QuicSend.pending, List.append_nil, List.flatten_cons, List.append_assoc]
      · cases hs
  | near_end =>
      simp only [step, near_end, Option.ite_none_right_eq_some, Option.some.injEq] at hs
      obtain ⟨-, hs⟩ := hs
      exact hs ▸ ⟨h.near_le, fun hne => absurd rfl hne, h.read_le, h.far_le, h.far_eq⟩
  | near_write n => exact conserved_near_write h hs
  | near_write_error =>
      simp only [step, near_write_error] at hs
      split at hs
      · rw [Option.ite_none_right_eq_some, Option.some.injEq] at hs
        exact hs.2 ▸ ⟨h.near_le, fun hne => absurd rfl hne, h.read_le, h.far_le, h.far_eq⟩
      · cases hs
  | reset =>
      rw [step, Option.some.injEq] at hs
      exact hs ▸ ⟨h.near_le, h.near_eq, h.read_le, h.far_le, h.far_eq⟩
  | far_read n => exact conserved_far_read h hs
  | far_fin =>
      simp only [step, far_fin, Option.ite_none_right_eq_some, Option.some.injEq] at hs
      exact hs.2 ▸ conserved_far_stop h
  | far_error =>
      simp only [step, far_error, Option.ite_none_right_eq_some, Option.some.injEq] at hs
      exact hs.2 ▸ conserved_far_stop h
  | far_send => exact conserved_far_send h hs
  | far_drain_timeout =>
      simp only [step, far_drain_timeout] at hs
      split at hs
      · rw [Option.some.injEq] at hs
        exact hs ▸ conserved_far_stop h
      · cases hs
  | far a =>
      simp only [step, Option.map_eq_some_iff] at hs
      obtain ⟨r, hr, hs⟩ := hs
      subst hs
      have hbytes : far_bytes { s with far := r } = s.far_bytes := by
        rw [far_bytes, far_bytes]
        exact congrArg (fun l => (l ++ s.far_pump.pending).flatten) (BodyReader.step_frame hr).2
      refine ⟨h.near_le, h.near_eq, h.read_le, ?_, ?_⟩
      · rw [hbytes]
        exact h.far_le
      · rw [hbytes]
        exact h.far_eq

/-! ## A clean end is genuine

This half does need one: the far pump ends its channel in the same way whatever
ended the stream. -/

/-- The step is none of the endings that look like a normal close: the write
handle is not aborted or swept, the far pump's read does not fail and its drain
timeout does not fire, and the far handle is not cancelled under a waiting call. -/
def Undisturbed (s : SessionStream) : StreamLabel → Prop
  | .abort => s.write_registered = false
  | .sweep_writer => s.write_registered = false
  | .far_error => False
  | .far_drain_timeout => False
  | .far .cancel_reader => s.far.registered = true → ∀ c, (s.far.calls c).notify = s.far.calls c
  | _ => True

/-- An end is genuine: the stream is finished on the wire, and at the reader, only behind a close
and with every byte. -/
structure Genuine (s : SessionStream) : Prop where
  settled : s.far.Settled
  closed : s.write_registered = false → s.finished = true
  fin : s.fin = true →
    s.near = .done ∧ s.write_registered = false ∧ s.sender = .idle ∧ s.data = s.sent
  running : s.far_pump ≠ .stopped ↔ s.far.tx_open = true
  ended : s.far_pump = .stopped → (s.fin = true ∧ s.far_bytes = s.data) ∨ s.far.Abandoned
  clean : Return.eof ∈ s.far.returned → s.fin = true ∧ s.far_bytes = s.data

theorem genuine_start (max_chunk_size near_capacity handle far_capacity : ℕ) :
    Genuine (start max_chunk_size near_capacity handle far_capacity) where
  settled := BodyReader.settled_make_body_channel handle far_capacity
  closed h := by cases h
  fin h := by cases h
  running := by simp [start, BodyReader.make_body_channel]
  ended h := by cases h
  clean h := absurd h List.not_mem_nil

variable {s s' : SessionStream}

/-- The near end moves. Once the stream is finished, its data stays as it is. -/
theorem genuine_near (hg : Genuine s) (hfar : s'.far = s.far)
    (hpump : s'.far_pump = s.far_pump)
    (hclosed : s'.write_registered = false → s'.finished = true)
    (hkeep : s.fin = true → s'.fin = true ∧ s'.data = s.data)
    (hfin : s'.fin = true →
      s'.near = .done ∧ s'.write_registered = false ∧ s'.sender = .idle ∧ s'.data = s'.sent) :
    Genuine s' := by
  have hbytes : s'.far_bytes = s.far_bytes := by rw [far_bytes, far_bytes, hfar, hpump]
  -- a far end that had everything has everything still
  have hend : s.fin = true ∧ s.far_bytes = s.data → s'.fin = true ∧ s'.far_bytes = s'.data := by
    rintro ⟨hf, hb⟩
    obtain ⟨hf', hd'⟩ := hkeep hf
    exact ⟨hf', by rw [hbytes, hb, hd']⟩
  refine ⟨by rw [hfar]; exact hg.settled, hclosed, hfin, by rw [hfar, hpump]; exact hg.running,
    ?_, ?_⟩
  · intro hst
    rw [hpump] at hst
    rw [hfar]
    exact (hg.ended hst).imp_left hend
  · intro he
    rw [hfar] at he
    exact hend (hg.clean he)

/-- Only a far pump that stopped has closed the far channel. -/
theorem Genuine.stopped (hg : Genuine s) (hclosed : s.far.tx_open = false) :
    s.far_pump = .stopped := by
  by_contra hne
  rw [hg.running.mp hne] at hclosed
  cases hclosed

/-- A running far pump has reported no end yet. -/
theorem Genuine.no_eof (hg : Genuine s) (hne : s.far_pump ≠ .stopped) :
    Return.eof ∉ s.far.returned := by
  intro he
  exact hne (hg.stopped (hg.settled.eof he).1)

/-- The far pump stops: at the end of the stream, or because nothing can read
what it sends. -/
theorem genuine_far_stop (hg : Genuine s) (hne : s.far_pump ≠ .stopped)
    (hend : (s.fin = true ∧ s.far_stop.far_bytes = s.data) ∨ s.far.Abandoned) :
    Genuine s.far_stop := by
  refine ⟨BodyReader.settled_hang_up hg.settled, hg.closed, hg.fin, ?_, fun _ => hend, ?_⟩
  · simp [far_stop, BodyReader.hang_up]
  · intro he
    exact absurd he (hg.no_eof hne)

/-- A chunk handed over is not an end. -/
theorem genuine_far_send_chunk (hg : Genuine s) (hne : s.far_pump ≠ .stopped) (chunk : Bytes) :
    Genuine (s.far_send_chunk chunk) := by
  cases halive : s.far.rx_alive with
  | false =>
      rw [far_send_chunk_of_dead s chunk halive]
      exact genuine_far_stop hg hne (.inr (hg.settled.abandoned halive))
  | true =>
      have htx := hg.running.mp hne
      unfold far_send_chunk
      rw [halive, Bool.not_true, if_neg Bool.false_ne_true]
      split
      · refine ⟨BodyReader.settled_push hg.settled htx chunk, hg.closed, hg.fin, ?_, ?_, ?_⟩
        · simp [BodyReader.push, htx]
        · intro hst
          cases hst
        · intro he
          exact absurd he (hg.no_eof hne)
      · refine ⟨hg.settled, hg.closed, hg.fin, ?_, ?_, ?_⟩
        · simp [htx]
        · intro hst
          cases hst
        · intro he
          exact absurd he (hg.no_eof hne)

/-- The reader sees an end that is genuine. -/
theorem genuine_far_reader (hg : Genuine s) {a : ReaderLabel} {r : BodyReader}
    (hok : s.Undisturbed (.far a)) (hr : s.far.step a = some r) :
    Genuine { s with far := r } := by
  obtain ⟨htx, hkeep⟩ := BodyReader.step_frame hr
  have hbytes : far_bytes { s with far := r } = s.far_bytes := by
    rw [far_bytes, far_bytes]
    exact congrArg (fun l => (l ++ s.far_pump.pending).flatten) hkeep
  refine ⟨?_, hg.closed, hg.fin, ?_, ?_, ?_⟩
  · refine BodyReader.settled_step hg.settled ?_ hr
    rintro rfl
    exact hok
  · dsimp only
    rw [htx]
    exact hg.running
  · intro hst
    rw [hbytes]
    rcases hg.ended hst with hend | hgone
    · exact .inl hend
    · exact .inr (BodyReader.abandoned_step hgone hr)
  · intro he
    rw [hbytes]
    rcases BodyReader.step_eof hr he with hold | ⟨c, -, hcall, -⟩
    · exact hg.clean hold
    · -- the call has seen the end of the channel, so the far pump has stopped
      have hstopped := hg.stopped (hg.settled.ending c (by rw [hcall]; rfl)).1
      rcases hg.ended hstopped with hend | hgone
      · exact hend
      · have hin := hgone.2 c
        rw [hcall] at hin
        cases hin

/-- Nothing is finished while the near pump or a `send_chunk` call is at work. -/
theorem Genuine.unfinished (hg : Genuine s)
    (hbusy : s.near ≠ .done ∨ s.sender ≠ .idle ∨ s.write_registered = true) : s.fin ≠ true := by
  intro hf
  obtain ⟨hnear, hreg, hidle, -⟩ := hg.fin hf
  rcases hbusy with h | h | h
  · exact h hnear
  · exact h hidle
  · rw [hreg] at h
    cases h

/-- A near step from a state in which nothing is finished. -/
theorem genuine_busy (hg : Genuine s) (hfar : s'.far = s.far)
    (hpump : s'.far_pump = s.far_pump) (hreg : s'.write_registered = s.write_registered)
    (hfinished : s'.finished = s.finished) (hbusy : s.fin ≠ true) (hfin : s'.fin = s.fin) :
    Genuine s' := by
  refine genuine_near hg hfar hpump ?_ (fun h => absurd h hbusy) (fun h => ?_)
  · rw [hreg, hfinished]
    exact hg.closed
  · rw [hfin] at h
    exact absurd h hbusy

theorem genuine_send_piece (hg : Genuine s) (hs : s.send_piece = some s') : Genuine s' := by
  unfold send_piece at hs
  split at hs
  · cases hs
  · next piece rest hsend =>
    have hbusy := hg.unfinished (.inr (.inl (by rw [hsend]; simp)))
    split at hs
    · rw [Option.some.injEq] at hs
      exact hs ▸ genuine_busy hg rfl rfl rfl rfl hbusy rfl
    · rw [Option.ite_none_right_eq_some, Option.some.injEq] at hs
      exact hs.2 ▸ genuine_busy hg rfl rfl rfl rfl hbusy rfl

/-- The write handle goes away when the sender has closed the body. -/
theorem genuine_unregister (hg : Genuine s) {finished : Bool} (hf : finished = true) :
    Genuine { s with write_registered := false, finished := finished } := by
  refine genuine_near hg rfl rfl (fun _ => hf) (fun h => ⟨h, rfl⟩) (fun h => ?_)
  obtain ⟨hnear, -, hidle, hdata⟩ := hg.fin h
  exact ⟨hnear, rfl, hidle, hdata⟩

/-- The near pump finishes the stream once it has written all that was sent. -/
theorem genuine_near_end (hc : Conserved s) (hg : Genuine s) (hs : s.near_end = some s') :
    Genuine s' := by
  rw [near_end, Option.ite_none_right_eq_some, Option.some.injEq] at hs
  obtain ⟨⟨hnear, hq, htx⟩, hs⟩ := hs
  subst hs
  have hne : s.near ≠ .done := by rw [hnear]; simp
  -- the pump reads and its queue is empty, so nothing is on its way
  have hsent : s.data = s.sent := by
    have heq := hc.near_eq hne
    rw [hnear, hq] at heq
    simpa only [QuicSend.pending, List.flatten_nil, List.append_nil] using heq
  rw [near_tx_open, Bool.or_eq_false_iff, decide_eq_false_iff_not, not_not] at htx
  exact genuine_near hg rfl rfl hg.closed (fun h => absurd h (hg.unfinished (.inl hne)))
    (fun _ => ⟨rfl, htx.1, htx.2, hsent⟩)

/-- The far pump stops at the end of the stream with all of it handed on. -/
theorem genuine_far_fin (hc : Conserved s) (hg : Genuine s) (hs : s.far_fin = some s') :
    Genuine s' := by
  rw [far_fin, Option.ite_none_right_eq_some, Option.some.injEq] at hs
  obtain ⟨⟨hp, hf, hread⟩, hs⟩ := hs
  subst hs
  have hne : s.far_pump ≠ .stopped := by rw [hp]; simp
  refine genuine_far_stop hg hne (.inl ⟨hf, ?_⟩)
  have hall := hc.far_eq hne
  rw [hread, List.take_length, far_bytes, hp] at hall
  rw [far_stop_bytes]
  simpa only [Pump.pending, List.append_nil] using hall

/-- Every undisturbed step keeps ends genuine. -/
theorem genuine_step {a : StreamLabel} (hc : Conserved s) (hg : Genuine s)
    (hok : s.Undisturbed a) (hs : s.step a = some s') : Genuine s' := by
  cases a with
  | send_chunk chunk =>
      simp only [step, send_chunk, Option.ite_none_right_eq_some] at hs
      obtain ⟨-, hs⟩ := hs
      split at hs
      · next hreg =>
        rw [Option.some.injEq] at hs
        subst hs
        exact genuine_busy hg rfl rfl rfl rfl (hg.unfinished (.inr (.inr hreg))) rfl
      · rw [Option.some.injEq] at hs
        exact hs ▸ hg
  | send_piece => exact genuine_send_piece hg hs
  | send_timeout =>
      simp only [step, send_timeout] at hs
      split at hs
      · cases hs
      · next piece rest hsend =>
        rw [Option.some.injEq] at hs
        subst hs
        exact genuine_busy hg rfl rfl rfl rfl
          (hg.unfinished (.inr (.inl (by rw [hsend]; simp)))) rfl
  | close =>
      rw [step, Option.some.injEq] at hs
      subst hs
      refine genuine_unregister hg ?_
      -- either the handle was still there, and this close finished the body,
      -- or an earlier one had
      rw [Bool.or_eq_true]
      by_cases hreg : s.write_registered = true
      · exact .inr hreg
      · exact .inl (hg.closed (Bool.eq_false_iff.mpr hreg))
  | abort =>
      rw [step, Option.some.injEq] at hs
      exact hs ▸ genuine_unregister hg (hg.closed hok)
  | sweep_writer =>
      rw [step, Option.some.injEq] at hs
      exact hs ▸ genuine_unregister hg (hg.closed hok)
  | near_recv =>
      simp only [step, near_recv] at hs
      split at hs
      · next chunk rest hnear hq =>
        rw [Option.some.injEq] at hs
        subst hs
        exact genuine_busy hg rfl rfl rfl rfl (hg.unfinished (.inl (by rw [hnear]; simp))) rfl
      · cases hs
  | near_end => exact genuine_near_end hc hg hs
  | near_write n =>
      simp only [step, near_write] at hs
      split at hs
      · next rest hnear =>
        rw [Option.some.injEq] at hs
        subst hs
        exact genuine_busy hg rfl rfl rfl rfl (hg.unfinished (.inl (by rw [hnear]; simp))) rfl
      · cases hs
  | near_write_error =>
      simp only [step, near_write_error] at hs
      split at hs
      · next rest hnear =>
        rw [Option.ite_none_right_eq_some, Option.some.injEq] at hs
        obtain ⟨-, hs⟩ := hs
        subst hs
        exact genuine_busy hg rfl rfl rfl rfl (hg.unfinished (.inl (by rw [hnear]; simp))) rfl
      · cases hs
  | reset =>
      rw [step, Option.some.injEq] at hs
      subst hs
      exact genuine_near hg rfl rfl hg.closed (fun h => ⟨h, rfl⟩) hg.fin
  | far_read n =>
      simp only [step, far_read, Option.ite_none_right_eq_some, Option.some.injEq] at hs
      obtain ⟨⟨hp, -⟩, hs⟩ := hs
      subst hs
      -- the bytes count as read before the chunk is handed on
      have hg' : Genuine { s with read := s.read + n } :=
        ⟨hg.settled, hg.closed, hg.fin, hg.running, hg.ended, hg.clean⟩
      exact genuine_far_send_chunk hg' (by rw [hp]; simp) _
  | far_fin => exact genuine_far_fin hc hg hs
  | far_error => exact hok.elim
  | far_send =>
      simp only [step, far_send] at hs
      split at hs
      · next chunk hp =>
        rw [Option.ite_none_left_eq_some, Option.some.injEq] at hs
        obtain ⟨-, hs⟩ := hs
        subst hs
        exact genuine_far_send_chunk hg (by rw [hp]; simp) chunk
      · cases hs
  | far_drain_timeout => exact hok.elim
  | far a =>
      simp only [step, Option.map_eq_some_iff] at hs
      obtain ⟨r, hr, hs⟩ := hs
      subst hs
      exact genuine_far_reader hg hok hr

/-! ## What the far reader sees -/

/-- **Session streams deliver in order, and their clean ends are genuine.** In
every run the far reader has got a prefix of the bytes sent; in a run without a
disturbance it sees a clean end only if the sender closed the body itself and
all of it arrived. -/
theorem session_stream_fidelity (max_chunk_size near_capacity handle far_capacity : ℕ)
    (schedule : List StreamLabel) (s : SessionStream)
    (hrun : Machine.run step (start max_chunk_size near_capacity handle far_capacity) schedule
      = some s) :
    s.far.delivered.flatten <+: s.sent ∧
      (Machine.Along step Undisturbed (start max_chunk_size near_capacity handle far_capacity)
          schedule →
        Return.eof ∈ s.far.returned → s.finished = true ∧ s.far.delivered.flatten = s.sent) := by
  have hc : Conserved s := Machine.run_invariant (fun _ _ _ h hs => conserved_step h hs)
    (conserved_start max_chunk_size near_capacity handle far_capacity) hrun
  constructor
  · have hfar : s.far.delivered.flatten <+: s.far_bytes := by
      rw [far_bytes, List.append_assoc]
      exact (List.prefix_append _ _).flatten
    exact (hfar.trans hc.far_le).trans ((List.take_prefix _ _).trans hc.near_le)
  · intro hok he
    have hg : Conserved s ∧ Genuine s := by
      refine Machine.along_invariant (P := fun s => Conserved s ∧ Genuine s) ?_
        ⟨conserved_start max_chunk_size near_capacity handle far_capacity,
          genuine_start max_chunk_size near_capacity handle far_capacity⟩ hok hrun
      rintro t a t' ⟨htc, htg⟩ hC hs
      exact ⟨conserved_step htc hs, genuine_step htc htg hC hs⟩
    obtain ⟨hfin, hbytes⟩ := hg.2.clean he
    obtain ⟨-, hreg, -, hdata⟩ := hg.2.fin hfin
    -- a drained channel whose pump has stopped holds nothing but what it delivered
    obtain ⟨htx, hq⟩ := hg.2.settled.eof he
    have hst := hg.2.stopped htx
    refine ⟨hg.2.closed hreg, ?_⟩
    rw [← hdata, ← hbytes, far_bytes, hst, hq]
    simp only [Pump.pending, List.append_nil]

/-- One `next_chunk` at the far end, up to the receive. -/
def far_next (c : ℕ) : List StreamLabel :=
  [.far (.open_call .next_chunk c), .far (.enlist c), .far (.acquire c), .far (.recv c)]

/-- The last two steps of a call that has seen the end of the channel. -/
def far_ends (c : ℕ) : List StreamLabel := [.far (.remove c), .far (.take_error c)]

/-- Two bytes, a normal close, and a far reader that reads to the end. -/
def closed_normally : List StreamLabel :=
  [.send_chunk [1, 2], .send_piece, .close, .near_recv, .near_write 2, .near_end, .far_read 2]
    ++ far_next 0 ++ [.far_fin] ++ far_next 1 ++ far_ends 1

theorem session_stream_fidelity_closed_normally :
    ∃ s, Machine.run step (start 8 1 1 1) closed_normally = some s ∧
      s.far.returned = [.chunk [1, 2], .eof] ∧
      s.finished = true ∧ s.far.delivered.flatten = s.sent := by
  refine ⟨_, rfl, by decide, ?_⟩
  refine (session_stream_fidelity 8 1 1 1 closed_normally _ rfl).2 ?_ (by decide)
  refine Machine.along_of_forall (fun a ha s => ?_) _
  fin_cases ha <;> trivial

/-- The peer's reset arrives between the first and the second of two bytes. -/
def reset_midway : List StreamLabel :=
  [.send_chunk [1, 2], .send_piece, .near_recv, .near_write 1, .far_read 1, .reset]
    ++ far_next 0 ++ [.far_error] ++ far_next 1 ++ far_ends 1

/-- A reset stream ends cleanly for the far reader. -/
theorem reset_reports_clean_end :
    ¬ ∀ (max_chunk_size near_capacity handle far_capacity : ℕ) (schedule : List StreamLabel)
      (s : SessionStream),
      Machine.run step (start max_chunk_size near_capacity handle far_capacity) schedule = some s →
      s.far.delivered.flatten <+: s.sent ∧
        (Return.eof ∈ s.far.returned → s.finished = true ∧ s.far.delivered.flatten = s.sent) := by
  intro h
  have hend := (h 8 1 1 1 reset_midway _ rfl).2 (by decide)
  exact absurd hend.1 (by decide)

end SessionStream

end IrohHttp.Body
