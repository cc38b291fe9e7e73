/-
`pump_hyper_body_to_channel_limited` of `iroh-http-core/src/ffi/pumps.rs`, with
the channel it fills and the reader handle on the other end.

The pump reads a body frame by frame, each read under the frame timeout, and
forwards the data frames; past the byte limit it aborts the channel and keeps
reading to drain the peer. Forwarding waits, under the drain timeout, while the
channel is full. Both timeouts may fire at any wait: how long they are is part
of the schedule.
-/
import IrohHttp.BodyChannel
import IrohHttp.Machine
import Mathlib.Data.List.Infix
import Mathlib.Tactic.FinCases

set_option autoImplicit false

namespace IrohHttp.Body

/-! ## The pump -/

/-- One frame of the body being pumped. A stalled body never yields the next. -/
inductive BodyFrame
  | data (bytes : Bytes)
  | trailers
  | error (length_limit : Bool) (detail : String)
  | stall
  deriving DecidableEq, Repr

/-- The data of a list of frames, chunk by chunk. -/
def data_of (frames : List BodyFrame) : List Bytes :=
  frames.filterMap fun
    | .data bytes => some bytes
    | _ => none

/-- Where the pump waits: for a frame, for room for a chunk, or not at all. -/
inductive Pump
  | awaiting
  | sending (chunk : Bytes)
  | stopped
  deriving DecidableEq, Repr

/-- The chunk the pump holds. -/
def Pump.pending : Pump → List Bytes
  | .sending chunk => [chunk]
  | _ => []

/-- A pump with the rest of its body and the channel it fills. `overflow_tx` is
whether the caller's overflow signal, if it gave one, has fired. -/
structure Pumped where
  body : List BodyFrame
  max_bytes : Option ℕ
  total : ℕ
  overflowed : Bool
  overflow_tx : Option Bool
  pump : Pump
  reader : BodyReader

/-- What moves a pump: a frame or a frame timeout from the body, room in the channel or a drain
timeout, and what the reader's side does. -/
inductive PumpLabel
  | frame
  | frame_timeout
  | send
  | drain_timeout
  | reader (a : ReaderLabel)
  deriving DecidableEq, Repr

namespace Pumped

/-- A pump that has just been spawned over a body, with a fresh channel to its reader. -/
def start (body : List BodyFrame) (max_bytes : Option ℕ) (overflow_tx : Bool)
    (handle capacity : ℕ) : Pumped where
  body := body
  max_bytes := max_bytes
  total := 0
  overflowed := false
  overflow_tx := if overflow_tx then some false else none
  pump := .awaiting
  reader := BodyReader.make_body_channel handle capacity

/-- Leave the loop and drop the writer. -/
def stop (s : Pumped) : Pumped := { s with pump := .stopped, reader := s.reader.hang_up }

/-- `BodyWriter::abort` and on. -/
def abort (s : Pumped) (e : CoreError) : Pumped := { s with reader := s.reader.abort e }

/-- One attempt to hand a chunk to the channel. -/
def send_chunk (s : Pumped) (chunk : Bytes) : Pumped :=
  if !s.reader.rx_alive then s.stop
  else if s.reader.queue.length < s.reader.capacity then
    { s with pump := .awaiting, reader := s.reader.push chunk }
  else { s with pump := .sending chunk }

/-- What the loop does with a data frame. -/
def on_data (s : Pumped) (bytes : Bytes) : Pumped :=
  let total := usize.saturating_add s.total bytes.length
  let s := { s with total := total }
  match s.max_bytes with
  | some limit =>
    -- the chunk that crosses the limit is dropped whole
    if limit < total then
      { s with overflowed := true, overflow_tx := s.overflow_tx.map fun _ => true }.abort
        (CoreError.body_too_large s!"body exceeded configured size limit of {limit} bytes")
    else s.send_chunk bytes
  | none => s.send_chunk bytes

/-- The error a failed frame ends the channel with. -/
def frame_error (length_limit : Bool) (detail : String) : CoreError :=
  if length_limit then CoreError.body_too_large "body exceeded configured size limit"
  else CoreError.internal s!"body stream error: {detail}"

/-- One turn of the loop whose frame arrived in time. -/
def on_frame (s : Pumped) : Option Pumped :=
  match s.body with
  | [] => some s.stop
  -- only the frame timeout gets the pump out of this one
  | .stall :: _ => none
  | .error length_limit detail :: rest =>
    let s := { s with body := rest }
    some (if s.overflowed then s.stop else (s.abort (frame_error length_limit detail)).stop)
  | .trailers :: rest => some { s with body := rest }
  | .data bytes :: rest =>
    let s := { s with body := rest }
    -- past the limit the rest of the body is read and thrown away
    some (if s.overflowed then s else s.on_data bytes)

/-- One step of the pump, at the await it has reached. A chunk is sent when the channel has room, or
at once when the receiver is gone. -/
def step (s : Pumped) : PumpLabel → Option Pumped
  | .frame => if s.pump = .awaiting then s.on_frame else none
  | .frame_timeout =>
    if s.pump = .awaiting then
      some (s.abort (CoreError.timeout "body frame read timed out")).stop
    else none
  | .send =>
    match s.pump with
    | .sending chunk =>
      if s.reader.rx_alive && decide (s.reader.capacity ≤ s.reader.queue.length) then none
      else some (s.send_chunk chunk)
    | _ => none
  | .drain_timeout =>
    match s.pump with
    -- unlike the other failures this one leaves no error in the channel
    | .sending _ => some s.stop
    | _ => none
  | .reader a => (s.reader.step a).map fun r => { s with reader := r }

/-! ## The invariant -/

/-- Everything the channel has been given, or is about to be, in order. -/
def accepted (s : Pumped) : List Bytes :=
  s.reader.delivered ++ s.reader.queue ++ s.pump.pending

/-- The reader's view of a body: what it got is a prefix of the body's data
within the limit, a clean end means it got all of it, and any other end is
reported as an error. -/
structure Faithful (frames : List BodyFrame) (max_bytes : Option ℕ) (r : BodyReader) : Prop where
  in_order : r.delivered.flatten <+: (data_of frames).flatten
  limited : ∀ limit, max_bytes = some limit → r.delivered.flatten.length ≤ limit
  clean_end : Return.eof ∈ r.returned → r.delivered.flatten = (data_of frames).flatten
  broken_end : ∀ c, r.calls c = .removed → r.delivered.flatten ≠ (data_of frames).flatten →
    ∃ e, r.step (.take_error c) = some ({ r with terminal_error := none }.ret c (.error e))

/-- A step at which neither of the two gaps opens: the drain timeout does not
fire, and a call that takes the terminal error is the only one in progress.
Cancelling the reader is not part of reading it. -/
def Undisturbed (s : Pumped) : PumpLabel → Prop
  | .drain_timeout => False
  | .reader .cancel_reader => False
  | .reader (.take_error c) =>
    s.reader.terminal_error ≠ none → ∀ d, d ≠ c → (s.reader.calls d).in_progress = false
  | _ => True

/-- The pump is still reading and has counted what it read. -/
def Counting (frames : List BodyFrame) (s : Pumped) : Prop :=
  ∃ consumed, frames = consumed ++ s.body ∧ s.accepted = data_of consumed ∧
    s.total = min s.accepted.flatten.length usize.MAX

/-- The invariant of a run: the channel is consistent, the chunks accepted are data of the body in
its order and within the limit, and a pump that stopped sent everything, stored an error or lost its
reader. -/
structure Inv (frames : List BodyFrame) (max_bytes : Option ℕ) (s : Pumped) : Prop where
  config : s.max_bytes = max_bytes
  settled : s.reader.Settled
  held : s.reader.Held
  running : s.pump ≠ .stopped ↔ s.reader.tx_open = true
  counting : s.overflowed = false → s.pump ≠ .stopped → Counting frames s
  in_order : s.accepted <+: data_of frames
  limited : ∀ limit, max_bytes = some limit → s.accepted.flatten.length ≤ limit
  overflow : s.overflowed = true → s.pump ≠ .stopped → s.reader.terminal_error ≠ none ∧
    s.pump = .awaiting
  ending : s.pump = .stopped → s.accepted = data_of frames ∨ s.reader.terminal_error ≠ none ∨
    s.reader.Abandoned
  clean : Return.eof ∈ s.reader.returned → s.accepted = data_of frames

theorem data_of_append (l₁ l₂ : List BodyFrame) : data_of (l₁ ++ l₂) = data_of l₁ ++ data_of l₂ :=
  List.filterMap_append

theorem inv_start (frames : List BodyFrame) (max_bytes : Option ℕ) (overflow_tx : Bool)
    (handle capacity : ℕ) :
    Inv frames max_bytes (start frames max_bytes overflow_tx handle capacity) where
  config := rfl
  settled := BodyReader.settled_make_body_channel handle capacity
  held h := by cases h
  running := by simp [start, BodyReader.make_body_channel]
  counting _ _ := ⟨[], rfl, rfl, rfl⟩
  in_order := List.nil_prefix
  limited _ _ := Nat.zero_le _
  overflow h := by cases h
  ending h := by cases h
  clean h := absurd h List.not_mem_nil

/-! ## The pump keeps it -/

variable {frames : List BodyFrame} {max_bytes : Option ℕ} {s : Pumped}

/-- Storing an error keeps the invariant. -/
theorem inv_abort (hinv : Inv frames max_bytes s) (e : CoreError) :
    Inv frames max_bytes (s.abort e) where
  config := hinv.config
  settled := BodyReader.settled_abort hinv.settled e
  held := hinv.held
  running := hinv.running
  counting := hinv.counting
  in_order := hinv.in_order
  limited := hinv.limited
  overflow ho hp := ⟨by simp [abort, BodyReader.abort], (hinv.overflow ho hp).2⟩
  ending _ := .inr (.inl (by simp [abort, BodyReader.abort]))
  clean := hinv.clean

/-- Dropping the writer between two frames is sound when the body has been read
to its end or an error has been left. -/
theorem inv_stop (hinv : Inv frames max_bytes s) (hp : s.pump = .awaiting)
    (hend : s.accepted = data_of frames ∨ s.reader.terminal_error ≠ none) :
    Inv frames max_bytes s.stop := by
  have hacc : s.stop.accepted = s.accepted := by
    simp only [accepted, stop, hp, Pump.pending, BodyReader.hang_up, BodyReader.delivered]
  refine ⟨hinv.config, BodyReader.settled_hang_up hinv.settled, fun h => ⟨rfl, (hinv.held h).2⟩,
    ?_, ?_, ?_, ?_, ?_, ?_, ?_⟩
  · simp [stop, BodyReader.hang_up]
  · intro _ hne
    exact absurd rfl hne
  · rw [hacc]
    exact hinv.in_order
  · rw [hacc]
    exact hinv.limited
  · intro _ hne
    exact absurd rfl hne
  · intro _
    rw [hacc]
    rcases hend with hend | hend
    · exact .inl hend
    · exact .inr (.inl hend)
  · rw [hacc]
    exact hinv.clean

/-- Only a pump that stopped has closed the channel. -/
theorem Inv.stopped (hinv : Inv frames max_bytes s) (hclosed : s.reader.tx_open = false) :
    s.pump = .stopped := by
  by_contra hne
  rw [hinv.running.mp hne] at hclosed
  cases hclosed

/-- The handle only goes away at the end of the channel. -/
theorem Inv.registered (hinv : Inv frames max_bytes s) (hp : s.pump ≠ .stopped) :
    s.reader.registered = true := by
  by_contra hreg
  exact hp (hinv.stopped (hinv.held (Bool.eq_false_iff.mpr hreg)).1)

/-- Handing a chunk on puts it at the end of what the channel was given. -/
theorem send_chunk_accepted (s : Pumped) (chunk : Bytes) (halive : s.reader.rx_alive = true) :
    (s.send_chunk chunk).accepted = s.reader.delivered ++ s.reader.queue ++ [chunk] ∧
      (s.send_chunk chunk).pump ≠ .stopped ∧
      (s.send_chunk chunk).reader.tx_open = s.reader.tx_open ∧
      (s.send_chunk chunk).reader.returned = s.reader.returned ∧
      (s.send_chunk chunk).reader.registered = s.reader.registered := by
  unfold send_chunk
  rw [halive, Bool.not_true, if_neg Bool.false_ne_true]
  split
  · refine ⟨?_, by simp, rfl, rfl, rfl⟩
    simp only [accepted, BodyReader.push, Pump.pending, List.append_nil, BodyReader.delivered,
      List.append_assoc]
  · exact ⟨rfl, by simp, rfl, rfl, rfl⟩

/-- A chunk sent to a live reader leaves the channel settled. -/
theorem send_chunk_settled (hset : s.reader.Settled) (htx : s.reader.tx_open = true)
    (halive : s.reader.rx_alive = true) (chunk : Bytes) : (s.send_chunk chunk).reader.Settled := by
  unfold send_chunk
  rw [halive, Bool.not_true, if_neg Bool.false_ne_true]
  split
  · exact BodyReader.settled_push hset htx chunk
  · exact hset

theorem send_chunk_fields (s : Pumped) (chunk : Bytes) :
    (s.send_chunk chunk).max_bytes = s.max_bytes ∧ (s.send_chunk chunk).body = s.body ∧
      (s.send_chunk chunk).total = s.total ∧ (s.send_chunk chunk).overflowed = s.overflowed := by
  unfold send_chunk
  split
  · exact ⟨rfl, rfl, rfl, rfl⟩
  · split <;> exact ⟨rfl, rfl, rfl, rfl⟩

/-- Handing a chunk on keeps the invariant when the chunk is the next one of the
body and within the limit. -/
theorem inv_send_chunk {chunk : Bytes} {consumed : List BodyFrame}
    (hconfig : s.max_bytes = max_bytes) (hset : s.reader.Settled)
    (hreg : s.reader.registered = true) (htx : s.reader.tx_open = true)
    (hover : s.overflowed = false) (hframes : frames = consumed ++ s.body)
    (hdata : s.reader.delivered ++ s.reader.queue ++ [chunk] = data_of consumed)
    (htotal : s.total = min (data_of consumed).flatten.length usize.MAX)
    (hlimit : ∀ limit, max_bytes = some limit → (data_of consumed).flatten.length ≤ limit) :
    Inv frames max_bytes (s.send_chunk chunk) := by
  have halive : s.reader.rx_alive = true := by rw [BodyReader.rx_alive, hreg, Bool.true_or]
  obtain ⟨hacc, hrun, htx', hret, hreg'⟩ := send_chunk_accepted s chunk halive
  obtain ⟨hmax', hbody', htotal', hover'⟩ := send_chunk_fields s chunk
  rw [hdata] at hacc
  refine ⟨hmax'.trans hconfig, send_chunk_settled hset htx halive chunk, ?_, ?_, ?_, ?_, ?_, ?_,
    ?_, ?_⟩
  · intro hgone
    rw [hreg', hreg] at hgone
    cases hgone
  · rw [htx', htx]
    exact ⟨fun _ => rfl, fun _ => hrun⟩
  · intro _ _
    exact ⟨consumed, by rw [hbody', hframes], hacc, by rw [htotal', hacc, htotal]⟩
  · rw [hacc, hframes, data_of_append]
    exact List.prefix_append _ _
  · rw [hacc]
    exact hlimit
  · intro hov
    rw [hover', hover] at hov
    cases hov
  · intro hst
    exact absurd hst hrun
  · -- an end that was reported has closed the channel
    intro he
    rw [hret] at he
    have hclosed := (hset.eof he).1
    rw [htx] at hclosed
    cases hclosed

/-- A limit that can be exceeded: below the largest `usize`, or the body is no
longer than that. -/
def Effective (frames : List BodyFrame) (max_bytes : Option ℕ) : Prop :=
  ∀ limit, max_bytes = some limit →
    limit < usize.MAX ∨ (data_of frames).flatten.length ≤ usize.MAX

/-- A data frame within the limit is counted and handed on. -/
theorem inv_send_data (hinv : Inv frames max_bytes s) (heff : Effective frames max_bytes)
    (hp : s.pump = .awaiting) (ho : s.overflowed = false) {bytes : Bytes} {rest : List BodyFrame}
    (hbody : s.body = .data bytes :: rest)
    (hlimit : ∀ limit, max_bytes = some limit →
      usize.saturating_add s.total bytes.length ≤ limit) :
    Inv frames max_bytes ({ s with
      body := rest, total := usize.saturating_add s.total bytes.length }.send_chunk bytes) := by
  have hne : s.pump ≠ .stopped := by rw [hp]; simp
  obtain ⟨consumed, hsplit, hacc, htotal⟩ := hinv.counting ho hne
  have hframes : frames = (consumed ++ [.data bytes]) ++ rest := by
    rw [hsplit, hbody, List.append_assoc]
    rfl
  have hdata : data_of (consumed ++ [.data bytes]) = s.accepted ++ [bytes] := by
    rw [data_of_append, hacc]
    rfl
  have hlen : (data_of (consumed ++ [.data bytes])).flatten.length
      = s.accepted.flatten.length + bytes.length := by
    rw [hdata]
    simp only [List.flatten_append, List.length_append, List.flatten_cons, List.flatten_nil,
      List.append_nil]
  have hle : (data_of (consumed ++ [.data bytes])).flatten.length
      ≤ (data_of frames).flatten.length := by
    rw [hframes, data_of_append (consumed ++ [BodyFrame.data bytes]) rest]
    exact (List.prefix_append _ _).flatten.length_le
  refine inv_send_chunk hinv.config hinv.settled (hinv.registered hne) (hinv.running.mp hne) ho
    hframes ?_ ?_ ?_
  · rw [hdata, accepted, hp]
    simp only [Pump.pending, List.append_nil]
  · rw [hlen]
    simp only [usize.saturating_add, htotal]
    omega
  · intro limit hl
    -- the count saturates, so it equals the length only below the top of `usize`
    have hcount := hlimit limit hl
    rw [usize.saturating_add, htotal] at hcount
    have hcase := heff limit hl
    omega

/-- A frame of data is sent, or is over the limit. -/
theorem inv_on_data (hinv : Inv frames max_bytes s) (heff : Effective frames max_bytes)
    (hp : s.pump = .awaiting) (ho : s.overflowed = false) {bytes : Bytes} {rest : List BodyFrame}
    (hbody : s.body = .data bytes :: rest) :
    Inv frames max_bytes ({ s with body := rest }.on_data bytes) := by
  unfold on_data
  dsimp only
  split
  · next limit hlim =>
    split
    · -- past the limit: the channel is aborted and the pump goes on draining
      refine ⟨hinv.config, BodyReader.settled_abort hinv.settled _, hinv.held, hinv.running, ?_,
        hinv.in_order, hinv.limited, ?_, ?_, hinv.clean⟩
      · intro h
        cases h
      · intro _ _
        exact ⟨by simp [abort, BodyReader.abort], hp⟩
      · intro hst
        rw [abort] at hst
        dsimp only at hst
        rw [hp] at hst
        cases hst
    · next hle =>
      refine inv_send_data hinv heff hp ho hbody fun l hl => ?_
      rw [← hinv.config, hlim, Option.some.injEq] at hl
      exact hl ▸ Nat.le_of_not_lt hle
  · next hnone =>
    refine inv_send_data hinv heff hp ho hbody fun l hl => ?_
    rw [← hinv.config, hnone] at hl
    cases hl

/-- Frames that are read and not handed on. -/
theorem inv_skip (hinv : Inv frames max_bytes s) {f : BodyFrame} {rest : List BodyFrame}
    (hbody : s.body = f :: rest)
    (hskip : s.overflowed = true ∨ data_of [f] = []) :
    Inv frames max_bytes { s with body := rest } := by
  refine ⟨hinv.config, hinv.settled, hinv.held, hinv.running, ?_, hinv.in_order, hinv.limited,
    hinv.overflow, hinv.ending, hinv.clean⟩
  intro ho hne
  obtain ⟨consumed, hsplit, hacc, htotal⟩ := hinv.counting ho hne
  refine ⟨consumed ++ [f], ?_, ?_, htotal⟩
  · rw [hsplit, hbody, List.append_assoc]
    rfl
  · rcases hskip with hov | hnil
    · rw [ho] at hov
      cases hov
    · rw [data_of_append, hnil, List.append_nil]
      exact hacc

/-- Every frame keeps the invariant. -/
theorem inv_on_frame {s' : Pumped} (hinv : Inv frames max_bytes s)
    (heff : Effective frames max_bytes) (hp : s.pump = .awaiting) (h : s.on_frame = some s') :
    Inv frames max_bytes s' := by
  have hne : s.pump ≠ .stopped := by rw [hp]; simp
  unfold on_frame at h
  split at h
  · next hbody =>
    rw [Option.some.injEq] at h
    subst h
    refine inv_stop hinv hp ?_
    -- the body is read to its end: all of it was accepted, or it overflowed
    by_cases ho : s.overflowed = true
    · exact .inr (hinv.overflow ho hne).1
    · obtain ⟨consumed, hsplit, hacc, -⟩ := hinv.counting (Bool.eq_false_iff.mpr ho) hne
      rw [hbody, List.append_nil] at hsplit
      exact .inl (by rw [hacc, hsplit])
  · cases h
  · next length_limit detail rest hbody =>
    have hrest := inv_skip hinv hbody (.inr rfl)
    rw [Option.some.injEq] at h
    subst h
    dsimp only
    split
    · next ho => exact inv_stop hrest hp (.inr (hinv.overflow ho hne).1)
    · exact inv_stop (inv_abort hrest _) hp (.inr (by simp [abort, BodyReader.abort]))
  · next rest hbody =>
    rw [Option.some.injEq] at h
    exact h ▸ inv_skip hinv hbody (.inr rfl)
  · next bytes rest hbody =>
    rw [Option.some.injEq] at h
    subst h
    dsimp only
    split
    · next ho => exact inv_skip hinv hbody (.inl ho)
    · next ho => exact inv_on_data hinv heff hp (Bool.eq_false_iff.mpr ho) hbody

/-- The chunk that was waiting for room gets in. -/
theorem inv_send {s' : Pumped} (hinv : Inv frames max_bytes s) (h : s.step .send = some s') :
    Inv frames max_bytes s' := by
  simp only [step] at h
  split at h
  · next chunk hp =>
    rw [Option.ite_none_left_eq_some, Option.some.injEq] at h
    obtain ⟨-, h⟩ := h
    subst h
    have hne : s.pump ≠ .stopped := by rw [hp]; simp
    have hover : s.overflowed = false := by
      by_contra ho
      have hpend := (hinv.overflow ((Bool.not_eq_false _).mp ho) hne).2
      rw [hp] at hpend
      cases hpend
    obtain ⟨consumed, hsplit, hacc, htotal⟩ := hinv.counting hover hne
    refine inv_send_chunk hinv.config hinv.settled (hinv.registered hne) (hinv.running.mp hne)
      hover hsplit ?_ ?_ ?_
    · rw [← hacc, accepted, hp]
      rfl
    · rw [← hacc]
      exact htotal
    · rw [← hacc]
      exact hinv.limited
  · cases h

/-! ## The reader keeps it -/

/-- So does the reader's side, while it does not cancel. -/
theorem inv_reader (hinv : Inv frames max_bytes s) {a : ReaderLabel} {r : BodyReader}
    (hok : s.Undisturbed (.reader a)) (h : s.reader.step a = some r) :
    Inv frames max_bytes { s with reader := r } := by
  have ha : a ≠ .cancel_reader := by
    rintro rfl
    exact hok
  obtain ⟨htx, hkeep⟩ := BodyReader.step_frame h
  have hacc : accepted { s with reader := r } = s.accepted := by
    rw [accepted, accepted]
    exact congrArg (· ++ s.pump.pending) hkeep
  -- a call only gets past the end of the channel once the pump has stopped
  have hstopped : ∀ c, s.reader.calls c = .removed → s.pump = .stopped := by
    intro c hc
    exact hinv.stopped (hinv.settled.ending c (by rw [hc]; rfl)).1
  -- so nobody takes the error of a pump that is still draining the peer
  have hrunning : s.pump ≠ .stopped → r.terminal_error = s.reader.terminal_error := by
    intro hne
    rcases BodyReader.step_terminal_error h with hsame | ⟨c, -, hc, -⟩
    · exact hsame
    · exact absurd (hstopped c hc) hne
  refine ⟨hinv.config, BodyReader.settled_step hinv.settled (fun h => absurd h ha) h,
    BodyReader.held_step hinv.settled hinv.held ha h, ?_, ?_, ?_, ?_, ?_, ?_, ?_⟩
  · dsimp only
    rw [htx]
    exact hinv.running
  · intro ho hne
    obtain ⟨consumed, hsplit, hcons, htotal⟩ := hinv.counting ho hne
    exact ⟨consumed, hsplit, by rw [hacc, hcons], by rw [hacc]; exact htotal⟩
  · rw [hacc]
    exact hinv.in_order
  · rw [hacc]
    exact hinv.limited
  · intro ho hne
    dsimp only
    rw [hrunning hne]
    exact hinv.overflow ho hne
  · intro hst
    rw [hacc]
    rcases hinv.ending hst with hall | herr | hgone
    · exact .inl hall
    · rcases BodyReader.step_terminal_error h with hsame | ⟨c, rfl, hc, hsome, hreg, hcalls⟩
      · refine .inr (.inl ?_)
        dsimp only
        rw [hsame]
        exact herr
      · -- the call that takes the error is the last one in progress
        refine .inr (.inr ⟨?_, fun d => ?_⟩)
        · dsimp only
          rw [hreg, hinv.settled.removed c hc]
        · dsimp only
          rw [hcalls]
          by_cases hd : d = c
          · rw [hd, Function.update_self]
            rfl
          · rw [Function.update_of_ne hd]
            exact hok hsome d hd
    · exact .inr (.inr (BodyReader.abandoned_step hgone h))
  · intro he
    rw [hacc]
    rcases BodyReader.step_eof h he with hold | ⟨c, -, hc, hnone⟩
    · exact hinv.clean hold
    · -- the call found the cell empty, so the pump stopped at the end of the body
      rcases hinv.ending (hstopped c hc) with hall | herr | hgone
      · exact hall
      · exact absurd hnone herr
      · have hin := hgone.2 c
        rw [hc] at hin
        cases hin

/-- What one step of the pump keeps. -/
theorem inv_step (heff : Effective frames max_bytes) {a : PumpLabel} {s' : Pumped}
    (hinv : Inv frames max_bytes s) (hok : s.Undisturbed a) (h : s.step a = some s') :
    Inv frames max_bytes s' := by
  cases a with
  | frame =>
      simp only [step, Option.ite_none_right_eq_some] at h
      exact inv_on_frame hinv heff h.1 h.2
  | frame_timeout =>
      simp only [step, Option.ite_none_right_eq_some, Option.some.injEq] at h
      obtain ⟨hp, h⟩ := h
      subst h
      exact inv_stop (inv_abort hinv _) hp (.inr (by simp [abort, BodyReader.abort]))
  | send => exact inv_send hinv h
  | drain_timeout => exact hok.elim
  | reader a =>
      simp only [step, Option.map_eq_some_iff] at h
      obtain ⟨r, hr, h⟩ := h
      subst h
      exact inv_reader hinv hok hr

/-! ## What the reader sees -/

/-- On a drained channel everything accepted has been delivered. -/
theorem Inv.accepted_of_drained (hinv : Inv frames max_bytes s) (hd : s.reader.Drained) :
    s.pump = .stopped ∧ s.accepted = s.reader.delivered := by
  have hst := hinv.stopped hd.1
  have hpend : s.pump.pending = [] := by rw [hst]; rfl
  exact ⟨hst, by rw [accepted, hpend, hd.2, List.append_nil, List.append_nil]⟩

/-- The invariant makes the body faithful. -/
theorem faithful_of_inv (hinv : Inv frames max_bytes s) :
    Faithful frames max_bytes s.reader := by
  have hpre : s.reader.delivered <+: s.accepted := by
    rw [accepted, List.append_assoc]
    exact List.prefix_append _ _
  refine ⟨(hpre.trans hinv.in_order).flatten, ?_, ?_, ?_⟩
  · intro limit hl
    exact hpre.flatten.length_le.trans (hinv.limited limit hl)
  · intro he
    obtain ⟨-, hacc⟩ := hinv.accepted_of_drained (hinv.settled.eof he)
    rw [← hacc, hinv.clean he]
  · intro c hc hne
    have hdrained := hinv.settled.ending c (by rw [hc]; rfl)
    obtain ⟨hst, hacc⟩ := hinv.accepted_of_drained hdrained
    rcases hinv.ending hst with hall | herr | hgone
    · rw [← hacc, hall] at hne
      exact absurd rfl hne
    · -- the error is still in the cell for this call to take
      obtain ⟨e, he⟩ := Option.ne_none_iff_exists'.mp herr
      exact ⟨e, by rw [BodyReader.step, BodyReader.take_error, if_pos hc, he]⟩
    · have hin := hgone.2 c
      rw [hc] at hin
      cases hin

/-- **A pumped body is read faithfully.** For every body, limit, capacity and
schedule, as long as the drain timeout does not fire and no call takes the
terminal error while another is in progress. -/
theorem pumped_body_faithful (frames : List BodyFrame) (max_bytes : Option ℕ)
    (overflow_tx : Bool) (handle capacity : ℕ) (schedule : List PumpLabel) (s : Pumped)
    (heff : Effective frames max_bytes)
    (hok : Machine.Along step Undisturbed (start frames max_bytes overflow_tx handle capacity) schedule)
    (hrun : Machine.run step (start frames max_bytes overflow_tx handle capacity) schedule = some s) :
    Faithful frames max_bytes s.reader :=
  faithful_of_inv (Machine.along_invariant (fun _ _ _ hinv hC hs => inv_step heff hinv hC hs)
    (inv_start frames max_bytes overflow_tx handle capacity) hok hrun)

/-- Reading one chunk with `next_chunk`, up to the receive. -/
def read_chunk (c : ℕ) : List PumpLabel :=
  [.reader (.open_call .next_chunk c), .reader (.enlist c), .reader (.acquire c), .reader (.recv c)]

/-- A body of two chunks read up to its end, which the last call has seen. -/
def read_to_end : List PumpLabel :=
  [.frame] ++ read_chunk 0 ++ [.frame] ++ read_chunk 1 ++ [.frame] ++ read_chunk 2
    ++ [.reader (.remove 2)]

/-- The last call reports a clean end. -/
theorem pumped_body_faithful_read_to_end :
    ∃ s, Machine.run step (start [.data [1], .data [2]] (some 2) false 1 1)
        (read_to_end ++ [.reader (.take_error 2)]) = some s ∧
      s.reader.returned = [.chunk [1], .chunk [2], .eof] ∧
      Faithful [.data [1], .data [2]] (some 2) s.reader := by
  refine ⟨_, rfl, by decide, ?_⟩
  refine pumped_body_faithful _ _ false 1 1 (read_to_end ++ [.reader (.take_error 2)]) _ ?_ ?_ rfl
  · intro limit hl
    rw [Option.some.injEq] at hl
    exact .inl (by rw [← hl]; decide)
  · refine Machine.along_append.mpr ⟨Machine.along_of_forall ?_ _, ?_⟩
    · intro a ha s
      fin_cases ha <;> trivial
    · -- the body ended cleanly, so there is no error to take
      rintro t ⟨⟩
      exact ⟨fun h => absurd rfl h, fun _ _ => trivial⟩

/-- The reader of a full channel comes back after the drain timeout: the second
chunk is gone, and the end it sees is a clean one. -/
def slow_reader : List PumpLabel :=
  [.frame, .frame, .drain_timeout] ++ read_chunk 0 ++ read_chunk 1
    ++ [.reader (.remove 1), .reader (.take_error 1)]

theorem drain_timeout_reports_clean_end :
    ¬ ∀ (frames : List BodyFrame) (max_bytes : Option ℕ) (overflow_tx : Bool)
      (handle capacity : ℕ) (schedule : List PumpLabel) (s : Pumped),
      Effective frames max_bytes → PumpLabel.reader .cancel_reader ∉ schedule →
      Machine.run step (start frames max_bytes overflow_tx handle capacity) schedule = some s →
      Faithful frames max_bytes s.reader := by
  intro h
  have hclean := (h [.data [1], .data [2]] none false 1 1 slow_reader _ (fun _ hl => by cases hl)
    (by decide) rfl).clean_end
  exact absurd (hclean (by decide)) (by decide)

/-- Two calls wait when the body times out: the first takes the error, and the
second is told that the body ended cleanly. -/
example : (Machine.run step (start [.stall] none false 1 1)
    [.reader (.open_call .next_chunk 0), .reader (.enlist 0),
      .reader (.open_call .next_chunk 1), .reader (.enlist 1), .frame_timeout,
      .reader (.acquire 0), .reader (.recv 0), .reader (.acquire 1), .reader (.recv 1),
      .reader (.remove 0), .reader (.take_error 0), .reader (.remove 1), .reader (.take_error 1)]).map
        (fun s => s.reader.returned)
    = some [.error (CoreError.timeout "body frame read timed out"), .eof] := by
  decide

end Pumped

end IrohHttp.Body
