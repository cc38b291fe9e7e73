/-
`pipeToWriter` of `iroh-http-shared/src/streams.ts` over `HandleStore::send_chunk` of
`iroh-http-core/src/ffi/handles.rs`: a stream is read to its end, each chunk is sent in
pieces of at most the configured size, and the store sends each of these in pieces of its
own maximum.

What the stream brings is a list of reads and an ending. Whether a call comes through to
the store, whether its handle has a writer there, what each push meets in the channel and
whether the answer comes back are functions of the number of the call and of the push, so
the pipe can be stopped before any piece and after it.
-/
import IrohHttp.Cutting
import IrohHttp.EndpointOptions
import IrohHttp.HandleNumbers

set_option autoImplicit false

namespace IrohHttp.ChunkSplitting

open Cutting
open IrohHttp.Endpoint (StreamingOptions store_config)
open IrohHttp.Handles (MAX_SAFE_INTEGER)
open IrohHttp.Serve (F64)

/-! ## `HandleStore::send_chunk` -/

/-- What comes of `try_send`. -/
inductive TrySend
  | sent
  | full
  | closed
  deriving DecidableEq, Repr

/-- How `send` ends under the drain timeout. -/
inductive TimedSend
  | sent
  | elapsed
  | closed
  deriving DecidableEq, Repr

/-- What a push meets in the channel. -/
structure Moment where
  try_send : TrySend
  send : TimedSend
  deriving DecidableEq, Repr

/-- The chunks in the order they entered, and the pushes so far. -/
structure Channel where
  pushed : List Bytes := []
  tried : ℕ := 0
  deriving DecidableEq, Repr

/-- Push a chunk at once where there is room, else wait for room under the drain timeout. -/
def send_chunk_with_fast_path (moments : ℕ → Moment) (chunk : Bytes) :
    ExceptT CoreError (StateM Channel) Unit :=
  ExceptT.mk fun channel =>
    let moment := moments channel.tried
    let channel := { channel with tried := channel.tried + 1 }
    let entered := { channel with pushed := channel.pushed ++ [chunk] }
    match moment.try_send with
    | .sent => (.ok (), entered)
    | .closed => (.error (CoreError.internal "body reader dropped"), channel)
    | .full =>
      match moment.send with
      | .sent => (.ok (), entered)
      | .elapsed => (.error (CoreError.timeout "drain timeout: body reader is too slow"), channel)
      | .closed => (.error (CoreError.internal "body reader dropped"), channel)

/-- What `send_chunk` reads of the configuration; `bind` leaves no maximum of zero. -/
structure Config where
  max_chunk_size : ℕ
  pos : 0 < max_chunk_size

/-- The chunk limit of an endpoint's store. -/
def Config.of (streaming : StreamingOptions) : Config where
  max_chunk_size := (store_config streaming).max_chunk_size
  pos := Nat.le_max_right _ _

/-- `offset.saturating_add(max).min(chunk.len())` -/
def store_stride (config : Config) (length : ℕ) (h : length ≤ usize.MAX) : Stride length where
  next offset := min (usize.saturating_add offset config.max_chunk_size) length
  lt_next offset hlt := by
    have := config.pos
    rw [usize.saturating_add]
    omega
  next_le _ _ := Nat.min_le_right _ _

/-- `writer` is whether the handle has one. -/
def send_chunk (config : Config) (moments : ℕ → Moment) (writer : Bool) (handle : ℕ)
    (chunk : Bytes) (h : chunk.length ≤ usize.MAX) : ExceptT CoreError (StateM Channel) Unit :=
  if writer then
    if chunk.length ≤ config.max_chunk_size then send_chunk_with_fast_path moments chunk
    else
      send_slices chunk (fun piece _ => send_chunk_with_fast_path moments piece)
        (store_stride config chunk.length h) 0
  else throw (CoreError.invalid_handle handle)

/-! ## `pipeToWriter` -/

/-- `Number.isSafeInteger(value)` -/
def isSafeInteger (value : F64) : Bool :=
  match value with
  | .finite q => decide (q.den = 1) && decide (q.num.natAbs ≤ MAX_SAFE_INTEGER)
  | _ => false

/-- The configured size where it is a safe integer above zero; `none` is what is no number. -/
def MAX_CHUNK (configured : Option F64) : ℕ :=
  match configured with
  | some (.finite q) => if isSafeInteger (.finite q) && decide (0 < q) then q.num.toNat else 64 * 1024
  | _ => 64 * 1024

/-- A piece has one byte at least, so the loop ends. -/
theorem MAX_CHUNK_pos (configured : Option F64) : 0 < MAX_CHUNK configured := by
  unfold MAX_CHUNK
  split
  · next q =>
    split
    · next h =>
      have hq : 0 < q := of_decide_eq_true (Bool.and_eq_true_iff.mp h).2
      have hnum : 0 < q.num := Rat.num_pos.mpr hq
      omega
    · decide
  · decide

/-- A typed array is as long as a safe integer can say. -/
structure Uint8Array where
  bytes : Bytes
  length_le : bytes.length ≤ MAX_SAFE_INTEGER

namespace Uint8Array

/-- `Uint8Array.byteLength` -/
def byteLength (value : Uint8Array) : ℕ := value.bytes.length

end Uint8Array

/-- `a + b` of two numbers of JavaScript. -/
def add (a b : ℕ) : ℕ := Binary64.round Binary64.PRECISION (a + b)

/-- Beyond the safe integers the sum is rounded, but not below the length of an array. -/
theorem min_add (a b : ℕ) (value : Uint8Array) :
    min (add a b) value.byteLength = min (a + b) value.byteLength := by
  have h : value.byteLength ≤ MAX_SAFE_INTEGER := value.length_le
  unfold add
  unfold MAX_SAFE_INTEGER at h
  by_cases hlt : a + b < 2 ^ Binary64.PRECISION
  · rw [Binary64.round_of_lt (by decide) hlt]
  · -- past the exact numbers both sums are above every length
    have hround := Binary64.le_round (p := Binary64.PRECISION) (by decide) (Nat.le_of_not_lt hlt)
    unfold Binary64.PRECISION at hlt hround
    unfold Binary64.PRECISION
    omega

/-- `Math.min(offset + MAX_CHUNK, value.byteLength)` -/
def pipe_stride (configured : Option F64) (value : Uint8Array) : Stride value.byteLength where
  next offset := min (add offset (MAX_CHUNK configured)) value.byteLength
  lt_next offset hlt := by
    have := MAX_CHUNK_pos configured
    rw [min_add]
    omega
  next_le _ _ := Nat.min_le_right _ _

/-- How the reads end: with `done`, or rejected. -/
inductive Ending
  | done
  | rejected
  deriving DecidableEq, Repr

/-- A stream: whether something else has its reader, and what its reads bring. A read may
resolve to no value. -/
structure ReadableStream where
  locked : Bool
  reads : List (Option Uint8Array)
  ending : Ending

/-- The bytes of the reads, in order. -/
def bytes_of (reads : List (Option Uint8Array)) : Bytes :=
  (reads.map fun | some value => value.bytes | none => []).flatten

/-- The options of `pipeToWriter`. -/
structure PipeToWriterOptions where
  skipFinishOnError : Option Bool := none
  maxChunkSizeBytes : Option F64 := none
  deriving DecidableEq

/-- What the adapter has been called for. -/
inductive AdapterCall
  | sendChunk (chunk : Bytes)
  | finishBody
  deriving DecidableEq, Repr

/-- The calls of the pipe, and the channel behind them. -/
structure World where
  calls : List AdapterCall := []
  channel : Channel := {}
  deriving DecidableEq, Repr

/-- The chunks the reader of the channel can take, in order. -/
def World.pushed (w : World) : List Bytes := w.channel.pushed

/-- The adapter, and what its calls meet: call `n` reaches the store, its handle has a
writer there, its answer comes back. -/
structure IrohAdapter where
  streaming : StreamingOptions
  reaches : ℕ → Bool
  writer : ℕ → Bool
  moments : ℕ → Moment
  answers : ℕ → Bool
  finishes : Bool

/-- The limit of the endpoint behind the adapter. -/
def IrohAdapter.config (adapter : IrohAdapter) : Config := Config.of adapter.streaming

/-- What the body of a pipe fails with. -/
inductive Failure
  | getReader
  | read
  | bridge
  | sendChunk (e : CoreError)
  deriving DecidableEq, Repr

/-- What the promise of a pipe is rejected with. -/
inductive Rejection
  | body (e : Failure)
  | finishBody
  deriving DecidableEq, Repr

theorem safe_length {n : ℕ} (h : n ≤ MAX_SAFE_INTEGER) : n ≤ usize.MAX := by
  unfold MAX_SAFE_INTEGER at h
  unfold usize.MAX
  omega

/-- How a call ends that the store has carried out, when its answer comes back or does not. -/
def answer (answers : Bool) (calls : List AdapterCall) :
    Except CoreError Unit × Channel → Except Failure Unit × World
  | (.ok (), channel) => (if answers then .ok () else .error .bridge, { calls, channel })
  | (.error e, channel) => (.error (.sendChunk e), { calls, channel })

section Pipe

variable (adapter : IrohAdapter) (handle : ℕ) (options : Option PipeToWriterOptions)

/-- `adapter.sendChunk`, which reaches the core unless the host fails it. -/
def sendChunk (chunk : Uint8Array) : ExceptT Failure (StateM World) Unit :=
  ExceptT.mk fun w =>
    let n := w.calls.length
    let calls := w.calls ++ [.sendChunk chunk.bytes]
    if adapter.reaches n then
      answer (adapter.answers n) calls <|
        (send_chunk adapter.config adapter.moments (adapter.writer n) handle chunk.bytes
          (safe_length chunk.length_le)).run.run w.channel
    else (.error .bridge, { w with calls })

/-- `adapter.finishBody` -/
def finishBody : ExceptT Rejection (StateM World) Unit :=
  ExceptT.mk fun w =>
    (if adapter.finishes then .ok () else .error .finishBody,
      { w with calls := w.calls ++ [.finishBody] })

/-- The option for the largest chunk, as the caller gave it. -/
def configured : Option F64 := options.bind PipeToWriterOptions.maxChunkSizeBytes

/-- The option for a body that fails, off unless it was given. -/
def skipFinishOnError : Bool := (options.bind PipeToWriterOptions.skipFinishOnError).getD false

/-- One turn of the loop, for a value. -/
def pipe_value (value : Uint8Array) : ExceptT Failure (StateM World) Unit :=
  if value.byteLength = 0 then pure ()
  else if value.byteLength ≤ MAX_CHUNK (configured options) then sendChunk adapter handle value
  else
    send_slices value.bytes
      (fun piece h => sendChunk adapter handle ⟨piece, h.trans value.length_le⟩)
      (pipe_stride (configured options) value) 0

/-- The loop. -/
def pipe_reads (ending : Ending) : List (Option Uint8Array) → ExceptT Failure (StateM World) Unit
  | [] =>
    match ending with
    | .done => pure ()
    | .rejected => throw .read
  | none :: reads => pipe_reads ending reads
  | some value :: reads => do
    pipe_value adapter handle options value
    pipe_reads ending reads

/-- The `finally` block, for how the body of the `try` ended. -/
def pipe_finally (body : Except Failure Unit) : ExceptT Rejection (StateM World) Unit :=
  match body with
  | .ok () => finishBody adapter
  | .error e =>
    if skipFinishOnError options then throw (.body e)
    else tryCatch (finishBody adapter) (fun _ => pure ()) >>= fun _ => throw (.body e)

/-- The reader is taken in front of the `try`. -/
def pipeToWriter (stream : ReadableStream) : ExceptT Rejection (StateM World) Unit :=
  if stream.locked then throw (.body .getReader)
  else
    ExceptT.mk fun w =>
      let (body, w) := (pipe_reads adapter handle options stream.ending stream.reads).run.run w
      (pipe_finally adapter options body).run.run w

end Pipe

/-! ## The store cuts each chunk -/

/-- What the store takes over: chunks of at most `limit` in the channel. -/
abbrev into_channel (limit : ℕ) : Transfer Channel UInt8 := logging Channel.pushed id limit

/-- The fast path and the slow one move the same bytes. -/
theorem send_chunk_with_fast_path_moves (moments : ℕ → Moment) {chunk : Bytes} {limit : ℕ}
    (hne : chunk ≠ []) (hle : chunk.length ≤ limit) :
    Moves (into_channel limit) chunk (send_chunk_with_fast_path moments chunk) := by
  have hentered : ∀ channel : Channel, (into_channel limit).whole chunk channel
      { pushed := channel.pushed ++ [chunk], tried := channel.tried + 1 } :=
    fun channel => ⟨[chunk], rfl, Cuts.single hne hle⟩
  have hkept : ∀ channel : Channel, (into_channel limit).part chunk channel
      { channel with tried := channel.tried + 1 } :=
    fun channel => ⟨[], List.nil_prefix, [], (List.append_nil _).symm, Cuts.nil⟩
  intro channel
  simp only [send_chunk_with_fast_path, ExceptT.run_mk, StateT.run]
  split
  · exact hentered channel
  · exact hkept channel
  · split
    · exact hentered channel
    · exact hkept channel
    · exact hkept channel

/-- **The core's loop** moves a chunk whole, in pieces within the limit. -/
theorem send_chunk_moves (config : Config) (moments : ℕ → Moment) (writer : Bool) (handle : ℕ)
    {chunk : Bytes} (h : chunk.length ≤ usize.MAX) (hne : chunk ≠ []) :
    Moves (into_channel config.max_chunk_size) chunk
      (send_chunk config moments writer handle chunk h) := by
  unfold send_chunk
  by_cases hwriter : writer = true
  · rw [if_pos hwriter]
    by_cases hle : chunk.length ≤ config.max_chunk_size
    · rw [if_pos hle]
      exact send_chunk_with_fast_path_moves moments hne hle
    · have hstride : ∀ offset, offset < chunk.length →
          (store_stride config chunk.length h).next offset ≤ offset + config.max_chunk_size := by
        intro offset _
        change min (usize.saturating_add offset config.max_chunk_size) chunk.length ≤ _
        rw [usize.saturating_add]
        omega
      rw [if_neg hle]
      apply Moves.send_slices hstride
      intro piece _ hpiece hlimit
      exact send_chunk_with_fast_path_moves moments hpiece hlimit
  · rw [if_neg hwriter]
    exact Moves.throw _

/-! ## The pipe cuts each chunk of the stream -/

section Pipe

variable (adapter : IrohAdapter) (handle : ℕ) (options : Option PipeToWriterOptions)

/-- What the pipe moves: pieces into calls of `sendChunk`, and behind them chunks into the
channel. -/
abbrev into_world : Transfer World UInt8 :=
  relaying World.calls AdapterCall.sendChunk (MAX_CHUNK (configured options))
    World.pushed id adapter.config.max_chunk_size

variable {adapter handle options}

/-- A call that the host answers has moved its chunk. -/
theorem answer_moves (answers : Bool) {w : World} {chunk : Bytes} {limit limit' : ℕ}
    {sent : Except CoreError Unit × Channel} (hne : chunk ≠ []) (hle : chunk.length ≤ limit)
    (hsent : (into_channel limit').After chunk w.channel sent) :
    (relaying World.calls AdapterCall.sendChunk limit World.pushed id limit').After
      chunk w (answer answers (w.calls ++ [.sendChunk chunk]) sent) := by
  have hcuts : Cuts limit chunk [chunk] := Cuts.single hne hle
  match sent with
  | (.error e, channel) =>
    -- the store stopped in the piece
    obtain ⟨relayed, hrelayed, hpushed⟩ := hsent
    exact ⟨chunk, List.prefix_rfl, ⟨_, rfl, hcuts⟩, relayed, hrelayed, hpushed⟩
  | (.ok (), channel) =>
    by_cases hanswers : answers = true
    · rw [answer, if_pos hanswers]
      exact ⟨⟨_, rfl, hcuts⟩, hsent⟩
    · -- the piece is in, but the pipe is not told so
      rw [answer, if_neg hanswers]
      exact ⟨chunk, List.prefix_rfl, ⟨_, rfl, hcuts⟩, chunk, List.prefix_rfl, hsent⟩

/-- A call of the adapter moves its piece. -/
theorem sendChunk_moves {chunk : Uint8Array} (hne : chunk.bytes ≠ [])
    (hle : chunk.byteLength ≤ MAX_CHUNK (configured options)) :
    Moves (into_world adapter options) chunk.bytes (sendChunk adapter handle chunk) := by
  intro w
  simp only [sendChunk, ExceptT.run_mk, StateT.run]
  by_cases hreaches : adapter.reaches w.calls.length = true
  · rw [if_pos hreaches]
    apply answer_moves _ hne hle
    apply send_chunk_moves
    exact hne
  · rw [if_neg hreaches]
    exact ⟨chunk.bytes, List.prefix_rfl, ⟨_, rfl, Cuts.single hne hle⟩, [], List.nil_prefix,
      Logged.refl⟩

/-- **The loop of `pipeToWriter`** moves one read in pieces within its own limit. -/
theorem pipe_value_moves (value : Uint8Array) :
    Moves (into_world adapter options) value.bytes (pipe_value adapter handle options value) := by
  unfold pipe_value
  by_cases hempty : value.byteLength = 0
  · rw [if_pos hempty, List.length_eq_zero_iff.mp hempty]
    exact Moves.pure
  · have hne : value.bytes ≠ [] := fun h => hempty (List.length_eq_zero_iff.mpr h)
    rw [if_neg hempty]
    by_cases hle : value.byteLength ≤ MAX_CHUNK (configured options)
    · rw [if_pos hle]
      exact sendChunk_moves hne hle
    · have hstride : ∀ offset, offset < value.bytes.length →
          (pipe_stride (configured options) value).next offset ≤
            offset + MAX_CHUNK (configured options) := by
        intro offset _
        change min (add offset (MAX_CHUNK (configured options))) value.byteLength ≤ _
        rw [min_add]
        omega
      rw [if_neg hle]
      apply Moves.send_slices hstride
      intro piece _ hpiece hlimit
      exact sendChunk_moves hpiece hlimit

/-- All reads are moved, one after the other. -/
theorem pipe_reads_moves (ending : Ending) (reads : List (Option Uint8Array)) :
    Moves (into_world adapter options) (bytes_of reads)
      (pipe_reads adapter handle options ending reads) := by
  induction reads with
  | nil =>
      cases ending with
      | done => exact Moves.pure
      | rejected => exact Moves.throw _
  | cons read reads ih =>
      cases read with
      | none => exact ih
      | some value => exact (pipe_value_moves value).seq ih

/-! ## The outcome of a pipe -/

/-- A pipe whose source is drained has moved all of it, and then finishes the body, once. One
that is stopped has moved a prefix, and finishes the body, once, unless it is to skip that. -/
structure Exact (limit limit' : ℕ) (bytes : Bytes) (skip : Bool)
    (outcome : Except Rejection Unit × World) : Prop where
  drained : (∀ e, outcome.1 ≠ .error (.body e)) → ∃ pieces,
    outcome.2.calls = pieces.map .sendChunk ++ [.finishBody] ∧
    Cuts limit bytes pieces ∧ Cuts limit' bytes outcome.2.pushed
  stopped : ∀ e, outcome.1 = .error (.body e) → ∃ pieces sent relayed,
    outcome.2.calls = pieces.map .sendChunk ++ (if skip then [] else [.finishBody]) ∧
    sent <+: bytes ∧ Cuts limit sent pieces ∧
    relayed <+: sent ∧ Cuts limit' relayed outcome.2.pushed

theorem pipe_finally_ok (w : World) :
    (pipe_finally adapter options (.ok ())).run.run w =
      (if adapter.finishes then .ok () else .error .finishBody,
        { w with calls := w.calls ++ [.finishBody] }) := rfl

/-- After a failure the outcome is the failure, also where `finishBody` throws. -/
theorem pipe_finally_error (e : Failure) (w : World) :
    (pipe_finally adapter options (.error e)).run.run w =
      (.error (.body e), { w with
        calls := w.calls ++ if skipFinishOnError options then [] else [.finishBody] }) := by
  by_cases hskip : skipFinishOnError options = true
  · simp only [pipe_finally, if_pos hskip, List.append_nil]
    rfl
  · simp only [pipe_finally, if_neg hskip]
    by_cases hfinishes : adapter.finishes = true
    · simp only [finishBody, if_pos hfinishes]
      rfl
    · -- what `finishBody` throws is dropped
      simp only [finishBody, if_neg hfinishes]
      rfl

/-- **A stream that is not locked** is piped exactly. -/
theorem exact_of_unlocked {stream : ReadableStream} (hlocked : stream.locked = false) :
    Exact (MAX_CHUNK (configured options)) adapter.config.max_chunk_size (bytes_of stream.reads)
      (skipFinishOnError options) ((pipeToWriter adapter handle options stream).run.run {}) := by
  have hmoves : Moves (into_world adapter options) (bytes_of stream.reads)
      (pipe_reads adapter handle options stream.ending stream.reads) := pipe_reads_moves _ _
  have hbody := hmoves {}
  have hrun : (pipeToWriter adapter handle options stream).run.run {} =
      let (body, w) :=
        (pipe_reads adapter handle options stream.ending stream.reads).run.run {}
      (pipe_finally adapter options body).run.run w := by
    rw [pipeToWriter, hlocked]
    rfl
  rw [hrun]
  rcases hend : (pipe_reads adapter handle options stream.ending stream.reads).run.run {} with
    ⟨e | _, w⟩
  · rw [hend] at hbody
    obtain ⟨sent, hsent, ⟨pieces, hcalls, hpieces⟩, relayed, hrelayed, pushed, hpushed, hcuts⟩ :=
      hbody
    rw [List.map_id] at hpushed
    dsimp only
    rw [pipe_finally_error]
    constructor
    · intro hdrained
      exact absurd rfl (hdrained e)
    · intro _ _
      refine ⟨pieces, sent, relayed, ?_, hsent, hpieces, hrelayed, ?_⟩
      · change w.calls ++ _ = _
        rw [hcalls]
        rfl
      · change Cuts _ relayed w.pushed
        rw [hpushed]
        exact hcuts
  · rw [hend] at hbody
    obtain ⟨⟨pieces, hcalls, hpieces⟩, pushed, hpushed, hcuts⟩ := hbody
    rw [List.map_id] at hpushed
    dsimp only
    rw [pipe_finally_ok]
    constructor
    · intro _
      refine ⟨pieces, ?_, hpieces, ?_⟩
      · change w.calls ++ _ = _
        rw [hcalls]
        rfl
      · change Cuts _ _ w.pushed
        rw [hpushed]
        exact hcuts
    · intro e he
      dsimp only at he
      split at he
      · cases he
      · cases he

/-- A pipe that does not get the reader calls nothing. -/
theorem pipeToWriter_of_locked {stream : ReadableStream} (hlocked : stream.locked = true) :
    (pipeToWriter adapter handle options stream).run.run {} = (.error (.body .getReader), {}) := by
  rw [pipeToWriter, if_pos hlocked]
  rfl

end Pipe

/-- Both sides cut the source exactly, and the body is finished as the options say, for every
stream whose reader the pipe gets. Where it does not get it, the body is not finished at all,
which is right only where a failed body is not to be finished. -/
theorem exact_iff (adapter : IrohAdapter) (handle : ℕ) (options : Option PipeToWriterOptions)
    (stream : ReadableStream) :
    Exact (MAX_CHUNK (configured options)) adapter.config.max_chunk_size (bytes_of stream.reads)
        (skipFinishOnError options) ((pipeToWriter adapter handle options stream).run.run {}) ↔
      (stream.locked = false ∨ skipFinishOnError options = true) := by
  constructor
  · intro hexact
    by_contra hnot
    rw [not_or, Bool.not_eq_false] at hnot
    rw [pipeToWriter_of_locked hnot.1] at hexact
    obtain ⟨pieces, _, _, hcalls, _⟩ := hexact.stopped _ rfl
    rw [if_neg hnot.2] at hcalls
    exact absurd hcalls.symm (List.append_ne_nil_of_right_ne_nil _ (List.cons_ne_nil _ _))
  · rintro hright
    by_cases hlocked : stream.locked = true
    · have hskip : skipFinishOnError options = true :=
        hright.resolve_left (by rw [hlocked]; exact Bool.noConfusion)
      rw [pipeToWriter_of_locked hlocked]
      constructor
      · intro hdrained
        exact absurd rfl (hdrained .getReader)
      · intro _ _
        refine ⟨[], [], [], ?_, List.nil_prefix, Cuts.nil, List.nil_prefix, Cuts.nil⟩
        rw [if_pos hskip]
        rfl
    · exact exact_of_unlocked (Bool.eq_false_of_not_eq_true hlocked)

/-- An adapter of default options that nothing goes wrong in. -/
def sound_adapter : IrohAdapter where
  streaming := {}
  reaches _ := true
  writer _ := true
  moments _ := ⟨.sent, .sent⟩
  answers _ := true
  finishes := true

/-- A handler answers with a response whose body it has begun to read: the pipe is rejected
before its `try`, and the body of the response stays open. -/
theorem locked_body_stays_open :
    ¬ ∀ (adapter : IrohAdapter) (handle : ℕ) (options : Option PipeToWriterOptions)
        (stream : ReadableStream),
      Exact (MAX_CHUNK (configured options)) adapter.config.max_chunk_size
        (bytes_of stream.reads) (skipFinishOnError options)
        ((pipeToWriter adapter handle options stream).run.run {}) := by
  intro h
  have hstopped := (h sound_adapter 1 (some {}) ⟨true, [], .done⟩).stopped .getReader rfl
  obtain ⟨pieces, _, _, hcalls, _⟩ := hstopped
  exact absurd hcalls.symm (List.append_ne_nil_of_right_ne_nil _ (List.cons_ne_nil _ _))

end IrohHttp.ChunkSplitting
