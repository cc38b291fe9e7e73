/-
Body chunks over the Deno FFI: `iroh_http_try_next_chunk` and
`iroh_http_next_chunk` of `iroh-http-deno/src/lib.rs`, and `readChunk` of
`iroh-http-deno/src/adapter.ts` which drives them.

A native call receives a chunk from the body channel (`BodyChannel.lean`), copies
it into the caller's buffer and returns its length as an `i32`; a chunk that does
not fit is given back as a negative length, and is gone from the channel. The
caller takes the number for a request to grow its buffer and calls again.

The calls of `readChunk` on the handle follow one another. The buffer hint is
global to the module, so reads of other handles move it in between.
-/
import IrohHttp.BodyChannel
import IrohHttp.Machine
import Mathlib.Data.Int.Init

set_option autoImplicit false

open Machine

namespace IrohHttp.Deno

open IrohHttp.Body

/-! ## The native calls -/

/-- The largest code. -/
def i32.MAX : ℕ := 0x7fffffff

/-- The least code. -/
def i32.MIN : ℤ := -0x80000000

/-- `n as i32`, which wraps. -/
def as_i32 (n : ℕ) : ℤ := (n : ℤ).bmod 0x100000000

/-- `i32::try_from(len).map(|n| 0 - n).unwrap_or(i32::MIN)`. -/
def required_size (len : ℕ) : ℤ := if len ≤ i32.MAX then -(len : ℤ) else i32.MIN

/-- What a native call gives back: its return value, and the buffer it was passed. -/
structure Native where
  n : ℤ
  buf : Bytes
  deriving DecidableEq, Repr

/-- A call that has written nothing to its buffer. -/
def Native.code (out_cap : ℕ) (n : ℤ) : Native := ⟨n, List.replicate out_cap 0⟩

/-- The chunk is copied to the front of the buffer when it fits. -/
def copy_chunk (out_cap : ℕ) (b : Bytes) : Native :=
  -- the chunk was received before this, and nothing puts it back
  if out_cap < b.length then Native.code out_cap (required_size b.length)
  else ⟨as_i32 b.length, b ++ List.replicate (out_cap - b.length) 0⟩

/-- `e.message.starts_with("try_next_chunk:")`. -/
def is_transient (e : CoreError) : Bool := "try_next_chunk:".toList.isPrefixOf e.message.toList

/-- The value `iroh_http_next_chunk` or `iroh_http_try_next_chunk` makes of what
the core call returned. Only the second tells the transient errors apart. -/
def native_result (accessor : Accessor) (out_cap : ℕ) : Return → Native
  | .eof => Native.code out_cap 0
  | .chunk b => copy_chunk out_cap b
  | .error e =>
    -- the error's own text goes through `takeLastStreamError`, not through the value
    if accessor = .try_next_chunk ∧ is_transient e = true then Native.code out_cap (-2)
    else Native.code out_cap (-1)

/-! ## `readChunk` -/

/-- The largest buffer that the adapter keeps for the next call. -/
def MAX_CHUNK_BUF : ℕ := 4 * 1024 * 1024

/-- `buf.slice(0, n)`, which counts from the end for a negative `n`. -/
def slice (buf : Bytes) (n : ℤ) : Bytes :=
  if 0 ≤ n then buf.take n.toNat else buf.take (buf.length + n).toNat

/-! ### Which chunks come through -/

/-- A chunk that fits the buffer and whose length is a positive `i32`. -/
def Fits (out_cap : ℕ) (data : Bytes) : Prop :=
  0 < data.length ∧ data.length ≤ out_cap ∧ data.length ≤ i32.MAX

/-- A length within range is its own code. -/
theorem as_i32_of_le {n : ℕ} (h : n ≤ i32.MAX) : as_i32 n = n := by
  unfold i32.MAX at h
  exact Int.bmod_eq_of_le (by omega) (by omega)

theorem as_i32_le (n : ℕ) : as_i32 n ≤ i32.MAX := by
  have hlt := Int.bmod_lt (x := (n : ℤ)) (m := 0x100000000) (by omega)
  unfold as_i32 i32.MAX
  omega

/-- Such a chunk comes back whole. -/
theorem copy_chunk_of_fits {out_cap : ℕ} {data : Bytes} (h : Fits out_cap data) :
    0 < (copy_chunk out_cap data).n ∧
      slice (copy_chunk out_cap data).buf (copy_chunk out_cap data).n = data := by
  obtain ⟨hpos, hcap, hle⟩ := h
  rw [copy_chunk, if_neg (Nat.not_lt.mpr hcap), as_i32_of_le hle]
  constructor
  · show (0 : ℤ) < data.length
    omega
  · rw [slice, if_pos (Int.natCast_nonneg _), Int.toNat_natCast, List.take_left]

/-- Of any other chunk that has bytes, fewer are announced than it has. -/
theorem copy_chunk_lt {out_cap : ℕ} {data : Bytes} (hpos : 0 < data.length)
    (h : ¬ Fits out_cap data) : (copy_chunk out_cap data).n < data.length := by
  unfold copy_chunk
  split
  · show required_size data.length < data.length
    unfold required_size i32.MIN
    split <;> omega
  · next hcap =>
    have hlong : i32.MAX < data.length := by
      by_contra hle
      exact h ⟨hpos, Nat.not_lt.mp hcap, Nat.not_lt.mp hle⟩
    have hi32 := as_i32_le data.length
    unfold i32.MAX at hlong hi32
    dsimp only
    omega

/-- An empty chunk has the code of an end. -/
theorem copy_chunk_nil (out_cap : ℕ) : (copy_chunk out_cap []).n = 0 := by
  rw [copy_chunk, List.length_nil, if_neg (Nat.not_lt_zero _)]
  rfl

/-- At most the announced bytes are sliced off. -/
theorem length_slice_le (buf : Bytes) {n : ℤ} (hn : 0 < n) : (slice buf n).length ≤ n.toNat := by
  rw [slice, if_pos (by omega)]
  exact List.length_take_le ..

/-! ### The loop -/

/-- Where `readChunk` is: not called, in one of its four native calls with a
buffer of the given size, or past the `null` that ended the body. -/
inductive Phase
  | idle
  | trying (out_cap : ℕ)
  | retrying (out_cap : ℕ)
  | waiting (out_cap : ℕ)
  | rewaiting (out_cap : ℕ)
  | closed
  deriving DecidableEq, Repr

/-- The native call in progress. -/
def Phase.call : Phase → Option (Accessor × ℕ)
  | .trying out_cap => some (.try_next_chunk, out_cap)
  | .retrying out_cap => some (.try_next_chunk, out_cap)
  | .waiting out_cap => some (.next_chunk, out_cap)
  | .rewaiting out_cap => some (.next_chunk, out_cap)
  | _ => none

/-- The phases that no buffer has been grown for. -/
def Phase.first : Phase → Bool
  | .retrying _ => false
  | .rewaiting _ => false
  | _ => true

/-- The channel, the reader loop on the other side, and what both have seen:
`sent` has the chunks that were pushed, `outputs` the arrays that were returned.
`native_calls` numbers the native calls. -/
structure ChunkReader where
  reader : BodyReader
  chunkBufHint : ℕ
  phase : Phase
  native_calls : ℕ
  sent : List Bytes
  outputs : List Bytes

/-- The steps of a native call, which are those of the core call. -/
inductive NativeStep
  | open_call
  | enlist
  | acquire
  | recv
  | remove
  | take_error
  deriving DecidableEq, Repr

/-- The step of the reader behind a native call. -/
def NativeStep.label (accessor : Accessor) (c : ℕ) : NativeStep → ReaderLabel
  | .open_call => .open_call accessor c
  | .enlist => .enlist c
  | .acquire => .acquire c
  | .recv => .recv c
  | .remove => .remove c
  | .take_error => .take_error c

/-- `push`, `finish` and `abort` are the writer's. `other_read` is a chunk of `n`
bytes read from another handle. -/
inductive ChunkStep
  | push (data : Bytes)
  | finish
  | abort (e : CoreError)
  | other_read (n : ℕ)
  | read_chunk
  | native (k : NativeStep)
  deriving DecidableEq, Repr

namespace ChunkReader

/-- A reader of a new channel, before the first read. -/
def start (handle capacity chunkBufHint : ℕ) : ChunkReader where
  reader := BodyReader.make_body_channel handle capacity
  chunkBufHint := chunkBufHint
  phase := .idle
  native_calls := 0
  sent := []
  outputs := []

/-- `chunkBufHint = Math.min(Math.max(chunkBufHint, n), MAX_CHUNK_BUF)`. -/
def raise_hint (s : ChunkReader) (n : ℤ) : ChunkReader :=
  { s with chunkBufHint := min (max s.chunkBufHint n.toNat) MAX_CHUNK_BUF }

/-- Return an array. -/
def return_chunk (s : ChunkReader) (r : Native) : ChunkReader :=
  let s := s.raise_hint r.n
  { s with phase := .idle, outputs := s.outputs ++ [slice r.buf r.n] }

/-- `readChunk` after one of its native calls has returned. -/
def resume (s : ChunkReader) (r : Native) : ChunkReader :=
  match s.phase with
  | .trying _ =>
    if 0 < r.n then s.return_chunk r
    else if r.n = 0 then { s with phase := .closed }
    -- a chunk of one or two bytes that does not fit looks like an error or like `-2`
    else if r.n < -2 then { s with phase := .retrying (-r.n).toNat }
    -- a throw
    else if r.n = -1 then { s with phase := .idle }
    else { s with phase := .waiting s.chunkBufHint }
  | .retrying _ =>
    if 0 < r.n then s.return_chunk r
    else if r.n = 0 then { s with phase := .closed }
    -- "Fall through to async if sync retry also fails"
    else { s with phase := .waiting s.chunkBufHint }
  | .waiting _ =>
    -- this call has no `-2`, so every other negative value is a size
    if r.n < -1 then { s with phase := .rewaiting (-r.n).toNat }
    else if r.n = -1 then { s with phase := .idle }
    else if r.n = 0 then { s with phase := .closed }
    else s.return_chunk r
  | .rewaiting _ =>
    if r.n = -1 then { s with phase := .idle }
    else if r.n = 0 then { s with phase := .closed }
    else s.return_chunk r
  | _ => s

/-- A native call has returned. -/
def called (s : ChunkReader) (r : BodyReader) : ChunkReader :=
  { s with reader := r, native_calls := s.native_calls + 1 }

/-- A step of the native call. When it returns, `readChunk` goes on. -/
def native (s : ChunkReader) (k : NativeStep) : Option ChunkReader :=
  match s.phase.call with
  | none => none
  | some (accessor, out_cap) =>
    (s.reader.step (k.label accessor s.native_calls)).map fun r =>
      match r.returned[s.reader.returned.length]? with
      | none => { s with reader := r }
      | some v => (s.called r).resume (native_result accessor out_cap v)

/-- One step of the writer's side, of a read or of another read's hint, `none` where it is not
enabled. -/
def step (s : ChunkReader) : ChunkStep → Option ChunkReader
  | .push data =>
    if s.reader.tx_open && decide (s.reader.queue.length < s.reader.capacity) then
      some { s with reader := s.reader.push data, sent := s.sent ++ [data] }
    else none
  | .finish => some { s with reader := s.reader.hang_up }
  | .abort e => some { s with reader := (s.reader.abort e).hang_up }
  | .other_read n => some (s.raise_hint n)
  | .read_chunk => if s.phase = .idle then some { s with phase := .trying s.chunkBufHint } else none
  | .native k => s.native k

/-! ## What is lost, and when -/

/-- The bytes returned and those still in the channel are the bytes sent, and
`null` has come only after the last of them and after the writer's end. -/
structure Lossless (s : ChunkReader) : Prop where
  conserved : s.outputs.flatten ++ s.reader.queue.flatten = s.sent.flatten
  ended : s.phase = .closed → s.reader.tx_open = false ∧ s.reader.queue.flatten = []

/-- A native call that is about to receive a chunk has a buffer that it fits; an
empty chunk is received only at the very end. -/
def Received (s : ChunkReader) : ChunkStep → Prop
  | .native .recv => ∀ call accessor data rest, s.phase.call = some call →
      s.reader.calls s.native_calls = .locked accessor false → s.reader.queue = data :: rest →
      Fits call.2 data ∨ data = [] ∧ s.reader.tx_open = false ∧ rest.flatten = []
  | _ => True

/-- The invariant: calls are settled, what was sent is delivered in order, and a read is in its
first call. -/
structure Inv (s : ChunkReader) : Prop where
  settled : s.reader.Settled
  lossless : s.Lossless
  first : s.phase.first = true

theorem inv_start (handle capacity chunkBufHint : ℕ) :
    Inv (start handle capacity chunkBufHint) where
  settled := BodyReader.settled_make_body_channel handle capacity
  lossless := ⟨rfl, nofun⟩
  first := rfl

/-- What a step of a native call comes to: the call goes on, or it has returned. -/
theorem native_cases {s s' : ChunkReader} {k : NativeStep} (h : s.native k = some s') :
    ∃ call r, s.phase.call = some call ∧ s.reader.step (k.label call.1 s.native_calls) = some r ∧
      ((r.returned = s.reader.returned ∧ r.queue = s.reader.queue ∧ s' = { s with reader := r }) ∨
       ∃ v, r.returned = s.reader.returned ++ [v] ∧
        s' = (s.called r).resume (native_result call.1 call.2 v) ∧
        match v with
        | .chunk data => k = .recv ∧ s.reader.queue = data :: r.queue ∧
            ∃ accessor, s.reader.calls s.native_calls = .locked accessor false
        | _ => r.queue = s.reader.queue) := by
  unfold native at h
  split at h
  · cases h
  · next accessor out_cap hcall =>
    obtain ⟨r, hr, rfl⟩ := Option.map_eq_some_iff.mp h
    refine ⟨(accessor, out_cap), r, hcall, hr, ?_⟩
    -- the channel's own analysis: no return, a chunk, the end, or an error
    obtain ⟨hret, hq⟩ | ⟨c, accessor', data, hlabel, hlocked, hq, hret⟩ | ⟨hret, hq⟩ | ⟨e, hret, hq⟩ :=
      BodyReader.step_return hr
    · refine .inl ⟨hret, hq, ?_⟩
      rw [hret, List.getElem?_eq_none (Nat.le_refl _)]
    · have hk : k = .recv ∧ c = s.native_calls := by
        cases k with
        | recv => exact ⟨rfl, (ReaderLabel.recv.inj hlabel).symm⟩
        | _ => cases hlabel
      refine .inr ⟨.chunk data, hret, ?_, hk.1, hq, accessor', hk.2 ▸ hlocked⟩
      rw [hret, List.getElem?_concat_length]
    · refine .inr ⟨.eof, hret, ?_, hq⟩
      rw [hret, List.getElem?_concat_length]
    · refine .inr ⟨.error e, hret, ?_, hq⟩
      rw [hret, List.getElem?_concat_length]

/-! ### After a first call -/

/-- The first calls are made in two phases. -/
theorem first_call {phase : Phase} {call : Accessor × ℕ} (hfirst : phase.first = true)
    (hcall : phase.call = some call) :
    (phase = .trying call.2 ∧ call.1 = .try_next_chunk) ∨
      phase = .waiting call.2 ∧ call.1 = .next_chunk := by
  cases phase with
  | trying out_cap =>
      cases hcall
      exact .inl ⟨rfl, rfl⟩
  | waiting out_cap =>
      cases hcall
      exact .inr ⟨rfl, rfl⟩
  | retrying out_cap => cases hfirst
  | rewaiting out_cap => cases hfirst
  | idle => cases hcall
  | closed => cases hcall

/-- `readChunk` does not touch the channel. -/
theorem resume_frame (s : ChunkReader) (r : Native) :
    (s.resume r).reader = s.reader ∧ (s.resume r).sent = s.sent := by
  unfold resume
  repeat' split
  all_goals exact ⟨rfl, rfl⟩

/-- A read whose first call has bytes returns them. -/
theorem resume_of_pos {s : ChunkReader} {call : Accessor × ℕ} (hfirst : s.phase.first = true)
    (hcall : s.phase.call = some call) {r : Native} (hn : 0 < r.n) :
    s.resume r = s.return_chunk r := by
  unfold resume
  obtain ⟨hphase, -⟩ | ⟨hphase, -⟩ := first_call hfirst hcall
  · rw [hphase]
    exact if_pos hn
  · rw [hphase]
    dsimp only
    rw [if_neg (by omega), if_neg (by omega), if_neg (by omega)]

/-- A read whose first call has none takes it for the end. -/
theorem resume_of_zero {s : ChunkReader} {call : Accessor × ℕ} (hfirst : s.phase.first = true)
    (hcall : s.phase.call = some call) {r : Native} (hn : r.n = 0) :
    s.resume r = { s with phase := .closed } := by
  unfold resume
  obtain ⟨hphase, -⟩ | ⟨hphase, -⟩ := first_call hfirst hcall
  · rw [hphase]
    dsimp only
    rw [if_neg (by omega), if_pos hn]
  · rw [hphase]
    dsimp only
    rw [if_neg (by omega), if_neg (by omega), if_pos hn]

/-- Without a positive length nothing is returned. -/
theorem outputs_resume_of_neg {s : ChunkReader} {call : Accessor × ℕ} (hfirst : s.phase.first = true)
    (hcall : s.phase.call = some call) {r : Native} (hn : r.n < 0) :
    (s.resume r).outputs = s.outputs := by
  unfold resume
  obtain ⟨hphase, -⟩ | ⟨hphase, -⟩ := first_call hfirst hcall
  · rw [hphase]
    dsimp only
    rw [if_neg (by omega), if_neg (by omega)]
    split
    · rfl
    · split <;> rfl
  · rw [hphase]
    dsimp only
    split
    · rfl
    · rw [if_pos (by omega)]

/-- An error makes `readChunk` throw, or wait. -/
theorem resume_error {s : ChunkReader} {call : Accessor × ℕ} (hfirst : s.phase.first = true)
    (hcall : s.phase.call = some call) (e : CoreError) :
    ∃ phase, s.resume (native_result call.1 call.2 (.error e)) = { s with phase := phase } ∧
      phase.first = true ∧ phase ≠ .closed := by
  obtain ⟨hphase, hacc⟩ | ⟨hphase, hacc⟩ := first_call hfirst hcall
  · by_cases ht : is_transient e = true
    · refine ⟨.waiting s.chunkBufHint, ?_, rfl, nofun⟩
      rw [native_result, if_pos ⟨hacc, ht⟩, resume, hphase]
      rfl
    · refine ⟨.idle, ?_, rfl, nofun⟩
      rw [native_result, if_neg fun h => ht h.2, resume, hphase]
      rfl
  · refine ⟨.idle, ?_, rfl, nofun⟩
    rw [native_result, if_neg (by simp [hacc]), resume, hphase]
    rfl

/-! ### Steps -/

/-- A chunk that fits is returned, and an empty one ends the body. -/
theorem inv_chunk {s : ChunkReader} (h : Inv s) {call : Accessor × ℕ} {r : BodyReader} {data : Bytes}
    (hcall : s.phase.call = some call) (hsettled : r.Settled)
    (htx : r.tx_open = s.reader.tx_open) (hq : s.reader.queue = data :: r.queue)
    (hfit : Fits call.2 data ∨ data = [] ∧ s.reader.tx_open = false ∧ r.queue.flatten = []) :
    Inv ((s.called r).resume (native_result call.1 call.2 (.chunk data))) := by
  have hconserved := h.lossless.conserved
  rw [hq, List.flatten_cons] at hconserved
  rcases hfit with hfit | ⟨rfl, hdone, hrest⟩
  · obtain ⟨hpos, hslice⟩ := copy_chunk_of_fits hfit
    rw [native_result, resume_of_pos (s := s.called r) h.first hcall hpos]
    refine ⟨hsettled, ⟨?_, nofun⟩, rfl⟩
    show (s.outputs ++ [slice (copy_chunk call.2 data).buf (copy_chunk call.2 data).n]).flatten
      ++ r.queue.flatten = s.sent.flatten
    rw [hslice, List.flatten_append, List.flatten_singleton, List.append_assoc]
    exact hconserved
  · rw [native_result, resume_of_zero (s := s.called r) h.first hcall (copy_chunk_nil call.2)]
    exact ⟨hsettled, ⟨hconserved, fun _ => ⟨htx.trans hdone, hrest⟩⟩, rfl⟩

/-- **One native step** keeps the invariant when no chunk is larger than the buffer. -/
theorem inv_native {s s' : ChunkReader} {k : NativeStep} (h : Inv s) (hrecv : s.Received (.native k))
    (hstep : s.native k = some s') : Inv s' := by
  obtain ⟨call, r, hcall, hr, hcases⟩ := native_cases hstep
  have hsettled : r.Settled :=
    BodyReader.settled_step h.settled (fun hcancel => by cases k <;> cases hcancel) hr
  have htx := (BodyReader.step_frame hr).1
  obtain ⟨-, hq, rfl⟩ | ⟨v, hret, rfl, hv⟩ := hcases
  · refine ⟨hsettled, ⟨?_, fun hclosed => ?_⟩, h.first⟩
    · rw [hq]
      exact h.lossless.conserved
    · rw [hq, htx]
      exact h.lossless.ended hclosed
  · cases v with
    | chunk data =>
        obtain ⟨rfl, hq, accessor, hlocked⟩ := hv
        exact inv_chunk h hcall hsettled htx hq (hrecv call accessor data r.queue hcall hlocked hq)
    | eof =>
        -- the core says `eof` only for a channel that is drained and whose sender is gone
        have hdrained : r.Drained := hsettled.eof (by rw [hret]; simp)
        have hq : r.queue = s.reader.queue := hv
        rw [native_result, resume_of_zero (s := s.called r) h.first hcall rfl]
        refine ⟨hsettled, ⟨?_, fun _ => ⟨hdrained.1, congrArg List.flatten hdrained.2⟩⟩, rfl⟩
        show s.outputs.flatten ++ r.queue.flatten = s.sent.flatten
        rw [hq]
        exact h.lossless.conserved
    | error e =>
        have hq : r.queue = s.reader.queue := hv
        obtain ⟨phase, heq, hfirst, hopen⟩ := resume_error (s := s.called r) h.first hcall e
        rw [heq]
        refine ⟨hsettled, ⟨?_, fun hclosed => absurd hclosed hopen⟩, hfirst⟩
        show s.outputs.flatten ++ r.queue.flatten = s.sent.flatten
        rw [hq]
        exact h.lossless.conserved

/-- Every step that receives what fits keeps the invariant. -/
theorem inv_step (s : ChunkReader) (x : ChunkStep) (s' : ChunkReader) (h : Inv s)
    (hrecv : s.Received x) (hstep : s.step x = some s') : Inv s' := by
  cases x with
  | push data =>
      simp only [step] at hstep
      split at hstep
      · next hopen =>
        cases hstep
        have htx : s.reader.tx_open = true := (Bool.and_eq_true _ _ ▸ hopen).1
        refine ⟨BodyReader.settled_push h.settled htx data, ⟨?_, fun hclosed => ?_⟩, h.first⟩
        · show s.outputs.flatten ++ (s.reader.queue ++ [data]).flatten = (s.sent ++ [data]).flatten
          rw [List.flatten_append, List.flatten_append, ← List.append_assoc, h.lossless.conserved]
        · -- the writer had not finished, so `null` has not come
          have hdone := (h.lossless.ended hclosed).1
          rw [htx] at hdone
          cases hdone
      · cases hstep
  | finish =>
      cases hstep
      exact ⟨BodyReader.settled_hang_up h.settled,
        ⟨h.lossless.conserved, fun hclosed => ⟨rfl, (h.lossless.ended hclosed).2⟩⟩, h.first⟩
  | abort e =>
      cases hstep
      exact ⟨BodyReader.settled_hang_up (BodyReader.settled_abort h.settled e),
        ⟨h.lossless.conserved, fun hclosed => ⟨rfl, (h.lossless.ended hclosed).2⟩⟩, h.first⟩
  | other_read n =>
      cases hstep
      exact ⟨h.settled, ⟨h.lossless.conserved, h.lossless.ended⟩, h.first⟩
  | read_chunk =>
      simp only [step] at hstep
      split at hstep
      · cases hstep
        exact ⟨h.settled, ⟨h.lossless.conserved, nofun⟩, rfl⟩
      · cases hstep
  | native k => exact inv_native h hrecv hstep

/-- Receiving a chunk that has bytes and does not fit loses some of them. -/
theorem length_outputs_resume_lt {s : ChunkReader} {call : Accessor × ℕ}
    (hfirst : s.phase.first = true) (hcall : s.phase.call = some call) {data : Bytes}
    (hpos : 0 < data.length) (hbad : ¬ Fits call.2 data) :
    (s.resume (native_result call.1 call.2 (.chunk data))).outputs.flatten.length
      < s.outputs.flatten.length + data.length := by
  have hlt : (copy_chunk call.2 data).n < data.length := copy_chunk_lt hpos hbad
  show (s.resume (copy_chunk call.2 data)).outputs.flatten.length < _
  -- the announced length decides: nothing is returned, `null`, or a part of the chunk
  rcases Int.lt_trichotomy (copy_chunk call.2 data).n 0 with hn | hn | hn
  · rw [outputs_resume_of_neg hfirst hcall hn]
    omega
  · rw [resume_of_zero hfirst hcall hn]
    show s.outputs.flatten.length < _
    omega
  · have hslice := length_slice_le (copy_chunk call.2 data).buf hn
    rw [resume_of_pos hfirst hcall hn]
    show (s.outputs ++ [slice (copy_chunk call.2 data).buf
      (copy_chunk call.2 data).n]).flatten.length < _
    rw [List.flatten_append, List.length_append, List.flatten_singleton]
    omega

/-- The step of a native call that receives the head of the queue. -/
theorem native_recv {s : ChunkReader} {call : Accessor × ℕ} {accessor : Accessor} {data : Bytes}
    {rest : List Bytes} (hcall : s.phase.call = some call)
    (hlocked : s.reader.calls s.native_calls = .locked accessor false)
    (hq : s.reader.queue = data :: rest) :
    s.native .recv = some ((s.called ({ s.reader with queue := rest, lock := none }.ret
      s.native_calls (.chunk data))).resume (native_result call.1 call.2 (.chunk data))) := by
  have hr : s.reader.step (NativeStep.recv.label call.1 s.native_calls) =
      some ({ s.reader with queue := rest, lock := none }.ret s.native_calls (.chunk data)) := by
    simp only [NativeStep.label, BodyReader.step, BodyReader.recv, hlocked, hq]
  rw [native, hcall]
  dsimp only
  rw [hr, Option.map_some]
  simp only [BodyReader.ret, List.getElem?_concat_length]

/-- A step that receives what does not fit loses bytes, or ends the body early. -/
theorem not_lossless_of_unfit {s : ChunkReader} {x : ChunkStep} (h : Inv s) (hx : ¬ s.Received x) :
    ∃ s', s.step x = some s' ∧ ¬ Lossless s' := by
  cases x with
  | native k =>
      cases k with
      | recv =>
          simp only [Received] at hx
          push Not at hx
          obtain ⟨call, accessor, data, rest, hcall, hlocked, hq, hunfit, hempty⟩ := hx
          refine ⟨_, native_recv hcall hlocked hq, fun hgood => ?_⟩
          have hconserved := h.lossless.conserved
          rw [hq, List.flatten_cons] at hconserved
          by_cases hdata : data = []
          · -- `null`, before the end
            subst hdata
            rw [native_result, resume_of_zero (s := s.called _) h.first hcall (copy_chunk_nil _)]
              at hgood
            obtain ⟨hdone, hrest⟩ := hgood.ended rfl
            exact hempty rfl hdone hrest
          · -- too few bytes for what is gone from the channel
            have hpos : 0 < data.length := List.length_pos_iff.mpr hdata
            have hlt := length_outputs_resume_lt (s := s.called (BodyReader.ret
              { s.reader with queue := rest, lock := none } s.native_calls (.chunk data)))
              h.first hcall hpos hunfit
            have hafter := congrArg List.length hgood.conserved
            have hbefore := congrArg List.length hconserved
            rw [(resume_frame _ _).1, (resume_frame _ _).2, List.length_append] at hafter
            rw [List.length_append, List.length_append] at hbefore
            simp only [called, BodyReader.ret_queue] at hlt hafter
            omega
      | open_call => exact absurd trivial hx
      | enlist => exact absurd trivial hx
      | acquire => exact absurd trivial hx
      | remove => exact absurd trivial hx
      | take_error => exact absurd trivial hx
  | push data => exact absurd trivial hx
  | finish => exact absurd trivial hx
  | abort e => exact absurd trivial hx
  | other_read n => exact absurd trivial hx
  | read_chunk => exact absurd trivial hx

/-- A reader that has seen the end has delivered everything. -/
theorem Lossless.outputs_eq {s : ChunkReader} (h : Lossless s) (hclosed : s.phase = .closed) :
    s.outputs.flatten = s.sent.flatten := by
  rw [← h.conserved, (h.ended hclosed).2, List.append_nil]

/-- **Chunk transfer is lossless exactly when every chunk is received into a buffer
that it fits**, and no chunk is empty but at the end. Then the arrays returned up
to `null` are the bytes sent, and `null` comes after the writer's end. -/
theorem chunk_transfer_lossless_iff (handle capacity chunkBufHint : ℕ) (l : List ChunkStep) :
    (Along step Received (start handle capacity chunkBufHint) l ↔
      ∀ n s, run step (start handle capacity chunkBufHint) (l.take n) = some s → Lossless s) ∧
    (Along step Received (start handle capacity chunkBufHint) l →
      ∀ s, run step (start handle capacity chunkBufHint) l = some s → s.phase = .closed →
        s.reader.tx_open = false ∧ s.outputs.flatten = s.sent.flatten) := by
  have hstart := inv_start handle capacity chunkBufHint
  constructor
  · exact along_iff_forall_prefix inv_step (fun s h => h.lossless)
      (fun s x h hx => not_lossless_of_unfit h hx) hstart l
  · intro hal s hrun hclosed
    have hgood := (along_invariant inv_step hstart hal hrun).lossless
    exact ⟨(hgood.ended hclosed).1, hgood.outputs_eq hclosed⟩

/-- A call that finds the chunk too long asks for a longer buffer. -/
theorem resume_too_long {s : ChunkReader} {out_cap : ℕ} {data : Bytes}
    (hphase : s.phase = .trying out_cap) (hmore : 2 < data.length) (hlong : out_cap < data.length)
    (hle : data.length ≤ i32.MAX) :
    s.resume (copy_chunk out_cap data) = { s with phase := .retrying data.length } := by
  have hn : (copy_chunk out_cap data).n = -(data.length : ℤ) := by
    rw [copy_chunk, if_pos hlong, Native.code, required_size, if_pos hle]
  rw [resume, hphase]
  dsimp only
  rw [hn, if_neg (by omega), if_neg (by omega), if_pos (by omega), Int.neg_neg, Int.toNat_natCast]

/-- A second call that finds the channel drained ends the body. -/
theorem retry_finds_end {s : ChunkReader} {out_cap : ℕ} (hphase : s.phase = .retrying out_cap)
    (hcalls : s.reader.calls s.native_calls = .idle) (hreg : s.reader.registered = true)
    (hlock : s.reader.lock = none) (hdrained : s.reader.Drained)
    (hclean : s.reader.terminal_error = none) :
    ∃ s', run step s [.native .open_call, .native .acquire, .native .recv, .native .remove,
        .native .take_error] = some s' ∧
      s'.phase = .closed ∧ s'.outputs = s.outputs ∧ s'.sent = s.sent := by
  obtain ⟨htx, hq⟩ := hdrained
  simp [run, step, native, hphase, Phase.call, NativeStep.label, BodyReader.step,
    BodyReader.open_call, BodyReader.acquire, BodyReader.recv, BodyReader.remove,
    BodyReader.take_error, BodyReader.move, BodyReader.ret, hcalls, hreg, hlock, htx, hq, hclean,
    called, resume, native_result, Native.code]

/-- `readChunk` finds one chunk in the channel, which is longer than its buffer, and
a writer that has finished: it returns `null`, and no array. -/
theorem null_after_long_chunk {chunkBufHint : ℕ} {data : Bytes} (hmore : 2 < data.length)
    (hlong : chunkBufHint < data.length) (hle : data.length ≤ i32.MAX) :
    ∃ l s, run step (start 1 32 chunkBufHint) l = some s ∧ s.phase = .closed ∧ s.outputs = [] ∧
      s.sent = [data] := by
  obtain ⟨s, hrun, hphase, hcalls, hlocked, hq, htx, hreg, hnext, hclean, houtputs, hsent⟩ :
      ∃ s, run step (start 1 32 chunkBufHint)
        [.push data, .finish, .read_chunk, .native .open_call, .native .acquire] = some s ∧
        s.phase = .trying chunkBufHint ∧ s.native_calls = 0 ∧
        s.reader.calls 0 = .locked .try_next_chunk false ∧ s.reader.queue = [data] ∧
        s.reader.tx_open = false ∧ s.reader.registered = true ∧ s.reader.calls 1 = .idle ∧
        s.reader.terminal_error = none ∧ s.outputs = [] ∧ s.sent = [data] :=
    ⟨_, rfl, rfl, rfl, rfl, rfl, rfl, rfl, rfl, rfl, rfl, rfl⟩
  let r := { s.reader with queue := [], lock := none }.ret s.native_calls (.chunk data)
  have hrecv : s.step (.native .recv) = some { s.called r with phase := .retrying data.length } := by
    have hcall : s.phase.call = some (.try_next_chunk, chunkBufHint) := by rw [hphase]; rfl
    refine (native_recv hcall (hcalls ▸ hlocked) hq).trans (congrArg some ?_)
    exact resume_too_long hphase hmore hlong hle
  -- the chunk is gone by the second call
  have hidle : r.calls (s.native_calls + 1) = .idle := by
    refine (Function.update_of_ne (Nat.succ_ne_self _) _ _).trans ?_
    rw [hcalls]
    exact hnext
  obtain ⟨t, hrest, hclosed, ht⟩ := retry_finds_end
    (s := { s.called r with phase := .retrying data.length }) rfl hidle hreg rfl ⟨htx, rfl⟩ hclean
  refine ⟨_, t, (run_append (run_append_singleton hrun hrecv) _).trans hrest, hclosed, ?_⟩
  exact ⟨ht.1.trans houtputs, ht.2.trans hsent⟩

/-- A chunk of one byte more than the first hint, and the writer's end. -/
theorem long_chunk_lost :
    ¬ ∀ (l : List ChunkStep) (s : ChunkReader), run step (start 1 32 65536) l = some s →
      s.phase = .closed → s.outputs.flatten = s.sent.flatten := by
  intro hall
  have hlength : (List.replicate 65537 (7 : UInt8)).length = 65537 := List.length_replicate
  have hlong : 65536 < (List.replicate 65537 (7 : UInt8)).length := by
    rw [hlength]
    decide
  have hle : (List.replicate 65537 (7 : UInt8)).length ≤ i32.MAX := by
    rw [hlength]
    decide
  obtain ⟨l, s, hrun, hclosed, houtputs, hsent⟩ :=
    null_after_long_chunk (Nat.lt_trans (by decide) hlong) hlong hle
  have hbad := congrArg List.length (hall l s hrun hclosed)
  rw [houtputs, hsent, List.flatten_singleton, hlength] at hbad
  cases hbad

end ChunkReader

end IrohHttp.Deno
