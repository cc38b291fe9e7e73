/-
The terminal error of a pumped body, and what it is named after.

The pump records an error for the first thing that goes wrong: the limit, a failed frame, a
frame that does not come. Past the limit it goes on reading to drain the peer, and of the two
exits of that loop only the one for a failed frame leaves the recorded error alone.
-/
import IrohHttp.Pumps
import Mathlib.Data.List.TakeWhile

set_option autoImplicit false

namespace IrohHttp.Body

/-- Frames by which a body ends badly. -/
def BodyFrame.is_error : BodyFrame → Bool
  | .error _ _ => true
  | _ => false

/-- The data in front of the first failed frame. -/
def bytes_before_failure (consumed : List BodyFrame) : ℕ :=
  (data_of (consumed.takeWhile fun frame => !frame.is_error)).flatten.length

/-- The frames consumed so far carry more data than the limit allows. -/
def Exceeds (max_bytes : Option ℕ) (consumed : List BodyFrame) : Prop :=
  ∃ limit, max_bytes = some limit ∧ limit < bytes_before_failure consumed

/-- The data read before any other failure exceeds the limit, or the first failed frame is a
length-limit error. -/
def TooLarge (max_bytes : Option ℕ) (consumed : List BodyFrame) : Prop :=
  Exceeds max_bytes consumed ∨
    ∃ detail, consumed.find? BodyFrame.is_error = some (.error true detail)

section

variable {max_bytes : Option ℕ} {consumed : List BodyFrame} {frame : BodyFrame}

/-- Before a failure, the bytes counted are the data. -/
theorem bytes_clean (h : ∀ f ∈ consumed, f.is_error = false) :
    bytes_before_failure consumed = (data_of consumed).flatten.length := by
  have hall : consumed.takeWhile (fun frame => !frame.is_error) = consumed := by
    rw [List.takeWhile_eq_self_iff]
    intro f hf
    rw [h f hf, Bool.not_false]
  rw [bytes_before_failure, hall]

theorem find_clean (h : ∀ f ∈ consumed, f.is_error = false) :
    consumed.find? BodyFrame.is_error = none := by
  rw [List.find?_eq_none]
  intro f hf
  rw [h f hf]
  exact Bool.false_ne_true

/-- Reading on does not take an excess back. -/
theorem exceeds_append (h : Exceeds max_bytes consumed) (frame : BodyFrame) :
    Exceeds max_bytes (consumed ++ [frame]) := by
  obtain ⟨limit, hlimit, hlt⟩ := h
  refine ⟨limit, hlimit, ?_⟩
  have hprefix : consumed.takeWhile (fun frame => !frame.is_error) <+:
      (consumed ++ [frame]).takeWhile fun frame => !frame.is_error := by
    rw [List.takeWhile_append]
    split
    · exact (List.takeWhile_prefix _).trans (List.prefix_append _ _)
    · exact List.prefix_rfl
  obtain ⟨rest, hrest⟩ := hprefix
  rw [bytes_before_failure, ← hrest, Pumped.data_of_append, List.flatten_append, List.length_append]
  rw [bytes_before_failure] at hlt
  omega

/-- Before a failure, a body is too large when it exceeds its limit. -/
theorem tooLarge_clean (h : ∀ f ∈ consumed, f.is_error = false) :
    TooLarge max_bytes consumed ↔ Exceeds max_bytes consumed := by
  rw [TooLarge, find_clean h]
  simp only [reduceCtorEq, exists_false, or_false]

/-- With a failed frame behind data within the limit, it is this frame that counts. -/
theorem tooLarge_error (h : ∀ f ∈ consumed, f.is_error = false)
    (hwithin : ¬ Exceeds max_bytes consumed) (length_limit : Bool) (detail : String) :
    TooLarge max_bytes (consumed ++ [.error length_limit detail]) ↔ length_limit = true := by
  have hbytes : bytes_before_failure (consumed ++ [.error length_limit detail])
      = bytes_before_failure consumed := by
    have hall : ∀ f ∈ consumed, (!f.is_error) = true := by
      intro f hf
      rw [h f hf, Bool.not_false]
    rw [bytes_before_failure, bytes_before_failure, List.takeWhile_append_of_pos hall,
      List.takeWhile_eq_self_iff.mpr hall]
    simp only [BodyFrame.is_error, List.takeWhile_cons, Bool.not_true, Bool.false_eq_true, if_false,
      List.append_nil]
  have hexceeds : ¬ Exceeds max_bytes (consumed ++ [.error length_limit detail]) := by
    rw [Exceeds, hbytes]
    exact hwithin
  have hfind : (consumed ++ [BodyFrame.error length_limit detail]).find? BodyFrame.is_error
      = some (.error length_limit detail) := by
    rw [List.find?_append, find_clean h, Option.none_or]
    rfl
  rw [TooLarge, hfind]
  constructor
  · rintro (hno | ⟨detail', heq⟩)
    · exact absurd hno hexceeds
    · rw [Option.some.injEq, BodyFrame.error.injEq] at heq
      exact heq.1
  · rintro rfl
    exact Or.inr ⟨detail, rfl⟩

end

namespace BodyReader

/-- What a step of the reader does with the error cell: nothing, or one call takes the error
out. The other errors that calls return are not about the body. -/
theorem step_terminal {r r' : BodyReader} {a : ReaderLabel} (h : r.step a = some r') :
    (r'.terminal_error = r.terminal_error ∧ (∀ e, .error e ∈ r.returned → .error e ∈ r'.returned) ∧
      ∀ e, .error e ∈ r'.returned → .error e ∈ r.returned ∨ e.code ≠ .BodyTooLarge) ∨
    ∃ e, r.terminal_error = some e ∧ r'.terminal_error = none ∧
      r'.returned = r.returned ++ [.error e] := by
  have hret (v : Return) (hv : ∀ e, v = .error e → e.code ≠ .BodyTooLarge) :
      (∀ e, .error e ∈ r.returned → Return.error e ∈ r.returned ++ [v]) ∧
        ∀ e, .error e ∈ r.returned ++ [v] → Return.error e ∈ r.returned ∨ e.code ≠ .BodyTooLarge := by
    constructor
    · exact fun e he => List.mem_append_left _ he
    · intro e he
      rcases List.mem_append.mp he with he | he
      · exact Or.inl he
      · exact Or.inr (hv e (List.mem_singleton.mp he).symm)
  have hother (detail : String) (code : ErrorCode) (hcode : code ≠ .BodyTooLarge) :
      ∀ e, Return.error ⟨code, detail⟩ = .error e → e.code ≠ .BodyTooLarge := by
    intro e he
    rw [Return.error.injEq] at he
    rw [← he]
    exact hcode
  cases step_cases h with
  | refused accessor c hidle hreg => exact Or.inl ⟨rfl, hret _ (hother _ _ (by decide))⟩
  | contended c hc => exact Or.inl ⟨rfl, hret _ (hother _ _ (by decide))⟩
  | empty c hc hq htx => exact Or.inl ⟨rfl, hret _ (hother _ _ (by decide))⟩
  | received accessor c data rest hc hq => exact Or.inl ⟨rfl, hret _ (fun e he => by cases he)⟩
  | finished c hc he => exact Or.inl ⟨rfl, hret _ (fun e he => by cases he)⟩
  | failed c e hc he => exact Or.inr ⟨e, he, rfl, rfl⟩
  | unregistered =>
      unfold cancel_reader
      split
      · exact Or.inl ⟨rfl, fun e he => he, fun e he => Or.inl he⟩
      · exact Or.inl ⟨rfl, fun e he => he, fun e he => Or.inl he⟩
  | _ => exact Or.inl ⟨rfl, fun e he => he, fun e he => Or.inl he⟩

end BodyReader

namespace Pumped

/-! ## The error names the cause -/

/-- The frames read so far. -/
def consumed (frames : List BodyFrame) (s : Pumped) : List BodyFrame :=
  frames.take (frames.length - s.body.length)

/-- The error that is recorded or that a call has received is `BodyTooLarge` exactly if the body is
too large. -/
structure NamesCause (frames : List BodyFrame) (max_bytes : Option ℕ) (s : Pumped) : Prop where
  recorded : ∀ e, s.reader.terminal_error = some e →
    (e.code = .BodyTooLarge ↔ TooLarge max_bytes (s.consumed frames))
  received : ∀ e, .error e ∈ s.reader.returned → e.code = .BodyTooLarge →
    TooLarge max_bytes (s.consumed frames)
  reported : TooLarge max_bytes (s.consumed frames) → ∃ e, e.code = .BodyTooLarge ∧
    (s.reader.terminal_error = some e ∨ .error e ∈ s.reader.returned)

/-- The error is still recorded, or a call has received it and nothing else is recorded. -/
def Keeps (e : CoreError) (s : Pumped) : Prop :=
  s.reader.terminal_error = some e ∨ s.reader.terminal_error = none ∧ .error e ∈ s.reader.returned

/-- Every state of the run names its cause, and what is recorded in one is kept in all later
ones. -/
def FirstCause (frames : List BodyFrame) (max_bytes : Option ℕ) (s : Pumped)
    (schedule : List PumpLabel) : Prop :=
  ∀ n t, Machine.run step s (schedule.take n) = some t → NamesCause frames max_bytes t ∧
    ∀ e, t.reader.terminal_error = some e →
      ∀ m u, n ≤ m → Machine.run step s (schedule.take m) = some u → Keeps e u

/-- The next frame takes the count past the top of `usize`, which is the limit. -/
def Saturates (s : Pumped) : Prop :=
  ∃ bytes rest, s.body = .data bytes :: rest ∧ s.max_bytes = some usize.MAX ∧
    usize.MAX < s.total + bytes.length

/-- The frame timeout does not fire while the pump drains a body past its limit, and the count does
not stop short of the limit. -/
structure Guarded (s : Pumped) (a : PumpLabel) : Prop where
  timeout : a = .frame_timeout → s.pump = .awaiting → s.overflowed = false
  count : a = .frame → s.pump = .awaiting → s.overflowed = false → ¬ Saturates s

/-! ## The invariant -/

/-- Nothing has gone wrong, and the count is that of the data read. -/
structure Clean (frames : List BodyFrame) (max_bytes : Option ℕ) (s : Pumped) : Prop where
  unfailed : ∀ f ∈ s.consumed frames, f.is_error = false
  total : s.total = min (data_of (s.consumed frames)).flatten.length usize.MAX
  within : ¬ Exceeds max_bytes (s.consumed frames)
  unrecorded : s.reader.terminal_error = none

/-- The invariant behind the cause: the frames split into those consumed and those to come, a
terminal error names the first cause among the consumed, and a pump that still runs has met none. -/
structure CauseInv (frames : List BodyFrame) (max_bytes : Option ℕ) (s : Pumped) : Prop where
  config : s.max_bytes = max_bytes
  split : frames = s.consumed frames ++ s.body
  names : NamesCause frames max_bytes s
  clean : s.overflowed = false → s.pump ≠ .stopped → Clean frames max_bytes s
  is_over : s.overflowed = true → Exceeds max_bytes (s.consumed frames) ∧
    (s.pump = .awaiting ∨ s.pump = .stopped)

section

variable {frames : List BodyFrame} {max_bytes : Option ℕ} {s : Pumped}

theorem consumed_eq {front : List BodyFrame} (h : frames = front ++ s.body) :
    s.consumed frames = front := by
  have hlength : frames.length - s.body.length = front.length := by
    rw [h, List.length_append]
    omega
  rw [consumed, hlength, h, List.take_left]

/-- One frame further. -/
theorem consumed_frame (s' : Pumped) {frame : BodyFrame} {rest : List BodyFrame}
    (hsplit : frames = s.consumed frames ++ s.body) (hbody : s.body = frame :: rest)
    (hrest : s'.body = rest) : s'.consumed frames = s.consumed frames ++ [frame] ∧
      frames = s'.consumed frames ++ s'.body := by
  have hframes : frames = (s.consumed frames ++ [frame]) ++ s'.body := by
    rw [hrest, List.append_assoc, List.singleton_append, ← hbody]
    exact hsplit
  have heq := consumed_eq hframes
  rw [heq]
  exact ⟨rfl, hframes⟩

theorem consumed_start (frames : List BodyFrame) (max_bytes : Option ℕ) (overflow_tx : Bool)
    (handle capacity : ℕ) :
    (start frames max_bytes overflow_tx handle capacity).consumed frames = [] :=
  consumed_eq rfl

theorem not_exceeds_nil : ¬ Exceeds max_bytes [] := by
  rintro ⟨limit, -, hlt⟩
  exact absurd hlt (Nat.not_lt_zero limit)

/-- No frame was consumed yet. -/
theorem causeInv_start (frames : List BodyFrame) (max_bytes : Option ℕ) (overflow_tx : Bool)
    (handle capacity : ℕ) :
    CauseInv frames max_bytes (start frames max_bytes overflow_tx handle capacity) := by
  have hnil := consumed_start frames max_bytes overflow_tx handle capacity
  have hsmall : ¬ TooLarge max_bytes [] := by
    rw [tooLarge_clean (fun f hf => absurd hf List.not_mem_nil)]
    exact not_exceeds_nil
  refine ⟨rfl, ?_, ⟨?_, ?_, ?_⟩, fun _ _ => ⟨?_, ?_, ?_, rfl⟩, fun hno => (by cases hno)⟩
  · rw [hnil]
    rfl
  · intro e he
    cases he
  · intro e he
    exact absurd he List.not_mem_nil
  · rw [hnil]
    exact fun hno => absurd hno hsmall
  · rw [hnil]
    exact fun f hf => absurd hf List.not_mem_nil
  · rw [hnil]
    rfl
  · rw [hnil]
    exact not_exceeds_nil

/-! ## One step -/

/-- The account depends on what has been read and on the reader only. -/
theorem NamesCause.congr {s' : Pumped} (h : NamesCause frames max_bytes s)
    (hread : s'.consumed frames = s.consumed frames)
    (hcell : s'.reader.terminal_error = s.reader.terminal_error)
    (hreturned : s'.reader.returned = s.reader.returned) : NamesCause frames max_bytes s' := by
  refine ⟨?_, ?_, ?_⟩
  · rw [hread, hcell]
    exact h.recorded
  · rw [hread, hreturned]
    exact h.received
  · rw [hread, hcell, hreturned]
    exact h.reported

/-- A body past its limit stays so. -/
theorem names_of_exceeds {s' : Pumped} (h : NamesCause frames max_bytes s)
    (hexceeds : Exceeds max_bytes (s.consumed frames))
    (hexceeds' : Exceeds max_bytes (s'.consumed frames)) (hreader : s'.reader = s.reader) :
    NamesCause frames max_bytes s' := by
  refine ⟨?_, fun e _ _ => Or.inl hexceeds', ?_⟩
  · rw [hreader]
    intro e he
    exact iff_of_true ((h.recorded e he).mpr (Or.inl hexceeds)) (Or.inl hexceeds')
  · rw [hreader]
    exact fun _ => h.reported (Or.inl hexceeds)

theorem Clean.not_tooLarge (h : Clean frames max_bytes s) :
    ¬ TooLarge max_bytes (s.consumed frames) := by
  rw [tooLarge_clean h.unfailed]
  exact h.within

/-- As long as nothing has gone wrong, no call has heard of it. -/
theorem Clean.unreceived (h : Clean frames max_bytes s) (hnames : NamesCause frames max_bytes s)
    {e : CoreError} (he : .error e ∈ s.reader.returned) : e.code ≠ .BodyTooLarge :=
  fun hcode => h.not_tooLarge (hnames.received e he hcode)

/-- Where an error is recorded in a state that was clean, it is named after what comes next. -/
theorem names_of_record {s' : Pumped} {e : CoreError} (hclean : Clean frames max_bytes s)
    (hnames : NamesCause frames max_bytes s) (hcell : s'.reader.terminal_error = some e)
    (hreturned : s'.reader.returned = s.reader.returned)
    (hcode : e.code = .BodyTooLarge ↔ TooLarge max_bytes (s'.consumed frames)) :
    NamesCause frames max_bytes s' := by
  refine ⟨?_, ?_, ?_⟩
  · intro e' he'
    rw [hcell, Option.some.injEq] at he'
    rw [← he']
    exact hcode
  · intro e' he' hcode'
    rw [hreturned] at he'
    exact absurd hcode' (hclean.unreceived hnames he')
  · intro hlarge
    exact ⟨e, hcode.mpr hlarge, Or.inl hcell⟩

/-- Another frame within the limit. -/
theorem names_of_clean {s' : Pumped} (hclean : Clean frames max_bytes s)
    (hnames : NamesCause frames max_bytes s) (hclean' : Clean frames max_bytes s')
    (hreturned : s'.reader.returned = s.reader.returned) : NamesCause frames max_bytes s' := by
  refine ⟨?_, ?_, ?_⟩
  · intro e he
    rw [hclean'.unrecorded] at he
    cases he
  · intro e he hcode
    rw [hreturned] at he
    exact absurd hcode (hclean.unreceived hnames he)
  · exact fun hlarge => absurd hlarge hclean'.not_tooLarge

/-- Waiting, sending and leaving do not touch the account. -/
theorem causeInv_congr {s' : Pumped} (hinv : CauseInv frames max_bytes s)
    (hmax : s'.max_bytes = s.max_bytes) (hbody : s'.body = s.body) (htotal : s'.total = s.total)
    (hover : s'.overflowed = s.overflowed)
    (hcell : s'.reader.terminal_error = s.reader.terminal_error)
    (hreturned : s'.reader.returned = s.reader.returned)
    (hrunning : s'.pump ≠ .stopped → s.pump ≠ .stopped)
    (hdraining : s.overflowed = true → s'.pump = .awaiting ∨ s'.pump = .stopped) :
    CauseInv frames max_bytes s' := by
  have hread : s'.consumed frames = s.consumed frames := by rw [consumed, consumed, hbody]
  refine ⟨hmax.trans hinv.config, ?_, hinv.names.congr hread hcell hreturned, ?_, ?_⟩
  · rw [hread, hbody]
    exact hinv.split
  · intro hno hp
    rw [hover] at hno
    have hclean := hinv.clean hno (hrunning hp)
    refine ⟨?_, ?_, ?_, ?_⟩
    · rw [hread]
      exact hclean.unfailed
    · rw [hread, htotal]
      exact hclean.total
    · rw [hread]
      exact hclean.within
    · rw [hcell]
      exact hclean.unrecorded
  · intro ho
    rw [hover] at ho
    rw [hread]
    exact ⟨(hinv.is_over ho).1, hdraining ho⟩

/-- Stopping keeps the cause. -/
theorem causeInv_stop (hinv : CauseInv frames max_bytes s) : CauseInv frames max_bytes s.stop :=
  causeInv_congr hinv rfl rfl rfl rfl rfl rfl (fun hno => absurd rfl hno) fun _ => Or.inr rfl

/-- Sending keeps the cause. -/
theorem causeInv_send_chunk (hinv : CauseInv frames max_bytes s) (hp : s.pump ≠ .stopped)
    (ho : s.overflowed = false) (chunk : Bytes) :
    CauseInv frames max_bytes (s.send_chunk chunk) := by
  have hover : ∀ {P : Prop}, s.overflowed = true → P := by
    intro P hno
    rw [ho] at hno
    cases hno
  unfold send_chunk
  split
  · exact causeInv_stop hinv
  · split
    · exact causeInv_congr hinv rfl rfl rfl rfl rfl rfl (fun _ => hp) hover
    · exact causeInv_congr hinv rfl rfl rfl rfl rfl rfl (fun _ => hp) hover

/-- The reader's side keeps the cause. -/
theorem causeInv_reader (hinv : CauseInv frames max_bytes s) {a : ReaderLabel} {r' : BodyReader}
    (h : s.reader.step a = some r') : CauseInv frames max_bytes { s with reader := r' } := by
  rcases BodyReader.step_terminal h with ⟨hcell, hkept, hnew⟩ | ⟨e, he, hcell, hreturned⟩
  · refine ⟨hinv.config, hinv.split, ⟨?_, ?_, ?_⟩, ?_, hinv.is_over⟩
    · intro e he
      rw [hcell] at he
      exact hinv.names.recorded e he
    · intro e he hcode
      rcases hnew e he with he | hother
      · exact hinv.names.received e he hcode
      · exact absurd hcode hother
    · intro hlarge
      obtain ⟨e, hcode, he | he⟩ := hinv.names.reported hlarge
      · exact ⟨e, hcode, Or.inl (hcell.trans he)⟩
      · exact ⟨e, hcode, Or.inr (hkept e he)⟩
    · intro ho hp
      have hclean := hinv.clean ho hp
      exact ⟨hclean.unfailed, hclean.total, hclean.within, hcell.trans hclean.unrecorded⟩
  · -- a call takes the error out
    refine ⟨hinv.config, hinv.split, ⟨?_, ?_, ?_⟩, ?_, hinv.is_over⟩
    · intro e' he'
      rw [hcell] at he'
      cases he'
    · intro e' he' hcode
      rw [hreturned, List.mem_append, List.mem_singleton, Return.error.injEq] at he'
      rcases he' with he' | rfl
      · exact hinv.names.received e' he' hcode
      · exact (hinv.names.recorded e' he).mp hcode
    · intro hlarge
      have hcode := (hinv.names.recorded e he).mpr hlarge
      refine ⟨e, hcode, Or.inr ?_⟩
      rw [hreturned]
      exact List.mem_append_right _ List.mem_cons_self
    · intro ho hp
      have hclean := hinv.clean ho hp
      rw [hclean.unrecorded] at he
      cases he

/-- A data frame while nothing has gone wrong. -/
theorem causeInv_data (hinv : CauseInv frames max_bytes s)
    (husize : ∀ limit, max_bytes = some limit → limit ≤ usize.MAX) (hp : s.pump = .awaiting)
    (ho : s.overflowed = false) (hcount : ¬ Saturates s) {bytes : Bytes} {rest : List BodyFrame}
    (hbody : s.body = .data bytes :: rest) :
    CauseInv frames max_bytes ({ s with body := rest }.on_data bytes) := by
  have hne : s.pump ≠ .stopped := by
    rw [hp]
    simp
  have hclean := hinv.clean ho hne
  have hfailed : ∀ f ∈ s.consumed frames ++ [BodyFrame.data bytes], f.is_error = false := by
    intro f hf
    rcases List.mem_append.mp hf with hf | hf
    · exact hclean.unfailed f hf
    · rw [List.mem_singleton.mp hf]
      rfl
  have hlength : (data_of (s.consumed frames ++ [.data bytes])).flatten.length
      = (data_of (s.consumed frames)).flatten.length + bytes.length := by
    rw [data_of_append, List.flatten_append, List.length_append]
    simp [data_of]
  have htotal : usize.saturating_add s.total bytes.length
      = min (data_of (s.consumed frames ++ [.data bytes])).flatten.length usize.MAX := by
    rw [hlength, usize.saturating_add, hclean.total]
    omega
  -- whatever the outcome, the frame has been read
  have hread : ∀ s' : Pumped, s'.body = rest →
      s'.consumed frames = s.consumed frames ++ [.data bytes] ∧
        frames = s'.consumed frames ++ s'.body :=
    fun s' hrest => consumed_frame s' hinv.split hbody hrest
  have hwithin (h : ∀ limit, max_bytes = some limit →
      usize.saturating_add s.total bytes.length ≤ limit) :
      CauseInv frames max_bytes ({ s with
        body := rest, total := usize.saturating_add s.total bytes.length }.send_chunk bytes) := by
    obtain ⟨hnow, hsplit⟩ := hread { s with
      body := rest, total := usize.saturating_add s.total bytes.length } rfl
    have hclean' : Clean frames max_bytes { s with
        body := rest, total := usize.saturating_add s.total bytes.length } := by
      refine ⟨?_, ?_, ?_, hclean.unrecorded⟩
      · rw [hnow]
        exact hfailed
      · rw [hnow]
        exact htotal
      · rw [hnow, Exceeds, bytes_clean hfailed]
        rintro ⟨limit, hlimit, hlt⟩
        have hle := h limit hlimit
        have hmax := husize limit hlimit
        have hwithin : (data_of (s.consumed frames)).flatten.length ≤ limit := by
          by_contra hno
          apply hclean.within
          rw [Exceeds, bytes_clean hclean.unfailed]
          exact ⟨limit, hlimit, by omega⟩
        have hsum := hclean.total
        rw [htotal] at hle
        rw [hlength] at hle hlt
        -- the count is exact, unless it has come to the top
        have htop : ¬ (limit = usize.MAX ∧ usize.MAX < s.total + bytes.length) := by
          rintro ⟨rfl, hpast⟩
          exact hcount ⟨bytes, rest, hbody, hinv.config.trans hlimit, hpast⟩
        omega
    refine causeInv_send_chunk (s := { s with
      body := rest, total := usize.saturating_add s.total bytes.length }) ?_ hne ho bytes
    exact ⟨hinv.config, hsplit, names_of_clean hclean hinv.names hclean' rfl, fun _ _ => hclean',
      fun hno => by rw [ho] at hno; cases hno⟩
  simp only [on_data]
  split
  · next limit hlimit =>
    rw [hinv.config] at hlimit
    split
    · next hlt =>
      have hexceeds : Exceeds max_bytes (s.consumed frames ++ [.data bytes]) := by
        refine ⟨limit, hlimit, ?_⟩
        rw [bytes_clean hfailed]
        rw [htotal] at hlt
        omega
      have hnow := hread ({ s with
        body := rest, total := usize.saturating_add s.total bytes.length, overflowed := true,
        overflow_tx := s.overflow_tx.map fun _ => true }.abort (CoreError.body_too_large
          s!"body exceeded configured size limit of {limit} bytes")) rfl
      refine ⟨hinv.config, hnow.2, names_of_record hclean hinv.names rfl rfl ?_,
        fun hno => (by cases hno), fun _ => ⟨?_, Or.inl hp⟩⟩
      · rw [hnow.1]
        exact iff_of_true rfl (Or.inl hexceeds)
      · rw [hnow.1]
        exact hexceeds
    · next hle =>
      apply hwithin
      intro limit' hlimit'
      rw [hlimit, Option.some.injEq] at hlimit'
      omega
  · next hnone =>
    rw [hinv.config] at hnone
    apply hwithin
    intro limit hno
    rw [hnone] at hno
    cases hno

/-- One frame while nothing has gone wrong. -/
theorem causeInv_frame (hinv : CauseInv frames max_bytes s)
    (husize : ∀ limit, max_bytes = some limit → limit ≤ usize.MAX) (hp : s.pump = .awaiting)
    (ho : s.overflowed = false) (hcount : ¬ Saturates s) {s' : Pumped} (h : s.on_frame = some s') :
    CauseInv frames max_bytes s' := by
  have hne : s.pump ≠ .stopped := by
    rw [hp]
    simp
  have hclean := hinv.clean ho hne
  have hno : ¬ s.overflowed = true := by
    rw [ho]
    exact Bool.false_ne_true
  -- the body ends, has no frame yet, fails, ends in trailers, or yields data
  unfold on_frame at h
  split at h
  · next hbody =>
    rw [Option.some.injEq] at h
    rw [← h]
    exact causeInv_stop hinv
  · cases h
  · next length_limit detail rest hbody =>
    dsimp only at h
    rw [if_neg hno, Option.some.injEq] at h
    subst h
    obtain ⟨hnow, hsplit⟩ := consumed_frame (({ s with body := rest }.abort
      (frame_error length_limit detail)).stop) hinv.split hbody rfl
    refine ⟨hinv.config, hsplit, names_of_record hclean hinv.names rfl rfl ?_,
      fun _ hstopped => absurd rfl hstopped, fun hover => absurd hover hno⟩
    rw [hnow, tooLarge_error hclean.unfailed hclean.within]
    cases length_limit with
    | true => exact iff_of_true rfl rfl
    | false => exact iff_of_false (fun hcode => by cases hcode) Bool.false_ne_true
  · next rest hbody =>
    rw [Option.some.injEq] at h
    subst h
    obtain ⟨hnow, hsplit⟩ := consumed_frame ({ s with body := rest }) hinv.split hbody rfl
    have hfailed : ∀ f ∈ s.consumed frames ++ [BodyFrame.trailers], f.is_error = false := by
      intro f hf
      rcases List.mem_append.mp hf with hf | hf
      · exact hclean.unfailed f hf
      · rw [List.mem_singleton.mp hf]
        rfl
    have hdata : data_of (s.consumed frames ++ [.trailers]) = data_of (s.consumed frames) := by
      rw [data_of_append]
      exact List.append_nil _
    have hclean' : Clean frames max_bytes { s with body := rest } := by
      refine ⟨?_, ?_, ?_, hclean.unrecorded⟩
      · rw [hnow]
        exact hfailed
      · rw [hnow, hdata]
        exact hclean.total
      · have hwithin := hclean.within
        rw [Exceeds, bytes_clean hclean.unfailed] at hwithin
        rw [hnow, Exceeds, bytes_clean hfailed, hdata]
        exact hwithin
    exact ⟨hinv.config, hsplit, names_of_clean hclean hinv.names hclean' rfl, fun _ _ => hclean',
      fun hover => absurd hover hno⟩
  · next bytes rest hbody =>
    dsimp only at h
    rw [if_neg hno, Option.some.injEq] at h
    rw [← h]
    exact causeInv_data hinv husize hp ho hcount hbody

/-- One frame past the limit: whatever it is, the account stays. -/
theorem causeInv_drain (hinv : CauseInv frames max_bytes s) (ho : s.overflowed = true) {s' : Pumped}
    (hp : s.pump = .awaiting) (h : s.on_frame = some s') : CauseInv frames max_bytes s' := by
  obtain ⟨hexceeds, -⟩ := hinv.is_over ho
  have hfurther {frame : BodyFrame} {rest : List BodyFrame} (hbody : s.body = frame :: rest) :
      CauseInv frames max_bytes { s with body := rest } := by
    obtain ⟨hnow, hsplit⟩ := consumed_frame ({ s with body := rest }) hinv.split hbody rfl
    have hexceeds' : Exceeds max_bytes (consumed frames { s with body := rest }) := by
      rw [hnow]
      exact exceeds_append hexceeds frame
    refine ⟨hinv.config, hsplit, names_of_exceeds hinv.names hexceeds hexceeds' rfl, fun hno => ?_,
      fun _ => ⟨hexceeds', Or.inl hp⟩⟩
    have hno' : s.overflowed = false := hno
    rw [ho] at hno'
    cases hno'
  unfold on_frame at h
  split at h
  · rw [Option.some.injEq] at h
    rw [← h]
    exact causeInv_stop hinv
  · cases h
  · next hbody =>
    dsimp only at h
    rw [if_pos ho, Option.some.injEq] at h
    rw [← h]
    exact causeInv_stop (hfurther hbody)
  · next hbody =>
    rw [Option.some.injEq] at h
    rw [← h]
    exact hfurther hbody
  · next hbody =>
    dsimp only at h
    rw [if_pos ho, Option.some.injEq] at h
    rw [← h]
    exact hfurther hbody

/-- **Every guarded step keeps the account.** -/
theorem causeInv_step (husize : ∀ limit, max_bytes = some limit → limit ≤ usize.MAX) {a : PumpLabel} {s' : Pumped}
    (hinv : CauseInv frames max_bytes s) (hok : Guarded s a) (h : s.step a = some s') :
    CauseInv frames max_bytes s' := by
  cases a with
  | frame =>
      simp only [step, Option.ite_none_right_eq_some] at h
      obtain ⟨hp, h⟩ := h
      cases ho : s.overflowed with
      | true => exact causeInv_drain hinv ho hp h
      | false => exact causeInv_frame hinv husize hp ho (hok.count rfl hp ho) h
  | frame_timeout =>
      simp only [step, Option.ite_none_right_eq_some, Option.some.injEq] at h
      obtain ⟨hp, h⟩ := h
      subst h
      have ho := hok.timeout rfl hp
      have hclean := hinv.clean ho (by rw [hp]; simp)
      have hcode : (CoreError.timeout "body frame read timed out").code = .BodyTooLarge ↔
          TooLarge max_bytes (s.consumed frames) := iff_of_false (by decide) hclean.not_tooLarge
      have hno : ¬ s.overflowed = true := by
        rw [ho]
        exact Bool.false_ne_true
      exact ⟨hinv.config, hinv.split, names_of_record hclean hinv.names rfl rfl hcode,
        fun _ hstopped => absurd rfl hstopped, fun hover => absurd hover hno⟩
  | send =>
      simp only [step] at h
      split at h
      · next chunk hp =>
        have ho : s.overflowed = false := by
          rw [← Bool.not_eq_true]
          intro ho
          have hwaits := (hinv.is_over ho).2
          rw [hp] at hwaits
          simp at hwaits
        rw [Option.ite_none_left_eq_some, Option.some.injEq] at h
        rw [← h.2]
        exact causeInv_send_chunk hinv (by rw [hp]; simp) ho chunk
      · cases h
  | drain_timeout =>
      simp only [step] at h
      split at h
      · rw [Option.some.injEq] at h
        rw [← h]
        exact causeInv_stop hinv
      · cases h
  | reader a =>
      simp only [step, Option.map_eq_some_iff] at h
      obtain ⟨r, hr, h⟩ := h
      subst h
      exact causeInv_reader hinv hr

/-! ## Runs -/

/-- The loop past the limit leaves the reader's side alone, but for the end of the channel. -/
theorem drain_reader (ho : s.overflowed = true) {s' : Pumped} (h : s.on_frame = some s') :
    s'.overflowed = true ∧ s'.reader.terminal_error = s.reader.terminal_error ∧
      s'.reader.returned = s.reader.returned := by
  unfold on_frame at h
  split at h
  · rw [Option.some.injEq] at h
    rw [← h]
    exact ⟨ho, rfl, rfl⟩
  · cases h
  · dsimp only at h
    rw [if_pos ho, Option.some.injEq] at h
    rw [← h]
    exact ⟨ho, rfl, rfl⟩
  · rw [Option.some.injEq] at h
    rw [← h]
    exact ⟨ho, rfl, rfl⟩
  · dsimp only at h
    rw [if_pos ho, Option.some.injEq] at h
    rw [← h]
    exact ⟨ho, rfl, rfl⟩

/-- Once something has gone wrong, nothing is recorded any more. -/
theorem keeps_step {e : CoreError} {a : PumpLabel} {s' : Pumped} (hinv : CauseInv frames max_bytes s)
    (hwrong : s.overflowed = true ∨ s.pump = .stopped) (hkeeps : Keeps e s) (hok : Guarded s a)
    (h : s.step a = some s') : (s'.overflowed = true ∨ s'.pump = .stopped) ∧ Keeps e s' := by
  have hover (hne : s.pump ≠ .stopped) : s.overflowed = true := by
    rcases hwrong with ho | hstopped
    · exact ho
    · exact absurd hstopped hne
  have hidle {chunk : Bytes} (hp : s.pump = .sending chunk) : False := by
    have hwaits := (hinv.is_over (hover (by rw [hp]; simp))).2
    rw [hp] at hwaits
    simp at hwaits
  cases a with
  | frame =>
      simp only [step, Option.ite_none_right_eq_some] at h
      obtain ⟨hp, h⟩ := h
      obtain ⟨ho, hcell, hreturned⟩ := drain_reader (hover (by rw [hp]; simp)) h
      rw [Keeps, hcell, hreturned]
      exact ⟨Or.inl ho, hkeeps⟩
  | frame_timeout =>
      simp only [step, Option.ite_none_right_eq_some] at h
      have ho := hok.timeout rfl h.1
      rw [hover (by rw [h.1]; simp)] at ho
      cases ho
  | send =>
      cases hp : s.pump with
      | sending chunk => exact (hidle hp).elim
      | awaiting => simp only [step, hp, reduceCtorEq] at h
      | stopped => simp only [step, hp, reduceCtorEq] at h
  | drain_timeout =>
      cases hp : s.pump with
      | sending chunk => exact (hidle hp).elim
      | awaiting => simp only [step, hp, reduceCtorEq] at h
      | stopped => simp only [step, hp, reduceCtorEq] at h
  | reader a =>
      simp only [step, Option.map_eq_some_iff] at h
      obtain ⟨r, hr, rfl⟩ := h
      refine ⟨hwrong, ?_⟩
      rcases BodyReader.step_terminal hr with ⟨hcell, hkept, -⟩ | ⟨e', he', hcell, hreturned⟩
      · rcases hkeeps with he | ⟨hnone, he⟩
        · exact Or.inl (hcell.trans he)
        · exact Or.inr ⟨hcell.trans hnone, hkept e he⟩
      · -- what is taken is what was recorded
        rcases hkeeps with he | ⟨hnone, he⟩
        · rw [he, Option.some.injEq] at he'
          refine Or.inr ⟨hcell, ?_⟩
          dsimp only
          rw [hreturned, he']
          exact List.mem_append_right _ List.mem_cons_self
        · rw [hnone] at he'
          cases he'

/-- A step outside the guard leaves a false account. -/
theorem names_not_of_unguarded {a : PumpLabel} (hinv : CauseInv frames max_bytes s)
    (h : ¬ Guarded s a) : ∃ s', s.step a = some s' ∧ ¬ NamesCause frames max_bytes s' := by
  -- the two ways past the guard: a timeout over an overflow, and a count that saturates
  by_cases htimeout : a = .frame_timeout ∧ s.pump = .awaiting ∧ s.overflowed = true
  · obtain ⟨rfl, hp, ho⟩ := htimeout
    refine ⟨(s.abort (CoreError.timeout "body frame read timed out")).stop, ?_, fun hnames => ?_⟩
    · simp only [step, hp, if_true]
    · have hcode := (hnames.recorded _ rfl).mpr (Or.inl (hinv.is_over ho).1)
      cases hcode
  · have hcount : a = .frame ∧ s.pump = .awaiting ∧ s.overflowed = false ∧ Saturates s := by
      by_contra hno
      apply h
      refine ⟨?_, ?_⟩
      · intro ha hp
        rw [← Bool.not_eq_true]
        exact fun ho => htimeout ⟨ha, hp, ho⟩
      · exact fun ha hp ho hsat => hno ⟨ha, hp, ho, hsat⟩
    obtain ⟨rfl, hp, ho, bytes, rest, hbody, hmax, hpast⟩ := hcount
    have hclean := hinv.clean ho (by rw [hp]; simp)
    -- a saturated total is not above the largest limit, so the frame is sent on
    have hno : ¬ usize.MAX < usize.saturating_add s.total bytes.length := by
      rw [usize.saturating_add]
      omega
    refine ⟨({ s with body := rest, total := usize.saturating_add s.total bytes.length } : Pumped).send_chunk
      bytes, ?_, fun hnames => ?_⟩
    · simp only [step, hp, if_true, on_frame, hbody, ho, Bool.false_eq_true, if_false, on_data, hmax,
        hno]
    · have hfields := send_chunk_fields { s with
        body := rest, total := usize.saturating_add s.total bytes.length } bytes
      obtain ⟨hnow, -⟩ := consumed_frame (({ s with
        body := rest, total := usize.saturating_add s.total bytes.length } : Pumped).send_chunk bytes)
        hinv.split hbody hfields.2.1
      have hfailed : ∀ f ∈ s.consumed frames ++ [BodyFrame.data bytes], f.is_error = false := by
        intro f hf
        rcases List.mem_append.mp hf with hf | hf
        · exact hclean.unfailed f hf
        · rw [List.mem_singleton.mp hf]
          rfl
      have hexceeds : Exceeds max_bytes (s.consumed frames ++ [.data bytes]) := by
        refine ⟨usize.MAX, hinv.config.symm.trans hmax, ?_⟩
        have hsum := hclean.total
        have hlength : (data_of (s.consumed frames ++ [.data bytes])).flatten.length
            = (data_of (s.consumed frames)).flatten.length + bytes.length := by
          rw [data_of_append, List.flatten_append, List.length_append]
          simp [data_of]
        rw [bytes_clean hfailed, hlength]
        omega
      have hlarge := hnames.reported
      rw [hnow] at hlarge
      obtain ⟨e, hcode, hreported⟩ := hlarge (Or.inl hexceeds)
      have hcell : (({ s with
          body := rest, total := usize.saturating_add s.total bytes.length } : Pumped).send_chunk
            bytes).reader.terminal_error = s.reader.terminal_error ∧
          (({ s with body := rest, total := usize.saturating_add s.total bytes.length } : Pumped).send_chunk
            bytes).reader.returned = s.reader.returned := by
        unfold send_chunk
        split
        · exact ⟨rfl, rfl⟩
        · split
          · exact ⟨rfl, rfl⟩
          · exact ⟨rfl, rfl⟩
      rw [hcell.1, hcell.2, hclean.unrecorded] at hreported
      rcases hreported with hno | hreturned
      · cases hno
      · exact hclean.unreceived hinv.names hreturned hcode

end

/-- **The first cause is named** in every state of a run, and kept, if and only if no step of the run
is outside the guard. -/
theorem first_cause_iff (frames : List BodyFrame) (max_bytes : Option ℕ) (overflow_tx : Bool)
    (handle capacity : ℕ) (schedule : List PumpLabel)
    (husize : ∀ limit, max_bytes = some limit → limit ≤ usize.MAX) :
    FirstCause frames max_bytes (start frames max_bytes overflow_tx handle capacity) schedule ↔
      Machine.Along step Guarded (start frames max_bytes overflow_tx handle capacity) schedule := by
  have hstart := causeInv_start frames max_bytes overflow_tx handle capacity
  have hstep : ∀ s a s', CauseInv frames max_bytes s → Guarded s a → s.step a = some s' →
      CauseInv frames max_bytes s' := fun s a s' hinv hok h => causeInv_step husize hinv hok h
  constructor
  · intro h
    rw [Machine.along_iff_forall_prefix hstep (fun s hinv => hinv.names)
      (fun s a hinv hbad => names_not_of_unguarded hinv hbad) hstart]
    exact fun n t hrun => (h n t hrun).1
  · intro hok n t hrun
    have hinv := Machine.along_invariant_take hstep hstart hok hrun
    refine ⟨hinv.names, ?_⟩
    intro e he m u hnm hlater
    -- the steps between the two states
    have hsplit : schedule.take m = schedule.take n ++ (schedule.take m).drop n := by
      have heq := List.take_append_drop n (schedule.take m)
      rw [List.take_take, Nat.min_eq_left hnm] at heq
      exact heq.symm
    have hokm : Machine.Along step Guarded (start frames max_bytes overflow_tx handle capacity)
        (schedule.take m) := by
      rw [← List.take_append_drop m schedule] at hok
      exact (Machine.along_append.mp hok).1
    rw [hsplit] at hokm hlater
    rw [Machine.run_append hrun] at hlater
    have hwrong : t.overflowed = true ∨ t.pump = .stopped := by
      by_contra hno
      rw [not_or, Bool.not_eq_true] at hno
      rw [(hinv.clean hno.1 hno.2).unrecorded] at he
      cases he
    have hlast := Machine.along_invariant
      (P := fun s => CauseInv frames max_bytes s ∧ (s.overflowed = true ∨ s.pump = .stopped) ∧ Keeps e s)
      (fun s a s' hs hg h => ⟨hstep s a s' hs.1 hg h, keeps_step hs.1 hs.2.1 hs.2.2 hg h⟩)
      ⟨hinv, hwrong, Or.inl he⟩ ((Machine.along_append.mp hokm).2 t hrun) hlater
    exact hlast.2.2

/-- A body past its limit whose next frame does not come: the timeout is what is reported. -/
theorem timeout_replaces_too_large :
    ¬ ∀ (frames : List BodyFrame) (max_bytes : Option ℕ) (overflow_tx : Bool) (handle capacity : ℕ)
      (schedule : List PumpLabel), (∀ limit, max_bytes = some limit → limit ≤ usize.MAX) →
      FirstCause frames max_bytes (start frames max_bytes overflow_tx handle capacity) schedule := by
  intro h
  have hfirst := h [.data [1, 2], .stall] (some 1) false 1 1 [.frame, .frame_timeout]
    (fun limit hlimit => by rw [← Option.some.inj hlimit]; decide)
  obtain ⟨hnames, -⟩ := hfirst 2 _ rfl
  have hcode := (hnames.recorded _ rfl).mpr (Or.inl ⟨1, rfl, by decide⟩)
  cases hcode

/-- The same body with an error in place of the stall. -/
theorem first_cause_kept_on_reset :
    FirstCause [.data [1, 2], .error false "reset"] (some 1)
        (start [.data [1, 2], .error false "reset"] (some 1) false 1 1) [.frame, .frame] ∧
      (Machine.run step (start [.data [1, 2], .error false "reset"] (some 1) false 1 1)
        [.frame, .frame]).map (fun s => s.reader.terminal_error.map CoreError.code)
        = some (some .BodyTooLarge) := by
  refine ⟨(first_cause_iff _ _ _ _ _ _ ?_).mpr ?_, by decide⟩
  · intro limit hlimit
    rw [← Option.some.inj hlimit]
    decide
  · have hfar : ∀ s : Pumped, s.max_bytes = some 1 → ¬ Saturates s := by
      rintro s hone ⟨bytes, rest, -, hmax, -⟩
      rw [hone] at hmax
      revert hmax
      decide
    refine ⟨⟨fun hno => (by cases hno), fun _ _ _ => hfar _ rfl⟩, ?_⟩
    rintro t ⟨⟩
    exact ⟨⟨fun hno => (by cases hno), fun _ _ _ => hfar _ rfl⟩, fun _ _ => trivial⟩

end Pumped

end IrohHttp.Body
