/-
The options of an endpoint in their two layers: `coerce_endpoint_options` of
`iroh-http-adapter/src/lib.rs`, and what `IrohEndpoint::bind` makes of them
(`iroh-http-core/src/endpoint/bind.rs`): the configuration of the handle store, and the
interval of the sweep task.

Tokio asserts on a channel without room, on one larger than its semaphore, and on an
interval of zero. `bind` raises the capacity and the chunk size to one. It takes the
interval as it comes, and so it does the capacity at its upper end, which no layer bounds.
It refuses a compression level outside zstd's range, which the coercion lets through, and a
header limit of zero; what else it refuses is about options that are not modelled.
-/
import IrohHttp.Handles
import IrohHttp.ServeOptions

set_option autoImplicit false

namespace IrohHttp.Endpoint

open IrohHttp.Serve hiding DEFAULT_DRAIN_TIMEOUT_MS
open IrohHttp.Handles
open IrohHttp.Shared (AdapterInputError)

/-! ## The adapter -/

/-- The largest header that the adapters accept. -/
def MAX_HEADER_BYTES : ℕ := 1048576

/-- Raw endpoint numeric knobs decoded from a platform FFI call. -/
structure RawEndpointOptions where
  idle_timeout_ms : Option F64 := none
  pool_idle_timeout_ms : Option F64 := none
  handle_ttl_ms : Option F64 := none
  sweep_interval_ms : Option F64 := none
  max_header_bytes : Option F64 := none
  compression_level : Option ℤ := none
  deriving DecidableEq

/-- Endpoint numeric knobs, validated and coerced. -/
structure EndpointOptions where
  idle_timeout_ms : Option ℕ := none
  pool_idle_timeout_ms : Option ℕ := none
  handle_ttl_ms : Option ℕ := none
  sweep_interval_ms : Option ℕ := none
  max_header_bytes : Option ℕ := none
  compression_level : Option ℕ := none
  deriving DecidableEq, Repr

/-- `validate_compression_level` -/
def validate_compression_level (level : ℤ) : Except AdapterInputError ℕ :=
  if level < 0 then .error (.InvalidArgument "compressionLevel" s!"must be non-negative, got {level}")
  else .ok level.toNat

/-- `raw.compression_level.map(validate_compression_level).transpose()` -/
def transpose_level (o : Option ℤ) : Except AdapterInputError (Option ℕ) :=
  match o with
  | none => .ok none
  | some level => (validate_compression_level level).map some

/-- `coerce_endpoint_options`: field by field, and the first error fails the call. -/
def coerce_endpoint_options (display : F64 → String) (raw : RawEndpointOptions) :
    Except AdapterInputError EndpointOptions := do
  let idle_timeout_ms ← Adapter.transpose raw.idle_timeout_ms fun v =>
    Adapter.safe_f64_to_u64 display v "idleTimeout" Adapter.MAX_TIMEOUT_MS
  let pool_idle_timeout_ms ← Adapter.transpose raw.pool_idle_timeout_ms fun v =>
    Adapter.safe_f64_to_u64 display v "poolIdleTimeoutMs" Adapter.MAX_TIMEOUT_MS
  let handle_ttl_ms ← Adapter.transpose raw.handle_ttl_ms fun v =>
    Adapter.safe_f64_to_u64 display v "handleTtl" Adapter.MAX_TIMEOUT_MS
  let sweep_interval_ms ← Adapter.transpose raw.sweep_interval_ms fun v =>
    Adapter.safe_f64_to_u64 display v "sweepInterval" Adapter.MAX_TIMEOUT_MS
  let max_header_bytes ← Adapter.transpose raw.max_header_bytes fun v =>
    Adapter.safe_f64_to_usize display v "maxHeaderBytes" MAX_HEADER_BYTES
  let compression_level ← transpose_level raw.compression_level
  return { idle_timeout_ms, pool_idle_timeout_ms, handle_ttl_ms, sweep_interval_ms,
           max_header_bytes, compression_level }

/-! ## The core -/

/-- Body-streaming and handle-store configuration. -/
structure StreamingOptions where
  channel_capacity : Option ℕ := none
  max_chunk_size_bytes : Option ℕ := none
  drain_timeout_ms : Option ℕ := none
  handle_ttl_ms : Option ℕ := none
  sweep_interval_ms : Option ℕ := none
  deriving DecidableEq, Repr

/-- What `bind` reads of its options for the store and the sweep task, and what it checks of them
itself. -/
structure NodeOptions where
  streaming : StreamingOptions := {}
  max_header_size : Option ℕ := none
  compression : Option CompressionOptions := none
  deriving DecidableEq, Repr

/-- What `bind` hears of the options that are not modelled. They are looked at in two places:
the relay mode and the capabilities before the compression level, and the discovery URL, the bind
addresses and the proxy behind it, where Iroh binds its endpoint. -/
structure Networking where
  relay_mode : Except CoreError Unit := .ok ()
  endpoint : Except CoreError Unit := .ok ()

/-- One of the two is an error, and `bind` returns it. -/
def Networking.Refuses (networking : Networking) : Prop :=
  networking.relay_mode ≠ .ok () ∨ networking.endpoint ≠ .ok ()

/-- A minute. -/
def DEFAULT_SWEEP_INTERVAL_MS : ℕ := 60000

/-- The configuration of the handle store, with a capacity and a chunk size of one at least. -/
def store_config (streaming : StreamingOptions) : StoreConfig where
  channel_capacity := max (streaming.channel_capacity.getD DEFAULT_CHANNEL_CAPACITY) 1
  max_chunk_size := max (streaming.max_chunk_size_bytes.getD DEFAULT_MAX_CHUNK_SIZE) 1
  drain_timeout := Duration.from_millis (streaming.drain_timeout_ms.getD DEFAULT_DRAIN_TIMEOUT_MS)
  max_handles := DEFAULT_MAX_HANDLES
  ttl := Duration.from_millis (streaming.handle_ttl_ms.getD DEFAULT_SLAB_TTL_MS)

/-- The endpoint as far as its options make it. `sweep_task` is the interval of the task, where
there is one. -/
structure EndpointInner where
  handles : StoreConfig
  max_header_size : ℕ
  sweep_task : Option Duration

/-- The sweep task is started unless the time to live is zero. -/
def sweep_task (streaming : StreamingOptions) : Option Duration :=
  let sweep_ttl := (store_config streaming).ttl
  let sweep_interval :=
    Duration.from_millis (streaming.sweep_interval_ms.getD DEFAULT_SWEEP_INTERVAL_MS)
  if sweep_ttl = 0 then none else some sweep_interval

/-- The range of zstd. -/
def check_compression_level (compression : Option CompressionOptions) : Except CoreError Unit :=
  match compression.bind (·.level) with
  | some level =>
    if 1 ≤ level ∧ level ≤ 22 then .ok ()
    else .error (CoreError.invalid_input s!"compression level must be 1–22, got {level}")
  | none => .ok ()

/-- The limit of the headers, which must not be zero. -/
def header_limit (max_header_size : Option ℕ) : Except CoreError ℕ :=
  match max_header_size with
  | some 0 =>
    .error (CoreError.invalid_input "max_header_size must be > 0; use None for the default (65536)")
  | none => .ok (64 * 1024)
  | some n => .ok n

/-- `IrohEndpoint::bind` -/
def bind (networking : Networking) (opts : NodeOptions) : Except CoreError EndpointInner := do
  networking.relay_mode
  check_compression_level opts.compression
  networking.endpoint
  -- the store's configuration is read before the header limit is looked at, and fails on nothing
  let max_header_size ← header_limit opts.max_header_size
  return { handles := store_config opts.streaming, max_header_size,
           sweep_task := sweep_task opts.streaming }

/-! ## What Tokio asserts -/

/-- A panic, with its message. -/
structure Panic where
  message : String
  deriving DecidableEq, Repr

/-- A channel that was made. -/
structure BodyChannel where
  capacity : ℕ
  drain_timeout : Duration
  deriving DecidableEq, Repr

/-- `mpsc::channel`, whose buffer is a semaphore. -/
def mpsc_channel (buffer : ℕ) : Except Panic ℕ :=
  if buffer = 0 then .error ⟨"mpsc bounded channel requires buffer > 0"⟩
  else if MAX_PERMITS < buffer then
    .error ⟨s!"a semaphore may not have more than MAX_PERMITS permits ({MAX_PERMITS})"⟩
  else .ok buffer

/-- `time::interval` -/
def interval (period : Duration) : Except Panic Duration :=
  if period = 0 then .error ⟨"`period` must be non-zero."⟩ else .ok period

/-- `make_body_channel_with` -/
def make_body_channel_with (capacity : ℕ) (drain_timeout : Duration) :
    Except Panic BodyChannel := do
  let capacity ← mpsc_channel capacity
  return { capacity, drain_timeout }

/-- `HandleStore::make_body_channel` -/
def EndpointInner.make_body_channel (inner : EndpointInner) : Except Panic BodyChannel :=
  make_body_channel_with inner.handles.channel_capacity inner.handles.drain_timeout

/-- The first statement of the sweep task. -/
def EndpointInner.sweep_ticker (inner : EndpointInner) : Except Panic (Option Duration) :=
  match inner.sweep_task with
  | none => .ok none
  | some sweep_interval => (interval sweep_interval).map some

/-! ## A call of the adapter -/

/-- What `create_endpoint` brings: the record that is coerced, and what goes past it. -/
structure CreateEndpointArgs where
  raw : RawEndpointOptions := {}
  channel_capacity : Option ℕ := none
  max_chunk_size_bytes : Option ℕ := none
  compression_min_body_bytes : Option ℕ := none
  deriving DecidableEq

/-- The least body that is compressed. -/
def DEFAULT_MIN_BODY_BYTES : ℕ := 1024

/-- Compression is switched on by either of its two options. -/
def compression_options (args : CreateEndpointArgs) (endpoint : EndpointOptions) :
    Option CompressionOptions :=
  if args.compression_min_body_bytes.isSome || args.raw.compression_level.isSome then
    some { min_body_bytes := args.compression_min_body_bytes.getD DEFAULT_MIN_BODY_BYTES
           level := endpoint.compression_level }
  else none

/-- The options that the three adapters put together. -/
def node_options (args : CreateEndpointArgs) (endpoint : EndpointOptions) : NodeOptions where
  streaming :=
    { channel_capacity := args.channel_capacity
      max_chunk_size_bytes := args.max_chunk_size_bytes
      drain_timeout_ms := none
      handle_ttl_ms := endpoint.handle_ttl_ms
      sweep_interval_ms := endpoint.sweep_interval_ms }
  max_header_size := endpoint.max_header_bytes
  compression := compression_options args endpoint

/-! ## What the configuration promises -/

/-- No precondition of Tokio fails on the endpoint. -/
structure Safe (inner : EndpointInner) : Prop where
  capacity : 1 ≤ inner.handles.channel_capacity ∧ inner.handles.channel_capacity ≤ MAX_PERMITS
  chunk_size : 1 ≤ inner.handles.max_chunk_size
  sweep : ∀ sweep_interval, inner.sweep_task = some sweep_interval → 0 < sweep_interval
  channel : ∀ panic, inner.make_body_channel ≠ .error panic
  ticker : ∀ panic, inner.sweep_ticker ≠ .error panic

theorem mpsc_channel_ok {buffer : ℕ} (hpos : 1 ≤ buffer) (hle : buffer ≤ MAX_PERMITS) :
    mpsc_channel buffer = .ok buffer := by
  rw [mpsc_channel, if_neg (Nat.ne_of_gt hpos), if_neg (Nat.not_lt.mpr hle)]

theorem safe_iff (inner : EndpointInner) : Safe inner ↔
    (1 ≤ inner.handles.channel_capacity ∧ inner.handles.channel_capacity ≤ MAX_PERMITS) ∧
      1 ≤ inner.handles.max_chunk_size ∧ inner.sweep_task ≠ some 0 := by
  constructor
  · intro h
    exact ⟨h.capacity, h.chunk_size, fun hno => absurd (h.sweep 0 hno) (Nat.lt_irrefl 0)⟩
  · rintro ⟨hcapacity, hchunk, hsweep⟩
    have hpos : ∀ sweep_interval, inner.sweep_task = some sweep_interval → 0 < sweep_interval := by
      intro sweep_interval htask
      apply Nat.pos_of_ne_zero
      rintro rfl
      exact hsweep htask
    refine { capacity := hcapacity, chunk_size := hchunk, sweep := hpos, channel := ?_, ticker := ?_ }
    · intro panic hpanic
      rw [EndpointInner.make_body_channel, make_body_channel_with,
        mpsc_channel_ok hcapacity.1 hcapacity.2] at hpanic
      cases hpanic
    · intro panic hpanic
      rw [EndpointInner.sweep_ticker] at hpanic
      cases htask : inner.sweep_task with
      | none =>
          rw [htask] at hpanic
          cases hpanic
      | some sweep_interval =>
          have hne := Nat.ne_of_gt (hpos sweep_interval htask)
          simp only [htask, interval, if_neg hne] at hpanic
          cases hpanic

theorem capacity_permitted (o : Option ℕ) :
    max (o.getD DEFAULT_CHANNEL_CAPACITY) 1 ≤ MAX_PERMITS ↔ ∀ c, o = some c → c ≤ MAX_PERMITS := by
  have hone : 1 ≤ MAX_PERMITS := by decide
  cases o with
  | none => exact iff_of_true (by decide) fun c hno => by cases hno
  | some c =>
      rw [Option.getD_some, max_le_iff, and_iff_left hone]
      constructor
      · rintro hle d hd
        rw [← Option.some.inj hd]
        exact hle
      · exact fun hall => hall c rfl

/-- A duration of an option is zero where the option is. -/
theorem from_millis_getD (o : Option ℕ) {default : ℕ} (h : default ≠ 0) :
    Duration.from_millis (o.getD default) = 0 ↔ o = some 0 := by
  rw [from_millis_eq_zero]
  cases o with
  | none => exact iff_of_false h fun hno => by cases hno
  | some n => rw [Option.getD_some, Option.some.injEq]

theorem sweep_task_ne_zero (streaming : StreamingOptions) : sweep_task streaming ≠ some 0 ↔
    streaming.handle_ttl_ms = some 0 ∨ streaming.sweep_interval_ms ≠ some 0 := by
  have httl : (store_config streaming).ttl = 0 ↔ streaming.handle_ttl_ms = some 0 :=
    from_millis_getD _ (by decide)
  have hdefault : DEFAULT_SWEEP_INTERVAL_MS ≠ 0 := by decide
  have hinterval := from_millis_getD streaming.sweep_interval_ms hdefault
  unfold sweep_task
  by_cases hdisabled : (store_config streaming).ttl = 0
  · rw [if_pos hdisabled]
    exact iff_of_true (fun hno => by cases hno) (Or.inl (httl.mp hdisabled))
  · rw [if_neg hdisabled, or_iff_right fun hno => hdisabled (httl.mpr hno), ne_eq,
      Option.some.injEq, hinterval]

/-- What `bind` builds is safe under a condition on the options. -/
theorem store_config_safe (streaming : StreamingOptions) (max_header_size : ℕ) :
    Safe ⟨store_config streaming, max_header_size, sweep_task streaming⟩ ↔
      (∀ c, streaming.channel_capacity = some c → c ≤ MAX_PERMITS) ∧
        (streaming.handle_ttl_ms = some 0 ∨ streaming.sweep_interval_ms ≠ some 0) := by
  have hcapacity : 1 ≤ (store_config streaming).channel_capacity := Nat.le_max_right _ _
  have hchunk : 1 ≤ (store_config streaming).max_chunk_size := Nat.le_max_right _ _
  rw [safe_iff, and_iff_right hcapacity, and_iff_right hchunk, sweep_task_ne_zero,
    ← capacity_permitted]
  rfl

section

variable {display : F64 → String}

/-- What the coercion leaves of a zero, in the three options that `bind` looks at. -/
theorem coerced_zeroes {raw : RawEndpointOptions} {endpoint : EndpointOptions}
    (h : coerce_endpoint_options display raw = .ok endpoint) :
    (endpoint.handle_ttl_ms = some 0 ↔ raw.handle_ttl_ms = some (.finite 0)) ∧
      (endpoint.sweep_interval_ms = some 0 ↔ raw.sweep_interval_ms = some (.finite 0)) ∧
      (endpoint.max_header_bytes = some 0 ↔ raw.max_header_bytes = some (.finite 0)) := by
  simp only [coerce_endpoint_options, bind_eq_ok] at h
  obtain ⟨_, -, _, -, _, hhandle_ttl, _, hsweep_interval, _, hmax_header, _, -, hendpoint⟩ := h
  cases hendpoint
  exact ⟨(transpose_eq_ok (by decide) hhandle_ttl).2, (transpose_eq_ok (by decide) hsweep_interval).2,
    (transpose_eq_ok (by decide) hmax_header).2⟩

/-- A level that was given is not negative, and arrives as it is. -/
theorem transpose_level_eq_ok {o : Option ℤ} {r : Option ℕ} (h : transpose_level o = .ok r) :
    o = r.map Int.ofNat := by
  cases o with
  | none =>
      cases h
      rfl
  | some level =>
      rw [transpose_level, validate_compression_level] at h
      by_cases hneg : level < 0
      · rw [if_pos hneg] at h
        cases h
      · rw [if_neg hneg] at h
        cases h
        exact congrArg some (Int.toNat_of_nonneg (not_lt.mp hneg)).symm

/-- The level that the caller gave is none of zstd's. -/
def LevelRefused (level : Option ℤ) : Prop := ∃ l, level = some l ∧ ¬ (1 ≤ l ∧ l ≤ 22)

/-- Whichever option switches compression on, it is the given level that `bind` looks at. -/
theorem check_compression_level_iff (args : CreateEndpointArgs) {endpoint : EndpointOptions}
    (h : coerce_endpoint_options display args.raw = .ok endpoint) :
    check_compression_level (compression_options args endpoint) = .ok () ↔
      ¬ LevelRefused args.raw.compression_level := by
  simp only [coerce_endpoint_options, bind_eq_ok] at h
  obtain ⟨_, -, _, -, _, -, _, -, _, -, level, htransposed, hendpoint⟩ := h
  cases hendpoint
  have hlevel := transpose_level_eq_ok htransposed
  rw [LevelRefused, compression_options, hlevel]
  cases level with
  | none =>
      refine iff_of_true ?_ (fun ⟨l, hno, _⟩ => by cases hno)
      cases args.compression_min_body_bytes with
      | none => rfl
      | some min_body_bytes => rfl
  | some n =>
      rw [Option.map_some, Option.isSome_some, Bool.or_true, if_pos rfl, check_compression_level,
        Option.bind_some]
      simp only [Option.some.injEq, exists_eq_left', not_not]
      have hcast : (1 ≤ Int.ofNat n ∧ Int.ofNat n ≤ 22) ↔ 1 ≤ n ∧ n ≤ 22 := by
        rw [Int.ofNat_eq_natCast]
        omega
      rw [hcast]
      by_cases hrange : 1 ≤ n ∧ n ≤ 22
      · exact iff_of_true (if_pos hrange) hrange
      · rw [if_neg hrange]
        exact iff_of_false (fun hno => by cases hno) hrange

theorem header_limit_eq_error (max_header_size : Option ℕ) :
    (∃ e, header_limit max_header_size = .error e) ↔ max_header_size = some 0 := by
  cases max_header_size with
  | none => exact iff_of_false (fun ⟨_, hno⟩ => by cases hno) (fun hno => by cases hno)
  | some n =>
      cases n with
      | zero => exact iff_of_true ⟨_, rfl⟩ rfl
      | succ n => exact iff_of_false (fun ⟨_, hno⟩ => by cases hno) (fun hno => by cases hno)

/-- What `bind` refuses, and what it builds otherwise. -/
theorem bind_eq_ok_iff {networking : Networking} {opts : NodeOptions} {inner : EndpointInner} :
    bind networking opts = .ok inner ↔
      ¬ networking.Refuses ∧ check_compression_level opts.compression = .ok () ∧
        ∃ max_header_size, header_limit opts.max_header_size = .ok max_header_size ∧
          (⟨store_config opts.streaming, max_header_size, sweep_task opts.streaming⟩ : EndpointInner)
            = inner := by
  simp only [bind, bind_eq_ok, Networking.Refuses, not_or, not_not]
  constructor
  · rintro ⟨_, hrelay, _, hlevel, _, hendpoint, max_header_size, hlimit, hinner⟩
    exact ⟨⟨hrelay, hendpoint⟩, hlevel, max_header_size, hlimit, Except.ok.inj hinner⟩
  · rintro ⟨⟨hrelay, hendpoint⟩, hlevel, max_header_size, hlimit, rfl⟩
    exact ⟨(), hrelay, (), hlevel, (), hendpoint, max_header_size, hlimit, rfl⟩

/-- A property of what `bind` builds that does not look at the header limit: `bind` refuses, or
the options have it. -/
theorem forall_bind_iff (networking : Networking) {opts : NodeOptions} {P : EndpointInner → Prop}
    {Q : Prop}
    (h : ∀ max_header_size,
      P ⟨store_config opts.streaming, max_header_size, sweep_task opts.streaming⟩ ↔ Q) :
    (∀ inner, bind networking opts = .ok inner → P inner) ↔
      networking.Refuses ∨ check_compression_level opts.compression ≠ .ok () ∨
        opts.max_header_size = some 0 ∨ Q := by
  constructor
  · intro hall
    by_contra hno
    simp only [not_or, not_not] at hno
    obtain ⟨hnetworking, hlevel, hheader, hQ⟩ := hno
    rw [← header_limit_eq_error] at hheader
    cases hlimit : header_limit opts.max_header_size with
    | error e => exact hheader ⟨e, hlimit⟩
    | ok max_header_size =>
        have hbind := bind_eq_ok_iff.mpr ⟨hnetworking, hlevel, max_header_size, hlimit, rfl⟩
        exact hQ ((h max_header_size).mp (hall _ hbind))
  · intro hcases inner hinner
    obtain ⟨hnetworking, hlevel, max_header_size, hlimit, rfl⟩ := bind_eq_ok_iff.mp hinner
    rcases hcases with hrefuses | hlevel_refused | hzero | hQ
    · exact absurd hrefuses hnetworking
    · exact absurd hlevel hlevel_refused
    · obtain ⟨e, herror⟩ := (header_limit_eq_error _).mpr hzero
      rw [hlimit] at herror
      cases herror
    · exact (h max_header_size).mpr hQ

/-- **No accepted options make Tokio panic**, unless `bind` gets to its end and the capacity is
larger than Tokio's semaphore, or there is a sweep and its interval is zero. -/
theorem endpoint_options_safe_iff (networking : Networking) (args : CreateEndpointArgs)
    {endpoint : EndpointOptions}
    (h : coerce_endpoint_options display args.raw = .ok endpoint) :
    (∀ inner, bind networking (node_options args endpoint) = .ok inner → Safe inner) ↔
      networking.Refuses ∨ LevelRefused args.raw.compression_level ∨
        args.raw.max_header_bytes = some (.finite 0) ∨
        (∀ c, args.channel_capacity = some c → c ≤ MAX_PERMITS) ∧
          (args.raw.handle_ttl_ms = some (.finite 0) ∨
            args.raw.sweep_interval_ms ≠ some (.finite 0)) := by
  obtain ⟨hhandle_ttl, hsweep_interval, hmax_header⟩ := coerced_zeroes h
  have hsafe := forall_bind_iff networking fun max_header_size =>
    store_config_safe (node_options args endpoint).streaming max_header_size
  have hlevel : check_compression_level (node_options args endpoint).compression ≠ .ok () ↔
      LevelRefused args.raw.compression_level :=
    (not_congr (check_compression_level_iff args h)).trans not_not
  rw [hsafe]
  exact or_congr_right (or_congr hlevel (or_congr hmax_header
    (and_congr_right' (or_congr hhandle_ttl (not_congr hsweep_interval)))))

end

/-- A sweep interval of nothing, and all else left to its default. -/
def zero_sweep_interval : CreateEndpointArgs := { raw := { sweep_interval_ms := some (.finite 0) } }

/-- An interval of zero is accepted, and the sweep task panics on it. -/
theorem zero_sweep_interval_panics :
    ¬ ∀ (display : F64 → String) (networking : Networking) (args : CreateEndpointArgs)
      (endpoint : EndpointOptions),
      coerce_endpoint_options display args.raw = .ok endpoint →
        ∀ inner, bind networking (node_options args endpoint) = .ok inner → Safe inner := by
  intro h
  have hcoerced : coerce_endpoint_options (fun _ => "") zero_sweep_interval.raw
      = .ok { sweep_interval_ms := some 0 } := by decide
  have hsafe := h (fun _ => "") {} zero_sweep_interval _ hcoerced _ rfl
  exact hsafe.ticker ⟨"`period` must be non-zero."⟩ (by decide)

/-- Options that differ from their defaults, with a chunk size of zero. -/
def tuned_endpoint : CreateEndpointArgs :=
  { raw := { handle_ttl_ms := some (.finite 120000), sweep_interval_ms := some (.finite 30000),
             max_header_bytes := some (.finite 32768), compression_level := some 3 }
    channel_capacity := some 64
    max_chunk_size_bytes := some 0 }

/-- An endpoint with a level, a sweep every thirty seconds, and a chunk size that `bind` raises. -/
theorem tuned_endpoint_safe :
    ∃ inner, bind {} (node_options tuned_endpoint
        { handle_ttl_ms := some 120000, sweep_interval_ms := some 30000,
          max_header_bytes := some 32768, compression_level := some 3 }) = .ok inner ∧
      inner.handles.channel_capacity = 64 ∧ inner.handles.max_chunk_size = 1 ∧
      inner.sweep_task = some (Duration.from_millis 30000) ∧ Safe inner := by
  have hcoerced : coerce_endpoint_options (fun _ => "") tuned_endpoint.raw
      = .ok { handle_ttl_ms := some 120000, sweep_interval_ms := some 30000,
              max_header_bytes := some 32768, compression_level := some 3 } := by decide +kernel
  have hcapacity : ∀ c, tuned_endpoint.channel_capacity = some c → c ≤ MAX_PERMITS := by
    intro c hc
    rw [← Option.some.inj hc]
    decide
  refine ⟨_, rfl, rfl, rfl, rfl, ?_⟩
  exact (endpoint_options_safe_iff {} tuned_endpoint hcoerced).mpr
    (.inr (.inr (.inr ⟨hcapacity, .inr (by decide)⟩))) _ rfl

end IrohHttp.Endpoint
