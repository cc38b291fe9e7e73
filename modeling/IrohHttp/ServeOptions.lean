/-
The options of a server in their three layers: `coerce_serve_options` of
`iroh-http-adapter/src/lib.rs`, the defaults of `serve_with_events`
(`iroh-http-core/src/http/server/mod.rs`) and `ConnectionServeOptions::validate`
(`http/server/connection.rs`), which the accept loop runs first (`http/server/accept.rs`).

Zero switches a timeout off on the way, but a limit of zero connections goes through to the
check. There the loop ends; the call that started it has returned a handle.
-/
import IrohHttp.Binary64
import IrohHttp.ServeCallback
import Mathlib.Data.Rat.Floor

set_option autoImplicit false

namespace IrohHttp.Serve

open IrohHttp.Shared (AdapterInputError)

/-! ## The adapter -/

/-- A number of JavaScript; the two zeroes are one. -/
inductive F64
  | nan
  | infinite (negative : Bool)
  | finite (value : ℚ)
  deriving DecidableEq

namespace Adapter

/-- `MAX_TIMEOUT_MS`. -/
def MAX_TIMEOUT_MS : ℕ := 300000

/-- `MAX_SERVE_TIMEOUT_MS`. -/
def MAX_SERVE_TIMEOUT_MS : ℕ := 86400000

/-- `MAX_BODY_BYTES`. -/
def MAX_BODY_BYTES : ℕ := 256 * 1024 * 1024

/-- `MAX_TOTAL_CONNECTIONS`. -/
def MAX_TOTAL_CONNECTIONS : ℕ := 100000

/-- `value as u64` of a number that is not negative. -/
def as_u64 (value : ℚ) : ℕ := min value.floor.toNat (2 ^ 64 - 1)

/-- The checks of `safe_f64_to_u64` and `safe_f64_to_usize`; `display` is the text of `{value}`. -/
def safe_f64 (display : F64 → String) (value : F64) (field : String) (max : ℕ) :
    Except AdapterInputError ℕ :=
  let not_finite :=
    .error (.InvalidArgument field ("expected a non-negative finite number, got " ++ display value))
  match value with
  | .nan => not_finite
  | .infinite _ => not_finite
  | .finite q =>
    if q < 0 then not_finite
    else if q.den ≠ 1 then .error (.InvalidArgument field "must be an integer")
    else if (Binary64.round Binary64.PRECISION max : ℚ) < q then
      .error (.InvalidArgument field s!"must be <= {max}")
    else .ok (as_u64 q)

/-- `safe_f64_to_u64`. -/
def safe_f64_to_u64 (display : F64 → String) (value : F64) (field : String) (max : ℕ) :
    Except AdapterInputError ℕ := safe_f64 display value field max

/-- `safe_f64_to_usize`, on a 64-bit target. -/
def safe_f64_to_usize (display : F64 → String) (value : F64) (field : String) (max : ℕ) :
    Except AdapterInputError ℕ := safe_f64 display value field max

/-- `o.map(check).transpose()` -/
def transpose {α : Type} (o : Option F64) (check : F64 → Except AdapterInputError α) :
    Except AdapterInputError (Option α) :=
  match o with
  | none => .ok none
  | some v => (check v).map some

/-- Raw serve numeric knobs decoded from a platform FFI call. -/
structure RawServeOptions where
  request_timeout_ms : Option F64 := none
  request_head_timeout_ms : Option F64 := none
  body_idle_timeout_ms : Option F64 := none
  max_request_body_wire_bytes : Option F64 := none
  max_request_body_decoded_bytes : Option F64 := none
  max_total_connections : Option F64 := none
  drain_timeout_ms : Option F64 := none
  deriving DecidableEq

/-- Serve numeric knobs, validated and coerced. -/
structure ServeOptions where
  request_timeout_ms : Option ℕ := none
  request_head_timeout_ms : Option ℕ := none
  body_idle_timeout_ms : Option ℕ := none
  max_request_body_wire_bytes : Option ℕ := none
  max_request_body_decoded_bytes : Option ℕ := none
  max_total_connections : Option ℕ := none
  drain_timeout_ms : Option ℕ := none
  deriving DecidableEq, Repr

/-- `coerce_serve_options`: each field that is given is checked against its own maximum, in this
order. -/
def coerce_serve_options (display : F64 → String) (raw : RawServeOptions) :
    Except AdapterInputError ServeOptions := do
  let request_timeout_ms ← transpose raw.request_timeout_ms fun v =>
    safe_f64_to_u64 display v "requestTimeout" MAX_SERVE_TIMEOUT_MS
  let request_head_timeout_ms ← transpose raw.request_head_timeout_ms fun v =>
    safe_f64_to_u64 display v "requestHeadTimeout" MAX_SERVE_TIMEOUT_MS
  let body_idle_timeout_ms ← transpose raw.body_idle_timeout_ms fun v =>
    safe_f64_to_u64 display v "bodyIdleTimeout" MAX_SERVE_TIMEOUT_MS
  let max_request_body_wire_bytes ← transpose raw.max_request_body_wire_bytes fun v =>
    safe_f64_to_usize display v "maxRequestBodyWireBytes" MAX_BODY_BYTES
  let max_request_body_decoded_bytes ← transpose raw.max_request_body_decoded_bytes fun v =>
    safe_f64_to_usize display v "maxRequestBodyDecodedBytes" MAX_BODY_BYTES
  let max_total_connections ← transpose raw.max_total_connections fun v =>
    safe_f64_to_usize display v "maxTotalConnections" MAX_TOTAL_CONNECTIONS
  let drain_timeout_ms ← transpose raw.drain_timeout_ms fun v =>
    safe_f64_to_u64 display v "drainTimeout" MAX_TIMEOUT_MS
  return { request_timeout_ms, request_head_timeout_ms, body_idle_timeout_ms,
           max_request_body_wire_bytes, max_request_body_decoded_bytes, max_total_connections,
           drain_timeout_ms }

end Adapter

/-! ## The core -/

/-- Options for the HTTP serve loop. -/
structure ServeOptions where
  max_concurrency : Option ℕ := none
  request_timeout_ms : Option ℕ := none
  request_head_timeout_ms : Option ℕ := none
  body_idle_timeout_ms : Option ℕ := none
  connection_idle_timeout_ms : Option ℕ := none
  max_connections_per_peer : Option ℕ := none
  max_request_body_wire_bytes : Option ℕ := none
  max_request_body_decoded_bytes : Option ℕ := none
  drain_timeout_ms : Option ℕ := none
  max_total_connections : Option ℕ := none
  load_shed : Option Bool := none
  decompression : Option Bool := none
  deriving DecidableEq, Repr

/-- `DEFAULT_CONCURRENCY`. -/
def DEFAULT_CONCURRENCY : ℕ := 1024

/-- `DEFAULT_REQUEST_HEAD_TIMEOUT_MS`. -/
def DEFAULT_REQUEST_HEAD_TIMEOUT_MS : ℕ := 15000

/-- `DEFAULT_BODY_IDLE_TIMEOUT_MS`. -/
def DEFAULT_BODY_IDLE_TIMEOUT_MS : ℕ := 30000

/-- `DEFAULT_CONNECTION_IDLE_TIMEOUT_MS`. -/
def DEFAULT_CONNECTION_IDLE_TIMEOUT_MS : ℕ := 60000

/-- `DEFAULT_MAX_CONNECTIONS_PER_PEER`. -/
def DEFAULT_MAX_CONNECTIONS_PER_PEER : ℕ := 8

/-- `DEFAULT_MAX_TOTAL_CONNECTIONS`. -/
def DEFAULT_MAX_TOTAL_CONNECTIONS : ℕ := 1024

/-- `DEFAULT_DRAIN_TIMEOUT_MS`. -/
def DEFAULT_DRAIN_TIMEOUT_MS : ℕ := 30000

/-- `CompressionOptions`. -/
structure CompressionOptions where
  min_body_bytes : ℕ
  level : Option ℕ
  deriving DecidableEq, Repr

/-- Options for HTTP requests served on already-negotiated Iroh connections. -/
structure ConnectionServeOptions where
  max_connections_per_peer : ℕ := DEFAULT_MAX_CONNECTIONS_PER_PEER
  max_total_connections : ℕ := DEFAULT_MAX_TOTAL_CONNECTIONS
  connection_idle_timeout : Duration := Duration.from_millis DEFAULT_CONNECTION_IDLE_TIMEOUT_MS
  max_concurrency : ℕ := DEFAULT_CONCURRENCY
  request_timeout : Option Duration := none
  request_head_timeout : Option Duration := some (Duration.from_millis DEFAULT_REQUEST_HEAD_TIMEOUT_MS)
  body_idle_timeout : Option Duration := some (Duration.from_millis DEFAULT_BODY_IDLE_TIMEOUT_MS)
  max_request_body_wire_bytes : Option ℕ := none
  max_request_body_decoded_bytes : Option ℕ := none
  drain_timeout : Duration := Duration.from_millis DEFAULT_DRAIN_TIMEOUT_MS
  load_shed : Bool := true
  max_header_size : ℕ := 64 * 1024
  compression : Option CompressionOptions := none
  decompression : Bool := true
  deriving DecidableEq, Repr

/-- `ConnectionServeError`, as far as the options make it. -/
inductive ConnectionServeError
  | InvalidOptions (option reason : String)
  deriving DecidableEq, Repr

/-- The most permits of Tokio's semaphore. -/
def MAX_PERMITS : ℕ := usize.MAX / 8

/-- A check: the option is refused for the reason. -/
def refuse_if (p : Prop) [Decidable p] (option reason : String) :
    Except ConnectionServeError Unit :=
  if p then .error (.InvalidOptions option reason) else .ok ()

/-- The body of the loop over the three timeouts. -/
def validate_timeout (option : String) (timeout : Option Duration) :
    Except ConnectionServeError Unit :=
  refuse_if (timeout = some 0) option "must be greater than zero when enabled"

/-- `ConnectionServeOptions::validate`: the checks in the order the source makes them, each with the
field it names. -/
def ConnectionServeOptions.validate (self : ConnectionServeOptions) :
    Except ConnectionServeError Unit := do
  refuse_if (self.max_connections_per_peer = 0)
    "max_connections_per_peer" "must be greater than zero"
  refuse_if (self.max_total_connections = 0) "max_total_connections" "must be greater than zero"
  refuse_if (MAX_PERMITS < self.max_connections_per_peer)
    "max_connections_per_peer" "exceeds Tokio's supported admission limit"
  refuse_if (MAX_PERMITS < self.max_total_connections)
    "max_total_connections" "exceeds Tokio's supported admission limit"
  refuse_if (self.connection_idle_timeout = 0) "connection_idle_timeout" "must be greater than zero"
  validate_timeout "request_timeout" self.request_timeout
  validate_timeout "request_head_timeout" self.request_head_timeout
  validate_timeout "body_idle_timeout" self.body_idle_timeout
  refuse_if (self.max_concurrency = 0) "max_concurrency" "must be greater than zero"
  refuse_if (MAX_PERMITS < self.max_concurrency)
    "max_concurrency" "exceeds Tokio's semaphore permit limit"
  refuse_if (self.max_header_size ≠ 0 ∧ self.max_header_size < 8192)
    "max_header_size" "must be zero or at least Hyper's 8192-byte floor"

/-- What `serve_with_events` reads of the endpoint. -/
structure HttpSettings where
  max_header_size : ℕ
  compression : Option CompressionOptions
  deriving DecidableEq, Repr

/-- Zero milliseconds is no timeout. -/
def timeout_of (milliseconds : Option ℕ) (default : Option Duration) : Option Duration :=
  match milliseconds with
  | some 0 => none
  | some milliseconds => some (Duration.from_millis milliseconds)
  | none => default

/-- The configuration that `serve_with_events` hands to the accept loop. -/
def connection_options (endpoint : HttpSettings) (options : ServeOptions) :
    ConnectionServeOptions where
  max_connections_per_peer := options.max_connections_per_peer.getD DEFAULT_MAX_CONNECTIONS_PER_PEER
  max_total_connections := options.max_total_connections.getD DEFAULT_MAX_TOTAL_CONNECTIONS
  connection_idle_timeout :=
    Duration.from_millis (options.connection_idle_timeout_ms.getD DEFAULT_CONNECTION_IDLE_TIMEOUT_MS)
  max_concurrency := options.max_concurrency.getD DEFAULT_CONCURRENCY
  request_timeout := timeout_of options.request_timeout_ms none
  request_head_timeout := timeout_of options.request_head_timeout_ms
    (some (Duration.from_millis DEFAULT_REQUEST_HEAD_TIMEOUT_MS))
  body_idle_timeout := timeout_of options.body_idle_timeout_ms
    (some (Duration.from_millis DEFAULT_BODY_IDLE_TIMEOUT_MS))
  max_request_body_wire_bytes := options.max_request_body_wire_bytes
  max_request_body_decoded_bytes := options.max_request_body_decoded_bytes
  drain_timeout := Duration.from_millis (options.drain_timeout_ms.getD DEFAULT_DRAIN_TIMEOUT_MS)
  load_shed := options.load_shed.getD true
  max_header_size := max endpoint.max_header_size 8192
  compression := endpoint.compression
  decompression := options.decompression.getD true

/-- How the accept loop begins. -/
inductive AcceptLoop
  | accepting (connection : ConnectionServeOptions)
  /-- The error is logged and `done_tx` sent: the loop is over. -/
  | exited (error : ConnectionServeError)
  deriving DecidableEq, Repr

/-- The accept loop starts when its options validate, and exits with their error otherwise. -/
def accept_loop (connection : ConnectionServeOptions) : AcceptLoop :=
  match connection.validate with
  | .ok _ => .accepting connection
  | .error error => .exited error

/-- A handle is returned in any case. -/
def serve_with_events (endpoint : HttpSettings) (options : ServeOptions) : AcceptLoop :=
  accept_loop (connection_options endpoint options)

/-! ## A call of the adapter -/

/-- What a call of `serve` brings: the record that is coerced, and what goes past it. -/
structure ServeArgs where
  raw : Adapter.RawServeOptions := {}
  max_concurrency : Option ℕ := none
  max_connections_per_peer : Option ℕ := none
  load_shed : Option Bool := none
  decompress : Option Bool := none
  deriving DecidableEq

/-- The core's options, out of the raw arguments and the options coerced from them. An idle timeout
cannot be given here. -/
def serve_options (args : ServeArgs) (serve : Adapter.ServeOptions) : ServeOptions where
  max_concurrency := args.max_concurrency
  max_connections_per_peer := args.max_connections_per_peer
  request_timeout_ms := serve.request_timeout_ms
  request_head_timeout_ms := serve.request_head_timeout_ms
  body_idle_timeout_ms := serve.body_idle_timeout_ms
  connection_idle_timeout_ms := none
  max_request_body_wire_bytes := serve.max_request_body_wire_bytes
  max_request_body_decoded_bytes := serve.max_request_body_decoded_bytes
  max_total_connections := serve.max_total_connections
  drain_timeout_ms := serve.drain_timeout_ms
  load_shed := args.load_shed
  decompression := args.decompress

/-- `raw_serve` of the Node adapter, `serve_start` of the Deno adapter, `serve` of the Tauri plugin. -/
def raw_serve (display : F64 → String) (endpoint : HttpSettings) (args : ServeArgs) :
    Except AdapterInputError AcceptLoop := do
  let serve ← Adapter.coerce_serve_options display args.raw
  return serve_with_events endpoint (serve_options args serve)

/-! ## What the check accepts -/

section

variable {p : Prop} [Decidable p] {option reason : String}

theorem refuse_if_eq_ok : refuse_if p option reason = .ok () ↔ ¬ p := by
  rw [refuse_if]
  by_cases h : p
  · rw [if_pos h]
    exact iff_of_false (fun hno => by cases hno) fun hno => hno h
  · rw [if_neg h]
    exact iff_of_true rfl h

/-- A check, and what comes behind it. -/
theorem refuse_if_bind {x : Except ConnectionServeError Unit} :
    (refuse_if p option reason >>= fun _ => x) = .ok () ↔ ¬ p ∧ x = .ok () := by
  rw [refuse_if]
  by_cases h : p
  · rw [if_pos h]
    exact iff_of_false (fun hno => by cases hno) fun hno => hno.1 h
  · rw [if_neg h, and_iff_right h]
    rfl

end

/-- What `validate` asks of the options. -/
structure Valid (o : ConnectionServeOptions) : Prop where
  per_peer : 0 < o.max_connections_per_peer ∧ o.max_connections_per_peer ≤ MAX_PERMITS
  total : 0 < o.max_total_connections ∧ o.max_total_connections ≤ MAX_PERMITS
  idle : o.connection_idle_timeout ≠ 0
  request : o.request_timeout ≠ some 0
  request_head : o.request_head_timeout ≠ some 0
  body_idle : o.body_idle_timeout ≠ some 0
  concurrency : 0 < o.max_concurrency ∧ o.max_concurrency ≤ MAX_PERMITS
  header : o.max_header_size = 0 ∨ 8192 ≤ o.max_header_size

theorem validate_iff (o : ConnectionServeOptions) : o.validate = .ok () ↔ Valid o := by
  simp only [ConnectionServeOptions.validate, validate_timeout, refuse_if_bind, refuse_if_eq_ok]
  constructor
  · rintro ⟨hpeer, htotal, hpeer_le, htotal_le, hidle, hrequest, hhead, hbody, hzero, hle, hheader⟩
    exact { per_peer := by omega, total := by omega, idle := hidle, request := hrequest,
            request_head := hhead, body_idle := hbody, concurrency := by omega, header := by omega }
  · intro h
    obtain ⟨hpeer, htotal, hidle, hrequest, hhead, hbody, hconcurrency, hheader⟩ := h
    exact ⟨by omega, by omega, by omega, by omega, hidle, hrequest, hhead, hbody, by omega,
      by omega, by omega⟩

/-- The defaults pass their own check. -/
theorem default_valid : Valid {} :=
  (validate_iff {}).mp (by decide)

/-- Absent, or a number of permits. -/
def Permitted (o : Option ℕ) : Prop := ∀ n, o = some n → 0 < n ∧ n ≤ MAX_PERMITS

theorem getD_permitted {o : Option ℕ} {default : ℕ} (h : 0 < default ∧ default ≤ MAX_PERMITS) :
    0 < o.getD default ∧ o.getD default ≤ MAX_PERMITS ↔ Permitted o := by
  cases o with
  | none => exact iff_of_true h fun n hno => by cases hno
  | some n =>
      rw [Option.getD_some, Permitted]
      constructor
      · rintro hn m hm
        rw [← Option.some.inj hm]
        exact hn
      · exact fun hall => hall n rfl

theorem from_millis_eq_zero {ms : ℕ} : Duration.from_millis ms = 0 ↔ ms = 0 := by
  rw [Duration.from_millis, Nat.mul_eq_zero]
  exact or_iff_left (by decide)

/-- No timeout of the configuration is zero. -/
theorem timeout_of_ne_zero (milliseconds : Option ℕ) {default : Option Duration}
    (h : default ≠ some 0) : timeout_of milliseconds default ≠ some 0 := by
  cases milliseconds with
  | none => exact h
  | some ms =>
      cases ms with
      | zero => exact fun hno => by cases hno
      | succ ms =>
          intro heq
          have hzero := from_millis_eq_zero.mp (Option.some.inj heq)
          omega

/-- What is left for `validate` to refuse: the numbers of connections and requests, and the idle
timeout, which alone has no zero for "disabled". -/
theorem connection_options_valid (endpoint : HttpSettings) (options : ServeOptions) :
    Valid (connection_options endpoint options) ↔
      Permitted options.max_connections_per_peer ∧ Permitted options.max_total_connections ∧
        Permitted options.max_concurrency ∧ options.connection_idle_timeout_ms ≠ some 0 := by
  have hidle : (connection_options endpoint options).connection_idle_timeout ≠ 0 ↔
      options.connection_idle_timeout_ms ≠ some 0 := by
    have hmillis : (connection_options endpoint options).connection_idle_timeout
        = Duration.from_millis (options.connection_idle_timeout_ms.getD
          DEFAULT_CONNECTION_IDLE_TIMEOUT_MS) := rfl
    rw [hmillis]
    cases options.connection_idle_timeout_ms with
    | none => exact iff_of_true (by decide) fun h => by cases h
    | some ms => rw [Option.getD_some, ne_eq, ne_eq, Option.some.injEq, from_millis_eq_zero]
  constructor
  · intro h
    exact ⟨(getD_permitted (by decide)).mp h.per_peer, (getD_permitted (by decide)).mp h.total,
      (getD_permitted (by decide)).mp h.concurrency, hidle.mp h.idle⟩
  · rintro ⟨hpeer, htotal, hconcurrency, hms⟩
    exact { per_peer := (getD_permitted (by decide)).mpr hpeer
            total := (getD_permitted (by decide)).mpr htotal
            idle := hidle.mpr hms
            request := timeout_of_ne_zero _ (by decide)
            request_head := timeout_of_ne_zero _ (by decide)
            body_idle := timeout_of_ne_zero _ (by decide)
            concurrency := (getD_permitted (by decide)).mpr hconcurrency
            header := Or.inr (Nat.le_max_right _ _) }

/-! ## What the adapter accepts -/

theorem bind_eq_ok {ε α β : Type} {x : Except ε α} {f : α → Except ε β} {b : β} :
    x >>= f = .ok b ↔ ∃ a, x = .ok a ∧ f a = .ok b := by
  cases x with
  | error e => exact iff_of_false (fun h => by cases h) fun ⟨a, h, _⟩ => by cases h
  | ok a =>
      constructor
      · exact fun h => ⟨a, rfl, h⟩
      · rintro ⟨a', heq, h⟩
        cases heq
        exact h

section

variable {display : F64 → String}

theorem safe_f64_eq_ok {value : F64} {field : String} {max n : ℕ} :
    Adapter.safe_f64 display value field max = .ok n ↔
      ∃ q : ℚ, value = .finite q ∧ 0 ≤ q ∧ q.den = 1 ∧
        q ≤ (Binary64.round Binary64.PRECISION max : ℚ) ∧ Adapter.as_u64 q = n := by
  cases value with
  | nan => exact iff_of_false (fun h => by cases h) fun ⟨q, h, _⟩ => by cases h
  | infinite negative => exact iff_of_false (fun h => by cases h) fun ⟨q, h, _⟩ => by cases h
  | finite q =>
      simp only [Adapter.safe_f64, F64.finite.injEq, exists_eq_left']
      by_cases hneg : q < 0
      · rw [if_pos hneg]
        exact iff_of_false (fun h => by cases h) fun h => absurd h.1 (not_le.mpr hneg)
      · rw [if_neg hneg, and_iff_right (not_lt.mp hneg)]
        by_cases hden : q.den = 1
        · rw [if_neg (not_not.mpr hden), and_iff_right hden]
          by_cases hlarge : (Binary64.round Binary64.PRECISION max : ℚ) < q
          · rw [if_pos hlarge]
            exact iff_of_false (fun h => by cases h) fun h => absurd h.1 (not_le.mpr hlarge)
          · rw [if_neg hlarge, and_iff_right (not_lt.mp hlarge), Except.ok.injEq]
        · rw [if_pos hden]
          exact iff_of_false (fun h => by cases h) fun h => hden h.1

/-- An accepted number is at most the limit, and zero only when it was zero before. -/
theorem safe_f64_le {value : F64} {field : String} {max n : ℕ} (hmax : max < 2 ^ 53)
    (h : Adapter.safe_f64 display value field max = .ok n) :
    n ≤ max ∧ (n = 0 ↔ value = .finite 0) := by
  obtain ⟨q, rfl, hnonneg, hden, hle, rfl⟩ := safe_f64_eq_ok.mp h
  have hround : Binary64.round Binary64.PRECISION max = max := Binary64.round_of_lt (by decide) hmax
  obtain ⟨m, rfl⟩ : ∃ m : ℤ, (m : ℚ) = q := ⟨q.num, Rat.coe_int_num_of_den_eq_one hden⟩
  rw [hround] at hle
  have hm : 0 ≤ m := by exact_mod_cast hnonneg
  have hm_le : m ≤ max := by exact_mod_cast hle
  rw [Adapter.as_u64, Rat.floor_intCast, F64.finite.injEq, Rat.intCast_eq_zero_iff]
  omega

/-- The same of an option. -/
theorem transpose_eq_ok {o : Option F64} {field : String} {max : ℕ} {r : Option ℕ}
    (hmax : max < 2 ^ 53)
    (h : Adapter.transpose o (fun v => Adapter.safe_f64 display v field max) = .ok r) :
    (∀ n, r = some n → n ≤ max) ∧ (r = some 0 ↔ o = some (.finite 0)) := by
  cases o with
  | none =>
      cases h
      exact ⟨fun n hno => absurd hno (by simp), iff_of_false (by simp) (by simp)⟩
  | some v =>
      rw [Adapter.transpose] at h
      cases hcoerced : Adapter.safe_f64 display v field max with
      | error e =>
          rw [hcoerced] at h
          cases h
      | ok n =>
          rw [hcoerced] at h
          cases h
          obtain ⟨hle, hzero⟩ := safe_f64_le hmax hcoerced
          rw [Option.some.injEq, Option.some.injEq, hzero]
          refine ⟨fun m hm => ?_, Iff.rfl⟩
          rw [← Option.some.inj hm]
          exact hle

/-- The limit of the adapter is far below that of the check: only zero is left between them. -/
theorem permitted_total {raw : Adapter.RawServeOptions} {serve : Adapter.ServeOptions}
    (h : Adapter.coerce_serve_options display raw = .ok serve) :
    Permitted serve.max_total_connections ↔ raw.max_total_connections ≠ some (.finite 0) := by
  simp only [Adapter.coerce_serve_options, bind_eq_ok] at h
  obtain ⟨_, -, _, -, _, -, _, -, _, -, total, htotal, _, -, hserve⟩ := h
  cases hserve
  obtain ⟨hle, hzero⟩ := transpose_eq_ok (by decide) htotal
  rw [ne_eq, ← hzero, Permitted]
  constructor
  · rintro hall rfl
    exact absurd (hall 0 rfl).1 (Nat.lt_irrefl 0)
  · rintro hne n rfl
    have hlimit : Adapter.MAX_TOTAL_CONNECTIONS ≤ MAX_PERMITS := by decide
    refine ⟨Nat.pos_of_ne_zero ?_, (hle n rfl).trans hlimit⟩
    rintro rfl
    exact hne rfl

/-! ## Accepted options give a working server -/

/-- The caller is told of an error, or there is a loop that accepts connections. -/
def Told (display : F64 → String) (endpoint : HttpSettings) (args : ServeArgs) : Prop :=
  (∃ e, raw_serve display endpoint args = .error e) ∨
    ∃ connection, raw_serve display endpoint args = .ok (.accepting connection)

theorem accept_loop_accepting (connection : ConnectionServeOptions) :
    (∃ connection', accept_loop connection = .accepting connection') ↔
      connection.validate = .ok () := by
  rw [accept_loop]
  cases connection.validate with
  | error e => exact iff_of_false (fun ⟨_, h⟩ => by cases h) fun h => by cases h
  | ok u => exact iff_of_true ⟨connection, rfl⟩ rfl

/-- **Accepted options give a working server**, unless the number of connections is zero, or one of
the two limits that go past the adapter is no number of permits. -/
theorem serve_told_iff (endpoint : HttpSettings) (args : ServeArgs) {serve : Adapter.ServeOptions}
    (h : Adapter.coerce_serve_options display args.raw = .ok serve) :
    Told display endpoint args ↔ args.raw.max_total_connections ≠ some (.finite 0) ∧
      Permitted args.max_concurrency ∧ Permitted args.max_connections_per_peer := by
  have hserve : raw_serve display endpoint args
      = .ok (serve_with_events endpoint (serve_options args serve)) := by
    rw [raw_serve, h]
    rfl
  have htold : Told display endpoint args ↔
      Valid (connection_options endpoint (serve_options args serve)) := by
    rw [← validate_iff, ← accept_loop_accepting, Told, hserve]
    simp only [reduceCtorEq, exists_false, false_or, Except.ok.injEq]
    rfl
  have hidle : (serve_options args serve).connection_idle_timeout_ms ≠ some 0 := by
    intro hno
    cases hno
  rw [htold, connection_options_valid, and_iff_left hidle, ← permitted_total h]
  constructor
  · rintro ⟨hpeer, htotal, hconcurrency⟩
    exact ⟨htotal, hconcurrency, hpeer⟩
  · rintro ⟨htotal, hconcurrency, hpeer⟩
    exact ⟨hpeer, htotal, hconcurrency⟩

end

/-- A caller that allows no connection at all. -/
def zero_connections : ServeArgs := { raw := { max_total_connections := some (.finite 0) } }

/-- A server of no connections: the call succeeds, and the loop is over. -/
theorem zero_connections_exit :
    ¬ ∀ (display : F64 → String) (endpoint : HttpSettings) (args : ServeArgs)
      (serve : Adapter.ServeOptions),
      Adapter.coerce_serve_options display args.raw = .ok serve → Told display endpoint args := by
  intro h
  have htold := h (fun _ => "") ⟨65536, none⟩ zero_connections { max_total_connections := some 0 }
    (by decide)
  have hexited : raw_serve (fun _ => "") ⟨65536, none⟩ zero_connections
      = .ok (.exited (.InvalidOptions "max_total_connections" "must be greater than zero")) := by
    decide
  rcases htold with ⟨e, he⟩ | ⟨connection, hconnection⟩
  · rw [hexited] at he
    cases he
  · rw [hexited] at hconnection
    cases hconnection

/-- A small server: eight connections in all, two a peer, ten requests at once. -/
def small_server : ServeArgs :=
  { raw := { request_timeout_ms := some (.finite 0), max_total_connections := some (.finite 8),
             drain_timeout_ms := some (.finite 5000) }
    max_concurrency := some 10
    max_connections_per_peer := some 2
    load_shed := some false }

/-- A server of eight connections, two for each peer, with its request timeout switched off. -/
theorem small_server_told : Told (fun _ => "") ⟨65536, none⟩ small_server := by
  have hcoerced : Adapter.coerce_serve_options (fun _ => "") small_server.raw
      = .ok { request_timeout_ms := some 0, max_total_connections := some 8,
              drain_timeout_ms := some 5000 } := by decide +kernel
  refine (serve_told_iff ⟨65536, none⟩ small_server hcoerced).mpr ⟨by decide, ?_, ?_⟩
  · intro n hn
    rw [← Option.some.inj hn]
    decide
  · intro n hn
    rw [← Option.some.inj hn]
    decide

end IrohHttp.Serve
