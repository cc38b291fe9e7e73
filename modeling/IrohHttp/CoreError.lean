/-
`iroh-http-core/src/error.rs`: the structured error of the FFI boundary, and
the time and integer conventions the other files share.

Instants and durations are natural numbers of nanoseconds. `Instant::elapsed`
and `saturating_duration_since` saturate at zero in Rust, which is truncated
subtraction on `ℕ`. `usize` and `u64` are natural numbers too; where the code
saturates at the top of the type it does so here through `usize.saturating_add`.
-/
import Mathlib.Algebra.Group.Nat.Defs

set_option autoImplicit false

namespace IrohHttp

/-- A point of the monotonic clock, in nanoseconds. -/
abbrev Instant := ℕ

/-- A span of time, in nanoseconds. -/
abbrev Duration := ℕ

/-- `Duration::from_millis` -/
def Duration.from_millis (ms : ℕ) : Duration := ms * 1000000

/-- A byte string. -/
abbrev Bytes := List UInt8

/-- `usize::MAX` of a 64-bit target. -/
def usize.MAX : ℕ := 2 ^ 64 - 1

/-- `usize::saturating_add` -/
def usize.saturating_add (a b : ℕ) : ℕ := min (a + b) usize.MAX

/-- Machine-readable error codes for the FFI boundary. -/
inductive ErrorCode
  | InvalidInput
  | ConnectionFailed
  | Timeout
  | BodyTooLarge
  | HeaderTooLarge
  | PeerRejected
  | Cancelled
  | Internal
  deriving DecidableEq, Repr

/-- Structured error returned by core functions. -/
structure CoreError where
  code : ErrorCode
  message : String
  deriving DecidableEq, Repr

namespace CoreError

/-- `CoreError::invalid_input` -/
def invalid_input (detail : String) : CoreError := ⟨.InvalidInput, detail⟩

/-- `CoreError::timeout` -/
def timeout (detail : String) : CoreError := ⟨.Timeout, detail⟩

/-- `CoreError::body_too_large` -/
def body_too_large (detail : String) : CoreError := ⟨.BodyTooLarge, detail⟩

/-- `CoreError::internal` -/
def internal (detail : String) : CoreError := ⟨.Internal, detail⟩

/-- `CoreError::invalid_handle` -/
def invalid_handle (handle : ℕ) : CoreError := ⟨.InvalidInput, s!"unknown handle: {handle}"⟩

end CoreError

end IrohHttp
