/-
Connection admission, `iroh-http-core/src/http/server/lifecycle.rs`.

`ConnectionAdmission` is what the mutex of the source guards, with the total it
counts in. Each function here is one critical section; the event callback that
may follow it is the caller's next step, so `acquire` and `release` say whether
one is due. The total is an `Arc<AtomicUsize>` that the endpoint hands to every
serve cycle.
-/
import Mathlib.Data.Nat.Notation
import Mathlib.Logic.Function.Basic

set_option autoImplicit false

namespace IrohHttp.Serve

/-- Which shared connection-admission bound rejected a connection. -/
inductive ConnectionAdmissionError
  | total
  | peer
  deriving DecidableEq, Repr

/-- `counts` is a hash map: a peer without an entry is at `none`. -/
structure ConnectionAdmission (K : Type) where
  counts : K → Option ℕ
  total : ℕ
  max_per_peer : ℕ
  max_total : ℕ

namespace ConnectionAdmission

variable {K : Type} [DecidableEq K]

/-- `ConnectionAdmission::new` -/
def new (max_per_peer max_total total : ℕ) : ConnectionAdmission K where
  counts := fun _ => none
  total := total
  max_per_peer := max_per_peer
  max_total := max_total

/-- A success says whether the peer had no connection before. The entry that the
per-peer check inserts stays when the check fails. -/
def acquire (a : ConnectionAdmission K) (peer : K) :
    Except ConnectionAdmissionError Bool × ConnectionAdmission K :=
  -- the total comes first, before the peer has an entry
  if a.max_total ≤ a.total then (.error .total, a)
  else
    let count := (a.counts peer).getD 0
    if a.max_per_peer ≤ count then
      (.error .peer, { a with counts := Function.update a.counts peer (some count) })
    else
      (.ok (count == 0),
        { a with
          counts := Function.update a.counts peer (some (count + 1))
          total := a.total + 1 })

/-- `ConnectionTracker::drop` under the lock: whether this was the peer's last
connection. -/
def release (a : ConnectionAdmission K) (peer : K) : Bool × ConnectionAdmission K :=
  match a.counts peer with
  | some count =>
    if count - 1 = 0 then
      (true, { a with counts := Function.update a.counts peer none, total := a.total - 1 })
    else
      (false,
        { a with
          counts := Function.update a.counts peer (some (count - 1))
          total := a.total - 1 })
  -- a tracker without an entry still gives its share of the total back
  | none => (false, { a with total := a.total - 1 })

/-- A refused connection is not counted, and another counts once. -/
theorem acquire_cases (a : ConnectionAdmission K) (peer : K) :
    (∃ e a', a.acquire peer = (.error e, a') ∧ a'.total = a.total) ∨
      ∃ was_zero a', a.acquire peer = (.ok was_zero, a') ∧ a'.total = a.total + 1 := by
  unfold acquire
  split
  · exact .inl ⟨_, _, rfl, rfl⟩
  · simp only
    split
    · exact .inl ⟨_, _, rfl, rfl⟩
    · exact .inr ⟨_, _, rfl, rfl⟩

theorem release_total (a : ConnectionAdmission K) (peer : K) :
    (a.release peer).2.total = a.total - 1 := by
  unfold release
  split
  · split <;> rfl
  · rfl

end ConnectionAdmission

end IrohHttp.Serve
