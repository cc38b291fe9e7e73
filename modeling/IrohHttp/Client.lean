/-
The outgoing request of `iroh-http-core/src/http/client.rs`.

`fetch_request` sends a request over a pooled connection, and resends it once
where that is safe. It is written here as the source has it, over the effects it
awaits: the pool, the connection's `open_bi`, hyper's handshake, the client
service, and the pool's evictions. The answers are an oracle's, so a statement
over all oracles is one over all sequences of outcomes, and the surrounding
`tokio::time::timeout` may abandon the sequence at any of its waits.

What the pool promises about its answers is in `Pool.lean`. Not modelled: the
background task that drives the connection, and what the client service does to
a request before it writes it, which depends on the configuration only.
-/
import IrohHttp.CoreError
import IrohHttp.Effects

set_option autoImplicit false

namespace IrohHttp.Client

open Effects Effects.Prog

/-! ## Requests -/

/-- The versions of HTTP. -/
inductive Version
  | http_09
  | http_10
  | http_11
  | h2
  | h3
  deriving DecidableEq, Repr

/-- The head of a request. Extensions are listed by type. -/
structure Parts where
  method : String
  uri : String
  version : Version
  headers : List (String × Bytes)
  extensions : List String
  deriving DecidableEq, Repr

/-- A request body, as far as `http_body::Body` shows it before it is polled. A
caller's body is what it says of itself. -/
inductive Body
  | empty
  | caller (is_end_stream : Bool) (exact_size : Option ℕ)
  | marked (body : Body) (mask_zero_data_hint : Bool)
  deriving DecidableEq, Repr

/-- `Body::is_end_stream`, through the wrapper of the retry. -/
def Body.is_end_stream : Body → Bool
  | .empty => true
  | .caller is_end_stream _ => is_end_stream
  | .marked body _ => body.is_end_stream

/-- `size_hint().exact()`. -/
def Body.exact_size : Body → Option ℕ
  | .empty => some 0
  | .caller _ exact_size => exact_size
  | .marked body mask_zero_data_hint => if mask_zero_data_hint then none else body.exact_size

/-- A request with its parts. -/
structure Request where
  parts : Parts
  body : Body
  deriving DecidableEq, Repr

/-! ## Errors -/

/-- A link of an error's source chain. -/
inductive ErrorSource
  | caller_request_body (source : String)
  | other (text : String)
  deriving DecidableEq, Repr

/-- A `hyper::Error`: its text, and the chain of its sources. -/
structure HyperError where
  text : String
  sources : List ErrorSource
  deriving DecidableEq, Repr

/-- The marker's own source, if the chain has the marker. -/
def caller_request_body_error_detail (error : HyperError) : Option String :=
  error.sources.findSome? fun source =>
    match source with
    | .caller_request_body source => some source
    | .other _ => none

/-- The errors of a fetch. -/
inductive FetchError
  | connection_failed (detail : String) (source : Option HyperError)
  | request_body_failed (detail : String) (source : HyperError)
  | header_too_large (detail : String)
  | body_too_large
  | timeout
  | cancelled
  | internal (message : String)
  deriving DecidableEq, Repr

/-- The error of a connection, which a retry may answer. -/
def FetchError.is_connection_failed : FetchError → Bool
  | .connection_failed _ _ => true
  | _ => false

/-! ## Effects -/

/-- What a fetch awaits. Connections are named by their `dial_seq`. -/
inductive Effect
  | get_or_connect
  | open_bi (conn : ℕ)
  | handshake (max_buf_size max_headers : ℕ)
  | oneshot (req : Request)
  | evict_and_close (reason : String) (expected_dial_seq : Option ℕ)
  | evict_only (expected_dial_seq : Option ℕ)
  deriving DecidableEq, Repr

/-- The answers; `R` is the type of responses. -/
abbrev Answer (R : Type) : Effect → Type
  | .get_or_connect => Except String (ℕ × Bool)
  | .open_bi _ => Except String Unit
  | .handshake _ _ => Except HyperError Unit
  | .oneshot _ => Except HyperError R
  | .evict_and_close _ _ => Unit
  | .evict_only _ => Unit

/-- A fetch's cell is its `last_dial_seq`. -/
abbrev Fetch (R : Type) := Prog (Option ℕ) Effect (Answer R)

variable {R : Type}

/-- A pooled connection or a new one, with the number of the dial. -/
def get_or_connect : Fetch R (Except String (ℕ × Bool)) := wait Effect.get_or_connect

/-- A stream of the connection. -/
def open_bi (conn : ℕ) : Fetch R (Except String Unit) := wait (Effect.open_bi conn)

/-- The handshake of the connection. -/
def handshake (max_buf_size max_headers : ℕ) : Fetch R (Except HyperError Unit) :=
  wait (Effect.handshake max_buf_size max_headers)

/-- The request on the connection, and its response. -/
def oneshot (req : Request) : Fetch R (Except HyperError R) := wait (Effect.oneshot req)

/-- The connection leaves the pool, if it is still the one of that dial. -/
def evict_and_close (reason : String) (expected_dial_seq : Option ℕ) : Fetch R Unit :=
  wait (Effect.evict_and_close reason expected_dial_seq)

/-! ## The fetch -/

/-- What `attempt_send` makes of a `hyper::Error` of the client service. -/
def send_error (error : HyperError) : FetchError :=
  match caller_request_body_error_detail error with
  | some detail => .request_body_failed detail error
  | none =>
    let text := error.text
    .connection_failed s!"send_request: {text}" (some error)

/-- `attempt_send`: connection, stream, handshake and request; `true` with an error that a retry may
answer. -/
def attempt_send (max_header_size : ℕ) (req : Request) : Fetch R (Except FetchError R × Bool) := do
  match ← get_or_connect with
  | .error e =>
    -- a timeout from here on has no connection to evict
    store none
    return (.error (.connection_failed e none), false)
  | .ok (pooled, reused) =>
    store (some pooled)
    match ← open_bi pooled with
    | .error e => return (.error (.connection_failed s!"open_bi: {e}" none), reused)
    | .ok _ =>
      match ← handshake (max max_header_size 8192) 128 with
      | .error e =>
        let text := e.text
        return (.error (.connection_failed s!"hyper handshake: {text}" (some e)), reused)
      | .ok _ =>
        let result ← oneshot req
        return (result.mapError send_error, reused)

/-- Evict the connection the last attempt used if it failed it. -/
def evict_failed (retryable : Bool) (reason : String) : Fetch R Unit :=
  if retryable then do
    let failed_seq ← load
    evict_and_close reason failed_seq
  else
    return ()

/-- `is_connection_failed` of a result. -/
def retryable (result : Except FetchError R) : Bool :=
  match result with
  | .error e => e.is_connection_failed
  | .ok _ => false

/-- The transparent retry of the `retry_seq` block. -/
def resend (max_header_size : ℕ) (req : Request) : Fetch R (Except FetchError R) := do
  let (retry_result, _) ← attempt_send max_header_size req
  evict_failed (retryable retry_result) "iroh-http fetch retry failed"
  return retry_result

/-- The `retry_seq` block: an attempt, and at most one more. -/
def retry_seq (max_header_size : ℕ) (first_req : Request) (retry_safe : Bool)
    (build_retry : Body → Request) : Fetch R (Except FetchError R) := do
  let (result, reused) ← attempt_send max_header_size first_req
  match result with
  | .ok resp => return .ok resp
  | .error first_err =>
    evict_failed first_err.is_connection_failed "iroh-http fetch failed"
    if first_err.is_connection_failed && reused && retry_safe then
      resend max_header_size (build_retry .empty)
    else
      return .error first_err

/-- The request of the first attempt: the caller's, with a body that may still
yield something marked as the caller's. -/
def first_request (req : Request) : Request :=
  if req.body.is_end_stream then req
  else { req with body := .marked req.body (req.body.exact_size == some 0) }

/-- The closure that rebuilds the request; a builder starts without extensions. -/
def build_retry (parts : Parts) (body : Body) : Request where
  parts := { parts with extensions := [] }
  body := body

/-- A body that is known to be empty. -/
def body_resendable (body : Body) : Bool := body.is_end_stream && body.exact_size == some 0

/-- A request that may be sent twice: nothing in its body, and a method that says so. -/
def retry_safe (is_idempotent : String → Bool) (req : Request) : Bool :=
  body_resendable req.body && is_idempotent req.parts.method

/-- The sequence that `fetch_request` runs for a request. -/
def fetch_seq (is_idempotent : String → Bool) (max_header_size : ℕ) (req : Request) :
    Fetch R (Except FetchError R) :=
  retry_seq max_header_size (first_request req) (retry_safe is_idempotent req)
    (build_retry req.parts)

/-- A fetch and the events it goes through. `elapsed` is the wait at which the
timer fires, if it does before the sequence is over. -/
def fetch_request (is_idempotent : String → Bool) (max_header_size : ℕ) (timeout : Option ℕ)
    (req : Request) (oracle : List (Event (Answer R)) → (e : Effect) → Answer R e)
    (elapsed : Option ℕ) : List (Event (Answer R)) × Option (Except FetchError R) :=
  match timeout with
  | some _ =>
    match exec oracle (fetch_seq is_idempotent max_header_size req) elapsed none [] with
    | (events, _, some result) => (events, some result)
    -- the entry of the connection in use goes, and the connection stays open
    | (events, failed_seq, none) =>
      (events ++ [⟨.evict_only failed_seq, some ()⟩], some (.error .timeout))
  | none =>
    let (events, _, result) := exec oracle (fetch_seq is_idempotent max_header_size req) none none []
    (events, result)

/-! ## Events -/

/-- The requests that were handed to a client service, in order; whether the
service answered or the fetch was abandoned meanwhile. -/
def transmitted (events : List (Event (Answer R))) : List Request :=
  events.filterMap fun event =>
    match event with
    | ⟨.oneshot req, _⟩ => some req
    | _ => none

/-- The events of an attempt up to its request, on a connection the pool
reported as `reused`. -/
def preamble (max_header_size seq : ℕ) (reused : Bool) : List (Event (Answer R)) :=
  [⟨.get_or_connect, some (.ok (seq, reused))⟩, ⟨.open_bi seq, some (.ok ())⟩,
    ⟨.handshake (max max_header_size 8192) 128, some (.ok ())⟩]

/-- What an event settles for the whole sequence, if anything: that it was
abandoned, its response, or its caller's error. -/
def conclusion : Event (Answer R) → Option (Option (Except FetchError R))
  | ⟨_, none⟩ => some none
  | ⟨.oneshot _, some answer⟩ =>
    match answer with
    | .ok resp => some (some (.ok resp))
    | .error e =>
      if (send_error e).is_connection_failed then none else some (some (.error (send_error e)))
  | _ => none

/-- Nothing follows an event that settles the sequence, and the sequence ends as
it says. -/
def Concluded (result : Option (Except FetchError R)) : List (Event (Answer R)) → Prop
  | [] => True
  | event :: events =>
    match conclusion event with
    | none => Concluded result events
    | some c => events = [] ∧ result = c

/-- Events that settle nothing and send nothing. -/
def Quiet (events : List (Event (Answer R))) : Prop :=
  transmitted events = [] ∧ ∀ event ∈ events, conclusion event = none

/-- What is sent in two parts. -/
theorem transmitted_append (events₁ events₂ : List (Event (Answer R))) :
    transmitted (events₁ ++ events₂) = transmitted events₁ ++ transmitted events₂ :=
  List.filterMap_append

/-- Events that conclude nothing may stand in front. -/
theorem concluded_append {result : Option (Except FetchError R)}
    {events₁ events₂ : List (Event (Answer R))}
    (hquiet : ∀ event ∈ events₁, conclusion event = none)
    (h : Concluded result events₂) : Concluded result (events₁ ++ events₂) := by
  induction events₁ with
  | nil => exact h
  | cons event events ih =>
      have hnone : conclusion event = none := hquiet event List.mem_cons_self
      simp only [List.cons_append, Concluded, hnone]
      exact ih fun ev hev => hquiet ev (List.mem_cons_of_mem event hev)

/-- The one event that settles the sequence is its last. -/
theorem Concluded.split {result : Option (Except FetchError R)} {c : Option (Except FetchError R)}
    {events rest pre post : List (Event (Answer R))} {event : Event (Answer R)}
    (h : Concluded result events) (hrest : ∀ event ∈ rest, conclusion event = none)
    (hsplit : events ++ rest = pre ++ event :: post) (hc : conclusion event = some c) :
    post = rest ∧ result = c := by
  -- an event that settles something is not among the quiet ones
  have hnot : ∀ {pre post : List (Event (Answer R))}, rest ≠ pre ++ event :: post := by
    intro pre post heq
    have hmem : event ∈ rest := by
      rw [heq]
      exact List.mem_append_right pre List.mem_cons_self
    rw [hrest event hmem] at hc
    cases hc
  induction events generalizing pre with
  | nil => exact absurd hsplit hnot
  | cons ev events ih =>
      cases pre with
      | nil =>
          rw [List.cons_append, List.nil_append, List.cons.injEq] at hsplit
          obtain ⟨rfl, rfl⟩ := hsplit
          simp only [Concluded, hc] at h
          exact ⟨by rw [h.1, List.nil_append], h.2⟩
      | cons p pre =>
          rw [List.cons_append, List.cons_append, List.cons.injEq] at hsplit
          simp only [Concluded] at h
          split at h
          · exact ih h hsplit.2
          · -- `ev` is the last of the sequence, so `event` is among the rest
            rw [h.1, List.nil_append] at hsplit
            exact absurd hsplit.2 hnot

/-! ## One attempt -/

/-- What an attempt comes to: it failed before its request went out, the request
went out, or it was abandoned. -/
inductive Attempt (max_header_size : ℕ) (req : Request) :
    List (Event (Answer R)) → Option (Except FetchError R × Bool) → Prop
  | unsent {events : List (Event (Answer R))} (hquiet : Quiet events) (detail : String)
    (source : Option HyperError) (reused : Bool) :
    Attempt max_header_size req events (some (.error (.connection_failed detail source), reused))
  | sent (seq : ℕ) (reused : Bool) (result : Except HyperError R) :
    Attempt max_header_size req
      (preamble max_header_size seq reused ++ [⟨.oneshot req, some result⟩])
      (some (result.mapError send_error, reused))
  | abandoned (events : List (Event (Answer R))) (hquiet : Quiet events) (e : Effect)
    (he : transmitted [(⟨e, none⟩ : Event (Answer R))] = [] ∨ e = .oneshot req) :
    Attempt max_header_size req (events ++ [⟨e, none⟩]) none

/-- **Every run of `attempt_send` is one of the three.** -/
theorem attempt_of_runs {max_header_size : ℕ} {req : Request} {s s' : Option ℕ}
    {events : List (Event (Answer R))} {o : Option (Except FetchError R × Bool)}
    (h : Runs (attempt_send max_header_size req) s events s' o) :
    Attempt max_header_size req events o := by
  -- wait by wait: abandoned there, failed by the answer, or on to the next
  rcases runs_wait_bind h with ⟨rfl, rfl⟩ | ⟨answer, _, rfl, hget⟩
  · exact .abandoned [] ⟨rfl, fun _ h => by cases h⟩ .get_or_connect (.inl rfl)
  rcases answer with e | ⟨pooled, reused⟩
  · have hret := runs_store_bind hget
    obtain ⟨rfl, -, rfl⟩ := runs_pure hret
    exact .unsent ⟨rfl, by simp [conclusion]⟩ e none false
  rcases runs_wait_bind (runs_store_bind hget) with ⟨rfl, rfl⟩ | ⟨answer, _, rfl, hopen⟩
  · exact .abandoned [_] ⟨rfl, by simp [conclusion]⟩ (.open_bi pooled) (.inl rfl)
  rcases answer with e | _
  · obtain ⟨rfl, -, rfl⟩ := runs_pure hopen
    exact .unsent ⟨rfl, by simp [conclusion]⟩ _ none reused
  rcases runs_wait_bind hopen with ⟨rfl, rfl⟩ | ⟨answer, _, rfl, hshake⟩
  · exact .abandoned [_, _] ⟨rfl, by simp [conclusion]⟩ (.handshake _ _) (.inl rfl)
  rcases answer with e | _
  · obtain ⟨rfl, -, rfl⟩ := runs_pure hshake
    exact .unsent ⟨rfl, by simp [conclusion]⟩ _ (some e) reused
  rcases runs_wait_bind hshake with ⟨rfl, rfl⟩ | ⟨answer, _, rfl, hsend⟩
  · exact .abandoned [_, _, _] ⟨rfl, by simp [conclusion]⟩ (.oneshot req) (.inr rfl)
  obtain ⟨rfl, -, rfl⟩ := runs_pure hsend
  exact .sent pooled reused answer

/-- An error of the caller's body is no error of the connection. -/
theorem send_error_is_connection_failed {e : HyperError}
    (h : (send_error e).is_connection_failed = true) :
    caller_request_body_error_detail e = none := by
  unfold send_error at h
  split at h
  · cases h
  · assumption

section Attempt

variable {max_header_size : ℕ} {req : Request} {events : List (Event (Answer R))}
  {o : Option (Except FetchError R × Bool)}

/-- Nothing is concluded before the request is sent. -/
theorem conclusion_preamble {seq : ℕ} {reused : Bool} :
    ∀ event ∈ (preamble max_header_size seq reused : List (Event (Answer R))),
      conclusion event = none := by
  simp [preamble, conclusion]

/-- An attempt sends its request once at most. -/
theorem Attempt.transmitted (h : Attempt max_header_size req events o) :
    transmitted events = [] ∨ transmitted events = [req] := by
  cases h with
  | unsent hquiet => exact .inl hquiet.1
  | sent seq reused result => exact .inr rfl
  | abandoned events hquiet e he =>
      rw [transmitted_append, hquiet.1, List.nil_append]
      rcases he with he | he
      · exact .inl he
      · rw [he]
        exact .inr rfl

/-- A settled attempt is over with what settled it. -/
theorem Attempt.concluded (h : Attempt max_header_size req events o) :
    Concluded (o.map Prod.fst) events := by
  cases h with
  | unsent hquiet detail source reused =>
      rw [← List.append_nil events]
      exact concluded_append hquiet.2 trivial
  | sent seq reused result =>
      refine concluded_append conclusion_preamble ?_
      cases result with
      | ok resp => exact ⟨rfl, rfl⟩
      | error e =>
          by_cases hfailed : (send_error e).is_connection_failed = true
          · simp only [Concluded, conclusion, if_pos hfailed]
          · simp only [Concluded, conclusion, if_neg hfailed]
            exact ⟨trivial, rfl⟩
  | abandoned events hquiet e he =>
      exact concluded_append hquiet.2 ⟨rfl, rfl⟩

/-- An attempt that failed its connection settled nothing, and if its request
went out, hyper's error was not the caller's. -/
theorem Attempt.failed {e : FetchError} {reused : Bool}
    (h : Attempt max_header_size req events (some (.error e, reused)))
    (he : e.is_connection_failed = true) :
    (∀ event ∈ events, conclusion event = none) ∧
      (Client.transmitted events = [] ∨
        ∃ seq err, events = preamble max_header_size seq reused ++ [⟨.oneshot req, some (.error err)⟩] ∧
          caller_request_body_error_detail err = none) := by
  generalize ho : some ((.error e : Except FetchError R), reused) = o at h
  cases h with
  | unsent hquiet detail source reused => exact ⟨hquiet.2, .inl hquiet.1⟩
  | sent seq reused result =>
      cases result with
      | ok resp => cases ho
      | error err =>
          cases ho
          refine ⟨?_, .inr ⟨seq, err, rfl, send_error_is_connection_failed he⟩⟩
          intro event hevent
          rcases List.mem_append.mp hevent with hpre | hlast
          · exact conclusion_preamble event hpre
          · rw [List.mem_singleton.mp hlast]
            simp only [conclusion, if_pos he]
  | abandoned => cases ho

end Attempt

theorem quiet_nil : Quiet ([] : List (Event (Answer R))) :=
  ⟨rfl, fun _ h => by cases h⟩

/-- An eviction sends nothing. It is abandoned, or it settles nothing and the
program goes on; and it does neither if it is not due. -/
theorem evict_bind_of_runs {b : Bool} {reason : String} {τ : Type} {f : Unit → Fetch R τ}
    {s s' : Option ℕ} {events : List (Event (Answer R))} {o : Option τ}
    (h : Runs (evict_failed b reason >>= f) s events s' o) :
    (b = true ∧ o = none ∧ transmitted events = [] ∧ Concluded none events) ∨
      ∃ evict rest t, events = evict ++ rest ∧ Quiet evict ∧ (b = false → evict = []) ∧
        Runs (f ()) t rest s' o := by
  cases b with
  | false => exact .inr ⟨[], events, s, rfl, quiet_nil, fun _ => rfl, h⟩
  | true =>
      have hwait := runs_load_bind h
      rcases runs_wait_bind hwait with ⟨rfl, rfl⟩ | ⟨_, rest, rfl, hrest⟩
      · exact .inl ⟨rfl, rfl, rfl, rfl, rfl⟩
      · refine .inr ⟨[_], rest, s, rfl, ⟨rfl, ?_⟩, fun h => (by cases h), hrest⟩
        simp [conclusion]

/-! ## The sequence -/

/-- What the sequence sends: at most one request, or the first and then the
retry, and then for a reason. -/
def SentFor (max_header_size : ℕ) (first_req retry_req : Request) (retry_safe : Bool)
    (events : List (Event (Answer R))) : Prop :=
  transmitted events = [] ∨ (∃ req, transmitted events = [req]) ∨
    transmitted events = [first_req, retry_req] ∧ retry_safe = true ∧
      ∃ seq err post,
        events = preamble max_header_size seq true ++ ⟨.oneshot first_req, some (.error err)⟩ :: post ∧
          caller_request_body_error_detail err = none

section Sequence

variable {max_header_size : ℕ} {req first_req : Request} {retry_safe : Bool}
  {build_retry : Body → Request} {s s' : Option ℕ} {events : List (Event (Answer R))}
  {o : Option (Except FetchError R)}

theorem sent_one (req : Request) {retry_req : Request}
    (h : transmitted events = [] ∨ transmitted events = [req]) :
    SentFor max_header_size first_req retry_req retry_safe events := by
  rcases h with h | h
  · exact .inl h
  · exact .inr (.inl ⟨req, h⟩)

/-- An attempt and its eviction are over as the attempt says: a failed one is not
settled, and another has no eviction. -/
theorem concluded_evict {evict : List (Event (Answer R))} {result : Except FetchError R}
    {reused : Bool} (h : Attempt max_header_size req events (some (result, reused)))
    (hq : Quiet evict) (hskip : retryable result = false → evict = []) :
    Concluded (some result) (events ++ evict) := by
  by_cases hfailed : retryable result = true
  · cases result with
    | ok resp => cases hfailed
    | error e =>
        refine concluded_append (h.failed hfailed).1 ?_
        rw [← List.append_nil evict]
        exact concluded_append hq.2 trivial
  · rw [Bool.not_eq_true] at hfailed
    rw [hskip hfailed, List.append_nil]
    exact h.concluded

/-- **The retry** sends the second request once at most, and its outcome is the fetch's. -/
theorem resend_of_runs (h : Runs (resend max_header_size req) s events s' o) :
    Concluded o events ∧ (transmitted events = [] ∨ transmitted events = [req]) := by
  rcases runs_bind h with ⟨rfl, h₁⟩ | ⟨events₁, rest, t, ⟨result, reused⟩, rfl, h₁, hrest⟩
  · have hattempt := attempt_of_runs h₁
    exact ⟨hattempt.concluded, hattempt.transmitted⟩
  have hattempt := attempt_of_runs h₁
  rcases evict_bind_of_runs hrest with ⟨hfailed, rfl, hsent, hconc⟩ | ⟨evict, _, _, rfl, hq, hskip, hret⟩
  · cases result with
    | ok resp => cases hfailed
    | error e =>
        refine ⟨concluded_append (hattempt.failed hfailed).1 hconc, ?_⟩
        rw [transmitted_append, hsent, List.append_nil]
        exact hattempt.transmitted
  · obtain ⟨rfl, -, rfl⟩ := runs_pure hret
    rw [List.append_nil]
    refine ⟨concluded_evict hattempt hq hskip, ?_⟩
    rw [transmitted_append, hq.1, List.append_nil]
    exact hattempt.transmitted

/-- The sequence went on to the retry: the first attempt failed its connection,
and sent nothing or sent the first request on a reused one. -/
theorem sent_twice {retry_req : Request} {e : FetchError} {evict rest : List (Event (Answer R))}
    (h : Attempt max_header_size first_req events (some (.error e, true)))
    (he : e.is_connection_failed = true) (hsafe : retry_safe = true) (hq : Quiet evict)
    (hrest : transmitted rest = [] ∨ transmitted rest = [retry_req]) :
    SentFor max_header_size first_req retry_req retry_safe (events ++ (evict ++ rest)) := by
  have hsent : transmitted (events ++ (evict ++ rest)) = transmitted events ++ transmitted rest := by
    rw [transmitted_append, transmitted_append, hq.1, List.nil_append]
  rcases (h.failed he).2 with hnone | ⟨seq, err, hevents, hcaller⟩
  · refine sent_one retry_req ?_
    rw [hsent, hnone, List.nil_append]
    exact hrest
  · have hfirst : transmitted events = [first_req] := by
      rw [hevents]
      rfl
    rcases hrest with hrest | hrest
    · exact .inr (.inl ⟨first_req, by rw [hsent, hfirst, hrest, List.append_nil]⟩)
    · refine .inr (.inr ⟨by rw [hsent, hfirst, hrest, List.singleton_append], hsafe, seq, err,
        evict ++ rest, ?_, hcaller⟩)
      rw [hevents, List.append_assoc, List.singleton_append]

/-- **Every run of the sequence is over when it is settled, and resends only for
a reason.** -/
theorem retry_of_runs
    (h : Runs (retry_seq max_header_size first_req retry_safe build_retry) s events s' o) :
    Concluded o events ∧
      SentFor max_header_size first_req (build_retry .empty) retry_safe events := by
  rcases runs_bind h with ⟨rfl, h₁⟩ | ⟨events₁, rest, t, ⟨result, reused⟩, rfl, h₁, hrest⟩
  · have hattempt := attempt_of_runs h₁
    exact ⟨hattempt.concluded, sent_one first_req hattempt.transmitted⟩
  have hattempt := attempt_of_runs h₁
  cases result with
  | ok resp =>
      obtain ⟨rfl, -, rfl⟩ := runs_pure hrest
      rw [List.append_nil]
      exact ⟨hattempt.concluded, sent_one first_req hattempt.transmitted⟩
  | error e =>
      rcases evict_bind_of_runs hrest with ⟨he, rfl, hsent, hconc⟩ | ⟨evict, _, _, rfl, hq, hskip, hnext⟩
      · refine ⟨concluded_append (hattempt.failed he).1 hconc, sent_one first_req ?_⟩
        rw [transmitted_append, hsent, List.append_nil]
        exact hattempt.transmitted
      · by_cases hretry : (e.is_connection_failed && reused && retry_safe) = true
        · -- the retry: the first attempt settled nothing, the second decides
          rw [if_pos hretry] at hnext
          rw [Bool.and_eq_true, Bool.and_eq_true] at hretry
          obtain ⟨⟨he, rfl⟩, hsafe⟩ := hretry
          obtain ⟨hconc, hsent⟩ := resend_of_runs hnext
          refine ⟨concluded_append (hattempt.failed he).1 (concluded_append hq.2 hconc), ?_⟩
          exact sent_twice hattempt he hsafe hq hsent
        · rw [if_neg hretry] at hnext
          obtain ⟨rfl, -, rfl⟩ := runs_pure hnext
          rw [List.append_nil]
          refine ⟨concluded_evict hattempt hq hskip, sent_one first_req ?_⟩
          rw [transmitted_append, hq.1, List.append_nil]
          exact hattempt.transmitted

end Sequence

/-! ## The whole fetch -/

/-- A fetch that is safe to retry as it was: what went out, for what reason a
second time, and how it ended. -/
structure SafelyRetried (is_idempotent : String → Bool) (max_header_size : ℕ) (req : Request)
    (events : List (Event (Answer R))) (result : Option (Except FetchError R)) : Prop where
  /-- The fetch returns. -/
  returned : result.isSome
  at_most_twice : (transmitted events).length ≤ 2
  /-- A second time only after hyper failed the first on a connection that the
  pool reported as reused, with an error that is not the caller's; and then it is
  the same request. -/
  resent : ∀ req₁ req₂ rest, transmitted events = req₁ :: req₂ :: rest →
    (∃ seq err post,
      events = preamble max_header_size seq true ++ ⟨.oneshot req₁, some (.error err)⟩ :: post ∧
        caller_request_body_error_detail err = none) ∧
      is_idempotent req.parts.method = true ∧ req.body.is_end_stream = true ∧
      req.body.exact_size = some 0 ∧ req₁.parts = req.parts ∧
      req₂.parts.method = req₁.parts.method ∧ req₂.parts.uri = req₁.parts.uri ∧
      req₂.parts.version = req₁.parts.version ∧ req₂.parts.headers = req₁.parts.headers
  /-- A response ends the fetch, which returns it. -/
  response_kept : ∀ pre req' resp post,
    events = pre ++ ⟨.oneshot req', some (.ok resp)⟩ :: post → post = [] ∧ result = some (.ok resp)
  /-- So does a failure of the caller's body. -/
  body_failure_kept : ∀ pre req' err detail post,
    events = pre ++ ⟨.oneshot req', some (.error err)⟩ :: post →
      caller_request_body_error_detail err = some detail →
        post = [] ∧ result = some (.error (.request_body_failed detail err))
  /-- When the timer fires, nothing but the eviction of the pool entry follows. -/
  timeout_kept : ∀ pre e post, events = pre ++ ⟨e, none⟩ :: post →
    (∃ seq, post = [⟨.evict_only seq, some ()⟩]) ∧ result = some (.error .timeout)

section Fetch

variable {is_idempotent : String → Bool} {max_header_size : ℕ} {req : Request}
  {events rest : List (Event (Answer R))} {o result : Option (Except FetchError R)}

/-- The first request has the caller's head. -/
theorem first_request_parts (req : Request) : (first_request req).parts = req.parts := by
  unfold first_request
  split <;> rfl

/-- The sequence's events are those of a safe fetch, with nothing after them if
it has a result and the eviction if the timer fired. -/
theorem safely_retried (hconc : Concluded o events)
    (hsent : SentFor max_header_size (first_request req) (build_retry req.parts .empty)
      (retry_safe is_idempotent req) events)
    (hend : (∃ r, o = some r ∧ result = some r ∧ rest = []) ∨
      (o = none ∧ result = some (.error .timeout) ∧
        ∃ seq, rest = [⟨.evict_only seq, some ()⟩])) :
    SafelyRetried is_idempotent max_header_size req (events ++ rest) result := by
  -- what follows the sequence is nothing, or the eviction
  have hquiet : Quiet rest := by
    rcases hend with ⟨_, -, -, rfl⟩ | ⟨-, -, seq, rfl⟩
    · exact quiet_nil
    · exact ⟨rfl, by simp [conclusion]⟩
  have hall : transmitted (events ++ rest) = transmitted events := by
    rw [transmitted_append, hquiet.1, List.append_nil]
  have hsome : ∀ r, o = some r → rest = [] ∧ result = some r := by
    intro r hr
    rcases hend with ⟨r', hr', hres, hrest⟩ | ⟨hnone, -, -⟩
    · exact ⟨hrest, by rw [hres, ← hr', hr]⟩
    · rw [hnone] at hr
      cases hr
  refine ⟨?_, ?_, ?_, ?_, ?_, ?_⟩
  · rcases hend with ⟨_, -, h, -⟩ | ⟨-, h, -⟩ <;> rw [h] <;> rfl
  · rw [hall]
    rcases hsent with h | ⟨_, h⟩ | ⟨h, -⟩ <;> rw [h] <;> simp
  · intro req₁ req₂ more heq
    rw [hall] at heq
    rcases hsent with h | ⟨_, h⟩ | ⟨h, hsafe, seq, err, post, hevents, hcaller⟩
    · rw [h] at heq
      cases heq
    · rw [h] at heq
      cases heq
    · rw [h, List.cons.injEq, List.cons.injEq] at heq
      obtain ⟨rfl, rfl, -⟩ := heq
      rw [retry_safe, body_resendable, Bool.and_eq_true, Bool.and_eq_true, beq_iff_eq] at hsafe
      obtain ⟨⟨hatend, hzero⟩, hidem⟩ := hsafe
      have hparts := first_request_parts req
      refine ⟨⟨seq, err, post ++ rest, ?_, hcaller⟩, hidem, hatend, hzero, hparts, ?_, ?_, ?_, ?_⟩
      · rw [hevents, List.append_assoc, List.cons_append]
      all_goals rw [hparts]
      all_goals rfl
  · intro pre req' resp post heq
    obtain ⟨hpost, ho⟩ := hconc.split hquiet.2 heq rfl
    obtain ⟨hrest, hres⟩ := hsome _ ho
    exact ⟨hpost.trans hrest, hres⟩
  · intro pre req' err detail post heq hdetail
    have hc : conclusion (⟨.oneshot req', some (.error err)⟩ : Event (Answer R))
        = some (some (.error (.request_body_failed detail err))) := by
      simp only [conclusion, send_error, hdetail]
      rfl
    obtain ⟨hpost, ho⟩ := hconc.split hquiet.2 heq hc
    obtain ⟨hrest, hres⟩ := hsome _ ho
    exact ⟨hpost.trans hrest, hres⟩
  · intro pre e post heq
    obtain ⟨hpost, ho⟩ := hconc.split hquiet.2 heq rfl
    rcases hend with ⟨r, hr, -, -⟩ | ⟨-, hres, seq, hrest⟩
    · rw [hr] at ho
      cases ho
    · exact ⟨⟨seq, hpost.trans hrest⟩, hres⟩

/-- **Every execution of a fetch**, against any oracle, ends as its last event says and resends only
what may be. -/
theorem fetch_seq_exec {oracle : List (Event (Answer R)) → (e : Effect) → Answer R e}
    {waits : Option ℕ} {cell : Option ℕ}
    (h : exec oracle (fetch_seq is_idempotent max_header_size req) waits none [] = (events, cell, o)) :
    Concluded o events ∧ SentFor max_header_size (first_request req)
      (build_retry req.parts .empty) (retry_safe is_idempotent req) events := by
  obtain ⟨tr, htr, hrun⟩ :=
    runs_exec oracle (fetch_seq is_idempotent max_header_size req) waits none []
  rw [h] at htr hrun
  rw [List.nil_append] at htr
  exact retry_of_runs (htr ▸ hrun)

/-- The sequence has a result, and the fetch returns it. -/
theorem safely_retried_result {oracle : List (Event (Answer R)) → (e : Effect) → Answer R e}
    {waits : Option ℕ} {cell : Option ℕ} {r : Except FetchError R}
    (h : exec oracle (fetch_seq is_idempotent max_header_size req) waits none []
      = (events, cell, some r)) :
    SafelyRetried is_idempotent max_header_size req events (some r) := by
  obtain ⟨hconc, hsent⟩ := fetch_seq_exec h
  have hsafe := safely_retried hconc hsent (.inl ⟨r, rfl, rfl, rfl⟩)
  rw [List.append_nil] at hsafe
  exact hsafe

/-- **The transparent retry is safe**, for every request and every sequence of
outcomes, and wherever the timer fires. -/
theorem fetch_request_safely_retried (is_idempotent : String → Bool) (max_header_size : ℕ)
    (timeout : Option ℕ) (req : Request)
    (oracle : List (Event (Answer R)) → (e : Effect) → Answer R e) (elapsed : Option ℕ) :
    SafelyRetried is_idempotent max_header_size req
      (fetch_request is_idempotent max_header_size timeout req oracle elapsed).1
      (fetch_request is_idempotent max_header_size timeout req oracle elapsed).2 := by
  unfold fetch_request
  cases timeout with
  | none =>
      have hsome :=
        exec_none_isSome oracle (fetch_seq is_idempotent max_header_size req) none []
      rcases hexec : exec oracle (fetch_seq is_idempotent max_header_size req) none none []
        with ⟨events, cell, o⟩
      rw [hexec] at hsome
      obtain ⟨r, rfl⟩ := Option.isSome_iff_exists.mp hsome
      exact safely_retried_result hexec
  | some _ =>
      rcases hexec : exec oracle (fetch_seq is_idempotent max_header_size req) elapsed none []
        with ⟨events, cell, _ | r⟩
      · obtain ⟨hconc, hsent⟩ := fetch_seq_exec hexec
        exact safely_retried hconc hsent (.inr ⟨rfl, rfl, cell, rfl⟩)
      · exact safely_retried_result hexec

-- A stale pooled connection: the request goes out on it and again on a fresh one.
example :
    let get : Request := ⟨⟨"GET", "/", .http_11, [("a", [1])], ["x"]⟩, .empty⟩
    let stale : HyperError := ⟨"connection closed", [.other "closed"]⟩
    let oracle (h : List (Event (Answer ℕ))) : (e : Effect) → Answer ℕ e
      | .get_or_connect => .ok (if h.length = 0 then (0, true) else (1, false))
      | .open_bi _ => .ok ()
      | .handshake _ _ => .ok ()
      | .oneshot _ => if h.length = 3 then .error stale else .ok 200
      | .evict_and_close _ _ => ()
      | .evict_only _ => ()
    let fetch := fetch_request (fun m => m == "GET") 65536 none get oracle none
    transmitted fetch.1 = [get, ⟨⟨"GET", "/", .http_11, [("a", [1])], []⟩, .empty⟩] ∧
      fetch.2 = some (.ok 200) := by
  exact ⟨rfl, rfl⟩

end Fetch

end IrohHttp.Client
