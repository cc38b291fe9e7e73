/-
The response-head rendezvous of `iroh-http-core/src/ffi/dispatcher.rs`.

A dispatched request parks the sending half of a oneshot channel in the
`request_heads` registry and awaits the receiving half. Three parties race to
take the sender out again: a `respond` call, the dispatch's own `ReqHeadGuard`,
and the TTL sweeper. `Rendezvous` is all of them at once. A request is named by
a number that doubles as the identity of its oneshot channel, so the registry
stores request numbers; the atomic steps are the registry lock's critical
sections and the channel operations between them.

Request handles are distinct by assumption: a `dispatch` that would be issued a
handle of an earlier request has no successor. `HandleRuns.lean` says which runs
of the store that excludes.
-/
import IrohHttp.Dispatcher
import IrohHttp.HandleUse

set_option autoImplicit false

namespace IrohHttp.Dispatcher

open IrohHttp.Handles IrohHttp.Http SlotMap

/-! ## `respond` -/

/-- The status and headers sent to a waiting dispatch. -/
structure ResponseHeadEntry where
  status : ℕ
  headers : List (String × String)
  deriving DecidableEq, Repr

/-- The header loop of `respond`. -/
def validate_headers (http : HttpCrate) : List (String × String) → Except CoreError Unit
  | [] => .ok ()
  | (name, value) :: rest =>
    let quoted := name.quote
    if !http.header_name name then
      .error (CoreError.invalid_input s!"invalid response header name {quoted}")
    else if !http.header_value value then
      .error (CoreError.invalid_input s!"invalid response header value for {quoted}")
    else validate_headers http rest

/-- What `respond` checks before it takes the sender. -/
def validate (http : HttpCrate) (head : ResponseHeadEntry) : Except CoreError Unit :=
  let status := head.status
  if !http.status_code status then
    .error (CoreError.invalid_input s!"invalid HTTP status code: {status}")
  else validate_headers http head.headers

/-- The fail-closed head of a request that cannot reach its handler;
`deliver_request` responds with it. -/
def reject_undeliverable : ResponseHeadEntry := ⟨503, [("content-length", "0")]⟩

theorem reject_undeliverable_valid : validate visible_ascii reject_undeliverable = .ok () := by
  decide

/-- What `dispatch` makes of the head it receives. -/
def dispatched_response (http : HttpCrate) (head : ResponseHeadEntry) : Response :=
  match http.build head.status head.headers with
  | some headers => ⟨head.status, headers, .reader⟩
  | none => internal_error "failed to build response head from JS"

/-- A head that the builder accepts comes through with its status and its rows. -/
theorem dispatched_response_rows {http : HttpCrate} {head : ResponseHeadEntry}
    (h : (http.build head.status head.headers).isSome = true) :
    (dispatched_response http head).status = head.status ∧
      (dispatched_response http head).headers.Perm
        (head.headers.map fun h => (to_ascii_lowercase h.1, h.2)) := by
  obtain ⟨headers, hbuild⟩ := Option.isSome_iff_exists.mp h
  rw [dispatched_response, hbuild]
  exact ⟨rfl, http.build_perm _ _ _ hbuild⟩

/-- What `dispatch` returns when the sender is dropped unused. -/
def unanswered : Response := internal_error "JS handler dropped without responding"

/-! ## States -/

/-- Where a request's dispatch is. The handle stays with it to the end; the
response is `none` when the dispatch was cancelled. -/
inductive Phase
  | idle
  | awaiting (h : ℕ)
  | finishing (h : ℕ) (response : Option Response)
  | ended (h : ℕ) (response : Option Response)
  deriving DecidableEq, Repr

/-- The request handle of a dispatched request. -/
def Phase.handle : Phase → Option ℕ
  | .idle => none
  | .awaiting h => some h
  | .finishing h _ => some h
  | .ended h _ => some h

/-- The guard of this dispatch has still to run. -/
def Phase.guarded : Phase → Bool
  | .awaiting _ => true
  | .finishing _ _ => true
  | _ => false

/-- The response of a dispatch that has one. -/
def Phase.response : Phase → Option Response
  | .finishing _ r => r
  | .ended _ r => r
  | _ => none

/-- What the registries store: senders by request, and nothing of interest
elsewhere. -/
abbrev Contents : Registry → Type
  | .request_heads => ℕ
  | _ => Unit

/-- A `respond` call between its take and its send. -/
structure Sending where
  request : ℕ
  handle : ℕ
  head : ResponseHeadEntry

/-- A `respond` call that has returned. A success carries the request it
answered. -/
structure Responded where
  handle : ℕ
  head : ResponseHeadEntry
  result : Except CoreError ℕ

/-- The request a call answered. -/
def Responded.answered (r : Responded) : Option ℕ := r.result.toOption

/-- The store, where every request stands, the head its channel holds, the calls of `respond`
between taking a sender and using it, the handles issued and the calls that returned. -/
structure Rendezvous (M : Type → Type) where
  store : HandleStore M Contents
  phase : ℕ → Phase
  head : ℕ → Option ResponseHeadEntry
  sending : List Sending
  handles : List ℕ
  responds : List Responded

/-- The steps. `send` is by the responder that holds the request's sender, and
`other` is any store operation that neither parks nor takes a sender by handle:
among them the sweep of the request heads. -/
inductive Label
  | dispatch (request : ℕ) (now : Instant)
  | respond (handle : ℕ) (head : ResponseHeadEntry)
  | send (request : ℕ)
  | complete (request : ℕ)
  | cancel (request : ℕ)
  | drop_guard (request : ℕ)
  | other (op : StoreOp Contents) (now : Instant)

/-- A store operation that is not one of the rendezvous's own. -/
def is_other : StoreOp Contents → Bool
  | .allocate_req_handle _ => false
  | .take_req_sender _ => false
  | _ => true

namespace Rendezvous

variable {K : Type} {M : Type → Type} [SlotMap K M]

/-- No request has come yet. -/
def start (config : StoreConfig) : Rendezvous M where
  store := HandleStore.new config
  phase := fun _ => .idle
  head := fun _ => none
  sending := []
  handles := []
  responds := []

/-- No one holds the request's sender any more. -/
def sender_gone (s : Rendezvous M) (request : ℕ) : Bool :=
  (iter (s.store.registry .request_heads)).all (fun e => e.2.value != request)
    && s.sending.all fun c => c.request != request

/-- Record a `respond` call that has returned. -/
def returned (s : Rendezvous M) (handle : ℕ) (head : ResponseHeadEntry)
    (result : Except CoreError ℕ) : Rendezvous M :=
  { s with responds := s.responds ++ [⟨handle, head, result⟩] }

/-- `dispatch` allocates the request's handle and waits for the head. A full registry leaves the
request where it is. -/
def dispatch_step (s : Rendezvous M) (request : ℕ) (now : Instant) : Option (Rendezvous M) :=
  match s.phase request with
  | .idle =>
    match s.store.allocate_req_handle request now with
    | (.error _, _) => some s
    | (.ok h, store) =>
      -- handles are distinct: the run ends where one comes again
      if h ∈ s.handles then none
      else
        some { s with
          store := store
          phase := Function.update s.phase request (.awaiting h)
          handles := s.handles ++ [h] }
  | _ => none

/-- `respond` up to its send: validation, then taking the sender out of the registry. -/
def respond_step (http : HttpCrate) (s : Rendezvous M) (handle : ℕ) (head : ResponseHeadEntry) :
    Rendezvous M :=
  match validate http head with
  -- the sender stays where it is
  | .error e => s.returned handle head (.error e)
  | .ok _ =>
    match s.store.take_req_sender handle with
    | (none, _) => s.returned handle head (.error (CoreError.invalid_handle handle))
    | (some request, store) =>
      { s with store := store, sending := s.sending ++ [⟨request, handle, head⟩] }

/-- The send of a `respond` that took the request's sender. It fails when the request no longer
waits. -/
def send_step (s : Rendezvous M) (request : ℕ) : Option (Rendezvous M) :=
  match s.sending.find? fun c => c.request == request with
  | none => none
  | some c =>
    let s := { s with sending := s.sending.filter fun c => c.request != request }
    match s.phase request with
    | .awaiting _ =>
      some ({ s with head := Function.update s.head request (some c.head) }.returned c.handle c.head
        (.ok request))
    -- the receiver is gone, and the sender with the call
    | _ =>
      some (s.returned c.handle c.head
        (.error (CoreError.internal "serve task dropped before respond")))

/-- `dispatch` is woken: by a head, of which it builds the response, or by the loss of its sender.
-/
def complete_step (http : HttpCrate) (s : Rendezvous M) (request : ℕ) : Option (Rendezvous M) :=
  match s.phase request with
  | .awaiting h =>
    match s.head request with
    | some head =>
      some { s with
        phase := Function.update s.phase request (.finishing h (dispatched_response http head)) }
    | none =>
      if s.sender_gone request then
        some { s with phase := Function.update s.phase request (.finishing h (some unanswered)) }
      else none
  | _ => none

/-- The dispatch future is dropped; the receiver goes first, then the guard. -/
def cancel_step (s : Rendezvous M) (request : ℕ) : Option (Rendezvous M) :=
  match s.phase request with
  | .awaiting h => some { s with phase := Function.update s.phase request (.finishing h none) }
  | _ => none

/-- The guard of the request's handle is dropped, and with it what the registry still holds. -/
def drop_guard_step (s : Rendezvous M) (request : ℕ) : Option (Rendezvous M) :=
  match s.phase request with
  | .finishing h response =>
    some { s with
      store := (s.store.take_req_sender h).2
      phase := Function.update s.phase request (.ended h response) }
  | _ => none

/-- One step. A store operation of another request is `other`, and touches no head. -/
def step (http : HttpCrate) (s : Rendezvous M) : Label → Option (Rendezvous M)
  | .dispatch request now => s.dispatch_step request now
  | .respond handle head => some (s.respond_step http handle head)
  | .send request => s.send_step request
  | .complete request => s.complete_step http request
  | .cancel request => s.cancel_step request
  | .drop_guard request => s.drop_guard_step request
  | .other op now =>
    if is_other op then some { s with store := (perform s.store op now).2 } else none

/-! ## The invariant -/

/-- The calls that answered request `q`. -/
def answers (s : Rendezvous M) (q : ℕ) : List Responded :=
  s.responds.filter fun r => decide (r.answered = some q)

/-- A sender is in one place at a time: in the registry under its own request's
key, with one responder, or used up. A request is answered by one call, whose
head is the one in its channel. -/
structure Inv (http : HttpCrate) (s : Rendezvous M) : Prop where
  parked : ∀ k e, get (s.store.registry .request_heads) k = some e →
    (s.phase e.value).guarded = true ∧ s.head e.value = none ∧
      e.value ∉ s.sending.map Sending.request ∧
      ∃ h, (s.phase e.value).handle = some h ∧ handle_to_key M h = k
  taken : ∀ c ∈ s.sending, s.head c.request = none ∧
    ∃ h, (s.phase c.request).handle = some h ∧ handle_to_key M c.handle = handle_to_key M h
  unanswered : ∀ q, s.head q = none → s.answers q = []
  answered : ∀ q head, s.head q = some head → ∃ g h, s.answers q = [⟨g, head, .ok q⟩] ∧
    (s.phase q).handle = some h ∧ handle_to_key M g = handle_to_key M h
  issued : ∀ q h, (s.phase q).handle = some h → h ∈ s.handles
  own : ∀ q q' h, (s.phase q).handle = some h → (s.phase q').handle = some h → q = q'
  decodes : ∀ h ∈ s.handles, key_to_handle M (handle_to_key M h) = h
  responded : ∀ q r, (s.phase q).response = some r →
    (∃ head, s.head q = some head ∧ r = dispatched_response http head) ∨
      (s.head q = none ∧ r = Dispatcher.unanswered)

variable {http : HttpCrate} {s : Rendezvous M}

theorem inv_start (http : HttpCrate) (config : StoreConfig) :
    Inv http (start config : Rendezvous M) where
  parked k e he := by
    simp only [start, HandleStore.new, get_with_key, reduceCtorEq] at he
  taken c hc := absurd hc List.not_mem_nil
  unanswered q _ := rfl
  answered q head h := by cases h
  issued q h hq := by cases hq
  own q q' h hq := by cases hq
  decodes h hh := absurd hh List.not_mem_nil
  responded q r hr := by cases hr

/-- A call that has returned is an answer to the request it names, if it names one. -/
theorem answers_returned (s : Rendezvous M) (g : ℕ) (head : ResponseHeadEntry)
    (result : Except CoreError ℕ) (q : ℕ) :
    (s.returned g head result).answers q =
      s.answers q ++ if result.toOption = some q then [⟨g, head, result⟩] else [] := by
  rw [answers, returned, List.filter_append, List.filter_singleton]
  by_cases hq : result.toOption = some q <;> simp [answers, Responded.answered, hq]

/-- A call that failed answers nothing. -/
theorem inv_returned_error (hinv : Inv http s) (g : ℕ) (head : ResponseHeadEntry)
    (e : CoreError) : Inv http (s.returned g head (.error e)) := by
  have hans : ∀ q, (s.returned g head (.error e)).answers q = s.answers q := by
    intro q
    rw [answers_returned, if_neg (by simp [Except.toOption]), List.append_nil]
  refine ⟨hinv.parked, hinv.taken, ?_, ?_, hinv.issued, hinv.own, hinv.decodes, hinv.responded⟩
  · intro q hq
    rw [hans]
    exact hinv.unanswered q hq
  · intro q head hq
    rw [hans]
    exact hinv.answered q head hq

/-- Losing entries from the registry does not matter. -/
theorem inv_store (hinv : Inv http s) (store : HandleStore M Contents)
    (hkept : ∀ k e, get (store.registry .request_heads) k = some e →
      get (s.store.registry .request_heads) k = some e) :
    Inv http { s with store := store } :=
  ⟨fun k e he => hinv.parked k e (hkept k e he), hinv.taken, hinv.unanswered, hinv.answered,
    hinv.issued, hinv.own, hinv.decodes, hinv.responded⟩

/-- A responder gives up the sender it holds. -/
theorem inv_sending (hinv : Inv http s) (q : ℕ) :
    Inv http { s with sending := s.sending.filter fun c => c.request != q } := by
  have hsub : ∀ c ∈ s.sending.filter (fun c => c.request != q), c ∈ s.sending :=
    fun c hc => (List.mem_filter.mp hc).1
  refine ⟨?_, fun c hc => hinv.taken c (hsub c hc), hinv.unanswered, hinv.answered, hinv.issued,
    hinv.own, hinv.decodes, hinv.responded⟩
  intro k e he
  obtain ⟨hg, hn, hno, hh⟩ := hinv.parked k e he
  refine ⟨hg, hn, fun hmem => hno ?_, hh⟩
  obtain ⟨c, hc, hcq⟩ := List.mem_map.mp hmem
  exact List.mem_map.mpr ⟨c, hsub c hc, hcq⟩

/-- A dispatch moves on with its handle. Once its guard has run, its sender must
not be in the registry. -/
theorem inv_phase (hinv : Inv http s) (q : ℕ) (p : Phase) (hh : p.handle = (s.phase q).handle)
    (hg : p.guarded = true ∨
      ∀ k e, get (s.store.registry .request_heads) k = some e → e.value ≠ q)
    (hr : ∀ r, p.response = some r →
      (∃ head, s.head q = some head ∧ r = dispatched_response http head) ∨
        (s.head q = none ∧ r = Dispatcher.unanswered)) :
    Inv http { s with phase := Function.update s.phase q p } := by
  -- every request has the handle it had
  have hhandle : ∀ q', (Function.update s.phase q p q').handle = (s.phase q').handle := by
    intro q'
    by_cases hq : q' = q
    · rw [hq, Function.update_self, hh]
    · rw [Function.update_of_ne hq]
  refine ⟨?_, ?_, hinv.unanswered, ?_, ?_, ?_, hinv.decodes, ?_⟩
  · intro k e he
    obtain ⟨hguard, hn, hno, h, hph, hk⟩ := hinv.parked k e he
    refine ⟨?_, hn, hno, h, (hhandle _).trans hph, hk⟩
    by_cases hq : e.value = q
    · rcases hg with hg | hg
      · simp only [hq, Function.update_self, hg]
      · exact absurd hq (hg k e he)
    · simp only [Function.update_of_ne hq, hguard]
  · intro c hc
    obtain ⟨hn, h, hph, hk⟩ := hinv.taken c hc
    exact ⟨hn, h, (hhandle _).trans hph, hk⟩
  · intro q' head hq'
    obtain ⟨g, h, hans, hph, hk⟩ := hinv.answered q' head hq'
    exact ⟨g, h, hans, (hhandle _).trans hph, hk⟩
  · intro q' h hq'
    exact hinv.issued q' h ((hhandle q').symm.trans hq')
  · intro q₁ q₂ h h₁ h₂
    exact hinv.own q₁ q₂ h ((hhandle q₁).symm.trans h₁) ((hhandle q₂).symm.trans h₂)
  · intro q' r hr'
    by_cases hq : q' = q
    · subst hq
      exact hr r (by simpa only [Function.update_self] using hr')
    · exact hinv.responded q' r (by simpa only [Function.update_of_ne hq] using hr')

/-! ## Every step keeps it -/

/-- Two dispatched requests with the same key are the same request. -/
theorem Inv.eq_of_key (hinv : Inv http s) {q q' h h' : ℕ} (hq : (s.phase q).handle = some h)
    (hq' : (s.phase q').handle = some h') (hk : handle_to_key M h = handle_to_key M h') :
    q = q' := by
  have hh : h = h' := by
    rw [← hinv.decodes h (hinv.issued q h hq), hk, hinv.decodes h' (hinv.issued q' h' hq')]
  exact hinv.own q q' h hq (hh ▸ hq')

theorem kept_take (store : HandleStore M Contents) (h : ℕ) (k : K) (e : Timed ℕ)
    (he : get ((store.take_req_sender h).2.registry .request_heads) k = some e) :
    get (store.registry .request_heads) k = some e :=
  Usage.kept_remove_from store .request_heads h .request_heads k e he

/-- A dispatch starts: its sender is parked under a handle no request had. -/
theorem inv_park (hinv : Inv http s) {q : ℕ} (hidle : s.phase q = .idle) {h : ℕ}
    (hnew : h ∉ s.handles) (hdecodes : key_to_handle M (handle_to_key M h) = h)
    {store : HandleStore M Contents}
    (hget : ∀ k e, get (store.registry .request_heads) k = some e →
      (k = handle_to_key M h ∧ e.value = q) ∨ get (s.store.registry .request_heads) k = some e) :
    Inv http { s with
      store := store
      phase := Function.update s.phase q (.awaiting h)
      handles := s.handles ++ [h] } := by
  have hold : ∀ q', q' ≠ q → Function.update s.phase q (.awaiting h) q' = s.phase q' :=
    fun q' hq' => Function.update_of_ne hq' _ _
  -- a request that has a handle is not this one
  have hne : ∀ q' h', (s.phase q').handle = some h' → q' ≠ q := by
    rintro q' h' hph rfl
    rw [hidle] at hph
    cases hph
  have hhead : s.head q = none := by
    by_contra hsome
    obtain ⟨head, hq⟩ := Option.ne_none_iff_exists'.mp hsome
    obtain ⟨-, h', -, hph, -⟩ := hinv.answered q head hq
    exact hne q h' hph rfl
  refine ⟨?_, ?_, hinv.unanswered, ?_, ?_, ?_, ?_, ?_⟩
  · intro k e he
    rcases hget k e he with ⟨hk, hv⟩ | hwas
    · rw [hv]
      simp only [Function.update_self]
      refine ⟨rfl, hhead, ?_, h, rfl, hk.symm⟩
      intro hmem
      obtain ⟨c, hc, hcq⟩ := List.mem_map.mp hmem
      obtain ⟨-, h', hph, -⟩ := hinv.taken c hc
      exact hne c.request h' hph hcq
    · obtain ⟨hg, hn, hno, h', hph, hkh⟩ := hinv.parked k e hwas
      simp only [hold e.value (hne _ h' hph)]
      exact ⟨hg, hn, hno, h', hph, hkh⟩
  · intro c hc
    obtain ⟨hn, h', hph, hk⟩ := hinv.taken c hc
    simp only [hold c.request (hne _ h' hph)]
    exact ⟨hn, h', hph, hk⟩
  · intro q' head hq'
    obtain ⟨g, h', hans, hph, hk⟩ := hinv.answered q' head hq'
    simp only [hold q' (hne _ h' hph)]
    exact ⟨g, h', hans, hph, hk⟩
  · intro q' h' hph
    by_cases hq' : q' = q
    · simp only [hq', Function.update_self, Phase.handle, Option.some.injEq] at hph
      simp only [List.mem_append, List.mem_singleton, hph, or_true]
    · simp only [hold q' hq'] at hph
      exact List.mem_append_left _ (hinv.issued q' h' hph)
  · intro q₁ q₂ h' h₁ h₂
    by_cases hq₁ : q₁ = q <;> by_cases hq₂ : q₂ = q
    · rw [hq₁, hq₂]
    · simp only [hq₁, Function.update_self, Phase.handle, Option.some.injEq] at h₁
      simp only [hold q₂ hq₂] at h₂
      exact absurd (hinv.issued q₂ h' h₂) (h₁ ▸ hnew)
    · simp only [hq₂, Function.update_self, Phase.handle, Option.some.injEq] at h₂
      simp only [hold q₁ hq₁] at h₁
      exact absurd (hinv.issued q₁ h' h₁) (h₂ ▸ hnew)
    · simp only [hold q₁ hq₁] at h₁
      simp only [hold q₂ hq₂] at h₂
      exact hinv.own q₁ q₂ h' h₁ h₂
  · intro h' hh
    rcases List.mem_append.mp hh with hh | hh
    · exact hinv.decodes h' hh
    · rw [List.mem_singleton.mp hh, hdecodes]
  · intro q' r hr
    by_cases hq' : q' = q
    · simp only [hq', Function.update_self, Phase.response, reduceCtorEq] at hr
    · simp only [hold q' hq'] at hr
      exact hinv.responded q' r hr

/-- A request that is registered. -/
theorem inv_dispatch (hinv : Inv http s) {q : ℕ} {now : Instant} {s' : Rendezvous M}
    (h : s.dispatch_step q now = some s') : Inv http s' := by
  unfold dispatch_step at h
  split at h
  · next hidle =>
    unfold HandleStore.allocate_req_handle HandleStore.insert_into insert_checked at h
    by_cases hroom : s.store.config.max_handles ≤ len (s.store.registry .request_heads)
    · -- the registry is full and the request is turned away
      rw [if_pos hroom] at h
      dsimp only at h
      rw [Option.some.injEq] at h
      exact h ▸ hinv
    · rw [if_neg hroom] at h
      dsimp only at h
      rw [Option.ite_none_left_eq_some, Option.some.injEq] at h
      obtain ⟨hnew, h⟩ := h
      subst h
      generalize hins : insert (s.store.registry .request_heads) (Timed.new q now) = ins at hnew ⊢
      have hiss : Issued ins.2 ins.1 := by
        rw [← hins]
        exact (issued_insert _ _ _).mpr (.inl rfl)
      have hkey : handle_to_key M (key_to_handle M ins.1) = ins.1 := from_as_ffi _ _ hiss
      refine inv_park hinv hidle hnew (by rw [hkey]) fun k e he => ?_
      simp only [HandleStore.set_registry_self] at he
      by_cases hk : k = ins.1
      · rw [hk, ← hins, get_insert_self, Option.some.injEq] at he
        exact .inl ⟨hk.trans hkey.symm, by rw [← he]; rfl⟩
      · rw [← hins, get_insert_of_ne (by rw [hins]; exact hk)] at he
        exact .inr he
  · cases h

/-- A call of `respond` that takes a sender, or fails. -/
theorem inv_respond (hinv : Inv http s) (g : ℕ) (head : ResponseHeadEntry) :
    Inv http (s.respond_step http g head) := by
  unfold respond_step
  split
  · exact inv_returned_error hinv g head _
  · unfold HandleStore.take_req_sender HandleStore.remove_from
    cases hentry : s.store.entry .request_heads g with
    | none => exact inv_returned_error hinv g head _
    | some e =>
        dsimp only [Option.map_some]
        obtain ⟨-, hn, hno, h, hph, hk⟩ := hinv.parked _ e hentry
        refine ⟨?_, ?_, hinv.unanswered, hinv.answered, hinv.issued, hinv.own, hinv.decodes,
          hinv.responded⟩
        · intro k e' he'
          have hold := kept_take s.store g k e' he'
          obtain ⟨hg, hn', hno', h', hph', hk'⟩ := hinv.parked k e' hold
          refine ⟨hg, hn', ?_, h', hph', hk'⟩
          -- the entry taken was the only one of its request
          intro hmem
          rw [List.map_append, List.mem_append, List.map_singleton, List.mem_singleton] at hmem
          rcases hmem with hmem | hmem
          · exact hno' hmem
          · have hkk : k = handle_to_key M g := by
              rw [← hk', ← hk]
              rw [hmem, hph, Option.some.injEq] at hph'
              rw [hph']
            simp only [HandleStore.set_registry_self, hkk, get_remove_self, reduceCtorEq] at he'
        · intro c hc
          rcases List.mem_append.mp hc with hc | hc
          · exact hinv.taken c hc
          · rw [List.mem_singleton.mp hc]
            exact ⟨hn, h, hph, hk.symm⟩

/-- A responder's head goes into the channel of a dispatch that awaits it. -/
theorem inv_deliver (hinv : Inv http s) {c : Sending} (hc : c ∈ s.sending)
    (hwait : (s.phase c.request).response = none) :
    Inv http ({ s with
      sending := s.sending.filter fun d => d.request != c.request
      head := Function.update s.head c.request (some c.head) }.returned c.handle c.head
        (.ok c.request)) := by
  obtain ⟨hn, g, hph, hk⟩ := hinv.taken c hc
  have hinv' := inv_sending hinv c.request
  generalize ht : { s with
    sending := s.sending.filter fun d => d.request != c.request
    head := Function.update s.head c.request (some c.head) } = t
  have hresp : t.responds = s.responds := by rw [← ht]
  have hans : ∀ q, q ≠ c.request →
      (t.returned c.handle c.head (.ok c.request)).answers q = s.answers q := by
    intro q hq
    rw [answers_returned, if_neg (by simpa [Except.toOption] using hq.symm), List.append_nil,
      answers, answers, hresp]
  have hansc : (t.returned c.handle c.head (.ok c.request)).answers c.request
      = [⟨c.handle, c.head, .ok c.request⟩] := by
    have hnil : t.answers c.request = [] := by
      rw [answers, hresp]
      exact hinv.unanswered c.request hn
    rw [answers_returned, hnil, List.nil_append]
    exact if_pos rfl
  subst ht
  refine ⟨?_, ?_, ?_, ?_, hinv.issued, hinv.own, hinv.decodes, ?_⟩
  · intro k e he
    obtain ⟨hg, hn', hno, hh⟩ := hinv'.parked k e he
    -- a sender in the registry is not the one this responder holds
    have hne : e.value ≠ c.request := by
      intro heq
      obtain ⟨-, -, hno', -⟩ := hinv.parked k e he
      exact hno' (heq ▸ List.mem_map.mpr ⟨c, hc, rfl⟩)
    refine ⟨hg, ?_, hno, hh⟩
    simp only [returned, Function.update_of_ne hne]
    exact hn'
  · intro d hd
    obtain ⟨hn', hh⟩ := hinv'.taken d hd
    have hne : d.request ≠ c.request := by simpa using (List.mem_filter.mp hd).2
    refine ⟨?_, hh⟩
    simp only [returned, Function.update_of_ne hne]
    exact hn'
  · intro q hq
    by_cases heq : q = c.request
    · simp only [returned, heq, Function.update_self, reduceCtorEq] at hq
    · rw [hans q heq]
      simp only [returned, Function.update_of_ne heq] at hq
      exact hinv.unanswered q hq
  · intro q head hq
    by_cases heq : q = c.request
    · simp only [returned, heq, Function.update_self, Option.some.injEq] at hq
      subst heq hq
      exact ⟨c.handle, g, hansc, hph, hk⟩
    · rw [hans q heq]
      simp only [returned, Function.update_of_ne heq] at hq
      exact hinv.answered q head hq
  · intro q r hr
    by_cases heq : q = c.request
    · simp only [returned, heq, hwait, reduceCtorEq] at hr
    · simp only [returned, Function.update_of_ne heq]
      exact hinv.responded q r hr

/-- The head is sent to the request whose sender was taken. -/
theorem inv_send (hinv : Inv http s) {q : ℕ} {s' : Rendezvous M} (h : s.send_step q = some s') :
    Inv http s' := by
  unfold send_step at h
  split at h
  · cases h
  · next c hfind =>
    have hc : c ∈ s.sending := List.mem_of_find?_eq_some hfind
    have hcq : c.request = q := by simpa using List.find?_some hfind
    subst hcq
    dsimp only at h
    split at h
    · -- the receiver is still there: the head is in the channel from here on
      next hw =>
        rw [Option.some.injEq] at h
        exact h ▸ inv_deliver hinv hc (by rw [hw]; rfl)
    · rw [Option.some.injEq] at h
      exact h ▸ inv_returned_error (inv_sending hinv c.request) _ _ _

/-- A request gets its head, or loses its sender. -/
theorem inv_complete (hinv : Inv http s) {q : ℕ} {s' : Rendezvous M}
    (h : s.complete_step http q = some s') : Inv http s' := by
  unfold complete_step at h
  split at h
  · next g hph =>
    split at h
    · next head hhead =>
      rw [Option.some.injEq] at h
      subst h
      refine inv_phase hinv q _ (by rw [hph]; rfl) (.inl rfl) ?_
      intro r hr
      rw [Phase.response, Option.some.injEq] at hr
      exact .inl ⟨head, hhead, hr.symm⟩
    · next hhead =>
      rw [Option.ite_none_right_eq_some] at h
      obtain ⟨-, h⟩ := h
      rw [Option.some.injEq] at h
      subst h
      refine inv_phase hinv q _ (by rw [hph]; rfl) (.inl rfl) ?_
      intro r hr
      rw [Phase.response, Option.some.injEq] at hr
      exact .inr ⟨hhead, hr.symm⟩
  · cases h

/-- A request is cancelled. -/
theorem inv_cancel (hinv : Inv http s) {q : ℕ} {s' : Rendezvous M}
    (h : s.cancel_step q = some s') : Inv http s' := by
  unfold cancel_step at h
  split at h
  · next g hph =>
    rw [Option.some.injEq] at h
    subst h
    refine inv_phase hinv q _ (by rw [hph]; rfl) (.inl rfl) ?_
    intro r hr
    cases hr
  · cases h

/-- A guard is dropped. -/
theorem inv_drop_guard (hinv : Inv http s) {q : ℕ} {s' : Rendezvous M}
    (h : s.drop_guard_step q = some s') : Inv http s' := by
  unfold drop_guard_step at h
  split at h
  · next g response hph =>
    rw [Option.some.injEq] at h
    subst h
    have hstore := inv_store hinv (s.store.take_req_sender g).2 (kept_take s.store g)
    refine inv_phase hstore q (.ended g response) (by rw [hph]; rfl) (.inr ?_) ?_
    · -- the request's only entry was under its own handle
      intro k e he heq
      obtain ⟨-, -, -, h', hph', hk⟩ := hstore.parked k e he
      simp only [heq, hph, Phase.handle, Option.some.injEq] at hph'
      rw [← hk, ← hph'] at he
      have hgone := HandleStore.remove_from_entry_self s.store .request_heads g
      exact absurd (hgone.symm.trans he) (by simp)
    · intro r hr
      exact hinv.responded q r (by rw [hph]; exact hr)
  · cases h

/-- A store operation that is not the rendezvous's own parks no sender. -/
theorem kept_other {op : StoreOp Contents} (hop : is_other op = true) (store : HandleStore M Contents)
    (now : Instant) (k : K) (e : Timed ℕ)
    (he : get ((perform store op now).2.registry .request_heads) k = some e) :
    get (store.registry .request_heads) k = some e := by
  classical
  -- what the operation stamps it has issued or touched, and it does neither here
  have hparks : op.inserts ≠ some .request_heads := by
    cases op <;> simp_all [StoreOp.inserts, is_other]
  rcases Usage.stamped_perform store op now .request_heads k e he with ⟨href, -⟩ | ⟨-, hold⟩
  · exfalso
    obtain ⟨h, -, hout | htouch⟩ := Usage.refreshes_eq_true.mp href
    · rcases registry_step store op now .request_heads with
        ⟨-, hins, -, -, -, -⟩ | ⟨-, hno, -, -⟩ | ⟨hno, -, -, -⟩
      · exact hparks hins
      · exact hno h hout
      · exact hno h hout
    · cases op <;> cases htouch
  · exact hold

/-- What one step keeps. -/
theorem inv_step {a : Label} {s' : Rendezvous M} (hinv : Inv http s)
    (h : s.step http a = some s') : Inv http s' := by
  cases a with
  | dispatch q now => exact inv_dispatch hinv h
  | respond g head =>
      simp only [step, Option.some.injEq] at h
      exact h ▸ inv_respond hinv g head
  | send q => exact inv_send hinv h
  | complete q => exact inv_complete hinv h
  | cancel q => exact inv_cancel hinv h
  | drop_guard q => exact inv_drop_guard hinv h
  | other op now =>
      simp only [step, Option.ite_none_right_eq_some, Option.some.injEq] at h
      obtain ⟨hop, h⟩ := h
      subst h
      exact inv_store hinv _ (kept_other hop s.store now)

/-! ## Exactly once -/

/-- What the rendezvous promises in a state. -/
structure ExactlyOnce (http : HttpCrate) (s : Rendezvous M) : Prop where
  /-- At most one `respond` on a handle has succeeded. -/
  at_most_one : ∀ g,
    (s.responds.filter fun r => decide (r.handle = g) && r.answered.isSome).length ≤ 1
  /-- A successful call named the request it answered. -/
  own : ∀ q, ∀ c ∈ s.answers q, ∃ h, (s.phase q).handle = some h ∧
    handle_to_key M c.handle = handle_to_key M h
  /-- The response is what the one successful call sent, or none succeeded. -/
  carried : ∀ q r, (s.phase q).response = some r →
    (∃ c, s.answers q = [c] ∧ r = dispatched_response http c.head) ∨
      (s.answers q = [] ∧ r = Dispatcher.unanswered)
  /-- Of a head that the builder accepts, that is the status and every header row,
  under the lower-case names that a header map has. -/
  rows : ∀ q r c, (s.phase q).response = some r → s.answers q = [c] →
    (http.build c.head.status c.head.headers).isSome = true →
      r.status = c.head.status ∧
        r.headers.Perm (c.head.headers.map fun h => (to_ascii_lowercase h.1, h.2))
  /-- A rejected head changes nothing, and a request whose sender is parked can
  still be answered by the next call. -/
  answerable : ∀ g head e, validate http head = .error e →
    s.step http (.respond g head) = some (s.returned g head (.error e)) ∧
    ∀ q h, s.phase q = .awaiting h → (s.store.entry .request_heads h).isSome = true →
      ∀ head', validate http head' = .ok () →
        ∃ t, Machine.run (step http) (s.returned g head (.error e)) [.respond h head', .send q]
            = some t ∧ t.head q = some head' ∧ t.answers q = [⟨h, head', .ok q⟩]
  /-- After its dispatch has ended, a request handle resolves to nothing. -/
  released : ∀ q h r, s.phase q = .ended h r → s.store.entry .request_heads h = none

theorem Inv.mem_answers {c : Responded} {q : ℕ} :
    c ∈ s.answers q ↔ c ∈ s.responds ∧ c.answered = some q := by
  rw [answers, List.mem_filter, decide_eq_true_eq]

/-- A call that answered a request was given the request's own handle. -/
theorem Inv.answers_own (hinv : Inv http s) {q : ℕ} {c : Responded} (hc : c ∈ s.answers q) :
    ∃ h, (s.phase q).handle = some h ∧ handle_to_key M c.handle = handle_to_key M h := by
  cases hq : s.head q with
  | none =>
      rw [hinv.unanswered q hq] at hc
      exact absurd hc List.not_mem_nil
  | some head =>
      obtain ⟨g, h, hans, hph, hk⟩ := hinv.answered q head hq
      rw [hans, List.mem_singleton] at hc
      exact ⟨h, hph, by rw [hc, hk]⟩

/-- No request is answered twice. -/
theorem Inv.answers_length (hinv : Inv http s) (q : ℕ) : (s.answers q).length ≤ 1 := by
  cases hq : s.head q with
  | none =>
      rw [hinv.unanswered q hq]
      exact Nat.zero_le 1
  | some head =>
      obtain ⟨g, h, hans, -, -⟩ := hinv.answered q head hq
      rw [hans]
      exact Nat.le_refl 1

/-- No handle answers twice. -/
theorem Inv.at_most_one (hinv : Inv http s) (g : ℕ) :
    (s.responds.filter fun r => decide (r.handle = g) && r.answered.isSome).length ≤ 1 := by
  by_cases hany : ∃ c ∈ s.responds, c.handle = g ∧ c.answered.isSome = true
  · obtain ⟨c, hc, hcg, hsome⟩ := hany
    obtain ⟨q, hq⟩ := Option.isSome_iff_exists.mp hsome
    obtain ⟨h, hph, hk⟩ := hinv.answers_own (Inv.mem_answers.mpr ⟨hc, hq⟩)
    -- every success on `g` answered the same request, which has one answer
    refine le_trans ?_ (hinv.answers_length q)
    rw [answers, ← List.countP_eq_length_filter, ← List.countP_eq_length_filter]
    refine List.countP_mono_left fun d hd hdg => ?_
    rw [Bool.and_eq_true, decide_eq_true_eq] at hdg
    obtain ⟨q', hq'⟩ := Option.isSome_iff_exists.mp hdg.2
    obtain ⟨h', hph', hk'⟩ := hinv.answers_own (Inv.mem_answers.mpr ⟨hd, hq'⟩)
    have hqq : q = q' := hinv.eq_of_key hph hph' (by rw [← hk, ← hk', hcg, hdg.1])
    rw [decide_eq_true_eq, hq', hqq]
  · have hnil : (s.responds.filter fun r => decide (r.handle = g) && r.answered.isSome) = [] := by
      refine List.filter_eq_nil_iff.mpr fun c hc hcg => hany ⟨c, hc, ?_⟩
      rw [Bool.and_eq_true, decide_eq_true_eq] at hcg
      exact hcg
    rw [hnil]
    exact Nat.zero_le 1

/-- A parked sender under a request's handle is that request's. -/
theorem Inv.entry_value (hinv : Inv http s) {q h : ℕ} (hph : (s.phase q).handle = some h)
    {e : Timed ℕ} (he : s.store.entry .request_heads h = some e) : e.value = q := by
  obtain ⟨-, -, -, h', hph', hk⟩ := hinv.parked _ e he
  exact hinv.eq_of_key hph' hph hk

/-- A valid head on a parked, awaited request gets through. -/
theorem Inv.answer (hinv : Inv http s) {q h : ℕ} (hph : s.phase q = .awaiting h)
    (hlive : (s.store.entry .request_heads h).isSome = true) {head : ResponseHeadEntry}
    (hok : validate http head = .ok ()) :
    ∃ t, Machine.run (step http) s [.respond h head, .send q] = some t ∧
      t.head q = some head ∧ t.answers q = [⟨h, head, .ok q⟩] := by
  obtain ⟨e, he⟩ := Option.isSome_iff_exists.mp hlive
  have hval : e.value = q := hinv.entry_value (by rw [hph]; rfl) he
  obtain ⟨-, hn, hno, -⟩ := hinv.parked _ e he
  rw [hval] at hn hno
  have hrespond : s.respond_step http h head = { s with
      store := (s.store.take_req_sender h).2, sending := s.sending ++ [⟨q, h, head⟩] } := by
    simp only [respond_step, hok, HandleStore.take_req_sender, HandleStore.remove_from, he,
      Option.map_some, hval]
  -- no one else holds the request's sender, so the call just added is found
  have hfind : (s.sending ++ [(⟨q, h, head⟩ : Sending)]).find? (fun c => c.request == q)
      = some ⟨q, h, head⟩ := by
    rw [List.find?_append, List.find?_eq_none.mpr]
    · simp
    · intro c hc hcq
      exact hno (List.mem_map.mpr ⟨c, hc, by simpa using hcq⟩)
  simp only [Machine.run, step, hrespond, Option.bind_some, send_step, hfind, hph]
  refine ⟨_, rfl, ?_, ?_⟩
  · simp only [returned, Function.update_self]
  · rw [answers_returned]
    exact congrArg₂ (· ++ ·) (hinv.unanswered q hn) (if_pos rfl)

/-- A response is what the one successful call sent, or none succeeded. -/
theorem Inv.carried (hinv : Inv http s) {q : ℕ} {r : Response} (hr : (s.phase q).response = some r) :
    (∃ c, s.answers q = [c] ∧ r = dispatched_response http c.head) ∨
      (s.answers q = [] ∧ r = Dispatcher.unanswered) := by
  rcases hinv.responded q r hr with ⟨head, hhead, rfl⟩ | ⟨hn, rfl⟩
  · obtain ⟨g, h, hans, -, -⟩ := hinv.answered q head hhead
    exact .inl ⟨_, hans, rfl⟩
  · exact .inr ⟨hinv.unanswered q hn, rfl⟩

/-- The invariant is the property. -/
theorem exactlyOnce_of_inv (hinv : Inv http s) : ExactlyOnce http s where
  at_most_one := hinv.at_most_one
  own q c hc := hinv.answers_own hc
  carried q r hr := hinv.carried hr
  rows q r c hr hc hbuild := by
    rcases hinv.carried hr with ⟨c', hc', rfl⟩ | ⟨hnone, -⟩
    · cases hc.symm.trans hc'
      exact dispatched_response_rows hbuild
    · cases hc.symm.trans hnone
  answerable g head e herr := by
    have hrej : s.respond_step http g head = s.returned g head (.error e) := by
      simp only [respond_step, herr]
    refine ⟨by rw [step, hrej], ?_⟩
    intro q h hph hlive head' hok
    exact (inv_returned_error hinv g head e).answer hph hlive hok
  released q h r hph := by
    cases he : s.store.entry .request_heads h with
    | none => rfl
    | some e =>
        -- the entry would be this request's, whose guard has run
        have hhandle : (s.phase q).handle = some h := by rw [hph]; rfl
        obtain ⟨hg, -⟩ := hinv.parked _ e he
        rw [hinv.entry_value hhandle he, hph] at hg
        cases hg

/-- **The rendezvous answers each request at most once.** Whatever the
interleaving of dispatches, responds, cancellations and sweeps. -/
theorem respond_exactly_once (http : HttpCrate) (config : StoreConfig) (schedule : List Label)
    (s : Rendezvous M) (h : Machine.run (step http) (start config) schedule = some s) :
    ExactlyOnce http s :=
  exactlyOnce_of_inv
    (Machine.run_invariant (fun _ _ _ hinv hs => inv_step hinv hs) (inv_start http config) h)

/-- Two requests. The first is refused a head with a control character in a value,
and then answered; the second is cancelled, and a `respond` on it finds nothing. -/
def answered_schedule : List Label :=
  [.dispatch 0 0, .dispatch 1 0, .respond (2 ^ 32 + 1) ⟨200, [("x-name", "a\x01")]⟩,
    .respond (2 ^ 32 + 1) ⟨201, [("Content-Type", "text/plain"), ("set-cookie", "a"),
      ("vary", "origin"), ("Set-Cookie", "é")]⟩, .send 0, .cancel 1, .complete 0, .drop_guard 0,
    .drop_guard 1, .respond (2 ^ 32 + 2) ⟨200, []⟩]

/-- The first dispatch ends with that response, the second with none. -/
theorem respond_exactly_once_answered :
    ∃ s : Rendezvous Slots, Machine.run (step visible_ascii) (start {}) answered_schedule = some s ∧
      s.phase 0 = .ended (2 ^ 32 + 1) (some ⟨201, [("content-type", "text/plain"),
        ("set-cookie", "a"), ("set-cookie", "é"), ("vary", "origin")], .reader⟩) ∧
      s.phase 1 = .ended (2 ^ 32 + 2) none ∧ ExactlyOnce visible_ascii s :=
  ⟨_, rfl, by decide, by decide, respond_exactly_once visible_ascii {} answered_schedule _ rfl⟩

/-! ## A head the builder refuses

`respond` checks every header by itself; only the builder counts them. -/

theorem validate_headers_ok {http : HttpCrate} {headers : List (String × String)}
    (h : ∀ f ∈ headers, http.header_name f.1 = true ∧ http.header_value f.2 = true) :
    validate_headers http headers = .ok () := by
  induction headers with
  | nil => rfl
  | cons f rest ih =>
      obtain ⟨hname, hvalue⟩ := h f List.mem_cons_self
      unfold validate_headers
      simp only [hname, hvalue, Bool.not_true, Bool.false_eq_true, if_false]
      exact ih fun g hg => h g (List.mem_cons_of_mem f hg)

/-- `size` headers, each with a name of its own. -/
def crowded_head (size : ℕ) : ResponseHeadEntry :=
  ⟨200, (List.range size).map fun n => (String.ofList (List.replicate (n + 1) 'a'), "")⟩

/-- Validation does not count the rows. -/
theorem crowded_head_valid {size : ℕ} (hsize : size < 2 ^ 16) :
    validate visible_ascii (crowded_head size) = .ok () := by
  have hheaders : validate_headers visible_ascii (crowded_head size).headers = .ok () := by
    refine validate_headers_ok fun f hf => ?_
    obtain ⟨n, hn, rfl⟩ := List.mem_map.mp hf
    rw [List.mem_range] at hn
    have htoken : is_token 'a' = true := by decide
    constructor
    · simp only [visible_ascii, header_name, String.length_ofList, List.length_replicate,
        String.toList_ofList, List.all_replicate, htoken, Bool.and_eq_true, decide_eq_true_eq]
      exact ⟨⟨Nat.succ_pos n, by omega⟩, by simp⟩
    · rfl
  exact hheaders

/-- The crate's builder does, and refuses. -/
theorem crowded_head_refused {size : ℕ} (hsize : usable_capacity MAX_SIZE < size) :
    visible_ascii.build (crowded_head size).status (crowded_head size).headers = none := by
  have hlower : ∀ n : ℕ,
      (List.replicate (n + 1) 'a').map Char.toLower = List.replicate (n + 1) 'a' :=
    fun n => by rw [List.map_replicate]; rfl
  have hnames : ((crowded_head size).headers.dropLast.map fun h => to_ascii_lowercase h.1)
      = (List.range (size - 1)).map fun n => String.ofList (List.replicate (n + 1) 'a') := by
    obtain ⟨n, rfl⟩ : ∃ n, size = n + 1 := ⟨size - 1, by omega⟩
    rw [crowded_head, List.range_succ, List.map_append, List.map_singleton, List.dropLast_concat]
    simp only [List.map_map, Function.comp_def, to_ascii_lowercase, String.toList_ofList, hlower,
      Nat.add_sub_cancel]
  -- names of different lengths are different
  have hnodup :
      ((List.range (size - 1)).map fun n => String.ofList (List.replicate (n + 1) 'a')).Nodup := by
    refine List.nodup_range.map fun m n hmn => ?_
    have hlen := congrArg String.length hmn
    simpa only [String.length_ofList, List.length_replicate, Nat.add_right_cancel_iff] using hlen
  have hfull : fits_header_map (crowded_head size).headers = false := by
    rw [fits_header_map, hnames, hnodup.dedup, List.length_map, List.length_range,
      decide_eq_false_iff_not]
    omega
  show build _ _ = none
  rw [build, hfull, Bool.and_false, if_neg Bool.false_ne_true]

/-- A call that succeeded does not always determine the response: past the
header map's maximum size the dispatch answers 500 instead. -/
theorem successful_respond_not_carried :
    ¬ ∀ (config : StoreConfig) (schedule : List Label) (s : Rendezvous Slots),
      Machine.run (step visible_ascii) (start config) schedule = some s →
      ∀ q r, ∀ c ∈ s.answers q, (s.phase q).response = some r →
        r.status = c.head.status ∧ r.headers = c.head.headers := by
  intro hall
  have hrun : ∀ head, validate visible_ascii head = .ok () →
      ∃ s : Rendezvous Slots, Machine.run (step visible_ascii) (start {})
          [.dispatch 0 0, .respond (2 ^ 32 + 1) head, .send 0, .complete 0] = some s ∧
        ⟨2 ^ 32 + 1, head, .ok 0⟩ ∈ s.answers 0 ∧
        (s.phase 0).response = some (dispatched_response visible_ascii head) := by
    intro head hok
    simp only [Machine.run, step, respond_step, hok]
    exact ⟨_, rfl, List.mem_singleton_self _, rfl⟩
  have hbad : ∀ size, size < 2 ^ 16 → usable_capacity MAX_SIZE < size → False := by
    intro size hsmall hlarge
    obtain ⟨s, hs, hmem, hresp⟩ := hrun (crowded_head size) (crowded_head_valid hsmall)
    have hstatus := (hall {} _ s hs 0 _ _ hmem hresp).1
    rw [dispatched_response, crowded_head_refused hlarge] at hstatus
    exact absurd hstatus (by simp [internal_error, crowded_head])
  exact hbad (usable_capacity MAX_SIZE + 1) (by decide) (Nat.lt_succ_self _)

end Rendezvous

end IrohHttp.Dispatcher
