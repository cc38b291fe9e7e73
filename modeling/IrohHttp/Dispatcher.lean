/-
`iroh-http-core/src/ffi/dispatcher.rs`: from an incoming request to the
`on_request` callback.

`dispatch` is the part of `FfiDispatcher::dispatch` before its await: three
checks that can turn the request away, three handle allocations under an
`InsertGuard`, and the callback. The await and what answers it are in
`Rendezvous.lean`.

Other tasks use the same store meanwhile. What they do between two of the
allocations is an arbitrary function on the store, so nothing below depends on
the request being alone.
-/
import IrohHttp.Http
import IrohHttp.InsertGuard

set_option autoImplicit false

namespace IrohHttp.Dispatcher

open IrohHttp.Handles IrohHttp.Http

/-! ## Data -/

/-- A request as it reaches the service. `headers` is in the order the header
map iterates in; `remote_node_id` is the `RemoteNodeId` extension. -/
structure Request where
  method : String
  uri : String
  path_and_query : Option String
  headers : List (String × Bytes)
  remote_node_id : Option String

/-- What the callback receives. -/
structure RequestPayload where
  req_handle : ℕ
  req_body_handle : ℕ
  res_body_handle : ℕ
  method : String
  url : String
  headers : List (String × String)
  remote_node_id : String
  is_bidi : Bool
  deriving DecidableEq, Repr

/-- A response body: fixed bytes, nothing, or the response channel's reader. -/
inductive ResponseBody
  | empty
  | full (detail : String)
  | reader
  deriving DecidableEq, Repr

/-- A response, as hyper takes it. -/
structure Response where
  status : ℕ
  headers : List (String × String)
  body : ResponseBody
  deriving DecidableEq, Repr

/-- `internal_error` -/
def internal_error (detail : String) : Response := ⟨500, [], .full detail⟩

/-- `service_unavailable` -/
def service_unavailable (detail : String) : Response := ⟨503, [], .full detail⟩

/-- The settings of the service that `dispatch` reads. -/
structure FfiDispatcher where
  own_node_id : String
  max_header_size : Option ℕ
  max_request_body_wire_bytes : Option ℕ

/-! ## The three checks -/

/-- Whether it is the header that the dispatcher sets itself. -/
def is_peer_id (name : String) : Bool := eq_ignore_ascii_case name "peer-id"

/-- The size of the request head, with the client's `peer-id` fields replaced by
the authenticated one. -/
def header_bytes (req : Request) (remote_node_id : String) : ℕ :=
  let fields := ((req.headers.filter fun h => !is_peer_id h.1).map fun h =>
    usize.saturating_add (usize.saturating_add h.1.utf8ByteSize h.2.length) 4).foldl
      usize.saturating_add 0
  [ "peer-id".utf8ByteSize, remote_node_id.utf8ByteSize, 4, req.uri.utf8ByteSize,
    req.method.utf8ByteSize, 12 ].foldl usize.saturating_add fields

/-- The loop that builds the header list; `none` on a value that is not text. -/
def collect_headers (http : HttpCrate) :
    List (String × Bytes) → List (String × String) → Option (List (String × String))
  | [], req_headers => some req_headers
  | (k, v) :: rest, req_headers =>
    -- whatever the client says of its own identity is skipped, text or not
    if is_peer_id k then collect_headers http rest req_headers
    else
      match http.to_str v with
      | some s => collect_headers http rest (req_headers ++ [(k, s)])
      | none => none

/-- The declared length is a number above the limit. -/
def content_length_exceeds (http : HttpCrate) (req : Request) (limit : Option ℕ) : Bool :=
  match limit, req.headers.find? fun h => h.1 == "content-length" with
  | some limit, some (_, v) =>
    match (http.to_str v).bind parse_u64 with
    | some len => limit < len
    -- a length that does not parse is left to the body limit
    | none => false
  | _, _ => false

/-! ## Allocation under a guard -/

section Allocation

variable {K : Type} {M : Type → Type} [SlotMap K M] {R : Registry → Type}

/-- What `dispatch` finds around it: the ends of its channels, the clock, and
what other tasks do to the store between its allocations. -/
structure Surroundings (M : Type → Type) (R : Registry → Type) where
  req_body_reader : R .readers
  res_body_writer : R .writers
  head_tx : R .request_heads
  reader_at : Instant
  writer_at : Instant
  head_at : Instant
  after_reader : HandleStore M R → HandleStore M R
  after_writer : HandleStore M R → HandleStore M R

/-- The handles of one request, once all three are allocated. -/
structure RequestHandles where
  req_body_handle : ℕ
  res_body_handle : ℕ
  req_handle : ℕ

/-- The three allocations. Where one fails the guard is dropped, and takes back
those that succeeded. -/
def allocate (s : HandleStore M R) (e : Surroundings M R) :
    Option RequestHandles × HandleStore M R :=
  match (InsertGuard.new s).insert_reader e.req_body_reader e.reader_at with
  | (.error _, guard) => (none, guard.drop)
  | (.ok req_body_handle, guard) =>
    match (guard.meanwhile e.after_reader).insert_writer e.res_body_writer e.writer_at with
    | (.error _, guard) => (none, guard.drop)
    | (.ok res_body_handle, guard) =>
      match (guard.meanwhile e.after_writer).allocate_req_handle e.head_tx e.head_at with
      | (.error _, guard) => (none, guard.drop)
      | (.ok req_handle, guard) =>
        (some ⟨req_body_handle, res_body_handle, req_handle⟩, guard.commit.drop)

/-! ## Dispatch -/

/-- The state of a dispatch when it returns early or starts to wait for the
response head: the early response, the callbacks fired and the store. -/
structure Dispatched (M : Type → Type) (R : Registry → Type) where
  response : Option Response
  calls : List RequestPayload
  store : HandleStore M R

/-- Turn the request away. -/
def Dispatched.reject (s : HandleStore M R) (r : Response) : Dispatched M R :=
  ⟨some r, [], s⟩

/-- `dispatch` up to the request's way into the queue. -/
def dispatch (http : HttpCrate) (self : FfiDispatcher) (s : HandleStore M R)
    (e : Surroundings M R) (req : Request) (remote_node_id : String) : Dispatched M R :=
  if self.max_header_size.any (fun limit => limit < header_bytes req remote_node_id) then
    .reject s ⟨431, [], .empty⟩
  else
    match collect_headers http req.headers [] with
    | none => .reject s ⟨400, [], .full "non-UTF8 header value"⟩
    | some req_headers =>
      if content_length_exceeds http req self.max_request_body_wire_bytes then
        .reject s ⟨413, [], .empty⟩
      else
        match allocate s e with
        | (none, s) => .reject s (service_unavailable "server handle table full")
        | (some h, s) =>
          { response := none
            calls := [
              { req_handle := h.req_handle
                req_body_handle := h.req_body_handle
                res_body_handle := h.res_body_handle
                method := req.method
                url := "httpi://" ++ self.own_node_id ++ req.path_and_query.getD "/"
                headers := req_headers ++ [("peer-id", remote_node_id)]
                remote_node_id := remote_node_id
                is_bidi := false }]
            store := s }

/-- The `AddExtensionLayer` around every connection: it overwrites whatever
extension the request had. -/
def add_extension (legacy_node_id : String) (req : Request) : Request :=
  { req with remote_node_id := some legacy_node_id }

/-- The service: the remote id is the extension. -/
def call (http : HttpCrate) (self : FfiDispatcher) (s : HandleStore M R) (e : Surroundings M R)
    (req : Request) : Dispatched M R :=
  dispatch http self s e req (req.remote_node_id.getD "")

/-! ## A rejected request leaves no handle behind -/

/-- The moves of other tasks that fall between the insertions of one request, each
with the store before it and after it. Only what the registries answer is read. -/
def Surroundings.moves (e : Surroundings M R) (s : HandleStore M R) :
    List (HandleStore M R × HandleStore M R) :=
  match s.insert_reader e.req_body_reader e.reader_at with
  | (.error _, _) => []
  | (.ok _, s) =>
    (s, e.after_reader s) ::
      match (e.after_reader s).insert_writer e.res_body_writer e.writer_at with
      | (.error _, _) => []
      | (.ok _, s) => [(s, e.after_writer s)]

/-- A request has left no trace in the store `s'`, which was `s` before it. A key
that named nothing names nothing, unless another task has made an entry under it;
and a key that the other tasks leave alone names what it did. -/
structure NoTrace (moves : List (HandleStore M R × HandleStore M R)) (s s' : HandleStore M R) :
    Prop where
  unregistered : ∀ i k, SlotMap.get (s.registry i) k = none →
    (∀ m ∈ moves, SlotMap.get (m.1.registry i) k = none → SlotMap.get (m.2.registry i) k = none) →
    SlotMap.get (s'.registry i) k = none
  untouched : ∀ i k,
    (∀ m ∈ moves, SlotMap.get (m.2.registry i) k = SlotMap.get (m.1.registry i) k) →
    SlotMap.get (s'.registry i) k = SlotMap.get (s.registry i) k

/-- What is true of the entry of a key, and stays true when other tasks move, is
true of it after a failed allocation. -/
theorem allocate_failed {s : HandleStore M R} {e : Surroundings M R} (hfail : (allocate s e).1 = none)
    {i : Registry} {k : K} {P : Option (Timed (R i)) → Prop} (h : P (SlotMap.get (s.registry i) k))
    (hkeep : ∀ m ∈ e.moves s,
      P (SlotMap.get (m.1.registry i) k) → P (SlotMap.get (m.2.registry i) k)) :
    P (SlotMap.get ((allocate s e).2.registry i) k) := by
  unfold allocate at hfail ⊢
  unfold Surroundings.moves at hkeep
  -- the guard is followed through each insertion and each move of the others after it
  have hstart : Spares (InsertGuard.new s) i k P := spares_new h
  rcases hreader : (InsertGuard.new s).insert_reader e.req_body_reader e.reader_at with ⟨_ | r, g₁⟩
  · exact (hstart.performed (.insert_reader e.req_body_reader e.reader_at) hreader).drop
  · have hread := hstart.performed (.insert_reader e.req_body_reader e.reader_at) hreader
    have hs₁ : s.insert_reader e.req_body_reader e.reader_at = (.ok r, g₁.store) :=
      store_of_tracking hreader
    rw [hs₁] at hkeep
    rw [hreader] at hfail
    dsimp only at hfail hkeep ⊢
    have hbetween : Spares (g₁.meanwhile e.after_reader) i k P :=
      hread.meanwhile (hkeep _ List.mem_cons_self)
    rcases hwriter : (g₁.meanwhile e.after_reader).insert_writer e.res_body_writer e.writer_at
      with ⟨_ | w, g₂⟩
    · exact (hbetween.performed (.insert_writer e.res_body_writer e.writer_at) hwriter).drop
    · have hwritten := hbetween.performed (.insert_writer e.res_body_writer e.writer_at) hwriter
      have hs₂ : (e.after_reader g₁.store).insert_writer e.res_body_writer e.writer_at =
          (.ok w, g₂.store) := store_of_tracking hwriter
      rw [hs₂] at hkeep
      rw [hwriter] at hfail
      dsimp only at hfail hkeep ⊢
      have hafter : Spares (g₂.meanwhile e.after_writer) i k P :=
        hwritten.meanwhile (hkeep _ (List.mem_cons_of_mem _ List.mem_cons_self))
      rcases hhead : (g₂.meanwhile e.after_writer).allocate_req_handle e.head_tx e.head_at
        with ⟨_ | head, g₃⟩
      · exact (hafter.performed (.allocate_req_handle e.head_tx e.head_at) hhead).drop
      · rw [hhead] at hfail
        cases hfail

/-- A failed allocation has left no trace. -/
theorem noTrace_allocate {s : HandleStore M R} {e : Surroundings M R}
    (hfail : (allocate s e).1 = none) : NoTrace (e.moves s) s (allocate s e).2 where
  unregistered _ _ hnone hmoves := allocate_failed hfail (P := (· = none)) hnone hmoves
  untouched i k hmoves :=
    allocate_failed hfail (P := (· = SlotMap.get (s.registry i) k)) rfl
      fun m hm heq => (hmoves m hm).trans heq

/-- Nothing was allocated. -/
theorem noTrace_self (moves : List (HandleStore M R × HandleStore M R)) (s : HandleStore M R) :
    NoTrace moves s s where
  unregistered _ _ hnone _ := hnone
  untouched _ _ _ := rfl

/-! ## The header list -/

/-- What the loop returns: the fields it was given that are not `peer-id`, in
order, each with the text of its value. -/
theorem collect_headers_spec (http : HttpCrate) (headers : List (String × Bytes))
    (acc out : List (String × String)) (h : collect_headers http headers acc = some out) :
    ∃ kept, out = acc ++ kept ∧ (∀ f ∈ kept, is_peer_id f.1 = false) ∧
      kept.map (fun f => (f.1, as_bytes f.2)) = headers.filter fun f => !is_peer_id f.1 := by
  induction headers generalizing acc with
  | nil =>
      rw [collect_headers, Option.some.injEq] at h
      exact ⟨[], by rw [List.append_nil, h], by simp, rfl⟩
  | cons f rest ih =>
      obtain ⟨k, v⟩ := f
      rw [collect_headers] at h
      by_cases hp : is_peer_id k = true
      · -- skipped by the loop, and by the filter
        rw [if_pos hp] at h
        obtain ⟨kept, hout, hno, hmap⟩ := ih acc h
        refine ⟨kept, hout, hno, ?_⟩
        rw [List.filter_cons_of_neg (by simp [hp]), hmap]
      · rw [if_neg hp] at h
        cases hv : http.to_str v with
        | none =>
            rw [hv] at h
            cases h
        | some text =>
            rw [hv] at h
            obtain ⟨kept, hout, hno, hmap⟩ := ih _ h
            refine ⟨(k, text) :: kept, by rw [hout, List.append_assoc]; rfl, ?_, ?_⟩
            · intro f hf
              rcases List.mem_cons.mp hf with rfl | hf
              · exact Bool.eq_false_iff.mpr hp
              · exact hno f hf
            · rw [List.filter_cons_of_pos (by simp [hp]), List.map_cons, hmap,
                http.to_str_bytes v text hv]

/-! ## Peer identity -/

/-- The callback's header list names the authenticated peer once, last, and
otherwise carries the request's own fields unchanged. -/
structure CarriesPeer (fields : List (String × Bytes)) (id : String)
    (headers : List (String × String)) : Prop where
  once : headers.filter (fun f => is_peer_id f.1) = [("peer-id", id)]
  last : headers.getLast? = some ("peer-id", id)
  others : (headers.filter fun f => !is_peer_id f.1).map (fun f => (f.1, as_bytes f.2))
    = fields.filter fun f => !is_peer_id f.1

theorem carriesPeer_of_collect {http : HttpCrate} {fields : List (String × Bytes)}
    {out : List (String × String)} (h : collect_headers http fields [] = some out) (id : String) :
    CarriesPeer fields id (out ++ [("peer-id", id)]) := by
  obtain ⟨kept, hkept, hno, hmap⟩ := collect_headers_spec http fields [] out h
  rw [List.nil_append] at hkept
  subst hkept
  have hpeer : is_peer_id "peer-id" = true := by decide
  have hnone : out.filter (fun f => is_peer_id f.1) = [] := by
    refine List.filter_eq_nil_iff.mpr fun f hf => ?_
    rw [hno f hf]
    exact Bool.false_ne_true
  have hall : out.filter (fun f => !is_peer_id f.1) = out := by
    refine List.filter_eq_self.mpr fun f hf => ?_
    rw [hno f hf]
    rfl
  refine ⟨?_, ?_, ?_⟩
  · rw [List.filter_append, hnone, List.nil_append, List.filter_cons_of_pos (by exact hpeer),
      List.filter_nil]
  · rw [List.getLast?_append, List.getLast?_singleton, Option.some_or]
  · rw [List.filter_append, hall, List.filter_cons_of_neg (by simp [hpeer]), List.filter_nil,
      List.append_nil, hmap]

/-- **The peer identity cannot be spoofed.** A request that reaches the service
through the connection's extension layer is either turned away, with no callback
and no trace in any registry, or handed to the callback once, with the
authenticated id as the only `peer-id` field. -/
theorem call_rejects_or_carries_peer (http : HttpCrate) (self : FfiDispatcher)
    (s : HandleStore M R) (e : Surroundings M R) (req : Request) (id : String) :
    let d := call http self s e (add_extension id req)
    (∃ r, d.response = some r ∧ r.status ∈ [431, 400, 413, 503] ∧ d.calls = [] ∧
        NoTrace (e.moves s) s d.store) ∨
      ∃ p, d.response = none ∧ d.calls = [p] ∧ CarriesPeer req.headers id p.headers := by
  intro d
  have hd : d = dispatch http self s e (add_extension id req) id := rfl
  have hself := noTrace_self (e.moves s) s
  unfold dispatch at hd
  split at hd
  · exact .inl ⟨_, by rw [hd]; rfl, by decide, by rw [hd]; rfl, by rw [hd]; exact hself⟩
  · split at hd
    · exact .inl ⟨_, by rw [hd]; rfl, by decide, by rw [hd]; rfl, by rw [hd]; exact hself⟩
    · next out hout =>
      split at hd
      · exact .inl ⟨_, by rw [hd]; rfl, by decide, by rw [hd]; rfl, by rw [hd]; exact hself⟩
      · split at hd
        · -- the guard has taken back whatever was allocated
          next s' hall =>
          refine .inl ⟨_, by rw [hd]; rfl, by decide, by rw [hd]; rfl, ?_⟩
          have htrace := noTrace_allocate (s := s) (e := e) (by rw [hall])
          rw [hall] at htrace
          rw [hd]
          exact htrace
        · refine .inr ⟨_, by rw [hd], by rw [hd], ?_⟩
          exact carriesPeer_of_collect hout id

end Allocation

end IrohHttp.Dispatcher
