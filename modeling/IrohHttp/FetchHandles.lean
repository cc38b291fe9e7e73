/-
What a fetch leaves in the handle store.

A call allocates up to four things there: the request writer and its stashed
reader, the fetch token, and the reader of its response. The first three are
allocated in JS, before anything native has run, and there is one place that
removes the token, one that takes the stash and one that finishes the writer --
`run_with_cancel_and_timeout`, the claim, and the end of the pipe. An exit that
does not come past them leaves what it has: a failed second allocation, a signal
that fired during the allocations, a check that stops `rawFetch` before its first
await, a pipe that fails, and a response that nobody waits for any more.

`Frees` says of the inputs and of the order of the steps that these exits are not
taken, but by a call that has neither a body nor a signal and so allocates
nothing. `fetch_leaves_no_orphans` says that nothing is left behind then;
`aborted_fetch_leaves_token` is the smallest run without it.
-/
import IrohHttp.FetchCalls

set_option autoImplicit false

namespace IrohHttp.FetchCalls

open SlotMap Handles Machine

/-- The transfer is going on: its source is being read, or its end is being sent. -/
def Pipe.running : Pipe → Bool
  | .reading | .sending _ _ | .awaiting _ _ | .finishing => true
  | _ => false

/-- What the native fetch has resolved to. -/
def Native.response : Native → Option Response
  | .finished r => r
  | _ => none

/-- The promise of the call has settled. -/
def Call.settled (c : Call) : Prop := c.js = .returned ∨ c.js = .thrown

/-- The native side has finished with the call, or was never called. -/
def Call.native_done (c : Call) : Prop := c.native = .idle ∨ ∃ r, c.native = .finished r

namespace State

variable {K : Type} {M : Type → Type} [SlotMap K M]

/-! ## What a settled call may leave -/

/-- Registry `i` has an entry with the value `v`. -/
def Registered (b : RequestBody.State M) (i : Registry) (v : ℕ) : Prop :=
  ∃ k e, get (b.store.registry i) k = some e ∧ e.value = v

/-- The reader of channel `c` is stashed. -/
def Stashed (b : RequestBody.State M) (c : ℕ) : Prop :=
  ∃ p ∈ b.store.pending_readers, p.2.reader = c

/-- Nothing of call `u` is left behind. -/
structure NoOrphan (b : RequestBody.State M) (u : ℕ) (c : Call) : Prop where
  token : ¬ Registered b .fetch_cancels u
  stash : ∀ up, c.upload = some up → ¬ Stashed b up.channel
  writer : ∀ up, c.upload = some up → Registered b .writers up.channel → up.pipe.running = true
  response : Registered b .readers u → c.js = .returned

/-- No fetch that is over has anything registered. -/
def NoOrphans (s : State M) : Prop :=
  ∀ (u : ℕ) c, s.calls[u]? = some c → c.settled → c.native_done → NoOrphan s.bodies u c

/-! ## When the exits free what they have -/

/-- The registry takes another entry. -/
def HasRoom (b : RequestBody.State M) (i : Registry) : Prop :=
  len (b.store.registry i) < b.store.config.max_handles

instance (b : RequestBody.State M) (i : Registry) : Decidable (HasRoom b i) := Nat.decLt _ _

/-- The pieces that the `sendChunk` a pipe waits for has not sent. -/
def unsent (s : State M) (c : Call) : List Bytes :=
  match c.upload with
  | some ⟨_, _, .awaiting call _, _, _⟩ => (s.bodies.sends[call]?).elim [] RequestBody.SendChunk.pieces
  | _ => []

/-- The exits that free nothing are not taken by a call that has something to free. -/
def Frees (s : State M) : Label → Prop
  -- the allocation of a token fails for a call without a writer only
  | .alloc_fetch_token u endpoint _ => ∀ c ∈ s.calls[u]?,
    c.has_body = false ∨ endpoint = true ∧ HasRoom s.bodies .fetch_cancels
  -- the signal has not fired before the check of it
  | .dispatch u => ∀ c ∈ s.calls[u]?, ¬ (c.has_signal = true ∧ c.aborted = true)
  -- the early returns are those of calls with neither a body nor a signal, on Deno with no token
  -- allocated for them
  | .raw_fetch u (some exit) _ => ∀ c ∈ s.calls[u]?,
    c.has_body = false ∧ c.has_signal = false ∧
      ¬ (s.adapter = .deno ∧ exit.in_core = true ∧ HasRoom s.bodies .fetch_cancels)
  -- the race is not lost by a response with a body that is there already
  | .abort u => ∀ c ∈ s.calls[u]?, c.js = .racing →
    ∀ r ∈ c.native.response, r.body_handle = none
  -- nor by one that comes later
  | .package_response u (.accepted status) _ => ∀ c ∈ s.calls[u]?,
    c.js = .thrown → null_body status = true ∨ ¬ HasRoom s.bodies .readers
  -- the status is one of 200..599
  | .settle u => ∀ c ∈ s.calls[u]?, ∀ r ∈ c.native.response, constructs r = true
  -- neither the source fails nor a send
  | .source_fails _ => False
  | .adapter_fails _ => False
  | .send_settles u => ∀ c ∈ s.calls[u]?, s.unsent c = []
  | _ => True

/-- A condition on call `u`. -/
def decide_call (s : State M) (u : ℕ) (P : Call → Prop) [DecidablePred P] :
    Decidable (∀ c ∈ s.calls[u]?, P c) := inferInstance

instance (s : State M) (a : Label) : Decidable (s.Frees a) :=
  match a with
  | .alloc_fetch_token u _ _ => s.decide_call u _
  | .dispatch u => s.decide_call u _
  | .raw_fetch u (some _) _ => s.decide_call u _
  | .abort u => s.decide_call u _
  | .package_response u (.accepted _) _ => s.decide_call u _
  | .settle u => s.decide_call u _
  | .send_settles u => s.decide_call u _
  | .source_fails _ | .adapter_fails _ => isFalse id
  | .begin_call _ _ _ | .alloc_body_writer _ _ _ | .raw_fetch _ none _ | .response_head _
  | .fetch_error _ | .cancelled _ | .package_response _ .too_large _
  | .package_response _ .not_utf8 _ | .release_response _ | .source_yields _ _ | .source_ends _
  | .send_chunk _ _ | .finish_body _ | .pipe_catch _ | .push _ | .send_returns _ | .sweep _ _ _
  | .sweep_pending_readers _ _ | .poll_frame _ | .drop_body _ => isTrue trivial

/-! ## The invariant -/

/-- What call `u` has in the store is where its handles say, and only while the
place that removes it is still to come. -/
structure Owns (b : RequestBody.State M) (u : ℕ) (c : Call) : Prop where
  upload : ∀ up, c.upload = some up →
    up.channel < b.next_channel ∧ (b.channels up.channel).writer_handle = up.req_body_handle
  token : ∀ k e, get (b.store.registry .fetch_cancels) k = some e → e.value = u →
    (∃ t, c.fetch_token = some t ∧ k = handle_to_key M t) ∧
      (c.js = .ready ∨ c.native = .dispatched ∨ ∃ r l, c.native = .awaiting r l)
  stash : ∀ up, c.upload = some up → Stashed b up.channel → ¬ c.late ∨ c.native = .dispatched
  writer : ∀ up, c.upload = some up →
    ∀ k e, get (b.store.registry .writers) k = some e → e.value = up.channel →
      k = handle_to_key M up.req_body_handle ∧ (¬ c.late ∨ up.pipe.running = true)
  response : ∀ k e, get (b.store.registry .readers) k = some e → e.value = u →
    c.js ≠ .thrown ∧
      ∃ status h, c.native = .finished (some ⟨status, some h⟩) ∧ k = handle_to_key M h

/-- A fetch that is over and owns nothing leaves no orphan. -/
theorem Owns.noOrphan {b : RequestBody.State M} {u : ℕ} {c : Call} (h : Owns b u c)
    (hsettled : c.settled) (hdone : c.native_done) : NoOrphan b u c := by
  have hlate : c.late := by
    rcases hsettled with hjs | hjs
    · exact .inr (.inl hjs)
    · exact .inr (.inr hjs)
  -- the native side is through, so a handle could only be the caller's or the pipe's
  have hnot : ¬ c.native = .dispatched := by
    intro hn
    rcases hdone with hd | ⟨r, hd⟩
    · cases hn.symm.trans hd
    · cases hn.symm.trans hd
  refine ⟨?_, ?_, ?_, ?_⟩
  · rintro ⟨k, e, hget, hval⟩
    rcases (h.token k e hget hval).2 with hjs | hn | ⟨r, l, hn⟩
    · exact Call.not_late_of_ready hjs hlate
    · exact hnot hn
    · rcases hdone with hd | ⟨r, hd⟩
      · cases hn.symm.trans hd
      · cases hn.symm.trans hd
  · intro up hup hst
    rcases h.stash up hup hst with hnl | hn
    · exact hnl hlate
    · exact hnot hn
  · rintro up hup ⟨k, e, hget, hval⟩
    rcases (h.writer up hup k e hget hval).2 with hnl | hrun
    · exact absurd hlate hnl
    · exact hrun
  · rintro ⟨k, e, hget, hval⟩
    have hne := (h.response k e hget hval).1
    rcases hsettled with hjs | hjs
    · exact hjs
    · exact absurd hjs hne

/-- What is registered belongs to a fetch that has not let go of it. -/
structure OwnInv (s : State M) : Prop where
  bodies : s.bodies.Inv False
  token_lt : ∀ v, Registered s.bodies .fetch_cancels v → v < s.calls.length
  reader_lt : ∀ v, Registered s.bodies .readers v → v < s.calls.length
  owns : ∀ (u : ℕ) c, s.calls[u]? = some c → Owns s.bodies u c

/-- The invariant leaves no orphan. -/
theorem OwnInv.noOrphans {s : State M} (h : OwnInv s) : s.NoOrphans :=
  fun u c hc hsettled hdone => (h.owns u c hc).noOrphan hsettled hdone

/-! ## Changes of the store -/

/-- A change of the bodies that registers nothing more for a call. -/
structure NoMore (b b' : RequestBody.State M) (v : ℕ) (c : Call) : Prop where
  next : b.next_channel ≤ b'.next_channel
  handle : ∀ up, c.upload = some up →
    (b'.channels up.channel).writer_handle = (b.channels up.channel).writer_handle
  token : ∀ k e, get (b'.store.registry .fetch_cancels) k = some e → e.value = v →
    ∃ e₀, get (b.store.registry .fetch_cancels) k = some e₀ ∧ e₀.value = v
  response : ∀ k e, get (b'.store.registry .readers) k = some e → e.value = v →
    ∃ e₀, get (b.store.registry .readers) k = some e₀ ∧ e₀.value = v
  writer : ∀ up, c.upload = some up →
    ∀ k e, get (b'.store.registry .writers) k = some e → e.value = up.channel →
      ∃ e₀, get (b.store.registry .writers) k = some e₀ ∧ e₀.value = up.channel
  stash : ∀ up, c.upload = some up → Stashed b' up.channel → Stashed b up.channel

/-- Fewer entries leave fewer orphans. -/
theorem Owns.noMore {b b' : RequestBody.State M} {v : ℕ} {c : Call} (h : Owns b v c)
    (hm : NoMore b b' v c) : Owns b' v c := by
  refine ⟨?_, ?_, ?_, ?_, ?_⟩
  · intro up hup
    obtain ⟨hlt, hhandle⟩ := h.upload up hup
    exact ⟨Nat.lt_of_lt_of_le hlt hm.next, (hm.handle up hup).trans hhandle⟩
  · intro k e hget hval
    obtain ⟨e₀, hget₀, hval₀⟩ := hm.token k e hget hval
    exact h.token k e₀ hget₀ hval₀
  · exact fun up hup hst => h.stash up hup (hm.stash up hup hst)
  · intro up hup k e hget hval
    obtain ⟨e₀, hget₀, hval₀⟩ := hm.writer up hup k e hget hval
    exact h.writer up hup k e₀ hget₀ hval₀
  · intro k e hget hval
    obtain ⟨e₀, hget₀, hval₀⟩ := hm.response k e hget hval
    exact h.response k e₀ hget₀ hval₀

/-- The values of a store are those of another. -/
def StoreFrom (store store' : HandleStore M RequestBody.Ends) : Prop :=
  ∀ i, RequestBody.State.ValuesFrom (store.registry i) (store'.registry i)

theorem noMore_of_store {b b' : RequestBody.State M}
    (hch : ∀ c, (b'.channels c).writer_handle = (b.channels c).writer_handle)
    (hnext : b'.next_channel = b.next_channel)
    (hpend : b'.store.pending_readers.Sublist b.store.pending_readers)
    (hval : StoreFrom b.store b'.store) (v : ℕ) (c : Call) : NoMore b b' v c := by
  have hget : ∀ i k e, get (b'.store.registry i) k = some e → ∀ w, e.value = w →
      ∃ e₀, get (b.store.registry i) k = some e₀ ∧ e₀.value = w := by
    intro i k e hk w hw
    obtain ⟨e₀, hk₀, hv₀⟩ := hval i k e hk
    exact ⟨e₀, hk₀, hv₀.trans hw⟩
  refine ⟨Nat.le_of_eq hnext.symm, fun up _ => hch up.channel, ?_, ?_, ?_, ?_⟩
  · exact fun k e hk hw => hget .fetch_cancels k e hk v hw
  · exact fun k e hk hw => hget .readers k e hk v hw
  · exact fun up _ k e hk hw => hget .writers k e hk up.channel hw
  · rintro up - ⟨p, hp, hc⟩
    exact ⟨p, hpend.subset hp, hc⟩

/-- A removal adds no entry. -/
theorem storeFrom_remove_from (store : HandleStore M RequestBody.Ends) (i : Registry) (h : ℕ) :
    StoreFrom store (store.remove_from i h).2 :=
  fun j => RequestBody.State.valuesFrom_set (RequestBody.State.ValuesFrom.remove _ _) j

/-- A sweep adds no entry. -/
theorem storeFrom_sweep_one (store : HandleStore M RequestBody.Ends) (i : Registry)
    (ttl : Duration) (now : Instant) : StoreFrom store (store.sweep_one i ttl now) := by
  intro j
  rw [HandleStore.sweep_one_eq]
  exact RequestBody.State.valuesFrom_set (RequestBody.State.ValuesFrom.sweep _ ttl now) j

/-- What is registered was registered before. -/
theorem registered_of_storeFrom {b b' : RequestBody.State M} (h : StoreFrom b.store b'.store)
    {i : Registry} {v : ℕ} (hreg : Registered b' i v) : Registered b i v := by
  obtain ⟨k, e, hget, hval⟩ := hreg
  obtain ⟨e₀, hget₀, hval₀⟩ := h i k e hget
  exact ⟨k, e₀, hget₀, hval₀.trans hval⟩

/-- An insertion for call `u` into the tokens or the response readers. -/
theorem noMore_insert_into {b : RequestBody.State M} {i : Registry} (hi : i ≠ .writers) {u : ℕ}
    (now : Instant) {v : ℕ} (hv : v ≠ u) (c : Call) :
    NoMore b { b with store := (b.store.insert_into i u now).2 } v c := by
  have hget : ∀ j k e, get ((b.store.insert_into i u now).2.registry j) k = some e → ∀ w,
      e.value = w → (j = i → w ≠ u) → ∃ e₀, get (b.store.registry j) k = some e₀ ∧ e₀.value = w := by
    intro j k e hk w hw hne
    rcases RequestBody.State.get_insert_into hk with hold | ⟨hj, hval, -⟩
    · exact ⟨e, hold, hw⟩
    · exact absurd (hw.symm.trans hval) (hne hj)
  refine ⟨Nat.le_refl _, fun _ _ => rfl, ?_, ?_, ?_, fun _ _ hst => hst⟩
  · exact fun k e hk hw => hget .fetch_cancels k e hk v hw fun _ => hv
  · exact fun k e hk hw => hget .readers k e hk v hw fun _ => hv
  · exact fun up _ k e hk hw => hget .writers k e hk _ hw fun hj => absurd hj.symm hi

/-- An insertion registers for its own fetch. -/
theorem registered_insert_into {b : RequestBody.State M} {i j : Registry} {u : ℕ} {now : Instant}
    {v : ℕ} (h : Registered { b with store := (b.store.insert_into i u now).2 } j v) :
    Registered b j v ∨ v = u := by
  obtain ⟨k, e, hget, hval⟩ := h
  rcases RequestBody.State.get_insert_into hget with hold | ⟨-, hu, -⟩
  · exact .inl ⟨k, e, hold, hval⟩
  · exact .inr (hval.symm.trans hu)

theorem inv_insert_into {b : RequestBody.State M} (h : b.Inv False) {i : Registry}
    (hi : i ≠ .writers) (u : ℕ) (now : Instant) :
    ({ b with store := (b.store.insert_into i u now).2 } : RequestBody.State M).Inv False := by
  refine h.store (List.Sublist.refl _) ?_
  rw [HandleStore.insert_into, HandleStore.set_registry_of_ne _ _ hi.symm]
  exact RequestBody.State.ValuesFrom.refl _

theorem inv_remove_from {b : RequestBody.State M} (h : b.Inv False) (i : Registry) (handle : ℕ) :
    ({ b with store := (b.store.remove_from i handle).2 } : RequestBody.State M).Inv False :=
  h.store (List.Sublist.refl _) (storeFrom_remove_from b.store i handle .writers)

/-! ## Changes of a call -/

variable {s s' : State M} {u : ℕ} {c : Call}

/-- Call `u` changes, and for the others nothing more is registered. -/
theorem OwnInv.set (h : OwnInv s) (hc : s.calls[u]? = some c) {b : RequestBody.State M}
    (hinv : b.Inv False)
    (htoken : ∀ v, Registered b .fetch_cancels v → Registered s.bodies .fetch_cancels v ∨ v = u)
    (hreader : ∀ v, Registered b .readers v → Registered s.bodies .readers v ∨ v = u)
    (hothers : ∀ (v : ℕ) c₁, v ≠ u → s.calls[v]? = some c₁ → NoMore s.bodies b v c₁) {c' : Call}
    (hself : Owns b u c') : OwnInv ({ s with bodies := b }.set_call u c') := by
  have hlt := (List.getElem?_eq_some_iff.mp hc).1
  have hlen : ({ s with bodies := b }.set_call u c').calls.length = s.calls.length :=
    List.length_set
  refine ⟨hinv, ?_, ?_, ?_⟩
  · intro v hv
    rw [hlen]
    rcases htoken v hv with hv | rfl
    · exact h.token_lt v hv
    · exact hlt
  · intro v hv
    rw [hlen]
    rcases hreader v hv with hv | rfl
    · exact h.reader_lt v hv
    · exact hlt
  · intro v c₁ hv
    rcases set_call_call (s := { s with bodies := b }) hc hv with ⟨rfl, rfl⟩ | ⟨hne, hv⟩
    · exact hself
    · exact (h.owns v c₁ hv).noMore (hothers v c₁ hne hv)

/-- A fetch goes on with the same entries. -/
theorem OwnInv.set_call (h : OwnInv s) (hc : s.calls[u]? = some c) {c' : Call}
    (hself : Owns s.bodies u c') : OwnInv (s.set_call u c') :=
  h.set hc h.bodies (fun _ hv => .inl hv) (fun _ hv => .inl hv)
    (fun v c₁ _ _ => noMore_of_store (fun _ => rfl) rfl (List.Sublist.refl _)
      (fun _ => RequestBody.State.ValuesFrom.refl _) v c₁) hself

/-- A change of the bodies that loses entries. -/
theorem OwnInv.less (h : OwnInv s) {b : RequestBody.State M} (hinv : b.Inv False)
    (hch : ∀ c, (b.channels c).writer_handle = (s.bodies.channels c).writer_handle)
    (hnext : b.next_channel = s.bodies.next_channel)
    (hpend : b.store.pending_readers.Sublist s.bodies.store.pending_readers)
    (hval : StoreFrom s.bodies.store b.store) : OwnInv { s with bodies := b } := by
  refine ⟨hinv, ?_, ?_, ?_⟩
  · exact fun v hv => h.token_lt v (registered_of_storeFrom hval hv)
  · exact fun v hv => h.reader_lt v (registered_of_storeFrom hval hv)
  · intro v c hv
    exact (h.owns v c hv).noMore (noMore_of_store hch hnext hpend hval v c)

/-- And for one that inserts an entry for the call. -/
theorem OwnInv.set_insert (h : OwnInv s) (hc : s.calls[u]? = some c) {i : Registry}
    (hi : i ≠ .writers) (now : Instant) {c' : Call}
    (hself : Owns { s.bodies with store := (s.bodies.store.insert_into i u now).2 } u c') :
    OwnInv ((s.set_store (s.bodies.store.insert_into i u now).2).set_call u c') :=
  h.set hc (inv_insert_into h.bodies hi u now) (fun _ hv => registered_insert_into hv)
    (fun _ hv => registered_insert_into hv)
    (fun _ c₁ hne _ => noMore_insert_into hi now hne c₁) hself

/-- The call moves on with its upload, and not past its allocations: what it has
then is still to be removed. -/
theorem Owns.turn {b : RequestBody.State M} (h : Owns b u c) {c' : Call}
    (hup : c'.upload = c.upload) (hlate : c'.late → c.late)
    (htoken : Registered b .fetch_cancels u → c'.fetch_token = c.fetch_token ∧
      (c'.js = .ready ∨ c'.native = .dispatched ∨ ∃ r l, c'.native = .awaiting r l))
    (hstash : ∀ up, c.upload = some up → Stashed b up.channel →
      ¬ c'.late ∨ c'.native = .dispatched)
    (hresponse : Registered b .readers u → c'.js ≠ .thrown ∧ c'.native = c.native) :
    Owns b u c' := by
  refine ⟨?_, ?_, ?_, ?_, ?_⟩
  · rw [hup]
    exact h.upload
  · intro k e hget hval
    obtain ⟨hsame, hlive⟩ := htoken ⟨k, e, hget, hval⟩
    rw [hsame]
    exact ⟨(h.token k e hget hval).1, hlive⟩
  · rw [hup]
    exact hstash
  · rw [hup]
    intro up hu k e hget hval
    obtain ⟨hkey, hrun⟩ := h.writer up hu k e hget hval
    exact ⟨hkey, hrun.imp_left fun hnot hl => hnot (hlate hl)⟩
  · intro k e hget hval
    obtain ⟨hjs, hn⟩ := hresponse ⟨k, e, hget, hval⟩
    rw [hn]
    exact ⟨hjs, (h.response k e hget hval).2⟩

/-- What a fetch owns depends on its places, its upload and its token. -/
theorem Owns.congr {b : RequestBody.State M} (h : Owns b u c) {c' : Call} (hjs : c'.js = c.js)
    (hn : c'.native = c.native) (hup : c'.upload = c.upload)
    (ht : c'.fetch_token = c.fetch_token) : Owns b u c' := by
  have hlate : c'.late ↔ c.late := by rw [Call.late, Call.late, hjs]
  refine h.turn hup hlate.mp ?_ ?_ ?_
  · rintro ⟨k, e, hget, hval⟩
    rw [hjs, hn]
    exact ⟨ht, (h.token k e hget hval).2⟩
  · rw [hn, hlate]
    exact h.stash
  · rintro ⟨k, e, hget, hval⟩
    rw [hjs]
    exact ⟨(h.response k e hget hval).1, hn⟩

/-- A token for a call that has none. -/
theorem Owns.insert_token {b : RequestBody.State M} (h : Owns b u c)
    (hnone : ¬ Registered b .fetch_cancels u) {now : Instant} {token : ℕ}
    (hok : (b.store.insert_into .fetch_cancels u now).1 = .ok token)
    (ht : c.fetch_token = some token)
    (hlive : c.js = .ready ∨ c.native = .dispatched ∨ ∃ r l, c.native = .awaiting r l) :
    Owns { b with store := (b.store.insert_into .fetch_cancels u now).2 } u c := by
  refine ⟨h.upload, ?_, h.stash, ?_, ?_⟩
  · intro k e hget hval
    rcases RequestBody.State.get_insert_into hget with hold | ⟨-, -, token', hok', hkey⟩
    · exact absurd ⟨k, e, hold, hval⟩ hnone
    · cases hok.symm.trans hok'
      exact ⟨⟨token, ht, hkey⟩, hlive⟩
  · intro up hup k e hget hval
    rcases RequestBody.State.get_insert_into hget with hold | ⟨hi, -⟩
    · exact h.writer up hup k e hold hval
    · cases hi
  · intro k e hget hval
    rcases RequestBody.State.get_insert_into hget with hold | ⟨hi, -⟩
    · exact h.response k e hold hval
    · cases hi

/-- A response for a call that has none and still waits. -/
theorem Owns.insert_reader {b : RequestBody.State M} (h : Owns b u c)
    (hnone : ¬ Registered b .readers u) {now : Instant} {status handle : ℕ}
    (hok : (b.store.insert_into .readers u now).1 = .ok handle) (hjs : c.js ≠ .thrown)
    (hn : c.native = .finished (some ⟨status, some handle⟩)) :
    Owns { b with store := (b.store.insert_into .readers u now).2 } u c := by
  refine ⟨h.upload, ?_, h.stash, ?_, ?_⟩
  · intro k e hget hval
    rcases RequestBody.State.get_insert_into hget with hold | ⟨hi, -⟩
    · exact h.token k e hold hval
    · cases hi
  · intro up hup k e hget hval
    rcases RequestBody.State.get_insert_into hget with hold | ⟨hi, -⟩
    · exact h.writer up hup k e hold hval
    · cases hi
  · intro k e hget hval
    rcases RequestBody.State.get_insert_into hget with hold | ⟨-, -, handle', hok', hkey⟩
    · exact absurd ⟨k, e, hold, hval⟩ hnone
    · cases hok.symm.trans hok'
      exact ⟨hjs, status, handle, hn, hkey⟩

theorem OwnInv.cancel_fetch (h : OwnInv s) (c : Call) : OwnInv (s.cancel_fetch c) := by
  have hlen : (s.cancel_fetch c).calls.length = s.calls.length := by
    unfold State.cancel_fetch cancel_in_flight
    split
    · rfl
    · split
      · rfl
      · exact List.length_modify _ _ _
  refine ⟨?_, ?_, ?_, ?_⟩
  · rw [cancel_fetch_bodies]
    exact h.bodies
  · rw [cancel_fetch_bodies, hlen]
    exact h.token_lt
  · rw [cancel_fetch_bodies, hlen]
    exact h.reader_lt
  · intro v c₁ hv
    obtain ⟨c₀, hc₀, heq⟩ := cancel_fetch_call hv
    rw [cancel_fetch_bodies, heq]
    exact (h.owns v c₀ hc₀).congr rfl rfl rfl rfl

/-- A call that has allocated nothing may go anywhere. -/
theorem owns_of_nothing {b : RequestBody.State M} (htoken : ¬ Registered b .fetch_cancels u) (hnone : c.upload = none)
    (hreader : ¬ Registered b .readers u) {c' : Call} (hup : c'.upload = c.upload) :
    Owns b u c' := by
  rw [hnone] at hup
  refine ⟨?_, ?_, ?_, ?_, ?_⟩
  · exact fun up hu => by cases hup.symm.trans hu
  · exact fun k e hget hval => absurd ⟨k, e, hget, hval⟩ htoken
  · exact fun up hu => by cases hup.symm.trans hu
  · exact fun up hu => by cases hup.symm.trans hu
  · exact fun k e hget hval => absurd ⟨k, e, hget, hval⟩ hreader

/-- Without a finished native fetch there is no response. -/
theorem Owns.no_response {b : RequestBody.State M} (h : Owns b u c)
    (hn : ∀ r, c.native ≠ .finished r) : ¬ Registered b .readers u := by
  rintro ⟨k, e, hget, hval⟩
  obtain ⟨-, status, handle, hfin, -⟩ := h.response k e hget hval
  exact hn _ hfin

/-- A fetch without a token has none registered. -/
theorem Owns.no_token {b : RequestBody.State M} (h : Owns b u c) (ht : c.fetch_token = none) :
    ¬ Registered b .fetch_cancels u := by
  rintro ⟨k, e, hget, hval⟩
  obtain ⟨⟨t, htoken, -⟩, -⟩ := h.token k e hget hval
  cases ht.symm.trans htoken

/-- Once the native fetch has claimed the reader nothing is stashed. -/
theorem Owns.no_stash {b : RequestBody.State M} (h : Owns b u c) (hlate : c.late)
    (hn : c.native ≠ .dispatched) {up : Upload} (hup : c.upload = some up) :
    ¬ Stashed b up.channel := by
  intro hst
  rcases h.stash up hup hst with hnl | hd
  · exact hnl hlate
  · exact hn hd

/-- The pipe of a call moves: a writer that is registered belongs to a running
pipe. -/
theorem Owns.set_pipe {b : RequestBody.State M} (h : Owns b u c) {up : Upload}
    (hup : c.upload = some up) (up' : Upload) (hch : up'.channel = up.channel)
    (hhandle : up'.req_body_handle = up.req_body_handle)
    (hrun : Registered b .writers up.channel → up'.pipe.running = true) :
    Owns b u { c with upload := some up' } := by
  refine ⟨?_, h.token, ?_, ?_, h.response⟩
  · intro w hw
    obtain rfl := Option.some.inj hw
    rw [hch, hhandle]
    exact h.upload up hup
  · intro w hw hst
    obtain rfl := Option.some.inj hw
    rw [hch] at hst
    exact h.stash up hup hst
  · intro w hw k e hget hval
    obtain rfl := Option.some.inj hw
    rw [hch] at hval
    refine ⟨?_, .inr (hrun ⟨k, e, hget, hval⟩)⟩
    rw [hhandle]
    exact (h.writer up hup k e hget hval).1

/-! ## The JS function -/

/-- A new fetch owns nothing. -/
theorem OwnInv.begin_call (h : OwnInv s) (has_body has_signal accepted : Bool) :
    OwnInv (s.begin_call has_body has_signal accepted) := by
  have hlen : (s.begin_call has_body has_signal accepted).calls.length = s.calls.length + 1 :=
    List.length_append
  refine ⟨h.bodies, ?_, ?_, ?_⟩
  · intro v hv
    have := h.token_lt v hv
    omega
  · intro v hv
    have := h.reader_lt v hv
    omega
  · intro v c hv
    by_cases hlt : v < s.calls.length
    · rw [State.begin_call, List.getElem?_append_left hlt] at hv
      exact h.owns v c hv
    · -- nothing is registered under a number that was not given out
      rw [State.begin_call, List.getElem?_append_right (by omega)] at hv
      rw [List.mem_singleton.mp (List.mem_of_getElem? hv)]
      refine ⟨?_, ?_, ?_, ?_, ?_⟩
      · exact fun up hup => by cases hup
      · exact fun k e hget hval => absurd (h.token_lt v ⟨k, e, hget, hval⟩) hlt
      · exact fun up hup => by cases hup
      · exact fun up hup => by cases hup
      · exact fun k e hget hval => absurd (h.reader_lt v ⟨k, e, hget, hval⟩) hlt

/-- Before the dispatch there is no response. -/
theorem Owns.no_response_of_idle {b : RequestBody.State M} (h : Owns b u c)
    (hidle : c.native = .idle) : ¬ Registered b .readers u :=
  h.no_response fun r hn => by cases hidle.symm.trans hn

/-- The bodies after the adapter's `allocBodyWriter` has returned `handle`. -/
def opened (b : RequestBody.State M) (handle : ℕ) (now : Instant) : RequestBody.State M :=
  (b.open_channel (b.store.insert_into .writers b.next_channel now).2 handle).stash handle
    b.next_channel now

/-- Its one new entry is the writer of the new channel. -/
theorem get_opened {b : RequestBody.State M} {handle : ℕ} {now : Instant}
    (hok : (b.store.insert_into .writers b.next_channel now).1 = .ok handle) {i : Registry} {k : K}
    {e : Timed ℕ} (h : get ((opened b handle now).store.registry i) k = some e) :
    get (b.store.registry i) k = some e ∨
      (i = .writers ∧ e.value = b.next_channel ∧ k = handle_to_key M handle) := by
  rcases RequestBody.State.get_insert_into h with hold | ⟨hi, hval, handle', hok', hkey⟩
  · exact .inl hold
  · rw [hok] at hok'
    cases hok'
    exact .inr ⟨hi, hval, hkey⟩

theorem registered_of_opened {b : RequestBody.State M} {handle : ℕ} {now : Instant}
    (hok : (b.store.insert_into .writers b.next_channel now).1 = .ok handle) {i : Registry}
    (hi : i ≠ .writers) {v : ℕ} (h : Registered (opened b handle now) i v) : Registered b i v := by
  obtain ⟨k, e, hk, hval⟩ := h
  rcases get_opened hok hk with hold | ⟨hi', -⟩
  · exact ⟨k, e, hold, hval⟩
  · exact absurd hi' hi

/-- No other call has the new channel. -/
theorem noMore_opened {b : RequestBody.State M} {handle : ℕ} {now : Instant}
    (hok : (b.store.insert_into .writers b.next_channel now).1 = .ok handle) (v : ℕ) {c : Call}
    (hlt : ∀ up, c.upload = some up → up.channel < b.next_channel) :
    NoMore b (opened b handle now) v c := by
  have hold : ∀ i k e, get ((opened b handle now).store.registry i) k = some e → ∀ w, e.value = w →
      (i = .writers → w < b.next_channel) →
        ∃ e₀, get (b.store.registry i) k = some e₀ ∧ e₀.value = w := by
    intro i k e hk w hw hlt
    rcases get_opened hok hk with hold | ⟨hi, hval, -⟩
    · exact ⟨e, hold, hw⟩
    · exact absurd (hw.symm.trans hval) (Nat.ne_of_lt (hlt hi))
  refine ⟨Nat.le_succ _, ?_, ?_, ?_, ?_, ?_⟩
  · intro up hup
    exact congrArg RequestBody.Channel.writer_handle
      (Function.update_of_ne (Nat.ne_of_lt (hlt up hup)) _ _)
  · exact fun k e hk hw => hold .fetch_cancels k e hk v hw (fun hi => by cases hi)
  · exact fun k e hk hw => hold .readers k e hk v hw (fun hi => by cases hi)
  · exact fun up hup k e hk hw => hold .writers k e hk up.channel hw fun _ => hlt up hup
  · rintro up hup ⟨p, hp, hreader⟩
    rcases List.mem_cons.mp hp with rfl | hp
    · exact absurd hreader.symm (Nat.ne_of_lt (hlt up hup))
    · exact ⟨p, List.mem_of_mem_filter hp, hreader⟩

/-- The writer and the stash of a new channel are those of the call that has it
opened, under the handle it gets. -/
theorem OwnInv.opened (h : OwnInv s) (hc : s.calls[u]? = some c) {handle : ℕ} {now : Instant}
    (hok : (s.bodies.store.insert_into .writers s.bodies.next_channel now).1 = .ok handle)
    (hinv : (State.opened s.bodies handle now).Inv False)
    (htoken : ¬ Registered s.bodies .fetch_cancels u)
    (hreader : ¬ Registered s.bodies .readers u) :
    OwnInv ({ s with bodies := State.opened s.bodies handle now }.set_call u { c with
      js := .alloc_fetch_token
      upload := some ⟨handle, s.bodies.next_channel, .idle, [], false⟩ }) := by
  refine h.set hc hinv (fun v hv => .inl (registered_of_opened hok (by decide) hv))
    (fun v hv => .inl (registered_of_opened hok (by decide) hv)) ?_ ⟨?_, ?_, ?_, ?_, ?_⟩
  · intro v c₁ _ hv
    exact noMore_opened hok v fun up hup => ((h.owns v c₁ hv).upload up hup).1
  · intro up hup
    obtain rfl := Option.some.inj hup
    refine ⟨Nat.lt_succ_self _, ?_⟩
    simp only [State.opened, RequestBody.State.stash, RequestBody.State.open_channel,
      Function.update_self]
  · exact fun k e hk hval => absurd (registered_of_opened hok (by decide) ⟨k, e, hk, hval⟩) htoken
  · exact fun _ _ _ => .inl (Call.not_late_of_alloc_fetch_token rfl)
  · intro up hup k e hk hval
    obtain rfl := Option.some.inj hup
    refine ⟨?_, .inl (Call.not_late_of_alloc_fetch_token rfl)⟩
    rcases get_opened hok hk with hold | ⟨-, -, hkey⟩
    · -- no sender of a channel that was not there
      have := h.bodies.sender_lt _ (.inl ⟨k, e, hold, hval⟩)
      exact absurd this (Nat.lt_irrefl _)
    · exact hkey
  · exact fun k e hk hval => absurd (registered_of_opened hok (by decide) ⟨k, e, hk, hval⟩) hreader

/-- The channel belongs to its fetch. -/
theorem OwnInv.alloc_body_writer (h : OwnInv s) (hwf : s.Wf) (hc : s.calls[u]? = some c)
    (hjs : c.js = .alloc_body_writer) (endpoint : Bool) (now : Instant) :
    OwnInv (s.alloc_body_writer u c endpoint now) := by
  have hown := h.owns u c hc
  have hup := (hwf u c hc).writer hjs
  have hidle := ((hwf u c hc).early (Call.not_late_of_alloc_body_writer hjs)).1
  have htoken := hown.no_token ((hwf u c hc).token (.inl hjs))
  have hreader := hown.no_response_of_idle hidle
  have hthrown : Owns s.bodies u { c with js := .thrown } := owns_of_nothing htoken hup hreader rfl
  unfold State.alloc_body_writer
  split
  · split
    · next e bodies halloc =>
      obtain rfl := RequestBody.State.alloc_body_writer_error halloc
      exact h.set_call hc hthrown
    · next handle bodies halloc =>
      have hinv := h.bodies.alloc_body_writer now
      rw [halloc] at hinv
      obtain ⟨hok, rfl⟩ := RequestBody.State.alloc_body_writer_ok halloc
      exact h.opened hc hok (hinv.stash List.mem_cons_self now) htoken hreader
  · exact h.set_call hc hthrown

/-- A call without a body has no upload. -/
theorem Asked.no_upload (h : s.Asked) (hc : s.calls[u]? = some c) (hbody : c.has_body = false) :
    c.upload = none := by
  by_contra hup
  exact Bool.false_ne_true (hbody.symm.trans ((h u c hc).upload hup))

/-- The token belongs to its fetch. -/
theorem OwnInv.alloc_fetch_token (h : OwnInv s) (hwf : s.Wf) (hasked : s.Asked)
    (hc : s.calls[u]? = some c)
    (hjs : c.js = .alloc_fetch_token) {endpoint : Bool} {now : Instant}
    (hfrees : s.Frees (.alloc_fetch_token u endpoint now)) :
    OwnInv (s.alloc_fetch_token u c endpoint now) := by
  have hown := h.owns u c hc
  have hnot := Call.not_late_of_alloc_fetch_token hjs
  have hidle := ((hwf u c hc).early hnot).1
  have htoken := hown.no_token ((hwf u c hc).token (.inr hjs))
  have hreader := hown.no_response_of_idle hidle
  -- without a token the call throws, and by the condition it has no body to leave behind
  have hthrown : ¬ (endpoint = true ∧ HasRoom s.bodies .fetch_cancels) →
      Owns s.bodies u { c with js := .thrown } := by
    intro hfail
    have hnone := hasked.no_upload hc ((hfrees c hc).resolve_right hfail)
    exact owns_of_nothing htoken hnone hreader rfl
  unfold State.alloc_fetch_token
  split
  · rw [HandleStore.alloc_fetch_token]
    split
    · next e store halloc =>
      rcases insert_into_cases s.bodies.store .fetch_cancels u now with ⟨hfull, heq⟩ | ⟨-, heq⟩
      · rw [heq] at halloc
        cases halloc
        exact h.set_call hc (hthrown fun hroom => absurd hroom.2 (Nat.not_lt_of_le hfull))
      · rw [heq] at halloc
        cases halloc
    · next token store halloc =>
      have hready : Owns s.bodies u { c with js := .ready, fetch_token := some token } := by
        refine hown.turn rfl (fun hl => absurd hl (Call.not_late_of_ready rfl)) ?_ ?_ ?_
        · exact fun ht => absurd ht htoken
        · exact fun _ _ _ => .inl (Call.not_late_of_ready rfl)
        · exact fun hr => absurd hr hreader
      have hset := h.set_insert hc (by decide) now
        (hready.insert_token htoken (congrArg Prod.fst halloc) rfl (.inl rfl))
      rw [halloc] at hset
      exact hset
  · next hend => exact h.set_call hc (hthrown fun hroom => hend hroom.1)

/-- The hand-over leaves nothing behind, where the condition holds. -/
theorem OwnInv.dispatch (h : OwnInv s) (hwf : s.Wf) (hc : s.calls[u]? = some c)
    (hjs : c.js = .ready) (hfrees : s.Frees (.dispatch u)) : OwnInv (s.dispatch u c) := by
  have hown := h.owns u c hc
  have hidle := ((hwf u c hc).early (Call.not_late_of_ready hjs)).1
  have hreader := hown.no_response_of_idle hidle
  unfold State.dispatch
  split
  · next hfired =>
    rw [Bool.and_eq_true] at hfired
    exact absurd hfired (hfrees c hc)
  · -- the pipe begins with the dispatch, and has the writer from then on
    refine h.set_call hc ⟨?_, ?_, fun _ _ _ => .inr rfl, ?_, ?_⟩
    · intro up hup
      obtain ⟨up₀, hup₀, rfl⟩ := Option.map_eq_some_iff.mp hup
      exact hown.upload up₀ hup₀
    · exact fun k e hget hval => ⟨(hown.token k e hget hval).1, .inr (.inl rfl)⟩
    · intro up hup k e hget hval
      obtain ⟨up₀, hup₀, rfl⟩ := Option.map_eq_some_iff.mp hup
      exact ⟨(hown.writer up₀ hup₀ k e hget hval).1, .inr rfl⟩
    · exact fun k e hget hval => absurd ⟨k, e, hget, hval⟩ hreader

/-- A removal of an entry, whoever has it. -/
theorem OwnInv.remove_from (h : OwnInv s) (i : Registry) (handle : ℕ) :
    OwnInv (s.set_store (s.bodies.store.remove_from i handle).2) := by
  apply h.less (inv_remove_from h.bodies i handle)
  · exact fun _ => rfl
  · rfl
  · exact List.Sublist.refl _
  · exact storeFrom_remove_from s.bodies.store i handle

/-- An abort leaves nothing behind, where the condition holds. -/
theorem OwnInv.abort (h : OwnInv s) (hc : s.calls[u]? = some c) (hfrees : s.Frees (.abort u)) :
    OwnInv (s.abort u c) := by
  have hown := h.owns u c hc
  unfold State.abort
  split
  · next hjs =>
    have hlate : c.late := .inl hjs
    refine OwnInv.cancel_fetch ?_ c
    refine h.set_call hc (hown.turn rfl (fun _ => hlate) ?_ ?_ ?_)
    · rintro ⟨k, e, hget, hval⟩
      refine ⟨rfl, .inr ?_⟩
      rcases (hown.token k e hget hval).2 with hready | hn
      · cases hready.symm.trans hjs
      · exact hn
    · intro up hup hst
      exact .inr ((hown.stash up hup hst).resolve_left fun hnot => hnot hlate)
    · rintro ⟨k, e, hget, hval⟩
      obtain ⟨-, status, handle, hn, -⟩ := hown.response k e hget hval
      have hresponse : c.native.response = some ⟨status, some handle⟩ := by rw [hn, Native.response]
      cases hfrees c hc hjs _ hresponse
  · split
    · next handle hn =>
      have hrem := h.remove_from .readers handle
      exact hrem.set_call hc ((hrem.owns u c hc).congr rfl rfl rfl rfl)
    · exact h.set_call hc (hown.congr rfl rfl rfl rfl)
  · exact h.set_call hc (hown.congr rfl rfl rfl rfl)

/-! ## The native fetch -/

/-- Past the claim, and with the token removed, a call has its response at most. -/
theorem OwnInv.settle (h : OwnInv s) (hc : s.calls[u]? = some c) {response : Option Response}
    (hjs : c.js = .racing) (hn : c.native = .finished response) (hfrees : s.Frees (.settle u)) :
    OwnInv (s.settle u c response) := by
  have hown := h.owns u c hc
  have hlate : c.late := .inl hjs
  have hmoves : ∀ js, (js = .thrown → ¬ Registered s.bodies .readers u) →
      OwnInv (s.set_call u { c with js := js }) := by
    intro js hthrown
    refine h.set_call hc (hown.turn rfl (fun _ => hlate) ?_ ?_ ?_)
    · rintro ⟨k, e, hget, hval⟩
      rcases (hown.token k e hget hval).2 with hready | hd | ⟨r, l, ha⟩
      · cases hready.symm.trans hjs
      · cases hd.symm.trans hn
      · cases ha.symm.trans hn
    · intro up hup hst
      exact absurd hst (hown.no_stash hlate (by simp [hn]) hup)
    · exact fun hr => ⟨fun hjs => hthrown hjs hr, rfl⟩
  unfold State.settle
  split
  · refine hmoves .thrown fun _ => ?_
    rintro ⟨k, e, hget, hval⟩
    obtain ⟨-, status, handle, hfin, -⟩ := hown.response k e hget hval
    cases hn.symm.trans hfin
  · next r =>
    refine hmoves _ fun hthrown => ?_
    have hresponse : c.native.response = some r := by rw [hn, Native.response]
    rw [if_pos (hfrees c hc r hresponse)] at hthrown
    cases hthrown

/-- The key under which all entries of a value are is removed. -/
theorem not_registered_remove_from {b : RequestBody.State M} {i : Registry} {handle v : ℕ}
    (hkey : ∀ k e, get (b.store.registry i) k = some e → e.value = v →
      k = handle_to_key M handle) :
    ¬ Registered { b with store := (b.store.remove_from i handle).2 } i v := by
  rintro ⟨k, e, hget, hval⟩
  rw [HandleStore.remove_from, HandleStore.set_registry_self] at hget
  by_cases hk : k = handle_to_key M handle
  · rw [hk, get_remove_self] at hget
    cases hget
  · rw [get_remove_of_ne hk] at hget
    exact hk (hkey k e hget hval)

/-- The token goes with `run_with_cancel_and_timeout`, on every exit of it. -/
theorem OwnInv.leave (h : OwnInv s) (hwf : s.Wf) (hc : s.calls[u]? = some c) {request : ℕ}
    {listening : Option ℕ} (hn : c.native = .awaiting request listening) (native : Native) :
    OwnInv (s.leave u c native) := by
  have hlate := (hwf u c hc).late_of_native (by simp [hn])
  have hafter : ∀ s₁ : State M, OwnInv s₁ → s₁.calls[u]? = some c →
      ¬ Registered s₁.bodies .fetch_cancels u → OwnInv (s₁.set_call u { c with native := native }) := by
    intro s₁ h₁ hc₁ hgone
    have hown := h₁.owns u c hc₁
    refine h₁.set_call hc₁ (hown.turn rfl (fun hl => hl) ?_ ?_ ?_)
    · exact fun ht => absurd ht hgone
    · exact fun up hup hst => absurd hst (hown.no_stash hlate (by simp [hn]) hup)
    · exact fun hr => absurd hr (hown.no_response (by simp [hn]))
  have hown := h.owns u c hc
  unfold State.leave
  dsimp only
  split
  · next ht => exact hafter s h hc (hown.no_token ht)
  · next token ht =>
    apply hafter _ (h.remove_from .fetch_cancels token) hc
    apply not_registered_remove_from
    intro k e hget hval
    obtain ⟨⟨t, ht', hkey⟩, -⟩ := hown.token k e hget hval
    cases ht.symm.trans ht'
    exact hkey

/-- The response's body belongs to its fetch. -/
theorem OwnInv.package_response (h : OwnInv s) (hwf : s.Wf) (hc : s.calls[u]? = some c)
    (hn : c.native = .packaging) {head : Head} {now : Instant}
    (hfrees : s.Frees (.package_response u head now)) :
    OwnInv (s.package_response u c head now) := by
  have hown := h.owns u c hc
  have hlate := (hwf u c hc).late_of_native (by simp [hn])
  -- until here the call has no response reader
  have hreader := hown.no_response (by simp [hn])
  have hfinished : ∀ r, Owns s.bodies u { c with native := .finished r } := by
    intro r
    refine hown.turn rfl (fun hl => hl) ?_ ?_ ?_
    · rintro ⟨k, e, hget, hval⟩
      rcases (hown.token k e hget hval).2 with hready | hd | ⟨r, l, ha⟩
      · exact absurd hlate (Call.not_late_of_ready hready)
      · cases hd.symm.trans hn
      · cases ha.symm.trans hn
    · exact fun up hup hst => absurd hst (hown.no_stash hlate (by simp [hn]) hup)
    · exact fun hr => absurd hr hreader
  unfold State.package_response
  split
  · exact h.set_call hc (hfinished none)
  · exact h.set_call hc (hfinished none)
  · next status =>
    split
    · exact h.set_call hc (hfinished _)
    · next hbody =>
      rw [HandleStore.insert_reader]
      rcases insert_into_cases s.bodies.store .readers u now with ⟨-, heq⟩ | ⟨hroom, heq⟩
      · rw [heq]
        exact h.set_call hc (hfinished none)
      -- the condition: a reader is registered only for a caller that is still there
      · have hjs : c.js ≠ .thrown := by
          intro hjs
          rcases hfrees c hc hjs with hnull | hfull
          · exact hbody hnull
          · exact hfull hroom
        have hok := congrArg Prod.fst heq
        have hset := h.set_insert hc (i := .readers) (by decide) now
          ((hfinished (some ⟨status, some _⟩)).insert_reader hreader hok hjs rfl)
        rw [heq] at hset ⊢
        exact hset

/-- The claim takes the reader that is stashed for the handle, and nothing else
changes in the store. -/
theorem raw_fetch_store (b : RequestBody.State M) (handle : Option ℕ)
    (checks : RequestBody.Checks) :
    (b.raw_fetch handle checks).channels = b.channels ∧
      (b.raw_fetch handle checks).next_channel = b.next_channel ∧
      (b.raw_fetch handle checks).store.registry = b.store.registry ∧
      (b.raw_fetch handle checks).store.config = b.store.config ∧
      (b.raw_fetch handle checks).store.pending_readers.Sublist b.store.pending_readers := by
  have hpend := b.claim_pending_readers handle
  cases checks with
  | fail_before_claim => exact ⟨rfl, rfl, rfl, rfl, List.Sublist.refl _⟩
  | fail_after_claim =>
      cases handle with
      | none => exact ⟨rfl, rfl, rfl, rfl, hpend⟩
      | some handle => exact ⟨rfl, rfl, rfl, rfl, hpend⟩
  | pass =>
      cases handle with
      | none => exact ⟨rfl, rfl, rfl, rfl, hpend⟩
      | some handle => exact ⟨rfl, rfl, rfl, rfl, hpend⟩

/-- A reader that was claimed is stashed no more. -/
theorem not_stashed_raw_fetch {b : RequestBody.State M} (h : b.Inv False) {handle channel : ℕ}
    (hw : (b.channels channel).writer_handle = handle) :
    ¬ Stashed (b.raw_fetch (some handle) .pass) channel := by
  rintro ⟨p, hp, hreader⟩
  obtain ⟨hmem, hne⟩ := List.mem_filter.mp hp
  -- a reader is stashed under the handle of its writer
  have hwait := (h.pending p hmem).1
  rw [hreader, hw] at hwait
  rw [hwait, bne_self_eq_false] at hne
  cases hne

/-- The claim takes a reader out. -/
theorem OwnInv.raw_fetch_bodies (h : OwnInv s) (handle : Option ℕ)
    (checks : RequestBody.Checks) :
    OwnInv { s with bodies := s.bodies.raw_fetch handle checks } := by
  obtain ⟨hch, hnext, hreg, -, hpend⟩ := raw_fetch_store s.bodies handle checks
  have hval : StoreFrom s.bodies.store (s.bodies.raw_fetch handle checks).store := by
    intro i
    rw [hreg]
    exact RequestBody.State.ValuesFrom.refl _
  apply h.less (h.bodies.raw_fetch fun hf => hf.elim)
  · intro c
    rw [hch]
  · exact hnext
  · exact hpend
  · exact hval

/-- The core gets the caller's token, or one of its own. -/
theorem native_token_cases (s : State M) (u : ℕ) (c : Call) (exit : Option Exit) (now : Instant)
    (store : HandleStore M RequestBody.Ends) :
    s.native_token u c exit now store = (c.fetch_token, store) ∨
      (s.adapter = .deno ∧ c.fetch_token = none ∧ exit.all Exit.in_core = true ∧
        len (store.registry .fetch_cancels) < store.config.max_handles ∧
        ∃ token, (store.insert_into .fetch_cancels u now).1 = .ok token ∧
          s.native_token u c exit now store
            = (some token, (store.insert_into .fetch_cancels u now).2)) := by
  unfold native_token
  -- only the Deno adapter makes a token of its own, and only where the caller gave none
  split
  · next token ht => exact .inl (by rw [ht])
  · next ht =>
    rw [ht]
    split
    · next hdeno =>
      rw [Bool.and_eq_true, decide_eq_true_eq] at hdeno
      rw [HandleStore.alloc_fetch_token]
      rcases insert_into_cases store .fetch_cancels u now with ⟨-, heq⟩ | ⟨hroom, heq⟩
      · rw [heq]
        exact .inl rfl
      · rw [heq]
        exact .inr ⟨hdeno.1, rfl, hdeno.2, hroom, _, rfl, rfl⟩
    · exact .inl rfl

/-- An early return leaves nothing of a call that has nothing. -/
theorem OwnInv.raw_fetch_exit (h : OwnInv s) (hasked : s.Asked) (hc : s.calls[u]? = some c)
    (hn : c.native = .dispatched) {exit : Exit} {now : Instant}
    (hfrees : s.Frees (.raw_fetch u (some exit) now)) :
    OwnInv (s.raw_fetch u c (some exit) now) := by
  obtain ⟨hbody, hsignal, hdeno⟩ := hfrees c hc
  have hup := hasked.no_upload hc hbody
  have hnone : c.fetch_token = none := by
    by_contra htoken
    rcases (hasked u c hc).fetch_token (.inr hn) htoken with hno | hno
    · exact Bool.false_ne_true (hbody.symm.trans hno)
    · exact Bool.false_ne_true (hsignal.symm.trans hno)
  obtain ⟨hch, hnext, hreg, hconfig, hpend⟩ := raw_fetch_store s.bodies
    (c.upload.map Upload.req_body_handle) (checks (some exit))
  have hless := h.raw_fetch_bodies (c.upload.map Upload.req_body_handle) (checks (some exit))
  unfold State.raw_fetch
  generalize s.bodies.raw_fetch (c.upload.map Upload.req_body_handle) (checks (some exit)) = b
    at hch hnext hreg hconfig hpend hless ⊢
  have hown := hless.owns u c hc
  rcases s.native_token_cases u c (some exit) now b.store with heq | ⟨had, -, hcore, hroom, -⟩
  · simp only [heq]
    refine OwnInv.set_call hless hc ?_
    exact owns_of_nothing (hown.no_token hnone) hup (hown.no_response (by simp [hn])) rfl
  · rw [hreg, hconfig] at hroom
    exact absurd ⟨had, hcore, hroom⟩ hdeno

/-- The fetch passes its checks: it has the reader from then on, and the token is
the one that `run_with_cancel_and_timeout` will remove. -/
theorem OwnInv.raw_fetch_pass (h : OwnInv s) (hc : s.calls[u]? = some c)
    (hn : c.native = .dispatched) (now : Instant) :
    OwnInv (s.raw_fetch u c none now) := by
  have hless := h.raw_fetch_bodies (c.upload.map Upload.req_body_handle) .pass
  have hown := hless.owns u c hc
  have hreader := hown.no_response (by simp [hn])
  have hawaiting : ∀ listening, Owns (s.bodies.raw_fetch (c.upload.map Upload.req_body_handle) .pass)
      u { c with native := .awaiting s.bodies.requests.length listening } := by
    intro listening
    refine hown.turn rfl (fun hl => hl) (fun _ => ⟨rfl, .inr (.inr ⟨_, _, rfl⟩)⟩) ?_ ?_
    · intro up hup hst
      rw [hup] at hst
      exact absurd hst (not_stashed_raw_fetch h.bodies ((h.owns u c hc).upload up hup).2)
    · exact fun hr => absurd hr hreader
  unfold State.raw_fetch
  simp only [checks]
  rcases s.native_token_cases u c none now
    (s.bodies.raw_fetch (c.upload.map Upload.req_body_handle) .pass).store
    with heq | ⟨-, hnone, -, -, token, hok, heq⟩
  · simp only [heq]
    exact OwnInv.set_call hless hc (hawaiting _)
  · simp only [heq]
    have htoken := hown.no_token hnone
    refine hless.set_insert hc (by decide) now ?_
    refine Owns.insert_token ?_ htoken hok rfl (.inr (.inr ⟨_, _, rfl⟩))
    refine hown.turn rfl (fun hl => hl) (fun ht => absurd ht htoken) ?_ ?_
    · exact (hawaiting _).stash
    · exact fun hr => absurd hr hreader

/-! ## The pipe -/

/-- A pipe that stops running has no writer. -/
theorem OwnInv.set_upload (h : OwnInv s) (hc : s.calls[u]? = some c) {up : Upload}
    (hup : c.upload = some up) (up' : Upload) (hch : up'.channel = up.channel)
    (hhandle : up'.req_body_handle = up.req_body_handle)
    (hrun : Registered s.bodies .writers up.channel → up'.pipe.running = true) :
    OwnInv (s.set_call u { c with upload := some up' }) :=
  h.set_call hc ((h.owns u c hc).set_pipe hup up' hch hhandle hrun)

theorem next_piece_running (rest : List Bytes) : (next_piece rest).running = true := by
  cases rest <;> rfl

/-- A chunk of the source registers nothing. -/
theorem OwnInv.source_yields (h : OwnInv s) (hc : s.calls[u]? = some c) {up : Upload}
    (hup : c.upload = some up) (chunk : Bytes) : OwnInv (s.source_yields u c up chunk) := by
  apply h.set_upload hc hup
  · rfl
  · rfl
  · intro _
    dsimp only
    split
    · rfl
    · exact next_piece_running _

/-- The writer of an upload is found under its handle. -/
theorem Owns.entry {b : RequestBody.State M} (h : Owns b u c) {up : Upload}
    (hup : c.upload = some up) (hreg : Registered b .writers up.channel) :
    ∃ e, b.store.entry .writers up.req_body_handle = some e := by
  obtain ⟨k, e, hget, hval⟩ := hreg
  obtain ⟨rfl, -⟩ := h.writer up hup k e hget hval
  exact ⟨e, hget⟩

/-- A piece of a chunk registers nothing. -/
theorem OwnInv.send_chunk (h : OwnInv s) (hc : s.calls[u]? = some c) {up : Upload}
    (hup : c.upload = some up) (piece : Bytes) (rest : List Bytes) (now : Instant) :
    OwnInv (s.send_chunk u c up piece rest now) := by
  have hown := h.owns u c hc
  have hinv := h.bodies.send_chunk up.req_body_handle piece now
  unfold State.send_chunk
  cases he : s.bodies.store.entry .writers up.req_body_handle with
  | none =>
      have hsame : s.bodies.send_chunk up.req_body_handle piece now = s.bodies := by
        rw [RequestBody.State.send_chunk, HandleStore.send_chunk, HandleStore.access, he]
      rw [hsame]
      refine h.set_upload hc hup { up with pipe := .rejected } rfl rfl fun hreg => ?_
      obtain ⟨e, he'⟩ := hown.entry hup hreg
      cases he.symm.trans he'
  | some e =>
      have hless : OwnInv { s with bodies := s.bodies.send_chunk up.req_body_handle piece now } := by
        rw [RequestBody.State.send_chunk, HandleStore.send_chunk, HandleStore.access, he] at hinv ⊢
        apply h.less hinv
        · exact fun _ => rfl
        · rfl
        · exact List.Sublist.refl _
        · exact fun i => RequestBody.State.valuesFrom_set (RequestBody.State.ValuesFrom.touch _ _ now) i
      exact hless.set_upload hc hup { up with pipe := .awaiting _ rest } rfl rfl fun _ => rfl

/-- The end of a body takes its writer out. -/
theorem OwnInv.finish_body (h : OwnInv s) (hc : s.calls[u]? = some c) {up : Upload}
    (hup : c.upload = some up) : OwnInv (s.finish_body u c up) := by
  unfold State.finish_body RequestBody.State.finish_body
  rw [HandleStore.finish_body_snd]
  apply (h.remove_from .writers up.req_body_handle).set_upload hc hup
  · rfl
  · rfl
  · intro hreg
    refine absurd hreg (not_registered_remove_from fun k e hget hval => ?_)
    exact ((h.owns u c hc).writer up hup k e hget hval).1

/-- A pipe that failed has no writer to take out. -/
theorem OwnInv.pipe_catch (h : OwnInv s) (hwf : s.Wf) (hc : s.calls[u]? = some c) {up : Upload}
    (hup : c.upload = some up) (hp : up.pipe = .rejected) :
    OwnInv ((s.set_pipe u c up .reset).cancel_fetch c) := by
  have hlate := (hwf u c hc).late_of_pipe hup (by simp [hp])
  apply OwnInv.cancel_fetch
  refine h.set_upload hc hup { up with pipe := .reset } rfl rfl ?_
  rintro ⟨k, e, hget, hval⟩
  rcases ((h.owns u c hc).writer up hup k e hget hval).2 with hnot | hrun
  · exact absurd hlate hnot
  · rw [hp] at hrun
    cases hrun

/-! ## The transport and the sweeps -/

/-- The steps of the body's side take entries out only. -/
theorem OwnInv.bodies_step (h : OwnInv s) {a : Label} {b : RequestBody.Label}
    {bodies : RequestBody.State M} (ha : body_label a = some b)
    (hb : s.bodies.step b = some bodies) : OwnInv { s with bodies := bodies } := by
  have hinv := h.bodies.step (fun hf => hf.elim) hb
  have hsame : StoreFrom s.bodies.store s.bodies.store :=
    fun _ => RequestBody.State.ValuesFrom.refl _
  -- the body store's own steps register nothing, so they only take handles away
  cases a with
  | push call =>
      cases ha
      obtain ⟨c, piece, rest, -, -, rfl⟩ := RequestBody.State.push_cases hb
      refine h.less hinv (fun d => ?_) rfl (List.Sublist.refl _) hsame
      rcases s.bodies.enter_channels call c piece rest d with hd | ⟨-, hd⟩
      · rw [hd]
      · rw [hd]
        rfl
  | send_returns call =>
      cases ha
      obtain ⟨c, rest, -, rfl⟩ := RequestBody.State.send_returns_cases hb
      exact h.less hinv (fun _ => rfl) rfl (List.Sublist.refl _) hsame
  | sweep i ttl now =>
      cases ha
      cases hb
      refine h.less hinv (fun _ => rfl) rfl ?_ (storeFrom_sweep_one s.bodies.store i ttl now)
      rw [HandleStore.sweep_one_eq]
      exact List.Sublist.refl _
  | sweep_pending_readers ttl now =>
      cases ha
      cases hb
      exact h.less hinv (fun _ => rfl) rfl List.filter_sublist hsame
  | poll_frame request =>
      cases ha
      obtain ⟨q, -, -, ⟨rfl, -⟩ | ⟨c, data, rest, -, -, rfl⟩⟩ :=
        RequestBody.State.poll_frame_cases hb
      · exact h.less hinv (fun _ => rfl) rfl (List.Sublist.refl _) hsame
      · refine h.less hinv (fun d => ?_) rfl (List.Sublist.refl _) hsame
        by_cases hd : d = c
        · subst hd
          simp only [RequestBody.State.frame, Function.update_self]
        · simp only [RequestBody.State.frame, Function.update_of_ne hd]
  | drop_body request =>
      cases ha
      obtain ⟨q, -, rfl⟩ := Option.map_eq_some_iff.mp hb
      exact h.less hinv (fun _ => rfl) rfl (List.Sublist.refl _) hsame
  | _ => cases ha

/-! ## Runs -/

/-- **A step that frees what it leaves keeps the invariant.** -/
theorem OwnInv.move (h : OwnInv s) (hwf : s.Wf) (hasked : s.Asked) {a : Label} (hfrees : s.Frees a)
    (hm : Move s a s') : OwnInv s' := by
  cases hm with
  | begin_call => exact h.begin_call _ _ _
  | alloc_body_writer hc hjs => exact h.alloc_body_writer hwf hc hjs _ _
  | alloc_fetch_token hc hjs => exact h.alloc_fetch_token hwf hasked hc hjs hfrees
  | dispatch hc hjs => exact h.dispatch hwf hc hjs hfrees
  | abort hc hsignal => exact h.abort hc hfrees
  | @raw_fetch u c exit now hc hn =>
      cases exit with
      | none => exact h.raw_fetch_pass hc hn now
      | some exit => exact h.raw_fetch_exit hasked hc hn hfrees
  | response_head hc hn => exact h.leave hwf hc hn _
  | fetch_error hc hn => exact h.leave hwf hc hn _
  | cancelled hc hn hpermit => exact h.leave hwf hc hn _
  | package_response hc hn => exact h.package_response hwf hc hn hfrees
  | settle hc hjs hn => exact h.settle hc hjs hn hfrees
  | release_response hc hjs hn => exact h.remove_from .readers _
  | source_yields hc hup hp => exact h.source_yields hc hup _
  | @source_ends u c up hc hup hp =>
      exact h.set_upload hc hup { up with pipe := .finishing, drained := true } rfl rfl
        fun _ => rfl
  -- a source or a send that fails is what the condition excludes
  | source_fails hc hup hp => exact hfrees.elim
  | send_chunk hc hup hp => exact h.send_chunk hc hup _ _ _
  | @send_resolves u call channel c up rest hc hup hp hx =>
      exact h.set_upload hc hup { up with pipe := next_piece rest } rfl rfl
        fun _ => next_piece_running rest
  | @send_rejects u call channel c up rest piece left hc hup hp hx =>
      have hunsent : s.unsent c = piece :: left := by
        obtain ⟨req_body_handle, channel', pipe, yielded, drained⟩ := up
        cases hp
        simp only [unsent, hup, hx, Option.elim_some]
      cases hunsent.symm.trans (hfrees c hc)
  | adapter_fails hc hup hp => exact hfrees.elim
  | finish_body hc hup hp => exact h.finish_body hc hup
  | pipe_catch hc hup hp => exact h.pipe_catch hwf hc hup hp
  | bodies ha hb => exact h.bodies_step ha hb

theorem ownInv_start (adapter : Adapter) (max_chunk : ℕ) (config : StoreConfig) :
    OwnInv (start adapter max_chunk config : State M) := by
  have hempty : ∀ i v, ¬ Registered (start adapter max_chunk config : State M).bodies i v := by
    rintro i v ⟨k, e, hget, -⟩
    simp only [start, RequestBody.State.start, HandleStore.new] at hget
    rw [get_with_key] at hget
    cases hget
  refine ⟨RequestBody.State.inv_start config, ?_, ?_, ?_⟩
  · exact fun v hv => absurd hv (hempty _ v)
  · exact fun v hv => absurd hv (hempty _ v)
  · exact fun u c hc => by cases hc

end State

open State

/-- **A fetch leaves nothing behind.** In every run whose exits free what the call
has, whatever the adapter, the bodies and the signals are, and wherever aborts,
heads, errors, sweeps and the pipe's steps come in: in every state of it, a call
that has settled, and with which the native side has finished, has no token and no
stashed reader, a writer only as long as its pipe runs, and a response reader only
if it returned the response. -/
theorem fetch_leaves_no_orphans {K : Type} {M : Type → Type} [SlotMap K M] (adapter : Adapter)
    (max_chunk : ℕ) (config : StoreConfig) (l : List Label)
    (hfrees : Along State.step Frees (start adapter max_chunk config : State M) l) (n : ℕ)
    (t : State M)
    (hrun : run State.step (start adapter max_chunk config : State M) (l.take n) = some t) :
    t.NoOrphans := by
  have hinv : t.Wf ∧ t.Asked ∧ OwnInv t := by
    refine along_invariant_take (P := fun s => s.Wf ∧ s.Asked ∧ OwnInv s) ?_
      ⟨wf_start _ _ _, asked_start _ _ _, ownInv_start _ _ _⟩ hfrees hrun
    rintro s a s' ⟨hwf, hasked, hown⟩ hstep_frees hstep
    have hmove := move_of_step hstep
    exact ⟨hwf.move hmove, hasked.move hwf hmove, hown.move hwf hasked hstep_frees hmove⟩
  exact hinv.2.2.noOrphans

/-- Three fetches at once on the Deno adapter. The first has a body and a signal and returns its
response; the second has neither and stops at its address; the third loses the race against its
signal before there is a response. A sweep comes in between. -/
def three_fetches : List Label :=
  [.begin_call true true true, .begin_call false false true, .alloc_body_writer 0 true 0,
    .begin_call false true true, .dispatch 1, .alloc_fetch_token 2 true 1,
    .alloc_fetch_token 0 true 1, .dispatch 2, .raw_fetch 1 (some .parse_direct_addrs) 2, .dispatch 0,
    .raw_fetch 2 none 2, .raw_fetch 0 none 2, .settle 1, .source_yields 0 [1, 2], .send_chunk 0 3,
    .abort 2, .push 0, .sweep .fetch_cancels 10 4, .send_returns 0, .send_settles 0, .cancelled 2,
    .source_ends 0, .finish_body 0, .response_head 0, .package_response 0 (.accepted 200) 5,
    .settle 0]

/-- Three fetches: one returns with a body, one is aborted, one fails. -/
theorem fetch_leaves_no_orphans_three :
    ∃ t, run State.step (start .deno 65536 {} : State Slots) three_fetches = some t ∧
      t.calls = [⟨true, true, .returned, .finished (some ⟨200, some 4294967297⟩),
          some ⟨4294967297, 0, .resolved, [[1, 2]], true⟩, some 4294967298, false, false⟩,
        ⟨false, false, .thrown, .finished none, none, none, false, false⟩,
        ⟨false, true, .thrown, .finished none, none, some 4294967297, true, true⟩] ∧
      t.NoOrphans := by
  refine ⟨_, rfl, rfl, ?_⟩
  exact fetch_leaves_no_orphans .deno 65536 {} three_fetches (along_of_guarded rfl) 26 _ rfl

/-- The signal fires during the allocation of the token: the function cancels it
and throws, and the token stays. -/
theorem aborted_fetch_leaves_token :
    ∃ t, run State.step (start .node 65536 {} : State Slots)
        [.begin_call false true true, .abort 0, .alloc_fetch_token 0 true 0, .dispatch 0]
          = some t ∧
      t.calls = [⟨false, true, .thrown, .idle, none, some 4294967297, true, true⟩] ∧
      ¬ t.NoOrphans := by
  refine ⟨_, rfl, rfl, fun hnone => ?_⟩
  have horphan := hnone 0 _ rfl (.inr rfl) (.inl rfl)
  exact horphan.token ⟨handle_to_key Slots 4294967297, _, rfl, rfl⟩

end IrohHttp.FetchCalls
