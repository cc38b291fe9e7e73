/-
When an upload ends.

The request body ends cleanly once its last sender is gone, and that is the same
for a writer that was finished and for one that was merely dropped. The pipe
finishes its writer only after the whole source was sent; a pipe that failed
leaves it registered and cancels the fetch instead. So the registered writer is
all that keeps a failed upload from ending, and it does so until something else
removes it: after the response head the token is gone, the cancellation finds
nothing, and the sweep of the writers is that something.

`Spares` is the condition under which that does not happen, and
`upload_ends_whole` the theorem; `failed_upload_ends_cleanly` is a run without
it.
-/
import IrohHttp.FetchCalls
import Mathlib.Logic.Function.Basic

set_option autoImplicit false

namespace IrohHttp.FetchCalls

open SlotMap Handles Machine

/-! ## Chunks and their pieces -/

theorem toChunks_go_flatten {α : Type} (n : ℕ) (xs : List α) (acc₁ : Array α)
    (acc₂ : Array (List α)) :
    (List.toChunks.go n xs acc₁ acc₂).flatten = acc₂.toList.flatten ++ acc₁.toList ++ xs := by
  induction xs generalizing acc₁ acc₂ with
  | nil => simp [List.toChunks.go]
  | cons x xs ih =>
      rw [List.toChunks.go]
      split
      · rw [ih]
        simp
      · rw [ih]
        simp

/-- Cutting a chunk into pieces loses nothing. -/
theorem toChunks_flatten {α : Type} (n : ℕ) (xs : List α) : (xs.toChunks n).flatten = xs := by
  cases xs with
  | nil => cases n <;> rfl
  | cons x xs =>
      cases n with
      | zero => simp [List.toChunks]
      | succ n =>
          rw [List.toChunks, toChunks_go_flatten]
          · simp
          · simp

/-- The pieces of a chunk are its bytes. -/
theorem pieces_flatten (max : ℕ) (chunk : Bytes) :
    (RequestBody.State.pieces max chunk).flatten = chunk := by
  unfold RequestBody.State.pieces
  split
  · exact List.flatten_singleton
  · exact toChunks_flatten max chunk

namespace State

variable {K : Type} {M : Type → Type} [SlotMap K M]

/-- The upload of call `u`, once its writer is allocated. -/
def upload (s : State M) (u : ℕ) : Option Upload := s.calls[u]?.bind Call.upload

/-! ## A body ends when its upload is whole -/

/-- A body that has ended has yielded the whole source of the upload behind it. -/
def EndsWhole (s : State M) : Prop :=
  ∀ q ∈ s.bodies.requests, ∀ c, q.body = .reader c → q.ended = true →
    ∀ u up, s.upload u = some up → up.channel = c →
      up.drained = true ∧ q.frames.flatten = up.yielded.flatten

/-- A sweep spares the writer of every upload that is not wholly sent and whose
reader is still there, and a pipe that uses its handle does not find the writer of
another upload under it. -/
def Spares (s : State M) : Label → Prop
  | .sweep .writers ttl now =>
    ∀ u up, s.upload u = some up → up.drained = false → s.bodies.rx_alive up.channel = true →
      ∀ e, s.bodies.store.entry .writers up.req_body_handle = some e → e.value = up.channel →
        e.is_expired ttl now = false
  | .send_chunk u _ | .finish_body u =>
    ∀ up, s.upload u = some up → ∀ e, s.bodies.store.entry .writers up.req_body_handle = some e →
      e.value = up.channel
  | _ => True

/-! ## The invariant

It is about the bodies and the uploads alone; what the JS function and the native
fetch do besides leaves both as they are. -/

/-- How much of what the source yielded has entered the channel. -/
def Flow (b : RequestBody.State M) (up : Upload) : Prop :=
  match up.pipe with
  | .idle | .reading =>
    up.drained = false ∧ (b.channels up.channel).sent.flatten = up.yielded.flatten
  | .sending piece rest =>
    up.drained = false ∧
      (b.channels up.channel).sent.flatten ++ (piece ++ rest.flatten) = up.yielded.flatten
  | .awaiting call rest =>
    up.drained = false ∧ ∃ x, b.sends[call]? = some x ∧ x.channel = up.channel ∧
      (b.channels up.channel).sent.flatten ++ (x.pieces.flatten ++ rest.flatten)
        = up.yielded.flatten
  | .finishing | .resolved =>
    up.drained = true ∧ (b.channels up.channel).sent.flatten = up.yielded.flatten
  | .rejected | .reset =>
    up.drained = true → (b.channels up.channel).sent.flatten = up.yielded.flatten

/-- What a run keeps of an upload: its channel was opened, its bytes flow, and until it drained its
own writer keeps the body from ending. -/
structure Tracks (b : RequestBody.State M) (up : Upload) : Prop where
  lt : up.channel < b.next_channel
  flow : Flow b up
  -- the writer is all that keeps the body from ending
  registered : up.drained = false → b.rx_alive up.channel = true →
    ∃ e, b.store.entry .writers up.req_body_handle = some e ∧ e.value = up.channel
  own_sends : ∀ (j : ℕ) x, b.sends[j]? = some x → x.live = true → x.channel = up.channel →
    ∃ rest, up.pipe = .awaiting j rest

/-- The invariant of a run with its uploads: their channels differ, and a body that ended drained
its upload. -/
structure UploadInv (b : RequestBody.State M) (ups : ℕ → Option Upload) : Prop where
  bodies : b.Inv False
  tracks : ∀ u up, ups u = some up → Tracks b up
  distinct : ∀ u v up up', ups u = some up → ups v = some up' → up.channel = up'.channel → u = v
  ended : ∀ q ∈ b.requests, ∀ c, q.body = .reader c → q.ended = true →
    ∀ u up, ups u = some up → up.channel = c → up.drained = true

/-- When an upload has drained, all it yielded was sent. -/
theorem Flow.whole {b : RequestBody.State M} {up : Upload} (h : Flow b up)
    (hd : up.drained = true) : (b.channels up.channel).sent.flatten = up.yielded.flatten := by
  unfold Flow at h
  split at h
  case h_1 => exact h.2
  case h_2 => exact h.2
  case h_3 => rw [hd] at h; cases h.1
  case h_4 => rw [hd] at h; cases h.1
  case h_5 => exact h.2
  case h_6 => exact h.2
  case h_7 => exact h hd
  case h_8 => exact h hd

/-- The invariant is the property. -/
theorem UploadInv.endsWhole {s : State M} (h : UploadInv s.bodies s.upload) : s.EndsWhole := by
  intro q hq c hbody hended u up hup hc
  have hd := h.ended q hq c hbody hended u up hup hc
  refine ⟨hd, ?_⟩
  rw [(h.bodies.reads q hq).complete c hbody hended, ← hc]
  exact (h.tracks u up hup).flow.whole hd

/-! ## Steps of the bodies -/

theorem rx_alive_iff {b : RequestBody.State M} {c : ℕ} :
    b.rx_alive c = true ↔ (∃ p ∈ b.stashing, p.2 = c) ∨
      (∃ p ∈ b.store.pending_readers, p.2.reader = c) ∨
      ∃ q ∈ b.requests, q.held = true ∧ q.body = .reader c := by
  simp only [RequestBody.State.rx_alive, Bool.or_eq_true, List.any_eq_true, Bool.and_eq_true,
    beq_iff_eq, or_assoc]

/-- A change of the bodies as one upload sees it: nothing is sent through its
channel, its reader does not come back, and its writer stays if it relies on it. -/
structure Undisturbed (b b' : RequestBody.State M) (up : Upload) : Prop where
  next : b.next_channel ≤ b'.next_channel
  sent : (b'.channels up.channel).sent = (b.channels up.channel).sent
  sends : ∀ (j : ℕ) x, b.sends[j]? = some x → x.channel = up.channel →
    ∃ x', b'.sends[j]? = some x' ∧ x'.channel = up.channel ∧ x'.pieces = x.pieces
  live : ∀ (j : ℕ) x', b'.sends[j]? = some x' → x'.live = true → x'.channel = up.channel →
    ∃ x, b.sends[j]? = some x ∧ x.live = true ∧ x.channel = up.channel
  rx : b'.rx_alive up.channel = true → b.rx_alive up.channel = true
  kept : up.drained = false → b.rx_alive up.channel = true →
    ∀ e, b.store.entry .writers up.req_body_handle = some e → e.value = up.channel →
      ∃ e', b'.store.entry .writers up.req_body_handle = some e' ∧ e'.value = up.channel

theorem Flow.undisturbed {b b' : RequestBody.State M} {up : Upload} (h : Flow b up)
    (hu : Undisturbed b b' up) : Flow b' up := by
  unfold Flow at h ⊢
  rw [hu.sent]
  split
  case h_4 hpipe =>
    simp only [hpipe] at h
    obtain ⟨hd, x, hx, hc, hflow⟩ := h
    obtain ⟨x', hx', hc', hp'⟩ := hu.sends _ x hx hc
    exact ⟨hd, x', hx', hc', by rw [hp']; exact hflow⟩
  all_goals next hpipe => simpa only [hpipe] using h

/-- A step that does not disturb an upload keeps its track. -/
theorem Tracks.undisturbed {b b' : RequestBody.State M} {up : Upload} (h : Tracks b up)
    (hu : Undisturbed b b' up) : Tracks b' up := by
  obtain ⟨hlt, hflow, hreg, hown⟩ := h
  refine ⟨Nat.lt_of_lt_of_le hlt hu.next, hflow.undisturbed hu, ?_, ?_⟩
  · intro hd hrx
    obtain ⟨e, he, hval⟩ := hreg hd (hu.rx hrx)
    exact hu.kept hd (hu.rx hrx) e he hval
  · intro j x' hx' hlive hc
    obtain ⟨x, hx, hlive₀, hc₀⟩ := hu.live j x' hx' hlive hc
    exact hown j x hx hlive₀ hc₀

/-- What disturbs no upload, and ends no body of an unfinished one. -/
theorem UploadInv.undisturbed {ups : ℕ → Option Upload} {b b' : RequestBody.State M}
    (h : UploadInv b ups) (hinv : b'.Inv False)
    (hu : ∀ u up, ups u = some up → Undisturbed b b' up)
    (hended : ∀ q' ∈ b'.requests, ∀ c, q'.body = .reader c → q'.ended = true →
      (∃ q ∈ b.requests, q.body = .reader c ∧ q.ended = true) ∨
        ∀ u up, ups u = some up → up.channel = c → up.drained = true) : UploadInv b' ups := by
  refine ⟨hinv, fun u up hup => (h.tracks u up hup).undisturbed (hu u up hup), h.distinct, ?_⟩
  intro q' hq' c hbody hq'ended u up hup hc
  rcases hended q' hq' c hbody hq'ended with ⟨q, hq, hbody₀, hended₀⟩ | hall
  · exact h.ended q hq c hbody₀ hended₀ u up hup hc
  · exact hall u up hup hc

theorem rx_alive_of_sublist {b b' : RequestBody.State M} {c : ℕ} (hrx : b'.rx_alive c = true)
    (hstash : b'.stashing = b.stashing) (hreq : b'.requests = b.requests)
    (hpend : b'.store.pending_readers.Sublist b.store.pending_readers) : b.rx_alive c = true := by
  rw [rx_alive_iff] at hrx ⊢
  rw [hstash, hreq] at hrx
  rcases hrx with hst | ⟨p, hp, hc⟩ | hq
  · exact .inl hst
  · exact .inr (.inl ⟨p, hpend.subset hp, hc⟩)
  · exact .inr (.inr hq)

/-- A change of the store alone. -/
theorem UploadInv.store {ups : ℕ → Option Upload} {b : RequestBody.State M} (h : UploadInv b ups)
    {store : HandleStore M RequestBody.Ends}
    (hinv : ({ b with store := store } : RequestBody.State M).Inv False)
    (hpend : store.pending_readers.Sublist b.store.pending_readers)
    (hkept : ∀ u up, ups u = some up → up.drained = false → b.rx_alive up.channel = true →
      ∀ e, b.store.entry .writers up.req_body_handle = some e → e.value = up.channel →
        ∃ e', store.entry .writers up.req_body_handle = some e' ∧ e'.value = up.channel) :
    UploadInv { b with store := store } ups := by
  refine h.undisturbed hinv ?_ fun q hq c hbody hended => .inl ⟨q, hq, hbody, hended⟩
  intro u up hup
  exact ⟨Nat.le_refl _, rfl, fun j x hx hc => ⟨x, hx, hc, rfl⟩,
    fun j x hx hlive hc => ⟨x, hx, hlive, hc⟩,
    fun hrx => rx_alive_of_sublist hrx rfl rfl hpend, hkept u up hup⟩

/-- A change of another registry. -/
theorem UploadInv.set_store {ups : ℕ → Option Upload} {b : RequestBody.State M}
    (h : UploadInv b ups) {i : Registry} (hi : i ≠ .writers) (reg : M (Timed ℕ)) :
    UploadInv { b with store := b.store.set i reg } ups := by
  have hw : (b.store.set i reg).registry .writers = b.store.registry .writers :=
    HandleStore.set_registry_of_ne b.store reg hi.symm
  have hinv : ({ b with store := b.store.set i reg } : RequestBody.State M).Inv False := by
    refine h.bodies.store (List.Sublist.refl _) ?_
    rw [hw]
    exact RequestBody.State.ValuesFrom.refl _
  refine h.store hinv (List.Sublist.refl _) ?_
  intro u up _ _ _ e he hval
  refine ⟨e, ?_, hval⟩
  rw [HandleStore.entry, hw]
  exact he

/-- A sweep that spares the writers in use. -/
theorem UploadInv.sweep {ups : ℕ → Option Upload} {b : RequestBody.State M} (h : UploadInv b ups)
    {i : Registry} {ttl : Duration} {now : Instant}
    (hspare : i = .writers → ∀ u up, ups u = some up → up.drained = false →
      b.rx_alive up.channel = true → ∀ e, b.store.entry .writers up.req_body_handle = some e →
        e.value = up.channel → e.is_expired ttl now = false) :
    UploadInv { b with store := b.store.sweep_one i ttl now } ups := by
  by_cases hi : i = .writers
  · subst hi
    refine h.store (h.bodies.sweep .writers ttl now) ?_ ?_
    · rw [HandleStore.sweep_one_eq]
      exact List.Sublist.refl _
    · intro u up hup hd hrx e he hval
      refine ⟨e, ?_, hval⟩
      have hlive := hspare rfl u up hup hd hrx e he hval
      rw [HandleStore.entry] at he
      rw [HandleStore.sweep_one_eq, HandleStore.entry, HandleStore.set_registry_self,
        get_sweep_registry, he, Option.filter_some, hlive]
      rfl
  · rw [HandleStore.sweep_one_eq]
    exact h.set_store hi _

theorem UploadInv.sweep_pending_readers {ups : ℕ → Option Upload} {b : RequestBody.State M}
    (h : UploadInv b ups) (ttl : Duration) (now : Instant) :
    UploadInv { b with store := b.store.sweep_pending_readers ttl now } ups := by
  refine h.store (h.bodies.sweep_pending_readers ttl now) List.filter_sublist ?_
  exact fun u up _ _ _ e he hval => ⟨e, he, hval⟩

theorem UploadInv.send_returns {ups : ℕ → Option Upload} {b b' : RequestBody.State M}
    (h : UploadInv b ups) {call : ℕ} (hstep : b.send_returns call = some b') :
    UploadInv b' ups := by
  have hinv := h.bodies.send_returns hstep
  obtain ⟨c, rest, hx, rfl⟩ := RequestBody.State.send_returns_cases hstep
  have hlt := (List.getElem?_eq_some_iff.mp hx).1
  refine h.undisturbed hinv ?_ fun q hq c hbody hended => .inl ⟨q, hq, hbody, hended⟩
  intro u up hup
  refine ⟨Nat.le_refl _, rfl, ?_, ?_, fun hrx => hrx, fun _ _ e he hval => ⟨e, he, hval⟩⟩
  · intro j x hj hc
    by_cases hij : call = j
    · subst hij
      obtain rfl := Option.some.inj (hx.symm.trans hj)
      exact ⟨_, List.getElem?_set_self hlt, hc, rfl⟩
    · exact ⟨x, (List.getElem?_set_ne hij).trans hj, hc, rfl⟩
  · intro j x' hj hlive hc
    by_cases hij : call = j
    · subst hij
      rw [List.getElem?_set_self hlt, Option.some.injEq] at hj
      rw [← hj] at hlive
      cases hlive
    · rw [List.getElem?_set_ne hij] at hj
      exact ⟨x', hj, hlive, hc⟩

/-- A change of the requests that leaves the senders and what was sent alone. -/
theorem UploadInv.requests {ups : ℕ → Option Upload} {b b' : RequestBody.State M}
    (h : UploadInv b ups) (hinv : b'.Inv False) (hnext : b'.next_channel = b.next_channel)
    (hsent : ∀ c, (b'.channels c).sent = (b.channels c).sent) (hsends : b'.sends = b.sends)
    (hrx : ∀ c, b'.rx_alive c = true → b.rx_alive c = true)
    (hreg : b'.store.registry .writers = b.store.registry .writers)
    (hended : ∀ q' ∈ b'.requests, ∀ c, q'.body = .reader c → q'.ended = true →
      (∃ q ∈ b.requests, q.body = .reader c ∧ q.ended = true) ∨
        ∀ u up, ups u = some up → up.channel = c → up.drained = true) : UploadInv b' ups := by
  refine h.undisturbed hinv (fun u up hup => ?_) hended
  refine ⟨Nat.le_of_eq hnext.symm, hsent up.channel, ?_, ?_, hrx up.channel, ?_⟩
  · intro j x hx hc
    exact ⟨x, by rw [hsends]; exact hx, hc, rfl⟩
  · intro j x hx hlive hc
    exact ⟨x, by rw [← hsends]; exact hx, hlive, hc⟩
  · intro _ _ e he hval
    exact ⟨e, by rw [HandleStore.entry, hreg]; exact he, hval⟩

/-- A body is dropped. -/
theorem UploadInv.drop_body {ups : ℕ → Option Upload} {b b' : RequestBody.State M}
    (h : UploadInv b ups) {request : ℕ} (hstep : b.drop_body request = some b') :
    UploadInv b' ups := by
  have hinv := h.bodies.drop_body hstep
  unfold RequestBody.State.drop_body at hstep
  rw [Option.map_eq_some_iff] at hstep
  obtain ⟨q, hq, rfl⟩ := hstep
  refine h.requests hinv rfl (fun _ => rfl) rfl ?_ rfl ?_
  · intro c hrx
    rw [rx_alive_iff] at hrx ⊢
    rcases hrx with hst | hpend | ⟨q', hq', hheld, hbody⟩
    · exact .inl hst
    · exact .inr (.inl hpend)
    · rcases List.mem_or_eq_of_mem_set hq' with hq' | rfl
      · exact .inr (.inr ⟨q', hq', hheld, hbody⟩)
      · cases hheld
  · intro q' hq' c hbody hended
    rcases List.mem_or_eq_of_mem_set hq' with hq' | rfl
    · exact .inl ⟨q', hq', hbody, hended⟩
    · exact .inl ⟨q, List.mem_of_getElem? hq, hbody, hended⟩

/-- A request that changes keeps its body, and stays held. -/
theorem rx_alive_of_set_request {b b' : RequestBody.State M} {c : ℕ} (hrx : b'.rx_alive c = true)
    {request : ℕ} {q : RequestBody.Request} (hq : b.requests[request]? = some q)
    (hheld : q.held = true) (q' : RequestBody.Request) (hbody : q'.body = q.body)
    (hreq : b'.requests = b.requests.set request q') (hstash : b'.stashing = b.stashing)
    (hpend : b'.store.pending_readers = b.store.pending_readers) : b.rx_alive c = true := by
  rw [rx_alive_iff] at hrx ⊢
  rw [hstash, hpend, hreq] at hrx
  rcases hrx with hst | hp | ⟨x, hx, hxheld, hxbody⟩
  · exact .inl hst
  · exact .inr (.inl hp)
  · rcases List.mem_or_eq_of_mem_set hx with hx | rfl
    · exact .inr (.inr ⟨x, hx, hxheld, hxbody⟩)
    · exact .inr (.inr ⟨q, List.mem_of_getElem? hq, hheld, hbody ▸ hxbody⟩)

/-- **The end is seen only of a whole source.** A body whose channel has no sender
left is not that of an unfinished upload, whose writer would be one. -/
theorem UploadInv.drained_of_no_sender {ups : ℕ → Option Upload} {b : RequestBody.State M}
    (h : UploadInv b ups) {c : ℕ} (hrx : b.rx_alive c = true) (htx : b.tx_alive c = false) {u : ℕ}
    {up : Upload} (hup : ups u = some up) (hc : up.channel = c) : up.drained = true := by
  by_contra hd
  rw [Bool.not_eq_true] at hd
  obtain ⟨e, he, hval⟩ := (h.tracks u up hup).registered hd (hc ▸ hrx)
  have hsender : b.Sender c := .inl ⟨_, e, he, hval.trans hc⟩
  rw [RequestBody.State.tx_alive_iff.mpr hsender] at htx
  cases htx

/-- A body is polled. -/
theorem UploadInv.poll_frame {ups : ℕ → Option Upload} {b b' : RequestBody.State M}
    (h : UploadInv b ups) {request : ℕ} (hstep : b.poll_frame request = some b') :
    UploadInv b' ups := by
  have hinv := h.bodies.poll_frame hstep
  obtain ⟨q, hq, hheld, ⟨rfl, hend⟩ | ⟨c, data, rest, hbody, -, rfl⟩⟩ :=
    RequestBody.State.poll_frame_cases hstep
  · refine h.requests hinv rfl (fun _ => rfl) rfl ?_ rfl ?_
    · exact fun c hrx => rx_alive_of_set_request hrx hq hheld { q with ended := true } rfl
        rfl rfl rfl
    · intro q' hq' c hbody hended
      rcases List.mem_or_eq_of_mem_set hq' with hq' | rfl
      · exact .inl ⟨q', hq', hbody, hended⟩
      · refine .inr fun u up hup hc => h.drained_of_no_sender ?_ (hend c hbody).2 hup hc
        exact rx_alive_iff.mpr (.inr (.inr ⟨q, List.mem_of_getElem? hq, hheld, hbody⟩))
  · refine h.requests hinv rfl ?_ rfl ?_ rfl ?_
    · intro d
      by_cases hd : d = c
      · subst hd
        simp only [RequestBody.State.frame, Function.update_self]
      · simp only [RequestBody.State.frame, Function.update_of_ne hd]
    · exact fun c hrx => rx_alive_of_set_request hrx hq hheld
        { q with frames := q.frames ++ [data] } rfl rfl rfl rfl
    · intro q' hq' c hbody hended
      rcases List.mem_or_eq_of_mem_set hq' with hq' | rfl
      · exact .inl ⟨q', hq', hbody, hended⟩
      · exact .inl ⟨q, List.mem_of_getElem? hq, hbody, hended⟩

theorem claim_stashed {b : RequestBody.State M} {handle : Option ℕ} {c : ℕ}
    (hc : (b.claim handle).1 = some c) : ∃ p ∈ b.store.pending_readers, p.2.reader = c := by
  cases handle with
  | none => cases hc
  | some handle =>
      simp only [RequestBody.State.claim, HandleStore.claim_pending_reader,
        Option.map_eq_some_iff] at hc
      obtain ⟨p, hfind, hp⟩ := hc
      exact ⟨p, List.mem_of_find?_eq_some hfind, hp⟩

/-- The claim and the hand-over: a reader leaves the stash for a body, or is
dropped. -/
theorem UploadInv.raw_fetch {ups : ℕ → Option Upload} {b : RequestBody.State M}
    (h : UploadInv b ups) (handle : Option ℕ) (checks : RequestBody.Checks) :
    UploadInv (b.raw_fetch handle checks) ups := by
  have hinv : (b.raw_fetch handle checks).Inv False := h.bodies.raw_fetch fun hf => hf.elim
  obtain ⟨hclaim, hreg⟩ := b.claim_frame handle
  have hpend := b.claim_pending_readers handle
  cases checks with
  | fail_before_claim => exact h
  | fail_after_claim =>
      rw [RequestBody.State.raw_fetch] at hinv ⊢
      rw [hclaim] at hinv ⊢
      refine h.store hinv hpend ?_
      intro u up _ _ _ e he hval
      exact ⟨e, by rw [HandleStore.entry, hreg]; exact he, hval⟩
  | pass =>
      have hfields : (b.claim handle).2.next_channel = b.next_channel ∧
          (b.claim handle).2.channels = b.channels ∧ (b.claim handle).2.sends = b.sends ∧
          (b.claim handle).2.requests = b.requests ∧
          (b.claim handle).2.stashing = b.stashing := by
        rw [hclaim]
        exact ⟨rfl, rfl, rfl, rfl, rfl⟩
      obtain ⟨hnext, hch, hsends, hreq, hstash⟩ := hfields
      refine h.requests hinv hnext ?_ hsends ?_ (congrFun hreg .writers) ?_
      · intro c
        exact congrArg RequestBody.Channel.sent (congrFun hch c)
      · intro c hrx
        rw [rx_alive_iff] at hrx ⊢
        rcases hrx with ⟨p, hp, hc⟩ | ⟨p, hp, hc⟩ | ⟨q, hq, hheld, hbody⟩
        · exact .inl ⟨p, hstash ▸ hp, hc⟩
        · exact .inr (.inl ⟨p, hpend.subset hp, hc⟩)
        · rcases List.mem_append.mp hq with hq | hq
          · exact .inr (.inr ⟨q, hreq ▸ hq, hheld, hbody⟩)
          · -- the new request's reader was in the stash
            rw [List.mem_singleton.mp hq] at hbody
            cases hc : (b.claim handle).1 with
            | none =>
                rw [show RequestBody.State.req_body (b.claim handle).1 = .empty by rw [hc]; rfl]
                  at hbody
                cases hbody
            | some d =>
                rw [show RequestBody.State.req_body (b.claim handle).1 = .reader d by rw [hc]; rfl]
                  at hbody
                obtain rfl := RequestBody.Body.reader.inj hbody
                exact .inr (.inl (claim_stashed hc))
      · intro q hq c hbody hended
        rcases List.mem_append.mp hq with hq | hq
        · exact .inl ⟨q, hreq ▸ hq, hbody, hended⟩
        · rw [List.mem_singleton.mp hq] at hended
          cases hended

/-- A piece enters a channel, and the upload of that channel is the one that sent
it. -/
theorem Tracks.enter {b : RequestBody.State M} {up : Upload} (h : Tracks b up) {call c : ℕ}
    {piece : Bytes} {rest : List Bytes}
    (hx : b.sends[call]? = some ⟨c, piece :: rest, true⟩) :
    Tracks (b.enter call c piece rest) up := by
  have hlt := (List.getElem?_eq_some_iff.mp hx).1
  by_cases hc : up.channel = c
  · obtain ⟨later, hpipe⟩ := h.own_sends call _ hx rfl hc.symm
    refine ⟨h.lt, ?_, h.registered, ?_⟩
    · have hflow := h.flow
      simp only [Flow, hpipe] at hflow ⊢
      obtain ⟨hd, x, hx', -, hflow⟩ := hflow
      obtain rfl := Option.some.inj (hx.symm.trans hx')
      refine ⟨hd, ⟨c, rest, true⟩, List.getElem?_set_self hlt, hc.symm, ?_⟩
      rw [hc] at hflow
      simp only [RequestBody.State.enter, hc, Function.update_self, RequestBody.Channel.push,
        List.flatten_append, List.append_assoc, List.flatten_cons, List.flatten_nil,
        List.nil_append] at hflow ⊢
      exact hflow
    · intro j x hj hlive hxc
      by_cases hij : call = j
      · exact ⟨later, hij ▸ hpipe⟩
      · exact h.own_sends j x ((List.getElem?_set_ne hij).symm.trans hj) hlive hxc
  · refine h.undisturbed ⟨Nat.le_refl _, ?_, ?_, ?_, fun hrx => hrx,
      fun _ _ e he hval => ⟨e, he, hval⟩⟩
    · simp only [RequestBody.State.enter, Function.update_of_ne hc]
    · intro j x hj hxc
      have hij : call ≠ j := by
        rintro rfl
        obtain rfl := Option.some.inj (hx.symm.trans hj)
        exact hc hxc.symm
      exact ⟨x, (List.getElem?_set_ne hij).trans hj, hxc, rfl⟩
    · intro j x hj hlive hxc
      by_cases hij : call = j
      · subst hij
        simp only [RequestBody.State.enter] at hj
        rw [List.getElem?_set_self hlt, Option.some.injEq] at hj
        rw [← hj] at hxc
        exact absurd hxc.symm hc
      · exact ⟨x, (List.getElem?_set_ne hij).symm.trans hj, hlive, hxc⟩

/-- A piece enters its channel. -/
theorem UploadInv.push {ups : ℕ → Option Upload} {b b' : RequestBody.State M}
    (h : UploadInv b ups) {call : ℕ} (hstep : b.push call = some b') : UploadInv b' ups := by
  have hinv := h.bodies.push hstep
  obtain ⟨c, piece, rest, hx, -, rfl⟩ := RequestBody.State.push_cases hstep
  exact ⟨hinv, fun u up hup => (h.tracks u up hup).enter hx, h.distinct, h.ended⟩

/-! ## Steps of one upload -/

/-- One upload goes on; the others are undisturbed. -/
theorem UploadInv.replace {ups : ℕ → Option Upload} {b b' : RequestBody.State M}
    (h : UploadInv b ups) (hinv : b'.Inv False) {u : ℕ} {up : Upload} (hup : ups u = some up)
    (up' : Upload) (hch : up'.channel = up.channel) (hdr : up.drained = true → up'.drained = true)
    (hself : Tracks b' up') (hothers : ∀ v w, v ≠ u → ups v = some w → Undisturbed b b' w)
    (hreq : b'.requests = b.requests) : UploadInv b' (Function.update ups u (some up')) := by
  -- every new upload stands for an old one of the same channel
  have hold : ∀ v w, Function.update ups u (some up') v = some w →
      ∃ w₀, ups v = some w₀ ∧ w.channel = w₀.channel ∧ (w₀.drained = true → w.drained = true) := by
    intro v w hw
    by_cases hv : v = u
    · subst hv
      rw [Function.update_self, Option.some.injEq] at hw
      subst hw
      exact ⟨up, hup, hch, hdr⟩
    · rw [Function.update_of_ne hv] at hw
      exact ⟨w, hw, rfl, fun hd => hd⟩
  refine ⟨hinv, ?_, ?_, ?_⟩
  · intro v w hw
    by_cases hv : v = u
    · subst hv
      rw [Function.update_self, Option.some.injEq] at hw
      exact hw ▸ hself
    · rw [Function.update_of_ne hv] at hw
      exact (h.tracks v w hw).undisturbed (hothers v w hv hw)
  · intro v v' w w' hw hw' hc
    obtain ⟨w₀, hw₀, hc₀, -⟩ := hold v w hw
    obtain ⟨w₁, hw₁, hc₁, -⟩ := hold v' w' hw'
    exact h.distinct v v' w₀ w₁ hw₀ hw₁ (by rw [← hc₀, hc, hc₁])
  · intro q hq c hbody hended v w hw hc
    obtain ⟨w₀, hw₀, hc₀, hd₀⟩ := hold v w hw
    rw [hreq] at hq
    exact hd₀ (h.ended q hq c hbody hended v w₀ hw₀ (hc₀ ▸ hc))

theorem Undisturbed.refl (b : RequestBody.State M) (up : Upload) : Undisturbed b b up :=
  ⟨Nat.le_refl _, rfl, fun _ x hx hc => ⟨x, hx, hc, rfl⟩, fun _ x hx hl hc => ⟨x, hx, hl, hc⟩,
    fun hrx => hrx, fun _ _ e he hval => ⟨e, he, hval⟩⟩

/-- The pipe moves on while no `send_chunk` of it is in progress. -/
theorem UploadInv.move {ups : ℕ → Option Upload} {b : RequestBody.State M} (h : UploadInv b ups)
    {u : ℕ} {up : Upload} (hup : ups u = some up) (up' : Upload)
    (hhandle : up'.req_body_handle = up.req_body_handle) (hch : up'.channel = up.channel)
    (hdr : up.drained = true → up'.drained = true) (hflow : Flow b up')
    (hidle : ∀ (j : ℕ) x, b.sends[j]? = some x → x.live = true → x.channel ≠ up.channel) :
    UploadInv b (Function.update ups u (some up')) := by
  obtain ⟨hlt, -, hreg, -⟩ := h.tracks u up hup
  refine h.replace h.bodies hup up' hch hdr ?_ (fun v w _ _ => Undisturbed.refl b w) rfl
  refine ⟨hch ▸ hlt, hflow, ?_, ?_⟩
  · intro hd hrx
    have hd₀ : up.drained = false := by
      by_contra hne
      rw [hdr (by simpa using hne)] at hd
      cases hd
    rw [hhandle, hch]
    exact hreg hd₀ (hch ▸ hrx)
  · intro j x hx hlive hc
    exact absurd (hc.trans hch) (hidle j x hx hlive)

/-- A pipe that is not at a `sendChunk` has none in progress. -/
theorem Tracks.no_sends {b : RequestBody.State M} {up : Upload} (h : Tracks b up)
    (hpipe : ∀ j rest, up.pipe ≠ .awaiting j rest) (j : ℕ) (x : RequestBody.SendChunk)
    (hx : b.sends[j]? = some x) (hlive : x.live = true) : x.channel ≠ up.channel := by
  intro hc
  obtain ⟨rest, hrest⟩ := h.own_sends j x hx hlive hc
  exact hpipe j rest hrest

theorem flow_next_piece {b : RequestBody.State M} (up : Upload) {rest : List Bytes}
    (hd : up.drained = false)
    (hflow : (b.channels up.channel).sent.flatten ++ rest.flatten = up.yielded.flatten) :
    Flow b { up with pipe := next_piece rest } := by
  cases rest with
  | nil => exact ⟨hd, by simpa using hflow⟩
  | cons piece rest => exact ⟨hd, by simpa using hflow⟩

/-- The whole of a chunk is behind the read that yielded it. -/
theorem flow_yields {b : RequestBody.State M} {up : Upload} (h : Flow b up)
    (hpipe : up.pipe = .reading) (max : ℕ) (chunk : Bytes) :
    Flow b { up with
      pipe := if chunk.isEmpty then .reading else next_piece (RequestBody.State.pieces max chunk)
      yielded := up.yielded ++ [chunk] } := by
  simp only [Flow, hpipe] at h
  obtain ⟨hd, hsent⟩ := h
  by_cases hempty : chunk.isEmpty
  · rw [if_pos hempty]
    refine ⟨hd, ?_⟩
    rw [List.isEmpty_iff] at hempty
    simpa [hempty] using hsent
  · rw [if_neg hempty]
    refine flow_next_piece { up with yielded := up.yielded ++ [chunk] } hd ?_
    rw [pieces_flatten]
    simp [hsent]

/-- `sendChunk` finds its own writer and takes a clone of its sender. -/
theorem UploadInv.send_chunk {ups : ℕ → Option Upload} {b : RequestBody.State M}
    (h : UploadInv b ups) {u : ℕ} {up : Upload} (hup : ups u = some up) {piece : Bytes}
    {rest : List Bytes} (hpipe : up.pipe = .sending piece rest)
    {e : Timed ℕ} (he : b.store.entry .writers up.req_body_handle = some e)
    (hval : e.value = up.channel) (now : Instant) :
    UploadInv (b.send_chunk up.req_body_handle piece now)
      (Function.update ups u (some { up with pipe := .awaiting b.sends.length rest })) := by
  have htr := h.tracks u up hup
  have hinv := h.bodies.send_chunk up.req_body_handle piece now
  have heq : b.send_chunk up.req_body_handle piece now =
      { b with
        store := b.store.set .writers (modify (b.store.registry .writers)
          (handle_to_key M up.req_body_handle) fun e => e.touch now)
        sends := b.sends ++
          [⟨up.channel, RequestBody.State.pieces b.store.config.max_chunk_size piece, true⟩] } := by
    rw [RequestBody.State.send_chunk, HandleStore.send_chunk, HandleStore.access, he, ← hval]
  rw [heq] at hinv ⊢
  -- a touched entry has its value still
  have htouch : ∀ handle e₀, b.store.entry .writers handle = some e₀ →
      ∃ e', get (modify (b.store.registry .writers) (handle_to_key M up.req_body_handle)
        fun e => e.touch now) (handle_to_key M handle) = some e' ∧ e'.value = e₀.value := by
    intro handle e₀ he₀
    rw [HandleStore.entry] at he₀
    by_cases hk : handle_to_key M handle = handle_to_key M up.req_body_handle
    · rw [← hk, get_modify_self, he₀]
      exact ⟨_, rfl, rfl⟩
    · rw [get_modify_of_ne hk]
      exact ⟨e₀, he₀, rfl⟩
  have hold : ∀ (j : ℕ) x, b.sends[j]? = some x → (b.sends ++ [⟨up.channel,
      RequestBody.State.pieces b.store.config.max_chunk_size piece, true⟩])[j]? = some x := by
    intro j x hx
    rw [List.getElem?_append_left (List.getElem?_eq_some_iff.mp hx).1]
    exact hx
  refine h.replace hinv hup { up with pipe := .awaiting b.sends.length rest } rfl (fun hd => hd)
    ⟨htr.lt, ?_, ?_, ?_⟩ ?_ rfl
  · have hflow := htr.flow
    simp only [Flow, hpipe] at hflow ⊢
    refine ⟨hflow.1, _, List.getElem?_concat_length, rfl, ?_⟩
    rw [pieces_flatten]
    exact hflow.2
  · intro hd hrx
    obtain ⟨e₀, he₀, hval₀⟩ := htr.registered hd hrx
    obtain ⟨e', he', hval'⟩ := htouch _ e₀ he₀
    exact ⟨e', by rw [HandleStore.entry, HandleStore.set_registry_self]; exact he',
      hval'.trans hval₀⟩
  · intro j x hx hlive hc
    by_cases hj : j < b.sends.length
    · rw [List.getElem?_append_left hj] at hx
      exact absurd hc (htr.no_sends (by simp [hpipe]) j x hx hlive)
    · have hlt := (List.getElem?_eq_some_iff.mp hx).1
      rw [List.length_append, List.length_singleton] at hlt
      obtain rfl : j = b.sends.length := by omega
      exact ⟨rest, rfl⟩
  · intro v w hv hw
    have hne : w.channel ≠ up.channel := fun hc => hv (h.distinct v u w up hw hup hc)
    refine ⟨Nat.le_refl _, rfl, ?_, ?_, fun hrx => hrx, ?_⟩
    · exact fun j x hx hc => ⟨x, hold j x hx, hc, rfl⟩
    · intro j x hx hlive hc
      by_cases hj : j < b.sends.length
      · exact ⟨x, (List.getElem?_append_left hj).symm.trans hx, hlive, hc⟩
      · have hlt := (List.getElem?_eq_some_iff.mp hx).1
        rw [List.length_append, List.length_singleton] at hlt
        obtain rfl : j = b.sends.length := by omega
        rw [List.getElem?_concat_length, Option.some.injEq] at hx
        rw [← hx] at hc
        exact absurd hc.symm hne
    · intro _ _ e₀ he₀ hval₀
      obtain ⟨e', he', hval'⟩ := htouch _ e₀ he₀
      exact ⟨e', by rw [HandleStore.entry, HandleStore.set_registry_self]; exact he',
        hval'.trans hval₀⟩

/-- `finishBody` removes its own writer, after the last chunk was sent. -/
theorem UploadInv.finish_body {ups : ℕ → Option Upload} {b : RequestBody.State M}
    (h : UploadInv b ups) {u : ℕ} {up : Upload} (hup : ups u = some up)
    (hpipe : up.pipe = .finishing)
    (hown : ∀ e, b.store.entry .writers up.req_body_handle = some e → e.value = up.channel)
    (pipe : Pipe) (hafter : pipe = .resolved ∨ pipe = .rejected) :
    UploadInv (b.finish_body up.req_body_handle)
      (Function.update ups u (some { up with pipe := pipe })) := by
  have htr := h.tracks u up hup
  have hflow := htr.flow
  simp only [Flow, hpipe] at hflow
  have hinv := h.bodies.finish_body up.req_body_handle
  rw [RequestBody.State.finish_body, HandleStore.finish_body_snd] at hinv ⊢
  refine h.replace hinv hup { up with pipe := pipe } rfl (fun hd => hd) ⟨htr.lt, ?_, ?_, ?_⟩ ?_ rfl
  · rcases hafter with rfl | rfl
    · exact hflow
    · exact fun _ => hflow.2
  · intro hd
    rw [show up.drained = false from hd] at hflow
    cases hflow.1
  · intro j x hx hlive hc
    exact absurd hc (htr.no_sends (by simp [hpipe]) j x hx hlive)
  · intro v w hv hw
    have hne : w.channel ≠ up.channel := fun hc => hv (h.distinct v u w up hw hup hc)
    refine ⟨Nat.le_refl _, rfl, fun j x hx hc => ⟨x, hx, hc, rfl⟩,
      fun j x hx hlive hc => ⟨x, hx, hlive, hc⟩, fun hrx => hrx, ?_⟩
    intro _ _ e he hval
    -- under the same key would be the writer of this upload
    have hk : handle_to_key M w.req_body_handle ≠ handle_to_key M up.req_body_handle := by
      intro hk
      rw [HandleStore.entry, hk] at he
      exact hne (hval.symm.trans (hown e he))
    refine ⟨e, ?_, hval⟩
    rw [HandleStore.entry] at he
    rw [HandleStore.remove_from, HandleStore.entry, HandleStore.set_registry_self,
      get_remove_of_ne hk]
    exact he

/-- An upload begins, in a channel of its own. -/
theorem UploadInv.alloc {ups : ℕ → Option Upload} {b b' : RequestBody.State M}
    (h : UploadInv b ups) {u : ℕ} (hnone : ups u = none) {now : Instant} {handle : ℕ}
    (halloc : b.alloc_body_writer now = (.ok handle, b')) :
    UploadInv (b'.stash handle b.next_channel now)
      (Function.update ups u (some ⟨handle, b.next_channel, .idle, [], false⟩)) := by
  have hb' : b'.Inv False := by
    have := h.bodies.alloc_body_writer now
    rwa [halloc] at this
  obtain ⟨hok, rfl⟩ := RequestBody.State.alloc_body_writer_ok halloc
  have hnew := RequestBody.State.entry_insert_into hok
  have hold : ∀ k e, get (b.store.registry .writers) k = some e →
      get ((b.store.insert_into .writers b.next_channel now).2.registry .writers) k = some e :=
    fun k e he => RequestBody.State.get_insert_into_of_some he _ now
  have hpend : (b.store.insert_into .writers b.next_channel now).2.pending_readers
      = b.store.pending_readers := rfl
  generalize (b.store.insert_into .writers b.next_channel now).2 = store at *
  have hinv : ((b.open_channel store handle).stash handle b.next_channel now).Inv False :=
    hb'.stash List.mem_cons_self now
  have hstash : ((b.open_channel store handle).stash handle b.next_channel now).stashing
      = b.stashing := List.erase_cons_head _ _
  -- the new channel is none of the others': theirs are below `next_channel`
  have hother : ∀ v w, ups v = some w → Undisturbed b
      ((b.open_channel store handle).stash handle b.next_channel now) w := by
    intro v w hw
    have hlt := (h.tracks v w hw).lt
    refine ⟨Nat.le_succ _, ?_, fun j x hx hc => ⟨x, hx, hc, rfl⟩,
      fun j x hx hlive hc => ⟨x, hx, hlive, hc⟩, ?_, ?_⟩
    · exact congrArg RequestBody.Channel.sent (Function.update_of_ne (Nat.ne_of_lt hlt) _ _)
    · intro hrx
      rw [rx_alive_iff] at hrx ⊢
      rw [hstash] at hrx
      rcases hrx with hst | ⟨p, hp, hc⟩ | hq
      · exact .inl hst
      · rcases List.mem_cons.mp hp with rfl | hp
        · exact absurd hc.symm (Nat.ne_of_lt hlt)
        · exact .inr (.inl ⟨p, hpend ▸ List.mem_of_mem_filter hp, hc⟩)
      · exact .inr (.inr hq)
    · exact fun _ _ e he hval => ⟨e, hold _ e he, hval⟩
  refine ⟨hinv, ?_, ?_, ?_⟩
  · intro v w hw
    by_cases hv : v = u
    · subst hv
      rw [Function.update_self, Option.some.injEq] at hw
      subst hw
      refine ⟨Nat.lt_succ_self _, ⟨rfl, ?_⟩, fun _ _ => hnew, ?_⟩
      · simp only [RequestBody.State.stash, RequestBody.State.open_channel, Function.update_self]
      · -- no call holds a sender of a channel that was not there
        intro j x hx hlive hc
        have := h.bodies.sender_lt _ (.inr ⟨x, List.mem_of_getElem? hx, hlive, hc⟩)
        exact absurd this (Nat.lt_irrefl _)
    · rw [Function.update_of_ne hv] at hw
      exact (h.tracks v w hw).undisturbed (hother v w hw)
  · intro v v' w w' hw hw' hc
    by_cases hv : v = u
    · by_cases hv' : v' = u
      · rw [hv, hv']
      · subst hv
        rw [Function.update_self, Option.some.injEq] at hw
        rw [Function.update_of_ne hv'] at hw'
        subst hw
        exact absurd hc.symm (Nat.ne_of_lt (h.tracks v' w' hw').lt)
    · rw [Function.update_of_ne hv] at hw
      by_cases hv' : v' = u
      · subst hv'
        rw [Function.update_self, Option.some.injEq] at hw'
        subst hw'
        exact absurd hc (Nat.ne_of_lt (h.tracks v w hw).lt)
      · rw [Function.update_of_ne hv'] at hw'
        exact h.distinct v v' w w' hw hw' hc
  · intro q hq c hbody hended v w hw hc
    by_cases hv : v = u
    · subst hv
      rw [Function.update_self, Option.some.injEq] at hw
      subst hw
      have := h.bodies.holder_lt c (RequestBody.State.holders_pos_of_body hq hbody)
      exact absurd hc.symm (Nat.ne_of_lt this)
    · rw [Function.update_of_ne hv] at hw
      exact h.ended q hq c hbody hended v w hw hc

/-! ## Runs -/

variable {s s' : State M} {u : ℕ} {c : Call}

theorem upload_set_call (hc : s.calls[u]? = some c) (c' : Call) :
    (s.set_call u c').upload = Function.update s.upload u c'.upload := by
  have hlt := (List.getElem?_eq_some_iff.mp hc).1
  funext v
  by_cases hv : v = u
  · subst hv
    rw [Function.update_self, upload, set_call, List.getElem?_set_self hlt, Option.bind_some]
  · rw [Function.update_of_ne hv, upload, set_call, List.getElem?_set_ne (Ne.symm hv)]
    rfl

theorem upload_eq (hc : s.calls[u]? = some c) : s.upload u = c.upload := by
  rw [upload, hc, Option.bind_some]

/-- A step of the JS function or of the native fetch. -/
theorem upload_set_call_same (hc : s.calls[u]? = some c) {c' : Call} (hup : c'.upload = c.upload) :
    (s.set_call u c').upload = s.upload := by
  rw [upload_set_call hc, hup, ← upload_eq hc, Function.update_eq_self]

theorem upload_cancel_fetch (s : State M) (c : Call) : (s.cancel_fetch c).upload = s.upload := by
  unfold cancel_fetch
  split
  · rfl
  · unfold cancel_in_flight
    split
    · rfl
    · next v _ =>
      funext w
      rw [upload, upload, List.getElem?_modify]
      cases s.calls[w]? with
      | none => rfl
      | some c₀ =>
          simp only [Option.map_eq_map, Option.map_some, Option.bind_some]
          split <;> rfl

/-- The invariant of a state. -/
def UploadOk (s : State M) : Prop := UploadInv s.bodies s.upload

theorem UploadOk.set_call_same (h : s.UploadOk) (hc : s.calls[u]? = some c) {c' : Call}
    (hup : c'.upload = c.upload) : (s.set_call u c').UploadOk := by
  rw [UploadOk, upload_set_call_same hc hup]
  exact h

theorem UploadOk.cancel_fetch (h : s.UploadOk) (c : Call) : (s.cancel_fetch c).UploadOk := by
  rw [UploadOk, upload_cancel_fetch, cancel_fetch_bodies]
  exact h

theorem UploadOk.set_store (h : s.UploadOk) {i : Registry} (hi : i ≠ .writers)
    (reg : M (Timed ℕ)) : (s.set_store (s.bodies.store.set i reg)).UploadOk :=
  UploadInv.set_store h hi reg

/-- `insert_checked` on another registry than the writers'. -/
theorem UploadOk.insert_into (h : s.UploadOk) {i : Registry} (hi : i ≠ .writers) (value : ℕ)
    (now : Instant) : (s.set_store (s.bodies.store.insert_into i value now).2).UploadOk :=
  h.set_store hi _

theorem UploadOk.remove_from (h : s.UploadOk) {i : Registry} (hi : i ≠ .writers) (handle : ℕ) :
    (s.set_store (s.bodies.store.remove_from i handle).2).UploadOk :=
  h.set_store hi _

/-- A call of `fetch` begins. -/
theorem UploadOk.begin_call (h : s.UploadOk) (has_body has_signal accepted : Bool) :
    (s.begin_call has_body has_signal accepted).UploadOk := by
  have hup : (s.begin_call has_body has_signal accepted).upload = s.upload := by
    funext v
    by_cases hv : v < s.calls.length
    · rw [upload, State.begin_call, List.getElem?_append_left hv]
      rfl
    · -- the new call has no writer yet
      have hnone : s.calls[v]? = none := List.getElem?_eq_none (by omega)
      rw [upload, upload, hnone, State.begin_call, List.getElem?_append_right (by omega)]
      cases v - s.calls.length with
      | zero => rfl
      | succ n => rfl
  rw [UploadOk, hup]
  exact h

/-- It gets its writer. -/
theorem UploadOk.alloc_body_writer (h : s.UploadOk) (hwf : s.Wf) (hc : s.calls[u]? = some c)
    (hjs : c.js = .alloc_body_writer) (endpoint : Bool) (now : Instant) :
    (s.alloc_body_writer u c endpoint now).UploadOk := by
  unfold State.alloc_body_writer
  split
  · split
    · next e bodies halloc =>
      obtain rfl := RequestBody.State.alloc_body_writer_error halloc
      exact h.set_call_same hc rfl
    · next handle bodies halloc =>
      have hnone : s.upload u = none := (upload_eq hc).trans ((hwf u c hc).writer hjs)
      have hnew := UploadInv.alloc h hnone halloc
      rw [← upload_set_call hc { c with
        js := .alloc_fetch_token
        upload := some ⟨handle, s.bodies.next_channel, .idle, [], false⟩ }] at hnew
      exact hnew
  · exact h.set_call_same hc rfl

/-- It gets its token. -/
theorem UploadOk.alloc_fetch_token (h : s.UploadOk) (hc : s.calls[u]? = some c) (endpoint : Bool)
    (now : Instant) : (s.alloc_fetch_token u c endpoint now).UploadOk := by
  unfold State.alloc_fetch_token
  have hins := h.insert_into (i := .fetch_cancels) (by decide) u now
  split
  · split
    · next e store halloc =>
      rw [HandleStore.alloc_fetch_token] at halloc
      rw [halloc] at hins
      exact UploadOk.set_call_same (s := s.set_store store) hins hc rfl
    · next token store halloc =>
      rw [HandleStore.alloc_fetch_token] at halloc
      rw [halloc] at hins
      exact UploadOk.set_call_same (s := s.set_store store) hins hc rfl
  · exact h.set_call_same hc rfl

/-- The pipe begins. -/
theorem UploadOk.dispatch (h : s.UploadOk) (hwf : s.Wf) (hc : s.calls[u]? = some c)
    (hjs : c.js = .ready) : (s.dispatch u c).UploadOk := by
  unfold State.dispatch
  split
  · refine UploadOk.cancel_fetch ?_ c
    exact h.set_call_same hc rfl
  · cases hup : c.upload with
    | none => exact h.set_call_same hc hup.symm
    | some up =>
        have hidle := ((hwf u c hc).early (Call.not_late_of_ready hjs)).2 up hup
        have hu : s.upload u = some up := (upload_eq hc).trans hup
        rw [UploadOk, upload_set_call hc]
        refine UploadInv.move h hu { up with pipe := .reading } rfl rfl (fun hd => hd) ?_ ?_
        · have hflow := (UploadInv.tracks h u up hu).flow
          simpa only [Flow, hidle] using hflow
        · exact (UploadInv.tracks h u up hu).no_sends (by simp [hidle])

/-- It is aborted. -/
theorem UploadOk.abort (h : s.UploadOk) (hc : s.calls[u]? = some c) : (s.abort u c).UploadOk := by
  unfold State.abort
  split
  · refine UploadOk.cancel_fetch ?_ c
    exact h.set_call_same hc rfl
  · split
    · next handle _ =>
      exact UploadOk.set_call_same (s := s.set_store _) (h.remove_from (by decide) handle) hc rfl
    · exact h.set_call_same hc rfl
  · exact h.set_call_same hc rfl

/-- It calls the native side. -/
theorem UploadOk.raw_fetch (h : s.UploadOk) (hc : s.calls[u]? = some c) (exit : Option Exit)
    (now : Instant) : (s.raw_fetch u c exit now).UploadOk := by
  have hraw : UploadOk { s with
      bodies := s.bodies.raw_fetch (c.upload.map Upload.req_body_handle) (checks exit) } :=
    UploadInv.raw_fetch h _ _
  have htoken : UploadOk { s with
      bodies := { s.bodies.raw_fetch (c.upload.map Upload.req_body_handle) (checks exit) with
        store := (s.native_token u c exit now
          (s.bodies.raw_fetch (c.upload.map Upload.req_body_handle) (checks exit)).store).2 } } := by
    unfold native_token
    split
    · exact hraw
    · split
      · exact hraw.insert_into (i := .fetch_cancels) (by decide) u now
      · exact hraw
  exact htoken.set_call_same hc rfl

/-- The native side leaves. -/
theorem UploadOk.leave (h : s.UploadOk) (hc : s.calls[u]? = some c) (native : Native) :
    (s.leave u c native).UploadOk := by
  unfold State.leave
  dsimp only
  split
  · exact UploadOk.set_call_same (s := s.set_store _) h hc rfl
  · next token _ =>
    exact UploadOk.set_call_same (s := s.set_store _)
      (h.remove_from (i := .fetch_cancels) (by decide) token) hc rfl

theorem UploadOk.package_response (h : s.UploadOk) (hc : s.calls[u]? = some c) (head : Head)
    (now : Instant) : (s.package_response u c head now).UploadOk := by
  have hins := h.insert_into (i := .readers) (by decide) u now
  unfold State.package_response
  split
  · exact h.set_call_same hc rfl
  · exact h.set_call_same hc rfl
  · split
    · exact h.set_call_same hc rfl
    · split
      · next e store halloc =>
        rw [HandleStore.insert_reader] at halloc
        rw [halloc] at hins
        exact UploadOk.set_call_same (s := s.set_store store) hins hc rfl
      · next handle store halloc =>
        rw [HandleStore.insert_reader] at halloc
        rw [halloc] at hins
        exact UploadOk.set_call_same (s := s.set_store store) hins hc rfl

/-- The call settles. -/
theorem UploadOk.settle (h : s.UploadOk) (hc : s.calls[u]? = some c) (response : Option Response) :
    (s.settle u c response).UploadOk := by
  unfold State.settle
  split
  · exact h.set_call_same hc rfl
  · exact h.set_call_same hc rfl

/-- The pipe of a call moves while it has no `sendChunk` in progress. -/
theorem UploadOk.move_pipe (h : s.UploadOk) (hc : s.calls[u]? = some c) {up : Upload}
    (hup : c.upload = some up) (hpipe : ∀ j rest, up.pipe ≠ .awaiting j rest) (up' : Upload)
    (hhandle : up'.req_body_handle = up.req_body_handle) (hch : up'.channel = up.channel)
    (hdr : up.drained = true → up'.drained = true) (hflow : Flow s.bodies up') :
    (s.set_call u { c with upload := some up' }).UploadOk := by
  have hu : s.upload u = some up := (upload_eq hc).trans hup
  rw [UploadOk, upload_set_call hc]
  exact UploadInv.move h hu up' hhandle hch hdr hflow
    ((UploadInv.tracks h u up hu).no_sends hpipe)

/-- The `sendChunk` that the pipe waits for has returned. -/
theorem UploadOk.settle_send (h : s.UploadOk) (hc : s.calls[u]? = some c) {up : Upload}
    (hup : c.upload = some up) {call : ℕ} {rest : List Bytes} (hp : up.pipe = .awaiting call rest)
    {x : RequestBody.SendChunk} (hx : s.bodies.sends[call]? = some x) (hlive : x.live = false)
    (pipe : Pipe) (hflow : Flow s.bodies { up with pipe := pipe }) :
    (s.set_pipe u c up pipe).UploadOk := by
  have hu : s.upload u = some up := (upload_eq hc).trans hup
  rw [UploadOk, set_pipe, upload_set_call hc]
  refine UploadInv.move h hu { up with pipe := pipe } rfl rfl (fun hd => hd) hflow ?_
  intro j y hy hylive hyc
  obtain ⟨rest', hrest'⟩ := (UploadInv.tracks h u up hu).own_sends j y hy hylive hyc
  rw [hp] at hrest'
  cases hrest'
  rw [hx, Option.some.injEq] at hy
  rw [hy, hylive] at hlive
  cases hlive

theorem UploadOk.flow (h : s.UploadOk) (hc : s.calls[u]? = some c) {up : Upload}
    (hup : c.upload = some up) : Flow s.bodies up :=
  (UploadInv.tracks h u up ((upload_eq hc).trans hup)).flow

/-- A rejected pipe has sent the whole source if it was drained. -/
theorem Flow.reject {b : RequestBody.State M} {up : Upload} (h : Flow b up) {pipe : Pipe}
    (hpipe : pipe = .rejected ∨ pipe = .reset) : Flow b { up with pipe := pipe } := by
  rcases hpipe with rfl | rfl
  · exact fun hd => h.whole hd
  · exact fun hd => h.whole hd

/-- The pipe sends a piece. -/
theorem UploadOk.send_chunk (h : s.UploadOk) (hc : s.calls[u]? = some c) {up : Upload}
    (hup : c.upload = some up) {piece : Bytes} {rest : List Bytes}
    (hp : up.pipe = .sending piece rest)
    (hown : ∀ e, s.bodies.store.entry .writers up.req_body_handle = some e → e.value = up.channel)
    (now : Instant) : (s.send_chunk u c up piece rest now).UploadOk := by
  have hu : s.upload u = some up := (upload_eq hc).trans hup
  unfold State.send_chunk
  cases he : s.bodies.store.entry .writers up.req_body_handle with
  | none =>
      have hsame : s.bodies.send_chunk up.req_body_handle piece now = s.bodies := by
        rw [RequestBody.State.send_chunk, HandleStore.send_chunk, HandleStore.access, he]
      rw [hsame]
      exact h.move_pipe hc hup (by simp [hp]) { up with pipe := .rejected } rfl rfl (fun hd => hd)
        ((h.flow hc hup).reject (.inl rfl))
  | some e =>
      have hsent := UploadInv.send_chunk h hu hp he (hown e he) now
      rw [← upload_set_call hc { c with
        upload := some { up with pipe := .awaiting s.bodies.sends.length rest } }] at hsent
      exact hsent

/-- The pipe finishes the body. -/
theorem UploadOk.finish_body (h : s.UploadOk) (hc : s.calls[u]? = some c) {up : Upload}
    (hup : c.upload = some up) (hp : up.pipe = .finishing)
    (hown : ∀ e, s.bodies.store.entry .writers up.req_body_handle = some e → e.value = up.channel) :
    (s.finish_body u c up).UploadOk := by
  have hu : s.upload u = some up := (upload_eq hc).trans hup
  have hafter : ∀ pipe, pipe = .resolved ∨ pipe = .rejected →
      UploadOk ({ s with bodies := s.bodies.finish_body up.req_body_handle }.set_pipe u c up pipe) := by
    intro pipe hpipe
    have hdone := UploadInv.finish_body h hu hp hown pipe hpipe
    rw [← upload_set_call hc { c with upload := some { up with pipe := pipe } }] at hdone
    exact hdone
  unfold State.finish_body
  cases s.bodies.store.entry .writers up.req_body_handle with
  | none => exact hafter .rejected (.inr rfl)
  | some e => exact hafter .resolved (.inl rfl)

/-- The steps of the transport and of the store. -/
theorem UploadOk.bodies (h : s.UploadOk) {a : Label} {b : RequestBody.Label}
    {bodies : RequestBody.State M} (ha : body_label a = some b) (hb : s.bodies.step b = some bodies)
    (hspare : s.Spares a) : UploadOk { s with bodies := bodies } := by
  cases a with
  | push call =>
      cases ha
      exact UploadInv.push h hb
  | send_returns call =>
      cases ha
      exact UploadInv.send_returns h hb
  | sweep i ttl now =>
      cases ha
      cases hb
      refine UploadInv.sweep h ?_
      rintro rfl
      exact hspare
  | sweep_pending_readers ttl now =>
      cases ha
      cases hb
      exact UploadInv.sweep_pending_readers h ttl now
  | poll_frame request =>
      cases ha
      exact UploadInv.poll_frame h hb
  | drop_body request =>
      cases ha
      exact UploadInv.drop_body h hb
  | _ => cases ha

/-- **A step that spares the writers keeps the invariant.** -/
theorem UploadOk.move (h : s.UploadOk) (hwf : s.Wf) {a : Label} (hspare : s.Spares a)
    (hm : Move s a s') : s'.UploadOk := by
  -- one lemma for each move; only the pipe's own moves say anything of the flow
  cases hm with
  | begin_call => exact h.begin_call _ _ _
  | alloc_body_writer hc hjs => exact h.alloc_body_writer hwf hc hjs _ _
  | alloc_fetch_token hc hjs => exact h.alloc_fetch_token hc _ _
  | dispatch hc hjs => exact h.dispatch hwf hc hjs
  | abort hc hsignal => exact h.abort hc
  | raw_fetch hc hn => exact h.raw_fetch hc _ _
  | response_head hc hn => exact h.leave hc _
  | fetch_error hc hn => exact h.leave hc _
  | cancelled hc hn hpermit => exact h.leave hc _
  | package_response hc hn => exact h.package_response hc _ _
  | settle hc hjs hn => exact h.settle hc _
  | release_response hc hjs hn => exact h.remove_from (by decide) _
  | @source_yields u c up chunk hc hup hp =>
      refine h.move_pipe hc hup (by simp [hp]) _ rfl rfl (fun hd => hd) ?_
      exact flow_yields (h.flow hc hup) hp s.max_chunk chunk
  | @source_ends u c up hc hup hp =>
      refine h.move_pipe hc hup (by simp [hp]) _ rfl rfl (fun _ => rfl) ?_
      have hflow := h.flow hc hup
      simp only [Flow, hp] at hflow
      exact ⟨rfl, hflow.2⟩
  | source_fails hc hup hp =>
      exact h.move_pipe hc hup (by simp [hp]) _ rfl rfl (fun hd => hd)
        ((h.flow hc hup).reject (.inl rfl))
  | @send_chunk u c up piece rest now hc hup hp =>
      exact h.send_chunk hc hup hp (hspare up ((upload_eq hc).trans hup)) now
  | @send_resolves u call channel c up rest hc hup hp hx =>
      refine h.settle_send hc hup hp hx rfl _ (flow_next_piece up ?_ ?_)
      · have hflow := h.flow hc hup
        simp only [Flow, hp] at hflow
        exact hflow.1
      · -- all of its pieces are in
        have hflow := h.flow hc hup
        simp only [Flow, hp] at hflow
        obtain ⟨-, x, hx', -, hsent⟩ := hflow
        obtain rfl := Option.some.inj (hx.symm.trans hx')
        simpa using hsent
  | send_rejects hc hup hp hx =>
      exact h.settle_send hc hup hp hx rfl _ ((h.flow hc hup).reject (.inl rfl))
  | adapter_fails hc hup hp =>
      refine h.move_pipe hc hup ?_ _ rfl rfl (fun hd => hd) ((h.flow hc hup).reject (.inl rfl))
      rcases hp with ⟨piece, rest, hp⟩ | hp
      · simp [hp]
      · simp [hp]
  | @finish_body u c up hc hup hp =>
      exact h.finish_body hc hup hp (hspare up ((upload_eq hc).trans hup))
  | @pipe_catch u c up hc hup hp =>
      refine UploadOk.cancel_fetch ?_ c
      exact h.move_pipe hc hup (by simp [hp]) _ rfl rfl (fun hd => hd)
        ((h.flow hc hup).reject (.inr rfl))
  | bodies ha hb => exact h.bodies ha hb hspare

theorem uploadOk_start (adapter : Adapter) (max_chunk : ℕ) (config : StoreConfig) :
    (start adapter max_chunk config : State M).UploadOk where
  bodies := RequestBody.State.inv_start config
  tracks u up hup := by cases hup
  distinct u v up up' hup := by cases hup
  ended q hq := by cases hq

end State

open State

/-- **A body ends only with its whole source.** In every run whose sweeps spare
the writers of unfinished uploads, and whose pipes do not meet another upload's
writer under their handle: whatever the sources do, and wherever heads, token
removals, aborts, cancellations and sweeps come in, a request body that has ended
in any state of the run has yielded everything its source had, and the source has
ended. -/
theorem upload_ends_whole {K : Type} {M : Type → Type} [SlotMap K M] (adapter : Adapter)
    (max_chunk : ℕ) (config : StoreConfig) (l : List Label)
    (hspares : Along State.step Spares (start adapter max_chunk config : State M) l) (n : ℕ)
    (t : State M)
    (hrun : run State.step (start adapter max_chunk config : State M) (l.take n) = some t) :
    t.EndsWhole := by
  have hinv : t.Wf ∧ t.UploadOk := by
    refine along_invariant_take (P := fun s => s.Wf ∧ s.UploadOk) ?_
      ⟨wf_start _ _ _, uploadOk_start _ _ _⟩ hspares hrun
    rintro s a s' ⟨hwf, hok⟩ hspare hstep
    exact ⟨hwf.move (move_of_step hstep), hok.move hwf hspare (move_of_step hstep)⟩
  exact UploadInv.endsWhole hinv.2

/-- An upload of one chunk, with the response head and a sweep before its end. -/
def finished_upload : List Label :=
  [.begin_call true false true, .alloc_body_writer 0 true 0, .alloc_fetch_token 0 true 0,
    .dispatch 0, .raw_fetch 0 none 0, .source_yields 0 [1], .send_chunk 0 0, .push 0,
    .send_returns 0, .send_settles 0, .response_head 0,
    .sweep .writers 300000000000 300000000000, .source_ends 0, .finish_body 0, .poll_frame 0,
    .poll_frame 0]

theorem upload_ends_whole_finished :
    ∃ t, run State.step (start .deno 65536 {} : State Slots) finished_upload = some t ∧
      t.bodies.requests = [⟨some 4294967297, .reader 0, [[1]], true, true⟩] ∧ t.EndsWhole := by
  refine ⟨_, rfl, rfl, ?_⟩
  refine upload_ends_whole .deno 65536 {} finished_upload ?_ 16 _ rfl
  refine along_cons rfl trivial (along_cons rfl trivial ?_)
  refine along_cons rfl trivial (along_cons rfl trivial ?_)
  refine along_cons rfl trivial (along_cons rfl trivial ?_)
  refine along_cons rfl ?_ (along_cons rfl trivial ?_)
  · -- the handle of `sendChunk` has its own writer
    intro up hup e he
    cases hup
    cases he
    rfl
  refine along_cons rfl trivial (along_cons rfl trivial ?_)
  refine along_cons rfl trivial (along_cons rfl ?_ ?_)
  · -- the writer was used a TTL ago, and not more
    intro u up hup hd hrx e he hval
    cases u with
    | zero =>
        cases hup
        cases he
        rfl
    | succ u => cases hup
  refine along_cons rfl trivial (along_cons rfl ?_ ?_)
  · intro up hup e he
    cases hup
    cases he
    rfl
  exact along_cons rfl trivial (along_cons rfl trivial trivial)

/-- The source fails after the response head: the token is gone, the cancellation
finds nothing, the sweep drops the writer, and the body ends cleanly after the one
chunk that was sent. -/
theorem failed_upload_ends_cleanly :
    ∃ t, run State.step (start .deno 65536 {} : State Slots)
        [.begin_call true false true, .alloc_body_writer 0 true 0, .alloc_fetch_token 0 true 0,
          .dispatch 0, .raw_fetch 0 none 0, .source_yields 0 [1], .send_chunk 0 0, .push 0,
          .send_returns 0, .send_settles 0, .poll_frame 0, .response_head 0, .source_fails 0,
          .pipe_catch 0, .sweep .writers 300000000000 300000000001, .poll_frame 0] = some t ∧
      t.bodies.requests = [⟨some 4294967297, .reader 0, [[1]], true, true⟩] ∧
      t.upload 0 = some ⟨4294967297, 0, .reset, [[1]], false⟩ ∧ ¬ t.EndsWhole := by
  refine ⟨_, rfl, rfl, rfl, fun hwhole => ?_⟩
  have hdrained := hwhole _ (List.mem_singleton_self _) 0 rfl rfl 0 _ rfl rfl
  cases hdrained.1

end IrohHttp.FetchCalls
