/-
Cancelling a read: `HandleStore::next_chunk` against `cancel_reader` and the TTL
sweep of `iroh-http-core/src/ffi/handles.rs`.

`next_chunk` takes the receiver and the notifier out of the registry, releases
the registry's lock and only then, in `recv_with_cancel`, creates its notified
future. `cancel_reader` and `sweep_readers` remove the entry and call
`notify_waiters`, which stores no permit: a future that exists is woken, one that
is created later is not. A call between its two steps is reached by neither the
removed entry nor the signal.

The calls are those of `BodyChannel.lean`. The entry of the registry is the
channel with its time of last access, which a lookup moves and a sweep reads; the
producer may send, fail or hang up, and `Label.silent` leaves it out.
-/
import IrohHttp.BodyChannel
import IrohHttp.Handles
import IrohHttp.Machine

set_option autoImplicit false

namespace IrohHttp.ReadCancel

open IrohHttp.Body IrohHttp.Handles Machine

/-! ## The entry and its steps -/

/-- One step: of a call on the handle or `cancel_reader`, of the sweep, or of the
producer. -/
inductive Label
  | read (a : ReaderLabel) (now : Instant)
  | sweep (ttl : Duration) (now : Instant)
  | send (data : Bytes)
  | abort (e : CoreError)
  | hang_up
  deriving DecidableEq

/-- The step is not the producer's. -/
def Label.silent : Label → Bool
  | .read _ _ => true
  | .sweep _ _ => true
  | _ => false

/-- A lookup touches the entry it finds. -/
def touched (e : Timed BodyReader) (a : ReaderLabel) (now : Instant) : Instant :=
  match a with
  | .open_call _ _ => if e.value.registered then now else e.last_accessed
  | _ => e.last_accessed

/-- One step on a registered reader: a read touches its entry, a sweep may expire it, and the pump
on the other side sends, aborts or hangs up. -/
def step (e : Timed BodyReader) : Label → Option (Timed BodyReader)
  | .read a now => (e.value.step a).map fun r => ⟨r, touched e a now⟩
  -- an expired reader is removed and its waiters are woken, as by `cancel_reader`
  | .sweep ttl now =>
    if e.is_expired ttl now then some { e with value := e.value.cancel_reader } else some e
  | .send data =>
    if e.value.tx_open && decide (e.value.queue.length < e.value.capacity) then
      some { e with value := e.value.push data }
    else none
  | .abort err => some { e with value := e.value.abort err }
  | .hang_up => some { e with value := e.value.hang_up }

/-- A fresh channel, registered at `now`. -/
def opened (handle capacity : ℕ) (now : Instant) : Timed BodyReader :=
  Timed.new (BodyReader.make_body_channel handle capacity) now

/-! ## Parked calls -/

/-- The call has created its notified future and no signal has reached it: it
waits for the receiver's lock or, holding it, for a chunk. -/
def parked : Call → Bool
  | .waiting false => true
  | .locked .next_chunk false => true
  | _ => false

/-- The handle is gone and a `next_chunk` on it waits for a channel that is open
and empty. -/
def Lost (r : BodyReader) : Prop :=
  r.registered = false ∧ r.tx_open = true ∧ r.queue = [] ∧ ∃ c, parked (r.calls c) = true

/-- Whenever a call creates its notified future, its handle is still there. -/
def EnlistsRegistered (e : Timed BodyReader) : Label → Prop
  | .read (.enlist c) _ => e.value.calls c = .cloned .next_chunk → e.value.registered = true
  | _ => True

instance (e : Timed BodyReader) (a : Label) : Decidable (EnlistsRegistered e a) := by
  unfold EnlistsRegistered
  split <;> infer_instance

/-! ## What one step does to the parked calls -/

theorem parked_notify (p : Call) : parked p.notify = false := by
  cases p with
  | waiting n => rfl
  | locked accessor n => cases accessor <;> rfl
  | _ => rfl

/-- The signal itself moves no call. -/
theorem ended_notify (p : Call) : p.notify.ended = p.ended := by
  cases p with
  | locked accessor n => cases accessor <;> rfl
  | _ => rfl

theorem parked_update {calls : ℕ → Call} {c d : ℕ} {p : Call}
    (hp : parked p = true → parked (calls c) = true)
    (hd : parked (Function.update calls c p d) = true) : parked (calls d) = true := by
  by_cases hdc : d = c
  · rw [hdc, Function.update_self] at hd
    exact hdc ▸ hp hd
  · rwa [Function.update_of_ne hdc] at hd

/-- The lock is taken by a call that was parked already, or by one that does not
wait. -/
theorem parked_acquire {r r' : BodyReader} {c d : ℕ} (h : r.acquire c = some r')
    (hd : parked (r'.calls d) = true) : parked (r.calls d) = true := by
  unfold BodyReader.acquire at h
  split at h
  · next hc _ =>
    rw [Option.some.injEq] at h
    subst h
    exact parked_update (fun _ => by rw [hc]; rfl) hd
  · rw [Option.some.injEq] at h
    subst h
    exact parked_update (by rintro ⟨⟩) hd
  · rw [Option.some.injEq] at h
    subst h
    exact parked_update (by rintro ⟨⟩) hd
  · cases h

/-- **Only creating the notified future parks a call.** -/
theorem parked_step {r r' : BodyReader} {a : ReaderLabel} {d : ℕ} (h : r.step a = some r')
    (hd : parked (r'.calls d) = true) : parked (r.calls d) = true ∨ a = .enlist d := by
  cases BodyReader.step_cases h with
  | opened accessor c hidle hreg => exact .inl (parked_update (by rintro ⟨⟩) hd)
  | refused accessor c hidle hreg => exact .inl (parked_update (by rintro ⟨⟩) hd)
  | enlisted c hc =>
      by_cases hdc : d = c
      · exact .inr (hdc ▸ rfl)
      · have hd' : parked (Function.update r.calls c (.waiting false) d) = true := hd
        rw [Function.update_of_ne hdc] at hd'
        exact .inl hd'
  | acquired accessor c hc hn => exact .inl (parked_acquire h hd)
  | contended c hc => exact .inl (parked_acquire h hd)
  | received accessor c data rest hc hq => exact .inl (parked_update (by rintro ⟨⟩) hd)
  | disconnected accessor c hc hq htx => exact .inl (parked_update (by rintro ⟨⟩) hd)
  | empty c hc hq htx => exact .inl (parked_update (by rintro ⟨⟩) hd)
  | cancelled c lock hc => exact .inl (parked_update (by rintro ⟨⟩) hd)
  | released c hc => exact .inl (parked_update (by rintro ⟨⟩) hd)
  | failed c e hc he => exact .inl (parked_update (by rintro ⟨⟩) hd)
  | finished c hc he => exact .inl (parked_update (by rintro ⟨⟩) hd)
  | unregistered =>
      rw [BodyReader.cancel_reader] at hd
      split at hd
      · rw [parked_notify] at hd
        cases hd
      · exact .inl hd

/-- A handle goes away by cancellation, or by a call that has seen the end. -/
theorem registered_step {r r' : BodyReader} {a : ReaderLabel} (h : r.step a = some r') :
    r'.registered = r.registered ∨ a = .cancel_reader ∨ ∃ c, r.calls c = .hung_up := by
  cases BodyReader.step_cases h with
  | released c hc => exact .inr (.inr ⟨c, hc⟩)
  | unregistered => exact .inr (.inl rfl)
  | _ => exact .inl rfl

/-- A reader that was removed is not registered again. -/
theorem unregistered_step {r r' : BodyReader} {a : ReaderLabel} (h : r.step a = some r')
    (hreg : r.registered = false) : r'.registered = false := by
  cases BodyReader.step_cases h with
  | opened accessor c hidle hreg' => exact hreg
  | released c hc => rfl
  | unregistered => rw [BodyReader.cancel_reader, hreg, if_neg Bool.false_ne_true, hreg]
  | _ => exact hreg

/-- A call comes to the end of its channel by the signal, or because the senders
are gone. -/
theorem ended_step {r r' : BodyReader} {a : ReaderLabel} {d : ℕ} (h : r.step a = some r')
    (hd : (r'.calls d).ended = true) :
    (r.calls d).ended = true ∨ (r.calls d).notified = true ∨ r.tx_open = false := by
  have hmove : ∀ {c : ℕ} {p : Call}, (p.ended = true → (r.calls c).ended = true ∨
      (r.calls c).notified = true ∨ r.tx_open = false) →
      (Function.update r.calls c p d).ended = true →
      (r.calls d).ended = true ∨ (r.calls d).notified = true ∨ r.tx_open = false := by
    intro c p hp hd
    by_cases hdc : d = c
    · rw [hdc, Function.update_self] at hd
      exact hdc ▸ hp hd
    · rw [Function.update_of_ne hdc] at hd
      exact .inl hd
  cases BodyReader.step_cases h with
  | disconnected accessor c hc hq htx => exact .inr (.inr htx)
  | cancelled c lock hc => exact hmove (fun _ => .inr (.inl hc)) hd
  | released c hc => exact hmove (fun _ => .inl (by rw [hc]; rfl)) hd
  | unregistered =>
      rw [BodyReader.cancel_reader] at hd
      split at hd
      · rw [ended_notify] at hd
        exact .inl hd
      · exact .inl hd
  | _ => exact hmove (by rintro ⟨⟩) hd

/-- The signal reaches the calls of a handle that is gone. -/
theorem notified_step {r r' : BodyReader} {a : ReaderLabel} {d : ℕ} (h : r.step a = some r')
    (hd : (r'.calls d).notified = true) :
    (r.calls d).notified = true ∨ r'.registered = false := by
  have hmove : ∀ {c : ℕ} {p : Call}, p.notified = false →
      (Function.update r.calls c p d).notified = true → (r.calls d).notified = true := by
    intro c p hp hd
    by_cases hdc : d = c
    · rw [hdc, Function.update_self, hp] at hd
      cases hd
    · rwa [Function.update_of_ne hdc] at hd
  cases BodyReader.step_cases h with
  | unregistered =>
      rw [BodyReader.cancel_reader] at hd ⊢
      split at hd
      · next hreg => exact .inr (by rw [if_pos hreg])
      · exact .inl hd
  | _ => exact .inl (hmove rfl hd)

/-! ## The invariant -/

/-- On an open channel a call only ends, and is only woken, once the handle is
gone; and when the handle is gone no call is parked. -/
structure Woken (r : BodyReader) : Prop where
  ended : ∀ c, (r.calls c).ended = true → r.tx_open = true → r.registered = false
  notified : ∀ c, (r.calls c).notified = true → r.registered = false
  unparked : r.registered = false → r.tx_open = true → ∀ c, parked (r.calls c) = false

theorem woken_make_body_channel (handle capacity : ℕ) :
    Woken (BodyReader.make_body_channel handle capacity) where
  ended c hc := by cases hc
  notified c hc := by cases hc
  unparked hreg := by cases hreg

/-- Where all are woken, no read is lost. -/
theorem Woken.not_lost {r : BodyReader} (h : Woken r) : ¬ Lost r := by
  rintro ⟨hreg, htx, -, c, hc⟩
  rw [h.unparked hreg htx c] at hc
  cases hc

/-- A step wakes whom it has to wake, when nobody enlists at a removed reader. -/
theorem woken_step {r r' : BodyReader} {a : ReaderLabel} (h : Woken r)
    (hC : ∀ c, a = .enlist c → r.registered = true) (hs : r.step a = some r') : Woken r' := by
  have htx : r'.tx_open = r.tx_open := (BodyReader.step_frame hs).1
  refine ⟨?_, ?_, ?_⟩
  · intro c hc htx'
    rw [htx] at htx'
    refine unregistered_step hs ?_
    obtain hc | hc | hc := ended_step hs hc
    · exact h.ended c hc htx'
    · exact h.notified c hc
    · rw [hc] at htx'
      cases htx'
  · intro c hc
    obtain hc | hc := notified_step hs hc
    · exact unregistered_step hs (h.notified c hc)
    · exact hc
  · intro hreg htx' d
    rw [htx] at htx'
    by_contra hd
    rw [Bool.not_eq_false] at hd
    -- a handle that was gone before the step had no parked call
    have hgone : r.registered = false → False := by
      intro hreg₀
      obtain hd | rfl := parked_step hs hd
      · rw [h.unparked hreg₀ htx' d] at hd
        cases hd
      · rw [hC d rfl] at hreg₀
        cases hreg₀
    obtain heq | rfl | ⟨c, hc⟩ := registered_step hs
    · exact hgone (heq ▸ hreg)
    · -- a cancellation that removes the handle wakes every parked call
      cases hreg₀ : r.registered with
      | false => exact hgone hreg₀
      | true =>
          simp only [BodyReader.step, Option.some.injEq, BodyReader.cancel_reader, hreg₀] at hs
          rw [← hs] at hd
          simp only [if_true, parked_notify, Bool.false_eq_true] at hd
    · exact hgone (h.ended c (by rw [hc]; rfl) htx')

theorem woken_cancel_reader {r : BodyReader} (h : Woken r) : Woken r.cancel_reader :=
  woken_step (a := .cancel_reader) h (by rintro c ⟨⟩) rfl

/-- **A step keeps the calls woken**, unless a call registers its waiter after the
handle has gone. -/
theorem woken_entry_step {e e' : Timed BodyReader} {a : Label} (h : Woken e.value)
    (hC : EnlistsRegistered e a) (hs : step e a = some e') : Woken e'.value := by
  cases a with
  | read a now =>
      simp only [step, Option.map_eq_some_iff] at hs
      obtain ⟨r, hr, rfl⟩ := hs
      refine woken_step h ?_ hr
      rintro c rfl
      refine hC ?_
      simp only [BodyReader.step, BodyReader.enlist, Option.ite_none_right_eq_some] at hr
      exact hr.1
  | sweep ttl now =>
      simp only [step] at hs
      split at hs
      · rw [Option.some.injEq] at hs
        exact hs ▸ woken_cancel_reader h
      · rw [Option.some.injEq] at hs
        exact hs ▸ h
  | send data =>
      simp only [step, Option.ite_none_right_eq_some, Option.some.injEq] at hs
      exact hs.2 ▸ ⟨h.ended, h.notified, h.unparked⟩
  | abort err =>
      simp only [step, Option.some.injEq] at hs
      exact hs ▸ ⟨h.ended, h.notified, h.unparked⟩
  | hang_up =>
      simp only [step, Option.some.injEq] at hs
      subst hs
      exact ⟨fun c _ htx => (by cases htx), h.notified, fun _ htx => (by cases htx)⟩

/-! ## Lost calls

A call that is lost stays so until the producer moves: nothing on the reader's
side can wake it. -/

/-- A channel with a producer that has not moved yet. -/
def Untouched (r : BodyReader) : Prop := r.tx_open = true ∧ r.queue = []

theorem untouched_reader_step {r r' : BodyReader} {a : ReaderLabel} (h : Untouched r)
    (hs : r.step a = some r') : Untouched r' := by
  refine ⟨(BodyReader.step_frame hs).1.trans h.1, ?_⟩
  obtain ⟨-, hq⟩ | ⟨c, accessor, data, -, -, hq, -⟩ | ⟨-, hq⟩ | ⟨e, -, hq⟩ :=
    BodyReader.step_return hs
  · rw [hq, h.2]
  · rw [h.2] at hq
    cases hq
  · rw [hq, h.2]
  · rw [hq, h.2]

theorem untouched_step {e e' : Timed BodyReader} {a : Label} (h : Untouched e.value)
    (ha : a.silent = true) (hs : step e a = some e') : Untouched e'.value := by
  cases a with
  | read a now =>
      simp only [step, Option.map_eq_some_iff] at hs
      obtain ⟨r, hr, rfl⟩ := hs
      exact untouched_reader_step h hr
  | sweep ttl now =>
      simp only [step] at hs
      split at hs
      · rw [Option.some.injEq] at hs
        exact hs ▸ untouched_reader_step (a := .cancel_reader) h rfl
      · rw [Option.some.injEq] at hs
        exact hs ▸ h
  | _ => cases ha

/-- A parked call leaves its phase by the lock, the channel or the signal. -/
theorem parked_reader_step {r r' : BodyReader} {a : ReaderLabel} {d : ℕ} (h : Untouched r)
    (hreg : r.registered = false) (hd : parked (r.calls d) = true) (hs : r.step a = some r') :
    parked (r'.calls d) = true := by
  have hother : ∀ {c : ℕ} {p : Call}, parked (r.calls c) = false →
      parked (Function.update r.calls c p d) = true := by
    intro c p hc
    have hdc : d ≠ c := by
      rintro rfl
      rw [hd] at hc
      cases hc
    rwa [Function.update_of_ne hdc]
  cases BodyReader.step_cases hs with
  | opened accessor c hidle hreg' =>
      rw [hreg] at hreg'
      cases hreg'
  | refused accessor c hidle hreg' => exact hother (by rw [hidle]; rfl)
  | enlisted c hc => exact hother (by rw [hc]; rfl)
  | acquired accessor c hc hn =>
      simp only [BodyReader.step, BodyReader.acquire] at hs
      split at hs
      · rw [Option.some.injEq] at hs
        rw [← hs]
        show parked (Function.update r.calls c (.locked .next_chunk false) d) = true
        by_cases hdc : d = c
        · rw [hdc, Function.update_self]
          rfl
        · rwa [Function.update_of_ne hdc]
      · next hc' _ => exact hother (by rw [hc']; rfl)
      · next hc' _ => exact hother (by rw [hc']; rfl)
      · cases hs
  | contended c hc => exact hother (by rw [hc]; rfl)
  | received accessor c data rest hc hq =>
      rw [h.2] at hq
      cases hq
  | disconnected accessor c hc hq htx =>
      rw [h.1] at htx
      cases htx
  | empty c hc hq htx => exact hother (by rw [hc]; rfl)
  | cancelled c lock hc =>
      refine hother ?_
      cases hcall : r.calls c with
      | waiting n => rw [hcall] at hc; rw [show n = true from hc]; rfl
      | locked accessor n => rw [hcall] at hc; rw [show n = true from hc]; cases accessor <;> rfl
      | _ => rw [hcall] at hc; cases hc
  | released c hc => exact hother (by rw [hc]; rfl)
  | failed c e hc he => exact hother (by rw [hc]; rfl)
  | finished c hc he => exact hother (by rw [hc]; rfl)
  | unregistered => rwa [BodyReader.cancel_reader, hreg, if_neg Bool.false_ne_true]

/-- **A lost call is never woken**, as long as the producer stays silent. -/
theorem lost_step {e e' : Timed BodyReader} {a : Label} (h : Lost e.value)
    (ha : a.silent = true) (hs : step e a = some e') : Lost e'.value := by
  obtain ⟨hreg, htx, hq, d, hd⟩ := h
  cases a with
  | read a now =>
      simp only [step, Option.map_eq_some_iff] at hs
      obtain ⟨r, hr, rfl⟩ := hs
      obtain ⟨htx', hq'⟩ := untouched_reader_step ⟨htx, hq⟩ hr
      exact ⟨unregistered_step hr hreg, htx', hq', d, parked_reader_step ⟨htx, hq⟩ hreg hd hr⟩
  | sweep ttl now =>
      -- a handle that is gone is not swept again
      have hsame : e.value.cancel_reader = e.value := by
        rw [BodyReader.cancel_reader, hreg, if_neg Bool.false_ne_true]
      simp only [step, hsame, ite_self, Option.some.injEq] at hs
      exact hs ▸ ⟨hreg, htx, hq, d, hd⟩
  | _ => cases ha

/-- A lost read stays lost as long as the producer is silent. -/
theorem lost_run {e e' : Timed BodyReader} {l : List Label} (h : Lost e.value)
    (hl : ∀ a ∈ l, a.silent = true) (hrun : run step e l = some e') : Lost e'.value :=
  along_invariant (P := fun e => Lost e.value) (C := fun _ a => a.silent = true)
    (fun _ _ _ h ha hs => lost_step h ha hs) h (along_of_forall (fun a ha _ => hl a ha) e) hrun

/-! ## Reads are cancelled -/

/-- No state along the schedule has lost a call. -/
def NeverLost (e : Timed BodyReader) (l : List Label) : Prop :=
  ∀ n t, run step e (l.take n) = some t → ¬ Lost t.value

/-- **A cancelled or swept read ends, exactly when every call registers its waiter
before its handle goes away.** The condition is enough whatever the producer does;
with a silent producer the schedules that meet it are those that lose no call. -/
theorem never_lost_iff_enlists_registered (handle capacity : ℕ) (now : Instant)
    (l : List Label) :
    (Along step EnlistsRegistered (opened handle capacity now) l →
      NeverLost (opened handle capacity now) l) ∧
    ((∀ a ∈ l, a.silent = true) →
      (NeverLost (opened handle capacity now) l ↔
        Along step EnlistsRegistered (opened handle capacity now) l)) := by
  have hstart : Woken (opened handle capacity now).value := woken_make_body_channel handle capacity
  have henough : Along step EnlistsRegistered (opened handle capacity now) l →
      NeverLost (opened handle capacity now) l := by
    intro hal n t hrun
    have hwoken : Woken t.value :=
      along_invariant_take (P := fun e => Woken e.value)
        (fun _ _ _ h hC hs => woken_entry_step h hC hs) hstart hal hrun
    exact hwoken.not_lost
  refine ⟨henough, fun hsilent => ⟨fun hnever => ?_, henough⟩⟩
  by_contra hno
  obtain ⟨l₁, a, l₂, t, rfl, hal, hrun, hviol⟩ := exists_first_violation hno
  -- with a silent producer the channel is open and empty at the first late waiter
  have huntouched : Untouched t.value := by
    refine along_invariant (P := fun e => Untouched e.value) (C := fun _ a => a.silent = true)
      (fun _ _ _ h hC hs => untouched_step h hC hs) ⟨rfl, rfl⟩ ?_ hrun
    exact along_of_forall (fun b hb _ => hsilent b (List.mem_append_left _ hb)) _
  obtain ⟨c, now', rfl⟩ : ∃ c now', a = .read (.enlist c) now' := by
    cases a with
    | read a now' =>
        cases a with
        | enlist c => exact ⟨c, now', rfl⟩
        | _ => exact absurd trivial hviol
    | _ => exact absurd trivial hviol
  simp only [EnlistsRegistered, Classical.not_imp, Bool.not_eq_true] at hviol
  obtain ⟨hc, hreg⟩ := hviol
  let u : Timed BodyReader := ⟨t.value.move c (.waiting false), t.last_accessed⟩
  have hs : step t (.read (.enlist c) now') = some u := by
    simp only [step, BodyReader.step, BodyReader.enlist, hc, if_true, Option.map_some, touched, u]
  refine hnever (l₁.length + 1) u ?_ ⟨hreg, huntouched.1, huntouched.2, c, ?_⟩
  · rw [List.take_append, List.take_of_length_le (Nat.le_succ _), Nat.add_sub_cancel_left]
    exact run_append_singleton hrun hs
  · show parked (Function.update t.value.calls c (.waiting false) c) = true
    rw [Function.update_self]
    rfl

/-- A `next_chunk` has looked its handle up when `removal` takes the handle out. -/
def removed_midway (removal : Label) : List Label :=
  [.read (.open_call .next_chunk 0) 0, removal, .read (.enlist 0) 301, .read (.acquire 0) 301]

/-- Whether it was cancelled or swept, the call then waits for good. -/
theorem cancelled_read_lost :
    (∃ t, run step (opened 1 32 0) (removed_midway (.read .cancel_reader 301)) = some t ∧
      t.value.calls 0 = .locked .next_chunk false ∧ Lost t.value ∧
      ∀ l, (∀ a ∈ l, a.silent = true) → ∀ u, run step t l = some u → Lost u.value) ∧
    ∃ t, run step (opened 1 32 0) (removed_midway (.sweep 300 301)) = some t ∧
      t.value.calls 0 = .locked .next_chunk false ∧ Lost t.value ∧
      ∀ l, (∀ a ∈ l, a.silent = true) → ∀ u, run step t l = some u → Lost u.value := by
  constructor
  · refine ⟨_, rfl, rfl, ⟨rfl, rfl, rfl, 0, rfl⟩, fun l hl u hu => ?_⟩
    exact lost_run ⟨rfl, rfl, rfl, 0, rfl⟩ hl hu
  · refine ⟨_, rfl, rfl, ⟨rfl, rfl, rfl, 0, rfl⟩, fun l hl u hu => ?_⟩
    exact lost_run ⟨rfl, rfl, rfl, 0, rfl⟩ hl hu

end IrohHttp.ReadCancel
