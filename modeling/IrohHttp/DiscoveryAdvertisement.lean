/-
`runDiscoveryAdvertisement` of `iroh-http-shared/src/dns-sd.ts`: one native advertisement, which stays
until its signal aborts.

The abort may come while the native start is under way. The caller is then told at once, and a handle
that comes later is closed by a reaction that nobody waits for. One step is what runs between two
suspensions, or a result of one of the callbacks; the order of microtasks is left open.
-/
import IrohHttp.DiscoveryIterator

set_option autoImplicit false

namespace IrohHttp.DiscoveryAdvertisement

open DiscoveryIterator Machine

variable {H E : Type}

/-- What the function waits for. `calling` is the await without a signal. -/
inductive Phase (H E : Type)
  | calling
  | racing
  | started (handle : H)
  | closing
  | settled (result : Except E Unit)

/-- `signal_aborted` is the signal's own state and `listening` its listener, `aborted` the promise that
the listener resolves, `late` the reaction to the start after the abort. `closes` records the calls of
`close`. -/
structure Advertisement (H E : Type) where
  signal : Bool
  signal_aborted : Bool
  listening : Bool := false
  listener_registered : Bool := false
  aborted : Bool := false
  start : StartPromise H E := .idle
  start_calls : ℕ := 0
  phase : Phase H E
  late : Bool := false
  cleanup : Option (Cleanup H E) := none
  closes : List H := []

/-- What can happen: the caller's abort and its listener, the start, and the turns of the function.
-/
inductive Label (E H : Type)
  | abort
  | on_abort
  | start_call
  | start_settle (result : Except E H)
  | start_awaited
  | race_start
  | race_aborted
  | late_start
  | aborted_awaited
  | close_call
  | close_settle (result : Except E Unit)
  | close_awaited

/-- What runs without anything from outside. -/
def Label.own : Label E H → Bool
  | .abort | .start_settle _ | .close_settle _ => false
  | _ => true

namespace Advertisement

/-- `runDiscoveryAdvertisement` up to its first wait; without a signal there is nothing to race. -/
def run_discovery_advertisement (signal signal_aborted : Bool) : Advertisement H E :=
  if !signal then
    { signal := signal, signal_aborted := signal_aborted
      start := .called, start_calls := 1, phase := .calling }
  else if signal_aborted then
    { signal := signal, signal_aborted := signal_aborted, phase := .settled (.ok ()) }
  else
    { signal := signal, signal_aborted := signal_aborted
      listening := true, listener_registered := true, start := .queued, phase := .racing }

/-- `removeAbortListener`, once. -/
def remove_abort_listener (x : Advertisement H E) : Advertisement H E :=
  if x.listener_registered then { x with listener_registered := false, listening := false } else x

/-- One step, `none` where the label is not enabled. -/
def step (x : Advertisement H E) : Label E H → Option (Advertisement H E)
  | .abort => if x.signal then some { x with signal_aborted := true } else none
  | .on_abort =>
    if x.signal_aborted && x.listening then some { x with listening := false, aborted := true } else none
  | .start_call =>
    match x.start with
    | .queued => some { x with start := .called, start_calls := x.start_calls + 1 }
    | _ => none
  | .start_settle result =>
    match x.start with
    | .called => some { x with start := .settled result }
    | _ => none
  | .start_awaited =>
    match x.phase, x.start with
    | .calling, .settled result =>
      some { x with start := .observed result, phase := .settled (result.map fun _ => ()) }
    | _, _ => none
  | .race_start =>
    match x.phase, x.start with
    | .racing, .settled (.ok handle) =>
      some { x with start := .observed (.ok handle), phase := .started handle }
    | .racing, .settled (.error error) =>
      some { x.remove_abort_listener with
        start := .observed (.error error), phase := .settled (.error error) }
    | _, _ => none
  | .race_aborted =>
    match x.phase, x.aborted with
    | .racing, true => some { x.remove_abort_listener with phase := .settled (.ok ()), late := true }
    | _, _ => none
  | .late_start =>
    match x.late, x.start with
    | true, .settled (.ok handle) =>
      some { x with start := .observed (.ok handle), cleanup := some { handle := handle } }
    | true, .settled (.error error) => some { x with start := .observed (.error error) }
    | _, _ => none
  | .aborted_awaited =>
    match x.phase, x.aborted with
    | .started handle, true =>
      some { x.remove_abort_listener with phase := .closing, cleanup := some { handle := handle } }
    | _, _ => none
  | .close_call =>
    x.cleanup.bind fun c => c.call.map fun c' =>
      { x with cleanup := some c', closes := x.closes ++ [c.handle] }
  | .close_settle result =>
    (x.cleanup.bind fun c => c.settle result).map fun c => { x with cleanup := some c }
  | .close_awaited =>
    match x.phase, x.cleanup with
    | .closing, some ⟨_, .settled result⟩ => some { x with phase := .settled result }
    | _, _ => none

/-- Nothing is left to run. -/
def Quiet (x : Advertisement H E) : Prop :=
  ∀ label : Label E H, label.own = true → x.step label = none

/-! ## The handle -/

/-- The calls of `close` that a cleanup has made. -/
def closed (cleanup : Option (Cleanup H E)) : List H :=
  match cleanup with
  | none => []
  | some ⟨_, .queued⟩ => []
  | some ⟨handle, _⟩ => [handle]

/-- A handle is with the function until the abort, and with its cleanup from then on. -/
structure Kept (x : Advertisement H E) : Prop where
  calls : x.start_calls ≤ 1
  uncalled : x.start = .queued → x.start_calls = 0
  closes : x.closes = closed x.cleanup
  aborted : x.aborted = true → x.signal_aborted = true
  cleaned : ∀ c, x.cleanup = some c → x.start = .observed (.ok c.handle) ∧ x.aborted = true ∧
    (x.phase = .closing ∨ ∃ result, x.phase = .settled result)
  late : x.late = true → x.aborted = true ∧ x.phase = .settled (.ok ())
  calling : x.phase = .calling → x.signal = false ∧ x.listening = false
  racing : x.phase = .racing → x.late = false ∧ x.cleanup = none ∧ ∀ result, x.start ≠ .observed result
  started : ∀ handle, x.phase = .started handle →
    x.start = .observed (.ok handle) ∧ x.late = false ∧ x.cleanup = none
  closing : x.phase = .closing → x.cleanup ≠ none ∧ x.listening = false
  observed : ∀ handle, x.signal = true → x.start = .observed (.ok handle) →
    x.phase = .started handle ∨ ∃ c, x.cleanup = some c ∧ c.handle = handle
  pending : x.signal = true →
    x.start = .queued ∨ x.start = .called ∨ (∃ result, x.start = .settled result) →
    x.phase = .racing ∨ x.late = true
  listener : x.listening = true → x.listener_registered = true
  silent : ∀ result, x.phase = .settled result → x.listening = false
  listens : x.phase = .racing ∨ (∃ handle, x.phase = .started handle) →
    x.listening = true ∨ x.aborted = true
  failed : ∀ error, x.phase = .settled (.error error) → x.start = .observed (.error error) ∨
    ∃ handle, x.cleanup = some ⟨handle, .settled (.error error)⟩

section Kept

variable {x y : Advertisement H E}

/-- The listener is gone, and nothing else has changed. -/
theorem remove_abort_listener_eq (h : Kept x) :
    ∃ registered, x.remove_abort_listener =
      { x with listener_registered := registered, listening := false } := by
  unfold remove_abort_listener
  split
  · exact ⟨false, rfl⟩
  · next hnot =>
      have hsilent : x.listening = false := by
        by_contra hlistening
        rw [Bool.not_eq_false] at hlistening
        exact hnot (h.listener hlistening)
      refine ⟨x.listener_registered, ?_⟩
      rw [← hsilent]

/-- A start that nothing has observed has no cleanup. -/
theorem Kept.uncleaned (h : Kept x) (hstart : ∀ handle, x.start ≠ .observed (.ok handle)) :
    x.cleanup = none := by
  cases hc : x.cleanup with
  | none => rfl
  | some c => exact absurd (h.cleaned c hc).1 (hstart c.handle)

/-- Nothing is closed before the cleanup has begun. -/
theorem Kept.unclosed (h : Kept x) (hnone : x.cleanup = none) : x.closes = [] := by
  rw [h.closes, hnone]
  rfl

/-- The listener only notes the abort. -/
theorem Kept.on_abort (h : Kept x) (hsignal : x.signal_aborted = true) :
    Kept { x with listening := false, aborted := true } := { h with
  aborted := fun _ => hsignal
  cleaned := fun c hc => ⟨(h.cleaned c hc).1, rfl, (h.cleaned c hc).2.2⟩
  late := fun hlate => ⟨rfl, (h.late hlate).2⟩
  calling := fun hp => ⟨(h.calling hp).1, rfl⟩
  closing := fun hp => ⟨(h.closing hp).1, rfl⟩
  listener := nofun
  silent := fun _ _ => rfl
  listens := fun _ => .inr rfl }

/-- The start is called, or its call settles. -/
theorem Kept.start_moves (h : Kept x) {start : StartPromise H E} {calls : ℕ}
    (hbefore : x.start = .queued ∨ x.start = .called)
    (hafter : start = .called ∨ ∃ result, start = .settled result) (hcalls : calls ≤ 1) :
    Kept { x with start := start, start_calls := calls } := by
  -- neither before nor after it is the start one that somebody has seen
  have hunobserved : ∀ result, x.start ≠ .observed result := by
    intro result hobserved
    rcases hbefore with hs | hs <;> rw [hs] at hobserved <;> cases hobserved
  have hnone := h.uncleaned fun handle => hunobserved (.ok handle)
  have hkeeps : ∀ result, start ≠ .observed result := by
    rintro result rfl
    rcases hafter with hs | ⟨_, hs⟩ <;> cases hs
  exact { h with
    calls := hcalls
    uncalled := by
      rintro rfl
      rcases hafter with hs | ⟨_, hs⟩ <;> cases hs
    cleaned := fun c hc => nomatch hnone.symm.trans hc
    racing := fun hp => ⟨(h.racing hp).1, (h.racing hp).2.1, hkeeps⟩
    started := fun handle hp => absurd (h.started handle hp).1 (hunobserved _)
    observed := fun handle _ hs => absurd hs (hkeeps _)
    pending := fun hsignal _ => h.pending hsignal (by
      rcases hbefore with hs | hs
      · exact .inl hs
      · exact .inr (.inl hs))
    failed := fun error hp => by
      rcases h.failed error hp with hs | ⟨handle, hc⟩
      · exact absurd hs (hunobserved _)
      · exact nomatch hnone.symm.trans hc }

/-- The race is over, or the function had none: the start has been observed by the caller. -/
theorem Kept.settle_start (h : Kept x) {result : Except E H} (hs : x.start = .settled result)
    (hp : x.phase = .calling ∨ x.phase = .racing ∧ ∃ error, result = .error error)
    (registered : Bool) {listening : Bool} (hsilent : listening = false) :
    Kept { x with
      listener_registered := registered, listening := listening
      start := .observed result, phase := .settled (result.map fun _ => ()) } := by
  have hnone : x.cleanup = none := h.uncleaned fun handle hno => nomatch hs.symm.trans hno
  -- the late reaction comes only after the race has been lost
  have hlate : x.late ≠ true := by
    intro hlate
    rcases hp with hp | ⟨hp, _⟩
    · exact nomatch hp.symm.trans (h.late hlate).2
    · exact nomatch hp.symm.trans (h.late hlate).2
  exact {
    calls := h.calls
    uncalled := nofun
    closes := h.closes
    aborted := h.aborted
    cleaned := fun c hc => nomatch hnone.symm.trans hc
    late := fun hno => absurd hno hlate
    calling := nofun
    racing := nofun
    started := nofun
    closing := nofun
    observed := fun handle hsignal hobserved => by
      rcases hp with hp | ⟨_, error, rfl⟩
      · exact nomatch hsignal.symm.trans (h.calling hp).1
      · cases hobserved
    pending := by
      rintro _ (hno | hno | ⟨_, hno⟩) <;> cases hno
    listener := fun hno => nomatch hsilent.symm.trans hno
    silent := fun _ _ => hsilent
    listens := by
      rintro (hno | ⟨_, hno⟩) <;> cases hno
    failed := fun error hfailed => by
      cases result with
      | ok handle => cases hfailed
      | error e =>
          cases hfailed
          exact .inl rfl }

/-- The start wins the race. -/
theorem Kept.race_started (h : Kept x) (handle : H) (hp : x.phase = .racing) :
    Kept { x with start := .observed (.ok handle), phase := .started handle } := by
  obtain ⟨hlate, hnone, _⟩ := h.racing hp
  exact { h with
    uncalled := nofun
    cleaned := fun c hc => nomatch hnone.symm.trans hc
    late := fun hno => nomatch hlate.symm.trans hno
    calling := nofun
    racing := nofun
    started := fun other hother => by
      cases hother
      exact ⟨rfl, hlate, hnone⟩
    closing := nofun
    observed := fun other _ hother => by
      cases hother
      exact .inl rfl
    pending := by
      rintro _ (hno | hno | ⟨_, hno⟩) <;> cases hno
    silent := nofun
    listens := fun _ => h.listens (.inl hp)
    failed := nofun }

/-- The abort wins the race. -/
theorem Kept.race_aborted (h : Kept x) (hp : x.phase = .racing) (haborted : x.aborted = true)
    (registered : Bool) :
    Kept { x with
      listener_registered := registered, listening := false
      phase := .settled (.ok ()), late := true } := by
  obtain ⟨_, hnone, hunobserved⟩ := h.racing hp
  exact { h with
    cleaned := fun c hc => nomatch hnone.symm.trans hc
    late := fun _ => ⟨haborted, rfl⟩
    calling := nofun
    racing := nofun
    started := nofun
    closing := nofun
    observed := fun handle _ hs => absurd hs (hunobserved _)
    pending := fun _ _ => .inr rfl
    listener := nofun
    silent := fun _ _ => rfl
    listens := by
      rintro (hno | ⟨_, hno⟩) <;> cases hno
    failed := nofun }

/-- The start settles after the abort: its handle, if it has one, goes to a cleanup. -/
theorem Kept.late_start (h : Kept x) (hlate : x.late = true) {result : Except E H}
    (hs : x.start = .settled result) {cleanup : Option (Cleanup H E)}
    (hcleanup : (∃ handle, result = .ok handle ∧ cleanup = some { handle := handle }) ∨
      (∃ error, result = .error error) ∧ cleanup = none) :
    Kept { x with start := .observed result, cleanup := cleanup } := by
  obtain ⟨haborted, hp⟩ := h.late hlate
  have hnone : x.cleanup = none := h.uncleaned fun handle hno => nomatch hs.symm.trans hno
  have hcloses := h.unclosed hnone
  exact { h with
    uncalled := nofun
    closes := by
      rcases hcleanup with ⟨handle, _, rfl⟩ | ⟨_, rfl⟩ <;> exact hcloses
    cleaned := fun c hc => by
      rcases hcleanup with ⟨handle, rfl, rfl⟩ | ⟨_, rfl⟩
      · cases hc
        exact ⟨rfl, haborted, .inr ⟨_, hp⟩⟩
      · cases hc
    racing := fun hno => nomatch hp.symm.trans hno
    started := fun _ hno => nomatch hp.symm.trans hno
    closing := fun hno => nomatch hp.symm.trans hno
    observed := fun handle _ hobserved => by
      cases hobserved
      rcases hcleanup with ⟨_, heq, rfl⟩ | ⟨⟨_, heq⟩, _⟩
      · cases heq
        exact .inr ⟨_, rfl, rfl⟩
      · cases heq
    pending := by
      rintro _ (hno | hno | ⟨_, hno⟩) <;> cases hno
    failed := fun error hno => nomatch hp.symm.trans hno }

/-- The abort comes once the advertisement is there. -/
theorem Kept.aborted_awaited (h : Kept x) {handle : H} (hp : x.phase = .started handle)
    (haborted : x.aborted = true) (registered : Bool) :
    Kept { x with
      listener_registered := registered, listening := false
      phase := .closing, cleanup := some { handle := handle } } := by
  obtain ⟨hs, hlate, hnone⟩ := h.started handle hp
  have hcloses := h.unclosed hnone
  exact { h with
    closes := hcloses
    cleaned := fun c hc => by
      cases hc
      exact ⟨hs, haborted, .inl rfl⟩
    late := fun hno => nomatch hlate.symm.trans hno
    calling := nofun
    racing := nofun
    started := nofun
    closing := fun _ => ⟨nofun, rfl⟩
    observed := fun other _ hother => by
      cases hs.symm.trans hother
      exact .inr ⟨_, rfl, rfl⟩
    pending := by
      rintro _ (hno | hno | ⟨_, hno⟩) <;> cases hs.symm.trans hno
    listener := nofun
    silent := nofun
    listens := by
      rintro (hno | ⟨_, hno⟩) <;> cases hno
    failed := nofun }

/-- The cleanup moves on. Its handle is closed with its first move. -/
theorem Kept.cleanup_moves (h : Kept x) {handle : H} {before after : CleanupPhase E}
    (hc : x.cleanup = some ⟨handle, before⟩) (hunsettled : ∀ result, before ≠ .settled result)
    {closes : List H} (hcloses : closes = closed (some ⟨handle, after⟩)) :
    Kept { x with cleanup := some ⟨handle, after⟩, closes := closes } := by
  have hcleaned := h.cleaned _ hc
  exact { h with
    closes := hcloses
    cleaned := fun c hcleanup => by
      cases hcleanup
      exact hcleaned
    racing := fun hp => nomatch (h.racing hp).2.1.symm.trans hc
    started := fun other hp => nomatch (h.started other hp).2.2.symm.trans hc
    closing := fun hp => ⟨nofun, (h.closing hp).2⟩
    observed := fun other _ hs => by
      cases hcleaned.1.symm.trans hs
      exact .inr ⟨_, rfl, rfl⟩
    failed := fun error hp => by
      rcases h.failed error hp with hs | ⟨other, hother⟩
      · exact .inl hs
      · cases hc.symm.trans hother
        exact absurd rfl (hunsettled _) }

/-- The close ends the function with its result. -/
theorem Kept.close_awaited (h : Kept x) (hp : x.phase = .closing) {handle : H}
    {result : Except E Unit} (hc : x.cleanup = some ⟨handle, .settled result⟩) :
    Kept { x with phase := .settled result } := { h with
  cleaned := fun c hcleanup =>
    ⟨(h.cleaned c hcleanup).1, (h.cleaned c hcleanup).2.1, .inr ⟨result, rfl⟩⟩
  late := fun hlate => nomatch hp.symm.trans (h.late hlate).2
  calling := nofun
  racing := nofun
  started := nofun
  closing := nofun
  observed := fun other hsignal hs => by
    rcases h.observed other hsignal hs with hno | hcleanup
    · exact nomatch hp.symm.trans hno
    · exact .inr hcleanup
  pending := fun hsignal hs => by
    rcases h.pending hsignal hs with hno | hlate
    · exact nomatch hp.symm.trans hno
    · exact .inr hlate
  silent := fun _ _ => (h.closing hp).2
  listens := by
    rintro (hno | ⟨_, hno⟩) <;> cases hno
  failed := fun error hfailed => by
    cases hfailed
    exact .inr ⟨handle, hc⟩ }

theorem kept_start (signal signal_aborted : Bool) :
    Kept (run_discovery_advertisement signal signal_aborted : Advertisement H E) := by
  unfold run_discovery_advertisement
  split
  · next hsignal =>
      rw [Bool.not_eq_true'] at hsignal
      exact {
        calls := Nat.le_refl _
        uncalled := nofun
        closes := rfl
        aborted := nofun
        cleaned := nofun
        late := nofun
        calling := fun _ => ⟨hsignal, rfl⟩
        racing := nofun
        started := nofun
        closing := nofun
        observed := nofun
        pending := fun hno => nomatch hsignal.symm.trans hno
        listener := nofun
        silent := nofun
        listens := by
          rintro (hno | ⟨_, hno⟩) <;> cases hno
        failed := nofun }
  · split
    · exact {
        calls := Nat.zero_le _
        uncalled := nofun
        closes := rfl
        aborted := nofun
        cleaned := nofun
        late := nofun
        calling := nofun
        racing := nofun
        started := nofun
        closing := nofun
        observed := nofun
        pending := by
          rintro _ (hno | hno | ⟨_, hno⟩) <;> cases hno
        listener := nofun
        silent := fun _ _ => rfl
        listens := by
          rintro (hno | ⟨_, hno⟩) <;> cases hno
        failed := nofun }
    · exact {
        calls := Nat.zero_le _
        uncalled := fun _ => rfl
        closes := rfl
        aborted := nofun
        cleaned := nofun
        late := nofun
        calling := nofun
        racing := fun _ => ⟨rfl, rfl, nofun⟩
        started := nofun
        closing := nofun
        observed := nofun
        pending := fun _ _ => .inl rfl
        listener := fun _ => rfl
        silent := nofun
        listens := fun _ => .inl rfl
        failed := nofun }

/-- **One step** keeps the invariant. -/
theorem kept_step {label : Label E H} (h : Kept x) (hstep : x.step label = some y) : Kept y := by
  cases label with
  | abort =>
      rw [step, Option.ite_none_right_eq_some] at hstep
      obtain ⟨_, hstep⟩ := hstep
      cases hstep
      exact { h with aborted := fun _ => rfl }
  | on_abort =>
      rw [step, Option.ite_none_right_eq_some, Bool.and_eq_true] at hstep
      obtain ⟨⟨hsignal, _⟩, hstep⟩ := hstep
      cases hstep
      exact h.on_abort hsignal
  | start_call =>
      simp only [step] at hstep
      split at hstep
      · next hs =>
          cases hstep
          apply h.start_moves (.inl hs) (.inl rfl)
          have hzero := h.uncalled hs
          omega
      · cases hstep
  | start_settle result =>
      simp only [step] at hstep
      split at hstep
      · next hs =>
          cases hstep
          exact h.start_moves (.inr hs) (.inr ⟨result, rfl⟩) h.calls
      · cases hstep
  | start_awaited =>
      simp only [step] at hstep
      split at hstep
      · next hp hs =>
          cases hstep
          exact h.settle_start hs (.inl hp) x.listener_registered (h.calling hp).2
      · cases hstep
  -- the two ends of the race take the abort listener off, if it is still there
  | race_start =>
      obtain ⟨registered, hr⟩ := remove_abort_listener_eq h
      simp only [step, hr] at hstep
      split at hstep
      · next hp hs =>
          cases hstep
          exact h.race_started _ hp
      · next error hp hs =>
          cases hstep
          exact h.settle_start hs (.inr ⟨hp, error, rfl⟩) registered rfl
      · cases hstep
  | race_aborted =>
      obtain ⟨registered, hr⟩ := remove_abort_listener_eq h
      simp only [step, hr] at hstep
      split at hstep
      · next hp haborted =>
          cases hstep
          exact h.race_aborted hp haborted registered
      · cases hstep
  | late_start =>
      simp only [step] at hstep
      split at hstep
      · next handle hlate hs =>
          cases hstep
          exact h.late_start hlate hs (.inl ⟨handle, rfl, rfl⟩)
      · next error hlate hs =>
          cases hstep
          apply h.late_start hlate hs
          exact .inr ⟨⟨error, rfl⟩, h.uncleaned fun handle hno => nomatch hs.symm.trans hno⟩
      · cases hstep
  | aborted_awaited =>
      obtain ⟨registered, hr⟩ := remove_abort_listener_eq h
      simp only [step, hr] at hstep
      split at hstep
      · next handle hp haborted =>
          cases hstep
          exact h.aborted_awaited hp haborted registered
      · cases hstep
  | close_call =>
      obtain ⟨⟨handle, phase⟩, hc, hstep⟩ := Option.bind_eq_some_iff.mp hstep
      obtain ⟨c, hcall, rfl⟩ := Option.map_eq_some_iff.mp hstep
      cases phase with
      | queued =>
          cases hcall
          apply h.cleanup_moves hc nofun
          rw [h.closes, hc]
          rfl
      | called => cases hcall
      | settled result => cases hcall
  | close_settle result =>
      obtain ⟨c', hsettle, rfl⟩ := Option.map_eq_some_iff.mp hstep
      obtain ⟨⟨handle, phase⟩, hc, hsettle⟩ := Option.bind_eq_some_iff.mp hsettle
      cases phase with
      | queued => cases hsettle
      | called =>
          cases hsettle
          apply h.cleanup_moves hc nofun
          rw [h.closes, hc]
          rfl
      | settled result => cases hsettle
  | close_awaited =>
      simp only [step] at hstep
      split at hstep
      · next hp hc =>
          cases hstep
          exact h.close_awaited hp hc
      · cases hstep

/-! ## When nothing is left to run -/

/-- Once nothing more can happen, what was to be closed is closed. -/
theorem Kept.closes_of_quiet (h : Kept x) (hquiet : Quiet x) {c : Cleanup H E}
    (hc : x.cleanup = some c) : x.closes = [c.handle] := by
  obtain ⟨handle, phase⟩ := c
  rw [h.closes, hc]
  cases phase with
  | queued =>
      have hnone := hquiet .close_call rfl
      rw [step, hc] at hnone
      cases hnone
  | called => rfl
  | settled result => rfl

/-- The abort has reached the function. -/
theorem Kept.heard (h : Kept x) (hquiet : Quiet x) (hsignal : x.signal_aborted = true)
    (hp : x.phase = .racing ∨ ∃ handle, x.phase = .started handle) : x.aborted = true := by
  rcases h.listens hp with hlistening | haborted
  · have hnone := hquiet .on_abort rfl
    rw [step, hsignal, hlistening] at hnone
    cases hnone
  · exact haborted

/-- **An advertisement that is aborted is closed once**, whenever the start comes through. -/
theorem Kept.closes_once (h : Kept x) (hquiet : Quiet x) (hsignal : x.signal = true)
    (hsignal_aborted : x.signal_aborted = true) {handle : H}
    (hs : x.start = .settled (.ok handle) ∨ x.start = .observed (.ok handle)) :
    x.closes = [handle] := by
  -- the abort has been heard, so the race is over
  have hnot_racing : x.phase ≠ .racing := by
    intro hp
    have hnone := hquiet .race_aborted rfl
    simp only [step, hp, h.heard hquiet hsignal_aborted (.inl hp), reduceCtorEq] at hnone
  rcases hs with hs | hs
  · -- a handle that nobody has seen has its reaction in front of it
    rcases h.pending hsignal (.inr (.inr ⟨_, hs⟩)) with hp | hlate
    · exact absurd hp hnot_racing
    · have hnone := hquiet .late_start rfl
      simp only [step, hlate, hs, reduceCtorEq] at hnone
  · -- a handle that the caller has would still wait for the abort, which it has heard
    rcases h.observed handle hsignal hs with hp | ⟨c, hc, rfl⟩
    · have hnone := hquiet .aborted_awaited rfl
      simp only [step, hp, h.heard hquiet hsignal_aborted (.inr ⟨handle, hp⟩), reduceCtorEq] at hnone
    · exact h.closes_of_quiet hquiet hc

end Kept

/-- **A handle is closed once, after the abort.** Whatever the order of the abort, of the start and of
the microtasks, and whatever the callbacks do: the start is called once at most, and `close` once at most,
for the handle that the start gave and not before the abort. When an advertisement with a signal has been
aborted and nothing is left to run, the handle of a start that succeeded has been closed, also where the
caller was told before it came. The listener does not outlive the call, and the call fails only with the
error of the start or of the close. -/
theorem advertisement_closed_once (signal signal_aborted : Bool) {history : List (Label E H)}
    {x : Advertisement H E}
    (hrun : run step (run_discovery_advertisement signal signal_aborted) history = some x) :
    x.start_calls ≤ 1 ∧ x.closes.length ≤ 1 ∧
      (∀ handle ∈ x.closes, x.start = .observed (.ok handle) ∧ x.signal_aborted = true) ∧
      (x.signal = true → x.signal_aborted = true → Quiet x → ∀ handle,
        x.start = .settled (.ok handle) ∨ x.start = .observed (.ok handle) → x.closes = [handle]) ∧
      (∀ result, x.phase = .settled result → x.listening = false) ∧
      ∀ error, x.phase = .settled (.error error) → x.start = .observed (.error error) ∨
        ∃ handle, x.cleanup = some ⟨handle, .settled (.error error)⟩ := by
  have h : Kept x :=
    run_invariant (fun _ _ _ h hstep => kept_step h hstep) (kept_start signal signal_aborted) hrun
  have hcloses : x.closes.length ≤ 1 ∧
      ∀ handle ∈ x.closes, x.start = .observed (.ok handle) ∧ x.signal_aborted = true := by
    rw [h.closes]
    -- a cleanup that has not called `close` yet is like none
    rcases hc : x.cleanup with _ | ⟨handle, _ | _ | result⟩
    · exact ⟨Nat.zero_le _, nofun⟩
    · exact ⟨Nat.zero_le _, nofun⟩
    all_goals
      refine ⟨Nat.le_refl _, fun other hmem => ?_⟩
      rw [List.mem_singleton.mp hmem]
      exact ⟨(h.cleaned _ hc).1, h.aborted (h.cleaned _ hc).2.1⟩
  exact ⟨h.calls, hcloses.1, hcloses.2,
    fun hsignal hsignal_aborted hquiet _ hs => h.closes_once hquiet hsignal hsignal_aborted hs,
    h.silent, h.failed⟩

/-- The abort comes first: the caller is told, and the handle that comes later is closed. -/
theorem advertisement_closed_once_late : ∃ x : Advertisement ℕ String,
    run step (run_discovery_advertisement true false)
      [.start_call, .abort, .on_abort, .race_aborted, .start_settle (.ok 5), .late_start,
        .close_call] = some x ∧
      x.phase = .settled (.ok ()) ∧ x.closes = [5] ∧ x.start_calls ≤ 1 := by
  have hrun : run step (run_discovery_advertisement true false : Advertisement ℕ String)
      [.start_call, .abort, .on_abort, .race_aborted, .start_settle (.ok 5), .late_start,
        .close_call] = some _ := rfl
  exact ⟨_, hrun, rfl, rfl, (advertisement_closed_once true false hrun).1⟩

end Advertisement

end IrohHttp.DiscoveryAdvertisement
