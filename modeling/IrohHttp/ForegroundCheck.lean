/-
`installForegroundHealthCheck` of `guest-js/lifecycle.ts`: a sweep of probes when the document
comes to the foreground, and `onUnhealthy` when they have all failed.

A sweep is suspended at its probes and its backoffs, and events and `dispose` come in between. It
looks for `disposed` behind each suspension. `backoffMs` is a call into foreign code where it is
not suspended, and a backoff of zero has no such look behind it. That is no harm as long as
another probe follows, and one does if `maxRetries` is an integer.
-/
import IrohHttp.Machine
import IrohHttp.ServeOptions

set_option autoImplicit false

namespace IrohHttp.Foreground

open IrohHttp.Serve (F64)

/-! ## Numbers -/

/-- `attempt <= maxRetries` -/
def le_retries (attempt : ℕ) : F64 → Bool
  | .nan => false
  | .infinite negative => !negative
  | .finite q => (attempt : ℚ) ≤ q

/-- `attempt < maxRetries` -/
def lt_retries (attempt : ℕ) : F64 → Bool
  | .nan => false
  | .infinite negative => !negative
  | .finite q => (attempt : ℚ) < q

/-- `Math.max(0, delay) > 0` -/
def is_delay : F64 → Bool
  | .nan => false
  | .infinite negative => !negative
  | .finite q => 0 < q

/-! ## Sweeps -/

/-- Where a sweep is: at its probe, in `backoffMs`, in `waitForBackoff`, or over. -/
inductive Phase
  | probing
  | backing_off
  | waiting
  | over
  deriving DecidableEq, Repr

/-- One run of the handler, with the results of its probes. -/
structure Sweep where
  attempt : ℕ
  phase : Phase
  probes : List Bool
  deriving DecidableEq, Repr

/-- A call of `onUnhealthy`: by which sweep, and whether `dispose` had been called before. -/
structure Unhealthy where
  sweep : ℕ
  disposed : Bool
  deriving DecidableEq, Repr

/-- The check: its two flags, its sweeps, and what it has told of. -/
structure HealthCheck where
  running : Bool
  disposed : Bool
  sweeps : List Sweep
  unhealthy : List Unhealthy
  deriving DecidableEq, Repr

/-- The check is installed; without `enabled` or a document there is none. -/
def HealthCheck.init : HealthCheck := ⟨false, false, [], []⟩

/-- A probe that throws or rejects has failed. A wait ends with its timer or with `dispose`. -/
inductive Label
  | event (visible : Bool)
  | probe_settles (i : ℕ) (healthy : Bool)
  | backoff_returns (i : ℕ) (delay : Option F64)
  | wake (i : ℕ)
  | dispose
  deriving DecidableEq

namespace HealthCheck

variable (maxRetries : F64)

/-- A sweep goes on. -/
def set (s : HealthCheck) (i : ℕ) (sweep : Sweep) : HealthCheck :=
  { s with sweeps := s.sweeps.set i sweep }

/-- The `finally` block. -/
def leave (s : HealthCheck) (i : ℕ) (sweep : Sweep) : HealthCheck :=
  { s.set i { sweep with phase := .over } with running := false }

/-- `dispose(); onUnhealthy();` -/
def hand_off (s : HealthCheck) (i : ℕ) (sweep : Sweep) : HealthCheck :=
  { s.leave i sweep with disposed := true, unhealthy := s.unhealthy ++ [⟨i, s.disposed⟩] }

/-- The head of the loop. -/
def turn (s : HealthCheck) (i : ℕ) (sweep : Sweep) : HealthCheck :=
  if le_retries sweep.attempt maxRetries then s.set i { sweep with phase := .probing }
  else s.hand_off i sweep

/-- The handler of a visibility event: a sweep at a time, and none once it is disposed. -/
def handler (s : HealthCheck) (visible : Bool) : HealthCheck :=
  if s.disposed || !visible || s.running then s
  else
    let sweep : Sweep := ⟨1, .probing, []⟩
    turn maxRetries { s with running := true, sweeps := s.sweeps ++ [sweep] } s.sweeps.length sweep

/-- Behind `await probe()`. -/
def probed (s : HealthCheck) (i : ℕ) (sweep : Sweep) (healthy : Bool) : HealthCheck :=
  let sweep := { sweep with probes := sweep.probes ++ [healthy] }
  if s.disposed then s.leave i sweep
  else if healthy then s.leave i sweep
  else if lt_retries sweep.attempt maxRetries then s.set i { sweep with phase := .backing_off }
  else s.turn maxRetries i { sweep with attempt := sweep.attempt + 1 }

/-- Behind `backoffMs(attempt)`, which may throw. -/
def backed_off (s : HealthCheck) (i : ℕ) (sweep : Sweep) (delay : Option F64) : HealthCheck :=
  match delay with
  | none => s.leave i sweep
  | some delay =>
    if is_delay delay then s.set i { sweep with phase := .waiting }
    else s.turn maxRetries i { sweep with attempt := sweep.attempt + 1 }

/-- Behind `await waitForBackoff(delay)`. -/
def woken (s : HealthCheck) (i : ℕ) (sweep : Sweep) : HealthCheck :=
  if s.disposed then s.leave i sweep
  else s.turn maxRetries i { sweep with attempt := sweep.attempt + 1 }

/-- A step of sweep `i`, where it is in this phase. -/
def resume (s : HealthCheck) (i : ℕ) (phase : Phase) (f : Sweep → HealthCheck) :
    Option HealthCheck :=
  (s.sweeps[i]?).bind fun sweep => if sweep.phase = phase then some (f sweep) else none

/-- One step, `none` where the label is not enabled. -/
def step (s : HealthCheck) : Label → Option HealthCheck
  | .event visible => some (s.handler maxRetries visible)
  | .probe_settles i healthy => s.resume i .probing fun sweep => s.probed maxRetries i sweep healthy
  | .backoff_returns i delay =>
    s.resume i .backing_off fun sweep => s.backed_off maxRetries i sweep delay
  | .wake i => s.resume i .waiting fun sweep => s.woken maxRetries i sweep
  | .dispose => some { s with disposed := true }

end HealthCheck

/-! ## What a call of `onUnhealthy` needs -/

/-- The sweep made at least one probe, as many as `maxRetries` says, and every one failed. -/
structure Failed (maxRetries : F64) (sweep : Sweep) : Prop where
  probed : sweep.probes ≠ []
  failed : ∀ healthy ∈ sweep.probes, healthy = false
  all : le_retries sweep.probes.length maxRetries = true ∧
    le_retries (sweep.probes.length + 1) maxRetries = false

/-- Recovery fires only on evidence: one sweep at a time, one call at most and none behind a
disposal, and only for a sweep that has failed. -/
structure Evidence (maxRetries : F64) (s : HealthCheck) : Prop where
  single : ∀ (i j : ℕ) (a b : Sweep), s.sweeps[i]? = some a → s.sweeps[j]? = some b →
    a.phase ≠ .over → b.phase ≠ .over → i = j
  once : s.unhealthy.length ≤ 1
  alive : ∀ u ∈ s.unhealthy, u.disposed = false
  failed : ∀ u ∈ s.unhealthy, ∃ sweep, s.sweeps[u.sweep]? = some sweep ∧ Failed maxRetries sweep

/-- A positive integer, or infinity. -/
def IsCount : F64 → Prop
  | .nan => False
  | .infinite negative => negative = false
  | .finite q => 1 ≤ q ∧ q.den = 1

/-! ## The invariant -/

section

variable {maxRetries : F64}

/-- What a sweep has done so far: its probes, all failed, count its attempts. -/
structure Sweep.Ok (maxRetries : F64) (sweep : Sweep) : Prop where
  failed : ∀ healthy ∈ sweep.probes, healthy = false
  within : le_retries sweep.attempt maxRetries = true
  probing : sweep.phase = .probing → sweep.probes.length + 1 = sweep.attempt
  paused : sweep.phase ≠ .probing → sweep.probes.length = sweep.attempt ∧
    lt_retries sweep.attempt maxRetries = true

/-- A sweep before its next turn of the loop. -/
structure Sweep.Turns (maxRetries : F64) (sweep : Sweep) : Prop where
  failed : ∀ healthy ∈ sweep.probes, healthy = false
  count : sweep.probes.length + 1 = sweep.attempt
  before : sweep.probes ≠ [] → le_retries sweep.probes.length maxRetries = true

/-- The invariant: one sweep at a time, each with the probes it has made, and one verdict. -/
structure Inv (maxRetries : F64) (s : HealthCheck) : Prop where
  /-- A sweep that is not over is the last, and holds the flag. -/
  last : ∀ (i : ℕ) (a : Sweep), s.sweeps[i]? = some a → a.phase ≠ .over →
    s.running = true ∧ i + 1 = s.sweeps.length
  ok : ∀ sweep ∈ s.sweeps, sweep.phase ≠ .over → sweep.Ok maxRetries
  handed : s.unhealthy ≠ [] → s.disposed = true ∧ ∀ sweep ∈ s.sweeps, sweep.phase = .over
  evidence : Evidence maxRetries s

theorem inv_init (maxRetries : F64) : Inv maxRetries HealthCheck.init where
  last _ _ h := by cases h
  ok _ h := absurd h List.not_mem_nil
  handed h := absurd rfl h
  evidence :=
    { single := fun _ _ _ _ h => by cases h
      once := Nat.zero_le _
      alive := fun _ h => absurd h List.not_mem_nil
      failed := fun _ h => absurd h List.not_mem_nil }

/-- Sweep `i` runs, so `onUnhealthy` has not been called. -/
theorem Inv.quiet {s : HealthCheck} (h : Inv maxRetries s) {i : ℕ} {a : Sweep}
    (ha : s.sweeps[i]? = some a) (hphase : a.phase ≠ .over) : s.unhealthy = [] := by
  by_contra hne
  exact hphase ((h.handed hne).2 a (List.mem_of_getElem? ha))

/-- The last sweep goes on. -/
theorem Inv.set {s : HealthCheck} (h : Inv maxRetries s) {i : ℕ} {a b : Sweep}
    (ha : s.sweeps[i]? = some a) (hphase : a.phase ≠ .over)
    (hb : b.phase ≠ .over → b.Ok maxRetries) : Inv maxRetries (s.set i b) := by
  have hlt := (List.getElem?_eq_some_iff.mp ha).1
  have hquiet := h.quiet ha hphase
  have hlast : ∀ (j : ℕ) (c : Sweep), (s.sweeps.set i b)[j]? = some c → c.phase ≠ .over →
      s.running = true ∧ j + 1 = s.sweeps.length := by
    intro j c hc hrunning
    by_cases hij : i = j
    · rw [← hij]
      exact h.last i a ha hphase
    · rw [List.getElem?_set_ne hij] at hc
      exact h.last j c hc hrunning
  refine ⟨?_, ?_, fun hne => absurd hquiet hne, ?_⟩
  · intro j c hc hrunning
    rw [HealthCheck.set, List.length_set]
    exact hlast j c hc hrunning
  · intro c hc hrunning
    rcases List.mem_or_eq_of_mem_set hc with hc | rfl
    · exact h.ok c hc hrunning
    · exact hb hrunning
  · refine { single := ?_, once := h.evidence.once, alive := h.evidence.alive, failed := ?_ }
    · intro j k c d hc hd hcp hdp
      have hj := (hlast j c hc hcp).2
      have hk := (hlast k d hd hdp).2
      omega
    · intro u hu
      rw [HealthCheck.set, hquiet] at hu
      exact absurd hu List.not_mem_nil

/-- The last sweep ends; the flag is free. -/
theorem Inv.leave {s : HealthCheck} (h : Inv maxRetries s) {i : ℕ} {a b : Sweep}
    (ha : s.sweeps[i]? = some a) (hphase : a.phase ≠ .over) : Inv maxRetries (s.leave i b) := by
  have hset := h.set ha hphase (b := { b with phase := .over }) fun hno => absurd rfl hno
  have hover : ∀ c ∈ (s.set i { b with phase := .over }).sweeps, c.phase = .over := by
    intro c hc
    by_contra hno
    obtain ⟨j, hj⟩ := List.mem_iff_getElem?.mp hc
    have hj_last := (hset.last j c hj hno).2
    have hi_last := (h.last i a ha hphase).2
    have hlt := (List.getElem?_eq_some_iff.mp ha).1
    rw [HealthCheck.set, List.length_set] at hj_last
    have hij : i = j := by omega
    subst hij
    rw [HealthCheck.set, List.getElem?_set_self hlt] at hj
    rw [← Option.some.inj hj] at hno
    exact hno rfl
  refine ⟨?_, hset.ok, fun hne => ⟨(hset.handed hne).1, hover⟩, ?_⟩
  · intro j c hc hno
    exact absurd (hover c (List.mem_of_getElem? hc)) hno
  · exact { single := hset.evidence.single, once := hset.evidence.once,
            alive := hset.evidence.alive, failed := hset.evidence.failed }

/-- The hand-off: nobody has disposed of the check, and the sweep has failed. -/
theorem Inv.hand_off {s : HealthCheck} (h : Inv maxRetries s) {i : ℕ} {a b : Sweep}
    (ha : s.sweeps[i]? = some a) (hphase : a.phase ≠ .over) (halive : s.disposed = false)
    (hfailed : Failed maxRetries b) : Inv maxRetries (s.hand_off i b) := by
  have hleave := h.leave (b := b) ha hphase
  have hlt := (List.getElem?_eq_some_iff.mp ha).1
  have hquiet := h.quiet ha hphase
  have hover : ∀ c ∈ (s.leave i b).sweeps, c.phase = .over := by
    intro c hc
    by_contra hno
    obtain ⟨j, hj⟩ := List.mem_iff_getElem?.mp hc
    have hflag := (hleave.last j c hj hno).1
    cases hflag
  refine ⟨?_, hleave.ok, fun _ => ⟨rfl, hover⟩, ?_⟩
  · intro j c hc hno
    exact absurd (hover c (List.mem_of_getElem? hc)) hno
  · have hcalls : (s.hand_off i b).unhealthy = [⟨i, false⟩] := by
      rw [HealthCheck.hand_off, hquiet, halive]
      rfl
    refine { single := hleave.evidence.single, once := ?_, alive := ?_, failed := ?_ }
    · rw [hcalls]
      exact Nat.le_refl 1
    · intro u hu
      rw [hcalls, List.mem_singleton] at hu
      rw [hu]
    · intro u hu
      rw [hcalls, List.mem_singleton] at hu
      refine ⟨{ b with phase := .over }, ?_, ⟨hfailed.probed, hfailed.failed, hfailed.all⟩⟩
      rw [hu]
      exact List.getElem?_set_self hlt

/-- A turn of the loop. Only a sweep with probes behind it may get to its end. -/
theorem Inv.turn {s : HealthCheck} (h : Inv maxRetries s) {i : ℕ} {a b : Sweep}
    (ha : s.sweeps[i]? = some a) (hphase : a.phase ≠ .over) (hb : b.Turns maxRetries)
    (hend : le_retries b.attempt maxRetries = false → s.disposed = false ∧ b.probes ≠ []) :
    Inv maxRetries (s.turn maxRetries i b) := by
  unfold HealthCheck.turn
  by_cases hle : le_retries b.attempt maxRetries = true
  · rw [if_pos hle]
    refine h.set ha hphase fun _ => ⟨hb.failed, hle, fun _ => hb.count, fun hno => absurd rfl hno⟩
  · rw [if_neg hle]
    rw [Bool.not_eq_true] at hle
    obtain ⟨halive, hprobed⟩ := hend hle
    refine h.hand_off ha hphase halive ⟨hprobed, hb.failed, hb.before hprobed, ?_⟩
    rw [hb.count]
    exact hle

/-- An integer above an attempt is at least the next one. -/
theorem le_of_lt_retries (hcount : IsCount maxRetries) {attempt : ℕ}
    (h : lt_retries attempt maxRetries = true) : le_retries (attempt + 1) maxRetries = true := by
  cases maxRetries with
  | nan => cases h
  | infinite negative => exact h
  | finite q =>
      obtain ⟨m, rfl⟩ : ∃ m : ℤ, (m : ℚ) = q := ⟨q.num, Rat.coe_int_num_of_den_eq_one hcount.2⟩
      have hlt : ((attempt : ℕ) : ℚ) < m := of_decide_eq_true h
      have hint : (attempt : ℤ) < m := by exact_mod_cast hlt
      apply decide_eq_true
      have hle : (attempt : ℤ) + 1 ≤ m := hint
      exact_mod_cast hle

/-- The first probe is always allowed. -/
theorem one_le_retries (hcount : IsCount maxRetries) : le_retries 1 maxRetries = true := by
  cases maxRetries with
  | nan => exact absurd hcount id
  | infinite negative =>
      have hpos : negative = false := hcount
      rw [hpos]
      rfl
  | finite q =>
      apply decide_eq_true
      rw [Nat.cast_one]
      exact hcount.1

/-- An event begins a sweep when none is under way. -/
theorem Inv.event {s : HealthCheck} (h : Inv maxRetries s) (hcount : IsCount maxRetries)
    (visible : Bool) : Inv maxRetries (s.handler maxRetries visible) := by
  unfold HealthCheck.handler
  by_cases hskip : (s.disposed || !visible || s.running) = true
  · rw [if_pos hskip]
    exact h
  · rw [if_neg hskip]
    simp only [Bool.or_eq_true, not_or, Bool.not_eq_true] at hskip
    obtain ⟨⟨halive, -⟩, hrunning⟩ := hskip
    have hover : ∀ sweep ∈ s.sweeps, sweep.phase = .over := by
      intro a ha
      by_contra hno
      obtain ⟨i, hi⟩ := List.mem_iff_getElem?.mp ha
      have hflag := (h.last i a hi hno).1
      rw [hrunning] at hflag
      cases hflag
    have hquiet : s.unhealthy = [] := by
      by_contra hne
      have hdisposed := (h.handed hne).1
      rw [halive] at hdisposed
      cases hdisposed
    rw [HealthCheck.turn, if_pos (one_le_retries hcount), HealthCheck.set]
    -- the sweep is in its place already
    have hsame : (s.sweeps ++ [(⟨1, .probing, []⟩ : Sweep)]).set s.sweeps.length ⟨1, .probing, []⟩
        = s.sweeps ++ [⟨1, .probing, []⟩] := by
      rw [List.set_append_right _ _ (Nat.le_refl _), Nat.sub_self]
      rfl
    dsimp only
    rw [hsame]
    have hlast : ∀ (j : ℕ) (c : Sweep), (s.sweeps ++ [⟨1, .probing, []⟩])[j]? = some c →
        c.phase ≠ .over → j + 1 = (s.sweeps ++ [(⟨1, .probing, []⟩ : Sweep)]).length := by
      intro j c hc hno
      rw [List.length_append, List.length_singleton]
      by_cases hlt : j < s.sweeps.length
      · rw [List.getElem?_append_left hlt] at hc
        exact absurd (hover c (List.mem_of_getElem? hc)) hno
      · have hj := (List.getElem?_eq_some_iff.mp hc).1
        rw [List.length_append, List.length_singleton] at hj
        omega
    refine ⟨fun j c hc hno => ⟨rfl, hlast j c hc hno⟩, ?_, fun hne => absurd hquiet hne, ?_⟩
    · intro c hc hno
      rcases List.mem_append.mp hc with hc | hc
      · exact absurd (hover c hc) hno
      · rw [List.mem_singleton.mp hc]
        exact ⟨fun _ hr => absurd hr List.not_mem_nil, one_le_retries hcount, fun _ => rfl,
          fun hno => absurd rfl hno⟩
    · refine { single := ?_, once := h.evidence.once, alive := h.evidence.alive, failed := ?_ }
      · intro j k c d hc hd hcp hdp
        have hj := hlast j c hc hcp
        have hk := hlast k d hd hdp
        omega
      · intro u hu
        dsimp only at hu
        rw [hquiet] at hu
        exact absurd hu List.not_mem_nil

/-- Behind a probe. -/
theorem Inv.probed {s : HealthCheck} (h : Inv maxRetries s) {i : ℕ} {a : Sweep}
    (ha : s.sweeps[i]? = some a) (hphase : a.phase = .probing) (healthy : Bool) :
    Inv maxRetries (s.probed maxRetries i a healthy) := by
  have hactive : a.phase ≠ .over := by
    rw [hphase]
    exact fun hno => by cases hno
  have hok := h.ok a (List.mem_of_getElem? ha) hactive
  have hlength := hok.probing hphase
  unfold HealthCheck.probed
  by_cases hdisposed : s.disposed = true
  · rw [if_pos hdisposed]
    exact h.leave ha hactive
  · rw [if_neg hdisposed]
    cases healthy with
    | true => exact h.leave ha hactive
    | false =>
        rw [if_neg Bool.false_ne_true]
        have hfailed : ∀ r ∈ a.probes ++ [false], r = false := by
          intro r hr
          rcases List.mem_append.mp hr with hr | hr
          · exact hok.failed r hr
          · exact List.mem_singleton.mp hr
        have hcount : (a.probes ++ [false]).length = a.attempt := by
          rw [List.length_append, List.length_singleton]
          exact hlength
        by_cases hlt : lt_retries a.attempt maxRetries = true
        · dsimp only
          rw [if_pos hlt]
          refine h.set ha hactive fun _ => ⟨hfailed, hok.within, (fun hno => by cases hno), fun _ => ?_⟩
          exact ⟨hcount, hlt⟩
        · dsimp only
          rw [if_neg hlt]
          have hne : a.probes ++ [false] ≠ [] := List.append_ne_nil_of_right_ne_nil _ (List.cons_ne_nil _ _)
          refine h.turn ha hactive ⟨hfailed, congrArg Nat.succ hcount, fun _ => ?_⟩ fun _ => ?_
          · rw [hcount]
            exact hok.within
          · exact ⟨Bool.not_eq_true _ ▸ hdisposed, hne⟩

/-- Another turn behind a pause: `maxRetries` has room for its probe. -/
theorem Inv.next {s : HealthCheck} (h : Inv maxRetries s) (hcount : IsCount maxRetries) {i : ℕ}
    {a : Sweep} (ha : s.sweeps[i]? = some a) (hactive : a.phase ≠ .over)
    (hpaused : a.phase ≠ .probing) :
    Inv maxRetries (s.turn maxRetries i { a with attempt := a.attempt + 1 }) := by
  have hok := h.ok a (List.mem_of_getElem? ha) hactive
  obtain ⟨hlength, hlt⟩ := hok.paused hpaused
  refine h.turn ha hactive ⟨hok.failed, congrArg Nat.succ hlength, fun _ => ?_⟩ fun hno => ?_
  · dsimp only
    rw [hlength]
    exact hok.within
  · dsimp only at hno
    rw [le_of_lt_retries hcount hlt] at hno
    cases hno

/-- **One step** keeps the invariant. -/
theorem inv_step (hcount : IsCount maxRetries) {s s' : HealthCheck} {label : Label}
    (h : Inv maxRetries s) (hstep : s.step maxRetries label = some s') : Inv maxRetries s' := by
  cases label with
  | event visible =>
      obtain rfl := Option.some.inj hstep
      exact h.event hcount visible
  | probe_settles i healthy =>
      obtain ⟨a, ha, hrest⟩ := Option.bind_eq_some_iff.mp hstep
      split at hrest
      · next hphase =>
        obtain rfl := Option.some.inj hrest
        exact h.probed ha hphase healthy
      · cases hrest
  | backoff_returns i delay =>
      obtain ⟨a, ha, hrest⟩ := Option.bind_eq_some_iff.mp hstep
      split at hrest
      · next hphase =>
        obtain rfl := Option.some.inj hrest
        have hactive : a.phase ≠ .over := by
          rw [hphase]
          exact fun hno => by cases hno
        have hpaused : a.phase ≠ .probing := by
          rw [hphase]
          exact fun hno => by cases hno
        cases delay with
        | none => exact h.leave ha hactive
        | some delay =>
            simp only [HealthCheck.backed_off]
            split
            · have hok := h.ok a (List.mem_of_getElem? ha) hactive
              exact h.set ha hactive fun _ =>
                ⟨hok.failed, hok.within, (fun hno => by cases hno), fun _ => hok.paused hpaused⟩
            · exact h.next hcount ha hactive hpaused
      · cases hrest
  | wake i =>
      obtain ⟨a, ha, hrest⟩ := Option.bind_eq_some_iff.mp hstep
      split at hrest
      · next hphase =>
        obtain rfl := Option.some.inj hrest
        have hactive : a.phase ≠ .over := by
          rw [hphase]
          exact fun hno => by cases hno
        have hpaused : a.phase ≠ .probing := by
          rw [hphase]
          exact fun hno => by cases hno
        unfold HealthCheck.woken
        split
        · exact h.leave ha hactive
        · exact h.next hcount ha hactive hpaused
      · cases hrest
  | dispose =>
      obtain rfl := Option.some.inj hstep
      exact ⟨h.last, h.ok, fun hne => ⟨rfl, (h.handed hne).2⟩,
        { single := h.evidence.single, once := h.evidence.once, alive := h.evidence.alive,
          failed := h.evidence.failed }⟩

/-! ## Where the evidence fails -/

/-- Without room for one probe an event is enough. -/
theorem not_evidence_of_none (h : le_retries 1 maxRetries = false) :
    ∃ t, Machine.run (HealthCheck.step maxRetries) HealthCheck.init [.event true] = some t ∧
      ¬ Evidence maxRetries t := by
  have hhandler : HealthCheck.init.handler maxRetries true
      = ⟨false, true, [⟨1, .over, []⟩], [⟨0, false⟩]⟩ := by
    simp only [HealthCheck.handler, HealthCheck.init, HealthCheck.turn, h]
    rfl
  refine ⟨_, rfl, fun hevidence => ?_⟩
  rw [hhandler] at hevidence
  obtain ⟨sweep, hsweep, hfailed⟩ := hevidence.failed ⟨0, false⟩ (List.mem_singleton_self _)
  rw [← Option.some.inj hsweep] at hfailed
  exact hfailed.probed rfl

/-- The first sweep at its attempt, after failures only. -/
def at_attempt (attempt : ℕ) : HealthCheck :=
  ⟨true, false, [⟨attempt + 1, .probing, List.replicate attempt false⟩], []⟩

/-- The same in `backoffMs`. -/
def at_backoff (disposed : Bool) (attempt : ℕ) : HealthCheck :=
  ⟨true, disposed, [⟨attempt + 1, .backing_off, List.replicate (attempt + 1) false⟩], []⟩

/-- A probe that fails with attempts left goes into its backoff. -/
theorem probe_fails {attempt : ℕ} (h : lt_retries (attempt + 1) maxRetries = true) :
    (at_attempt attempt).step maxRetries (.probe_settles 0 false) = some
    (at_backoff false attempt) := by
  simp only [at_attempt, HealthCheck.step, HealthCheck.resume, List.getElem?_cons_zero,
    Option.bind_some, HealthCheck.probed, h, if_true, Bool.false_eq_true, if_false]
  rw [at_backoff, List.replicate_succ', HealthCheck.set, List.set_cons_zero]

/-- A backoff of nothing leads to the next probe, as long as there is one. -/
theorem backoff_skipped {attempt : ℕ} (h : le_retries (attempt + 2) maxRetries = true) :
    (at_backoff false attempt).step maxRetries (.backoff_returns 0 (some (.finite 0)))
      = some (at_attempt (attempt + 1)) := by
  have hskip : is_delay (.finite 0) = false := by decide
  simp only [at_backoff, HealthCheck.step, HealthCheck.resume, List.getElem?_cons_zero,
    Option.bind_some, HealthCheck.backed_off, hskip, Bool.false_eq_true, if_false, if_true,
    HealthCheck.turn, h]
  rfl

/-- Every attempt that the option allows is reached. -/
theorem reaches_attempt {q : ℚ} {attempt : ℕ} (h : ((attempt + 1 : ℕ) : ℚ) ≤ q) :
    ∃ l, Machine.run (HealthCheck.step (.finite q)) HealthCheck.init l = some (at_attempt attempt) := by
  induction attempt with
  | zero =>
      refine ⟨[.event true], ?_⟩
      have hone : le_retries 1 (.finite q) = true := decide_eq_true h
      simp only [Machine.run, HealthCheck.step, HealthCheck.handler, HealthCheck.init,
        HealthCheck.turn, hone, Option.bind_some]
      rfl
  | succ attempt ih =>
      have hlt : ((attempt + 1 : ℕ) : ℚ) < q := by
        refine lt_of_lt_of_le ?_ h
        exact_mod_cast Nat.lt_succ_self (attempt + 1)
      obtain ⟨l, hl⟩ := ih hlt.le
      refine ⟨(l ++ [.probe_settles 0 false]) ++ [.backoff_returns 0 (some (.finite 0))], ?_⟩
      apply Machine.run_append_singleton (Machine.run_append_singleton hl (probe_fails (decide_eq_true hlt)))
      exact backoff_skipped (decide_eq_true h)

/-- Between two integers the last backoff has no probe behind it: a check that is disposed of in
`backoffMs` calls `onUnhealthy` all the same. -/
theorem not_evidence_of_fraction {q : ℚ} (hone : 1 ≤ q) (hden : q.den ≠ 1) :
    ∃ l t, Machine.run (HealthCheck.step (.finite q)) HealthCheck.init l = some t ∧
      ¬ Evidence (.finite q) t := by
  obtain ⟨k, hk⟩ : ∃ k, ⌊q⌋₊ = k + 1 := by
    have hpos : 1 ≤ ⌊q⌋₊ := Nat.le_floor (by rw [Nat.cast_one]; exact hone)
    exact ⟨⌊q⌋₊ - 1, by omega⟩
  have hfloor : ((k + 1 : ℕ) : ℚ) ≤ q := hk ▸ Nat.floor_le (le_trans zero_le_one hone)
  have hceil : q < ((k + 2 : ℕ) : ℚ) := by
    have hlt := Nat.lt_floor_add_one q
    rw [hk] at hlt
    exact_mod_cast hlt
  have hlt : ((k + 1 : ℕ) : ℚ) < q := by
    refine lt_of_le_of_ne hfloor fun heq => hden ?_
    rw [← heq]
    exact Rat.den_natCast _
  obtain ⟨l, hl⟩ := reaches_attempt hfloor
  have hbackoff := Machine.run_append_singleton hl (probe_fails (decide_eq_true hlt))
  have hdispose : (at_backoff false k).step (.finite q) .dispose = some (at_backoff true k) := rfl
  have hend : le_retries (k + 2) (.finite q) = false := decide_eq_false (not_le.mpr hceil)
  have hskip : is_delay (.finite 0) = false := by decide
  have hcalled : (at_backoff true k).step (.finite q) (.backoff_returns 0 (some (.finite 0)))
      = some ⟨false, true, [⟨k + 2, .over, List.replicate (k + 1) false⟩], [⟨0, true⟩]⟩ := by
    simp only [at_backoff, HealthCheck.step, HealthCheck.resume, List.getElem?_cons_zero,
      Option.bind_some, HealthCheck.backed_off, hskip, Bool.false_eq_true, if_false, if_true,
      HealthCheck.turn, hend]
    rfl
  refine ⟨_, _, Machine.run_append_singleton (Machine.run_append_singleton hbackoff hdispose) hcalled, ?_⟩
  intro hevidence
  exact Bool.noConfusion (hevidence.alive ⟨0, true⟩ (List.mem_singleton_self _))

/-- **Recovery fires only on evidence**, whatever the probes, the backoffs, the events and the
disposals are, exactly when `maxRetries` is a positive integer or infinite. -/
theorem evidence_iff (maxRetries : F64) :
    (∀ l t, Machine.run (HealthCheck.step maxRetries) HealthCheck.init l = some t →
      Evidence maxRetries t) ↔ IsCount maxRetries := by
  constructor
  · intro hall
    by_contra hcount
    have hsome : ∃ l t, Machine.run (HealthCheck.step maxRetries) HealthCheck.init l = some t ∧
        ¬ Evidence maxRetries t := by
      by_cases hnone : le_retries 1 maxRetries = false
      · obtain ⟨t, ht⟩ := not_evidence_of_none hnone
        exact ⟨_, t, ht⟩
      · rw [Bool.not_eq_false] at hnone
        cases maxRetries with
        | nan => cases hnone
        | infinite negative =>
            cases negative with
            | false => exact absurd rfl hcount
            | true => cases hnone
        | finite q =>
            have hone : 1 ≤ q := by
              have hle := of_decide_eq_true hnone
              rw [Nat.cast_one] at hle
              exact hle
            exact not_evidence_of_fraction hone fun hden => hcount ⟨hone, hden⟩
    obtain ⟨l, t, hrun, hno⟩ := hsome
    exact hno (hall l t hrun)
  · intro hcount l t hrun
    have hinv := Machine.run_invariant (fun _ _ _ h hs => inv_step hcount h hs) (inv_init maxRetries) hrun
    exact hinv.evidence

end

/-- With `maxRetries` zero the first event tears the node down, without a probe. -/
theorem no_retries_no_probe :
    ¬ ∀ maxRetries l t, Machine.run (HealthCheck.step maxRetries) HealthCheck.init l = some t →
      Evidence maxRetries t := by
  intro h
  obtain ⟨t, hrun, hno⟩ := not_evidence_of_none (show le_retries 1 (.finite 0) = false by decide)
  exact hno (h (.finite 0) _ t hrun)

end IrohHttp.Foreground
