/-
The serve loop of a connection and the runtime's shutdown,
`iroh-http-core/src/http/server/connection.rs`.

`serve_validated` accepts the streams of one connection, spawns a request task
for each into a `JoinSet`, and leaves its loop when the runtime is closed, when
the peer is gone or when the connection was idle. It then reads `close_flag`
once, aborts what is left if the drain had expired, and joins every task.
`ConnectionServeRuntime::shutdown` stops admission, waits for the deliveries,
stores the outcome, sets `close_flag` and wakes the loops.

`ServeRuntime` is any number of these loops beside one shutdown, one load, store
or poll a step. `try_admit` and `stop` are one step each: the gate they share makes
them so (`StreamAdmission.lean`).

The point is what an expired drain does to the tasks of a loop that has already
made its one check.
-/
import IrohHttp.Machine
import Mathlib.Algebra.GroupWithZero.Nat

set_option autoImplicit false

open Machine

namespace IrohHttp.Serve

/-! ## The loop -/

/-- Why serving one already-negotiated connection ended. -/
inductive ConnectionServeEnd
  | peer_closed
  | idle_timeout
  | shutdown
  deriving DecidableEq, Repr

/-- `ConnectionServeResult`: how a connection ended, and whether its requests were drained. -/
structure ConnectionServeResult where
  end_ : ConnectionServeEnd
  drained : Bool
  deriving DecidableEq, Repr

/-- A task of the `JoinSet`. It holds its delivery until it has `ended`, by
itself or because it was `aborted`. -/
structure RequestTask where
  aborted : Bool
  ended : Bool
  deriving DecidableEq, Repr

/-- Where the loop is. `poll_close` to `poll_idle` are the branches of the biased
`select!`, in its order; `left` is behind the loop, at the check of `close_flag`,
and `flagged` behind that check when the flag was set. `noticed` has read the
flag for the result. -/
inductive LoopPhase
  | top
  | registered
  | loaded
  | waiting
  | poll_close
  | poll_join
  | poll_accept
  | poll_idle
  | accepted
  | admitted
  | left
  | flagged
  | joining
  | joined
  | noticed
  | returned (result : ConnectionServeResult)
  deriving DecidableEq, Repr

/-- `close` says whether the `close` future of this iteration is ready, and
`aborted` that the loop aborted a task that had not ended. -/
structure ServeLoop where
  phase : LoopPhase
  close : Bool
  requests : List RequestTask
  end_ : ConnectionServeEnd
  aborted : Bool
  deriving DecidableEq, Repr

/-- The loop of a connection that was just admitted. -/
def ServeLoop.new : ServeLoop where
  phase := .top
  close := false
  requests := []
  end_ := .peer_closed
  aborted := false

/-- `JoinSet::abort_all`: what has ended is left alone. -/
def abort_all (requests : List RequestTask) : List RequestTask :=
  requests.map fun t => if t.ended then t else { t with aborted := true }

/-- What the loops and shutdown share. -/
structure ServeFlags where
  stopped : Bool
  drained : Bool
  close_flag : Bool
  deriving DecidableEq, Repr

/-- The loop's next operation, where nothing outside decides it. -/
def ServeLoop.advance (f : ServeFlags) (c : ServeLoop) : Option ServeLoop :=
  match c.phase with
  -- `enable` registers the waiter before the flag is loaded
  | .top => some { c with phase := .registered, close := false }
  | .registered => some { c with phase := if f.close_flag then .left else .loaded }
  | .loaded => some { c with phase := if f.stopped then .waiting else .poll_close }
  -- a stopped runtime accepts nothing, and joins nothing before the close either
  | .waiting => if c.close then some { c with phase := .top } else none
  -- the arms of the `select!`, in their biased order
  | .poll_close => some { c with phase := if c.close then .top else .poll_join }
  | .poll_join =>
    if c.requests.any (·.ended) then none else some { c with phase := .poll_accept }
  | .accepted => some { c with phase := if f.stopped then .top else .admitted }
  | .admitted => some { c with phase := .top, requests := c.requests ++ [⟨false, false⟩] }
  -- the one check of the flag before the join
  | .left => some { c with phase := if f.close_flag then .flagged else .joining }
  | .flagged =>
    if f.drained then some { c with phase := .joining }
    else some { c with
      phase := .joining
      requests := abort_all c.requests
      aborted := c.aborted || c.requests.any (!·.ended) }
  | .joining => if c.requests.isEmpty then some { c with phase := .joined } else none
  -- the flag is loaded again for the result, and may have been set since
  | .joined =>
    some { c with phase := if f.close_flag then .noticed else .returned ⟨c.end_, true⟩ }
  | .noticed => some { c with phase := .returned ⟨.shutdown, f.drained⟩ }
  | .poll_accept => none
  | .poll_idle => none
  | .returned _ => none

/-- `join_next` yields the `j`-th task, in the `select!` or behind the loop. -/
def ServeLoop.join (j : ℕ) (c : ServeLoop) : Option ServeLoop :=
  if (c.requests[j]?.map (·.ended)).getD false then
    match c.phase with
    | .poll_join => some { c with phase := .top, requests := c.requests.eraseIdx j }
    | .joining => some { c with requests := c.requests.eraseIdx j }
    | _ => none
  else none

/-- What `accept_bi` answers to a poll. -/
inductive Accepted
  | pending
  | stream
  | closed
  deriving DecidableEq, Repr

/-- The poll of `accept_bi`: nothing yet, a stream, or the end of the connection. -/
def ServeLoop.accept (a : Accepted) (c : ServeLoop) : Option ServeLoop :=
  match c.phase with
  | .poll_accept =>
    match a with
    | .pending => some { c with phase := .poll_idle }
    | .stream => some { c with phase := .accepted }
    | .closed => some { c with phase := .left }
  | _ => none

/-- The idle timer is polled only while no request is in flight. -/
def ServeLoop.idle (elapsed : Bool) (c : ServeLoop) : Option ServeLoop :=
  match c.phase with
  | .poll_idle =>
    if elapsed && c.requests.isEmpty then some { c with phase := .left, end_ := .idle_timeout }
    else some { c with phase := .poll_close }
  | _ => none

/-- The `j`-th task ends: it is through, or its abort has come to it. -/
def ServeLoop.finish (j : ℕ) (c : ServeLoop) : Option ServeLoop :=
  match c.requests[j]? with
  | none => none
  | some t =>
    if t.ended then none
    else some { c with requests := c.requests.set j { t with ended := true } }

/-- Deliveries of this loop: the tasks that have not ended, and a stream that is
admitted and not spawned. -/
def ServeLoop.deliveries (c : ServeLoop) : ℕ :=
  c.requests.countP (!·.ended) + if c.phase = .admitted then 1 else 0

/-! ## The runtime -/

/-- Where shutdown is: `draining` in `wait_for_zero_until`, `decided` with its
result, then behind each of the two stores and the wake-up. -/
inductive ShutdownStage
  | idle
  | draining
  | decided (drained : Bool)
  | stored
  | closed
  | notified
  deriving DecidableEq, Repr

/-- A runtime: its flags, where its shutdown stands, and the loops of its connections. -/
structure ServeRuntime where
  flags : ServeFlags
  stage : ShutdownStage
  loops : List ServeLoop
  deriving DecidableEq, Repr

/-- One step of a connection's loop, of its request tasks, or of shutdown. -/
inductive ServeStep
  /-- a connection is admitted and its loop starts -/
  | connect
  | advance (i : ℕ)
  | join (i j : ℕ)
  | accept (i : ℕ) (a : Accepted)
  | idle (i : ℕ) (elapsed : Bool)
  | finish (i j : ℕ)
  /-- an iteration of the wait for the deliveries; `elapsed` if the deadline is past -/
  | drain (elapsed : Bool)
  /-- the next operation of shutdown, outside that wait -/
  | shutdown
  deriving DecidableEq, Repr

namespace ServeRuntime

/-- A runtime without connections. -/
def new : ServeRuntime where
  flags := ⟨false, false, false⟩
  stage := .idle
  loops := []

/-- The deliveries of all connections. -/
def deliveries (s : ServeRuntime) : ℕ := (s.loops.map (·.deliveries)).sum

/-- One loop moves. -/
def on_loop (s : ServeRuntime) (i : ℕ) (f : ServeLoop → Option ServeLoop) : Option ServeRuntime :=
  match s.loops[i]? with
  | none => none
  | some c => (f c).map fun c' => { s with loops := s.loops.set i c' }

/-- One step. Shutdown waits in `draining` until nothing is in flight or its deadline is past. -/
def step (s : ServeRuntime) : ServeStep → Option ServeRuntime
  | .connect => some { s with loops := s.loops ++ [.new] }
  | .advance i => s.on_loop i (·.advance s.flags)
  | .join i j => s.on_loop i (·.join j)
  | .accept i a => s.on_loop i (·.accept a)
  | .idle i elapsed => s.on_loop i (·.idle elapsed)
  | .finish i j => s.on_loop i (·.finish j)
  | .drain elapsed =>
    match s.stage with
    | .draining =>
      some { s with
        stage := if s.deliveries = 0 then .decided true
          else if elapsed then .decided false else .draining }
    | _ => none
  | .shutdown =>
    match s.stage with
    | .idle => some { s with stage := .draining, flags := { s.flags with stopped := true } }
    | .decided drained => some { s with stage := .stored, flags := { s.flags with drained } }
    | .stored => some { s with stage := .closed, flags := { s.flags with close_flag := true } }
    | .closed =>
      -- `notify_waiters` reaches every `close` future there is
      some { s with
        stage := .notified, loops := s.loops.map fun c => { c with close := true } }
    | .draining => none
    | .notified => none

/-! ## What an expired drain leaves -/

/-- The runtime is closed after a drain that expired, and a loop waits in its
final join only for tasks that have ended or were aborted. -/
def AbortsAll (s : ServeRuntime) : Prop :=
  s.flags.close_flag = true → s.flags.drained = false →
    ∀ c ∈ s.loops, c.phase = .joining → ∀ t ∈ c.requests, t.ended = true ∨ t.aborted = true

/-- A result that says the shutdown was drained comes from a loop that aborted
nothing. -/
def ReportsDrain (s : ServeRuntime) : Prop :=
  ∀ c ∈ s.loops, ∀ r, c.phase = .returned r → r.end_ = .shutdown → r.drained = true →
    c.aborted = false

/-- When an expired drain sets the flag, no loop that is past its check of it has
a task that has not ended. -/
def NoneUnended (s : ServeRuntime) : ServeStep → Prop
  | .shutdown => s.stage = .stored → s.flags.drained = false →
      ∀ c ∈ s.loops, c.phase = .joining → ∀ t ∈ c.requests, t.ended = true
  | _ => True

/-- What holds of each loop, given the flags. -/
structure LoopOk (f : ServeFlags) (c : ServeLoop) : Prop where
  aborted : c.aborted = true → f.close_flag = true ∧ f.drained = false
  marked : ∀ t ∈ c.requests, t.aborted = true → c.aborted = true
  flagged : c.phase = .flagged → f.close_flag = true
  joining : f.close_flag = true → f.drained = false → c.phase = .joining →
    ∀ t ∈ c.requests, t.ended = true ∨ t.aborted = true
  result : ∀ r, c.phase = .returned r → r.end_ = .shutdown → r.drained = true → c.aborted = false

/-- The stores of shutdown come in their order, and the drain's outcome before
the flag. -/
structure Inv (s : ServeRuntime) : Prop where
  flag : s.flags.close_flag = true ↔ s.stage = .closed ∨ s.stage = .notified
  loops : ∀ c ∈ s.loops, LoopOk s.flags c

theorem Inv.abortsAll {s : ServeRuntime} (h : Inv s) : AbortsAll s :=
  fun hflag hdrained c hc hphase => (h.loops c hc).joining hflag hdrained hphase

theorem Inv.reportsDrain {s : ServeRuntime} (h : Inv s) : ReportsDrain s :=
  fun c hc => (h.loops c hc).result

theorem loopOk_new (f : ServeFlags) : LoopOk f .new where
  aborted := nofun
  marked := nofun
  flagged := nofun
  joining _ _ := nofun
  result _ := nofun

theorem inv_new : Inv new where
  flag := by decide
  loops := nofun

/-- `abort_all` leaves no task that is neither ended nor aborted. -/
theorem mem_abort_all {requests : List RequestTask} {t : RequestTask} (h : t ∈ abort_all requests) :
    t.ended = true ∨ t.aborted = true := by
  obtain ⟨u, -, rfl⟩ := List.mem_map.mp h
  by_cases hu : u.ended = true
  · rw [if_pos hu]
    exact .inl hu
  · rw [if_neg hu]
    exact .inr rfl

/-- A task is marked by `abort_all` only if it was before or had not ended. -/
theorem aborted_abort_all {requests : List RequestTask} {t : RequestTask}
    (h : t ∈ abort_all requests) (ht : t.aborted = true) :
    (∃ u ∈ requests, u.aborted = true) ∨ requests.any (!·.ended) = true := by
  obtain ⟨u, hu, rfl⟩ := List.mem_map.mp h
  by_cases hend : u.ended = true
  · rw [if_pos hend] at ht
    exact .inl ⟨u, hu, ht⟩
  · refine .inr (List.any_eq_true.mpr ⟨u, hu, ?_⟩)
    simpa using hend

/-- A phase of which the invariant says nothing by itself. -/
def quiet : LoopPhase → Bool
  | .flagged => false
  | .joining => false
  | .returned _ => false
  | _ => true

/-- Moving to a quiet phase, with nothing aborted. -/
theorem LoopOk.move {f : ServeFlags} {c c' : ServeLoop} (h : LoopOk f c)
    (ha : c'.aborted = c.aborted) (hm : ∀ t ∈ c'.requests, t.aborted = true → c.aborted = true)
    (hq : quiet c'.phase = true) : LoopOk f c' where
  aborted hab := h.aborted (ha ▸ hab)
  marked t ht hab := ha ▸ hm t ht hab
  flagged hp := by
    rw [hp] at hq
    exact nomatch hq
  joining _ _ hp := by
    rw [hp] at hq
    exact nomatch hq
  result r hp := by
    rw [hp] at hq
    exact nomatch hq

/-- The check behind the loop: a loop that reads the flag unset joins all of its
tasks, one that reads it set goes on to `drained`. -/
theorem loopOk_left {f : ServeFlags} {c : ServeLoop} (h : LoopOk f c) :
    LoopOk f { c with phase := if f.close_flag then .flagged else .joining } := by
  by_cases hflag : f.close_flag = true
  · rw [if_pos hflag]
    exact ⟨h.aborted, h.marked, fun _ => hflag, fun _ _ => nofun, fun _ => nofun⟩
  · rw [if_neg hflag]
    exact ⟨h.aborted, h.marked, nofun, fun hset => absurd hset hflag, fun _ => nofun⟩

/-- Behind a set flag: the tasks of an expired drain are aborted. -/
theorem loopOk_flagged {f : ServeFlags} {c c' : ServeLoop} (h : LoopOk f c)
    (hp : c.phase = .flagged) (hstep : c.advance f = some c') : LoopOk f c' := by
  have hflag := h.flagged hp
  simp only [ServeLoop.advance, hp] at hstep
  split at hstep
  · next hdrained =>
    cases hstep
    refine ⟨h.aborted, h.marked, nofun, fun _ hnot => ?_, fun _ => nofun⟩
    rw [hdrained] at hnot
    exact nomatch hnot
  · next hdrained =>
    cases hstep
    have hexpired : f.drained = false := Bool.eq_false_iff.mpr hdrained
    refine ⟨fun _ => ⟨hflag, hexpired⟩, fun t ht hab => ?_, nofun,
      fun _ _ _ t ht => mem_abort_all ht, fun _ => nofun⟩
    -- a mark is an old one, or one of a task that this call found unended
    rw [Bool.or_eq_true]
    rcases aborted_abort_all ht hab with ⟨u, hu, huab⟩ | hany
    · exact .inl (h.marked u hu huab)
    · exact .inr hany

/-- The result of a loop that found the flag unset says drained: it aborted
nothing, for it would have seen the flag then. -/
theorem loopOk_joined {f : ServeFlags} {c : ServeLoop} (h : LoopOk f c) :
    LoopOk f { c with
      phase := if f.close_flag then .noticed else .returned ⟨c.end_, true⟩ } := by
  by_cases hflag : f.close_flag = true
  · rw [if_pos hflag]
    exact h.move rfl h.marked rfl
  · rw [if_neg hflag]
    refine ⟨h.aborted, h.marked, nofun, fun _ _ => nofun, fun _ _ _ _ => ?_⟩
    exact Bool.eq_false_iff.mpr fun hab => hflag (h.aborted hab).1

theorem loopOk_noticed {f : ServeFlags} {c : ServeLoop} (h : LoopOk f c) :
    LoopOk f { c with phase := .returned ⟨.shutdown, f.drained⟩ } := by
  refine ⟨h.aborted, h.marked, nofun, fun _ _ => nofun, fun r hr _ hdrained => ?_⟩
  cases hr
  refine Bool.eq_false_iff.mpr fun hab => ?_
  rw [(h.aborted hab).2] at hdrained
  exact nomatch hdrained

/-- A loop goes on to its next check. -/
theorem loopOk_advance {f : ServeFlags} {c c' : ServeLoop} (h : LoopOk f c)
    (hstep : c.advance f = some c') : LoopOk f c' := by
  have hquiet : ∀ p, quiet p = true → LoopOk f { c with phase := p } :=
    fun p hp => h.move rfl h.marked hp
  cases hp : c.phase with
  | flagged => exact loopOk_flagged h hp hstep
  | left =>
      simp only [ServeLoop.advance, hp, Option.some.injEq] at hstep
      exact hstep ▸ loopOk_left h
  | joined =>
      simp only [ServeLoop.advance, hp, Option.some.injEq] at hstep
      exact hstep ▸ loopOk_joined h
  | noticed =>
      simp only [ServeLoop.advance, hp, Option.some.injEq] at hstep
      exact hstep ▸ loopOk_noticed h
  | top =>
      simp only [ServeLoop.advance, hp, Option.some.injEq] at hstep
      exact hstep ▸ h.move rfl h.marked rfl
  | registered =>
      simp only [ServeLoop.advance, hp, Option.some.injEq] at hstep
      refine hstep ▸ hquiet _ ?_
      split <;> rfl
  | loaded =>
      simp only [ServeLoop.advance, hp, Option.some.injEq] at hstep
      refine hstep ▸ hquiet _ ?_
      split <;> rfl
  | waiting =>
      simp only [ServeLoop.advance, hp] at hstep
      split at hstep
      · cases hstep
        exact hquiet _ rfl
      · cases hstep
  | poll_close =>
      simp only [ServeLoop.advance, hp, Option.some.injEq] at hstep
      refine hstep ▸ hquiet _ ?_
      split <;> rfl
  | poll_join =>
      simp only [ServeLoop.advance, hp] at hstep
      split at hstep
      · cases hstep
      · cases hstep
        exact hquiet _ rfl
  | accepted =>
      simp only [ServeLoop.advance, hp, Option.some.injEq] at hstep
      refine hstep ▸ hquiet _ ?_
      split <;> rfl
  | admitted =>
      simp only [ServeLoop.advance, hp, Option.some.injEq] at hstep
      subst hstep
      refine h.move rfl (fun t ht hab => ?_) rfl
      rcases List.mem_append.mp ht with hold | hnew
      · exact h.marked t hold hab
      · rw [List.mem_singleton.mp hnew] at hab
        exact nomatch hab
  | joining =>
      simp only [ServeLoop.advance, hp] at hstep
      split at hstep
      · cases hstep
        exact hquiet _ rfl
      · cases hstep
  | poll_accept => simp only [ServeLoop.advance, hp] at hstep; cases hstep
  | poll_idle => simp only [ServeLoop.advance, hp] at hstep; cases hstep
  | returned r => simp only [ServeLoop.advance, hp] at hstep; cases hstep

/-- Fewer tasks, and none newly marked, in the same phase. -/
theorem LoopOk.tasks {f : ServeFlags} {c : ServeLoop} (h : LoopOk f c) {requests : List RequestTask}
    (hmem : ∀ t ∈ requests, t ∈ c.requests ∨ t.ended = true ∧ ∃ u ∈ c.requests, t.aborted = u.aborted) :
    LoopOk f { c with requests } where
  aborted := h.aborted
  marked t ht hab := by
    rcases hmem t ht with hold | ⟨-, u, hu, hsame⟩
    · exact h.marked t hold hab
    · exact h.marked u hu (hsame ▸ hab)
  flagged := h.flagged
  joining hflag hdrained hp t ht := by
    rcases hmem t ht with hold | ⟨hend, -⟩
    · exact h.joining hflag hdrained hp t hold
    · exact .inl hend
  result := h.result

/-- A request that ended is reaped. -/
theorem loopOk_join {f : ServeFlags} {c c' : ServeLoop} {j : ℕ} (h : LoopOk f c)
    (hstep : c.join j = some c') : LoopOk f c' := by
  have hsub : ∀ t ∈ c.requests.eraseIdx j, t ∈ c.requests :=
    fun t ht => (List.eraseIdx_sublist _ _).mem ht
  unfold ServeLoop.join at hstep
  split at hstep
  · split at hstep
    · cases hstep
      exact h.move rfl (fun t ht => h.marked t (hsub t ht)) rfl
    · cases hstep
      exact h.tasks fun t ht => .inl (hsub t ht)
    · cases hstep
  · cases hstep

/-- A stream comes, or the connection ends. -/
theorem loopOk_accept {f : ServeFlags} {c c' : ServeLoop} {a : Accepted} (h : LoopOk f c)
    (hstep : c.accept a = some c') : LoopOk f c' := by
  unfold ServeLoop.accept at hstep
  split at hstep
  · cases a <;> cases hstep <;> exact h.move rfl h.marked rfl
  · cases hstep

theorem loopOk_idle {f : ServeFlags} {c c' : ServeLoop} {elapsed : Bool} (h : LoopOk f c)
    (hstep : c.idle elapsed = some c') : LoopOk f c' := by
  unfold ServeLoop.idle at hstep
  split at hstep
  · split at hstep
    · cases hstep
      exact h.move rfl h.marked rfl
    · cases hstep
      exact h.move rfl h.marked rfl
  · cases hstep

/-- A request ends. -/
theorem loopOk_finish {f : ServeFlags} {c c' : ServeLoop} {j : ℕ} (h : LoopOk f c)
    (hstep : c.finish j = some c') : LoopOk f c' := by
  unfold ServeLoop.finish at hstep
  split at hstep
  · cases hstep
  · next t ht =>
    split at hstep
    · cases hstep
    · cases hstep
      refine h.tasks fun u hu => ?_
      rcases List.mem_or_eq_of_mem_set hu with hold | rfl
      · exact .inl hold
      · exact .inr ⟨rfl, t, List.mem_of_getElem? ht, rfl⟩

theorem inv_on_loop {s s' : ServeRuntime} {i : ℕ} {f : ServeLoop → Option ServeLoop} (h : Inv s)
    (hf : ∀ c c', LoopOk s.flags c → f c = some c' → LoopOk s.flags c')
    (hstep : s.on_loop i f = some s') : Inv s' := by
  unfold on_loop at hstep
  split at hstep
  · cases hstep
  · next c hc =>
    rw [Option.map_eq_some_iff] at hstep
    obtain ⟨c', hc', rfl⟩ := hstep
    refine ⟨h.flag, fun d hd => ?_⟩
    rcases List.mem_or_eq_of_mem_set hd with hold | rfl
    · exact h.loops d hold
    · exact hf c d (h.loops c (List.mem_of_getElem? hc)) hc'

/-- Before the flag is set nothing is aborted, so the outcome of the drain may
still be written. -/
theorem loopOk_store_drained {f : ServeFlags} {c : ServeLoop} {drained : Bool} (h : LoopOk f c)
    (hflag : f.close_flag = false) : LoopOk { f with drained } c := by
  -- a loop aborts only behind the flag, and the flag comes after this store
  have hnone : c.aborted = false :=
    Bool.eq_false_iff.mpr fun hab => by
      have hset := (h.aborted hab).1
      rw [hflag] at hset
      exact nomatch hset
  refine ⟨fun hab => ?_, h.marked, h.flagged, fun hset => ?_, fun _ _ _ _ => hnone⟩
  · rw [hnone] at hab
    exact nomatch hab
  · rw [hflag] at hset
    exact nomatch hset

/-- Setting the flag: what the invariant asks of a loop in its join is the side
condition of the step. -/
theorem loopOk_store_flag {f : ServeFlags} {c : ServeLoop} (h : LoopOk f c)
    (hflag : f.close_flag = false)
    (hend : f.drained = false → c.phase = .joining → ∀ t ∈ c.requests, t.ended = true) :
    LoopOk { f with close_flag := true } c := by
  refine ⟨fun hab => ?_, h.marked, fun _ => rfl, fun _ hdrained hp t ht => ?_, h.result⟩
  · have hset := (h.aborted hab).1
    rw [hflag] at hset
    exact nomatch hset
  · exact .inl (hend hdrained hp t ht)

/-- A step of shutdown, when no loop past its check of the flag has a task left. -/
theorem inv_shutdown {s s' : ServeRuntime} (h : Inv s) (hcond : s.NoneUnended .shutdown)
    (hstep : s.step .shutdown = some s') : Inv s' := by
  have hunset : s.stage ≠ .closed → s.stage ≠ .notified → s.flags.close_flag = false :=
    fun h₁ h₂ => Bool.eq_false_iff.mpr fun hset => (h.flag.mp hset).elim h₁ h₂
  cases hstage : s.stage with
  | idle =>
      simp only [step, hstage, Option.some.injEq] at hstep
      subst hstep
      have hflag := hunset (by rw [hstage]; exact nofun) (by rw [hstage]; exact nofun)
      refine ⟨?_, fun c hc => ?_⟩
      · simp [hflag]
      · have hok := h.loops c hc
        exact ⟨hok.aborted, hok.marked, hok.flagged, hok.joining, hok.result⟩
  | decided drained =>
      simp only [step, hstage, Option.some.injEq] at hstep
      subst hstep
      have hflag := hunset (by rw [hstage]; exact nofun) (by rw [hstage]; exact nofun)
      refine ⟨?_, fun c hc => loopOk_store_drained (h.loops c hc) hflag⟩
      simp [hflag]
  | stored =>
      simp only [step, hstage, Option.some.injEq] at hstep
      subst hstep
      have hflag := hunset (by rw [hstage]; exact nofun) (by rw [hstage]; exact nofun)
      refine ⟨by simp, fun c hc => loopOk_store_flag (h.loops c hc) hflag ?_⟩
      exact fun hdrained => hcond hstage hdrained c hc
  | closed =>
      simp only [step, hstage, Option.some.injEq] at hstep
      subst hstep
      refine ⟨?_, fun c hc => ?_⟩
      · simpa [hstage] using h.flag
      · obtain ⟨d, hd, rfl⟩ := List.mem_map.mp hc
        have hok := h.loops d hd
        exact ⟨hok.aborted, hok.marked, hok.flagged, hok.joining, hok.result⟩
  | draining => simp only [step, hstage] at hstep; cases hstep
  | notified => simp only [step, hstage] at hstep; cases hstep

theorem inv_drain {s s' : ServeRuntime} {elapsed : Bool} (h : Inv s)
    (hstep : s.step (.drain elapsed) = some s') : Inv s' := by
  simp only [step] at hstep
  split at hstep
  · next hstage =>
    cases hstep
    have hflag : ¬ s.flags.close_flag = true := fun hset => by
      rcases h.flag.mp hset with hc | hn
      · rw [hstage] at hc
        exact nomatch hc
      · rw [hstage] at hn
        exact nomatch hn
    refine ⟨iff_of_false hflag ?_, h.loops⟩
    split
    · simp
    · split <;> simp
  · cases hstep

/-- Every step that meets the side condition keeps the invariant. -/
theorem inv_step (s : ServeRuntime) (x : ServeStep) (s' : ServeRuntime) (h : Inv s)
    (hcond : s.NoneUnended x) (hstep : s.step x = some s') : Inv s' := by
  cases x with
  | connect =>
      cases hstep
      refine ⟨h.flag, fun c hc => ?_⟩
      rcases List.mem_append.mp hc with hold | hnew
      · exact h.loops c hold
      · exact List.mem_singleton.mp hnew ▸ loopOk_new s.flags
  | advance i => exact inv_on_loop h (fun _ _ => loopOk_advance) hstep
  | join i j => exact inv_on_loop h (fun _ _ => loopOk_join) hstep
  | accept i a => exact inv_on_loop h (fun _ _ => loopOk_accept) hstep
  | idle i elapsed => exact inv_on_loop h (fun _ _ => loopOk_idle) hstep
  | finish i j => exact inv_on_loop h (fun _ _ => loopOk_finish) hstep
  | drain elapsed => exact inv_drain h hstep
  | shutdown => exact inv_shutdown h hcond hstep

/-- The flag set over an unended task of a joining loop: the state after it is
the one that should not be. -/
theorem not_abortsAll_of_unended {s : ServeRuntime} (h : Inv s) {x : ServeStep}
    (hx : ¬ s.NoneUnended x) : ∃ s', s.step x = some s' ∧ ¬ AbortsAll s' := by
  cases x with
  | shutdown =>
      simp only [NoneUnended] at hx
      push Not at hx
      obtain ⟨hstage, hdrained, c, hc, hp, t, ht, hend⟩ := hx
      refine ⟨_, by simp only [step, hstage]; rfl, fun hall => ?_⟩
      rcases hall rfl hdrained c hc hp t ht with hyes | hab
      · exact hend hyes
      · -- nothing is aborted before the flag is set
        have hset := ((h.loops c hc).aborted ((h.loops c hc).marked t ht hab)).1
        rcases h.flag.mp hset with hc | hn
        · rw [hstage] at hc
          exact nomatch hc
        · rw [hstage] at hn
          exact nomatch hn
  | connect => exact absurd trivial hx
  | advance i => exact absurd trivial hx
  | join i j => exact absurd trivial hx
  | accept i a => exact absurd trivial hx
  | idle i elapsed => exact absurd trivial hx
  | finish i j => exact absurd trivial hx
  | drain elapsed => exact absurd trivial hx

/-- **When drain expiry aborts everything.** In every state of a run the tasks
that a joining loop waits for after an expired drain have ended or were aborted,
and a shutdown reported as drained aborted nothing, exactly when the flag is
never set after an expired drain over an unended task of a loop that is past its
check. -/
theorem drain_expiry_aborts_iff (l : List ServeStep) :
    Along step NoneUnended new l ↔
      ∀ n s, run step new (l.take n) = some s → AbortsAll s ∧ ReportsDrain s := by
  refine along_iff_forall_prefix inv_step (fun s h => ⟨h.abortsAll, h.reportsDrain⟩) ?_ inv_new l
  intro s x h hx
  obtain ⟨s', hstep, hnot⟩ := not_abortsAll_of_unended h hx
  exact ⟨s', hstep, fun hboth => hnot hboth.1⟩

/-- The peer closes its connection while a request runs, and the drain expires
after the loop's check: the runtime is closed, and the loop waits for a task that
no one aborts. -/
theorem peer_close_outlives_drain :
    ¬ ∀ (l : List ServeStep) (s : ServeRuntime), run step new l = some s →
      AbortsAll s ∧ ReportsDrain s := by
  intro hall
  have hbad := (hall
    [.connect, .advance 0, .advance 0, .advance 0, .advance 0, .advance 0, .accept 0 .stream,
      .advance 0, .advance 0,
      -- the next iteration finds the connection closed, and the flag unset
      .advance 0, .advance 0, .advance 0, .advance 0, .advance 0, .accept 0 .closed, .advance 0,
      .shutdown, .drain true, .shutdown, .shutdown] _ rfl).1 rfl rfl
  have htask := hbad _ List.mem_cons_self rfl ⟨false, false⟩ List.mem_cons_self
  exact absurd htask (by decide)

end ServeRuntime

end IrohHttp.Serve
