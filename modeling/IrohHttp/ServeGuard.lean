/-
`makeServe` of `serve.ts`: the guard that lets one serve cycle run at a time, and the
handle each cycle gets.

A cycle is over when its `finished` has settled, and one microtask later the guard is
open again. Its handle lives on, and so does the listener on its signal: both call
`doStop`, which issues `stopServe` the first time. `stopServe` names the endpoint and
not the cycle, and the core stops whatever cycle the endpoint has (`ServeCycles.lean`).
So whose stop it is depends on when the first `doStop` of a cycle comes.
-/
import IrohHttp.Machine

set_option autoImplicit false

namespace IrohHttp.ServeGuard

/-! ## Data -/

/-- The abort listener of a cycle: no signal or one aborted before, in place, or done. -/
inductive Listener
  | absent
  | listening
  | fired
  deriving DecidableEq, Repr

/-- What the closure of one `serve` call holds. `loopDone` says how `rawServe` settled,
`reset` that the guard has been opened again. -/
structure Cycle where
  stopRequested : Bool
  loopDone : Option Bool
  finished : Bool
  reset : Bool
  listener : Listener
  deriving DecidableEq, Repr

/-- One `stopServe` call: the cycle whose `doStop` issued it, whether that cycle had
finished, and the cycles that had not. -/
structure StopServe where
  cycle : ℕ
  finished : Bool
  running : List ℕ
  deriving DecidableEq, Repr

/-- What one `makeServe` call closes over, and the `stopServe` calls it has issued. -/
structure Serve where
  serveRunning : Bool
  cycles : List Cycle
  issued : List StopServe

/-- No cycle has been started. -/
def Serve.init : Serve := ⟨false, [], []⟩

/-- The arguments of a `serve` call: no handler among them, or a handler and perhaps a
signal, which may have been aborted already. -/
inductive Args
  | no_handler
  | handler (signal_aborted : Option Bool)
  deriving DecidableEq, Repr

/-! ## Steps -/

/-- A call of `serve`, and what happens to the `i`-th cycle. -/
inductive Label
  | serve (args : Args)
  | loop_settles (i : ℕ) (fulfilled : Bool)
  | finishes (i : ℕ)
  | reset_guard (i : ℕ)
  | close (i : ℕ)
  | abort (i : ℕ)

namespace Serve

/-- The cycles whose `finished` has not settled. -/
def running (s : Serve) : List ℕ :=
  (List.range s.cycles.length).filter fun i => (s.cycles[i]?).any fun c => !c.finished

/-- `doStop` of cycle `i`. -/
def doStop (s : Serve) (i : ℕ) : Serve :=
  match s.cycles[i]? with
  | none => s
  | some c =>
    if c.stopRequested then s
    else
      { s with
        cycles := s.cycles.set i { c with stopRequested := true }
        issued := s.issued ++ [⟨i, c.finished, s.running⟩] }

/-- A `serve` call: the number of its cycle, or the text of the `TypeError`. -/
def serve (s : Serve) (args : Args) : Except String ℕ × Serve :=
  if s.serveRunning then
    (.error ("serve() is already running on this node. " ++
      "Call signal.abort() or node.close() to stop it first."), s)
  else
    -- the guard is set before the arguments are looked at
    let s := { s with serveRunning := true }
    match args with
    | .no_handler => (.error "serve() requires a handler function", s)
    | .handler signal_aborted =>
      let i := s.cycles.length
      let listener := if signal_aborted = some false then .listening else .absent
      let s := { s with cycles := s.cycles ++ [⟨false, none, false, false, listener⟩] }
      (.ok i, if signal_aborted = some true then s.doStop i else s)

/-- `finished` settles some time after `loopDone`: the body pipes come in between.
`close` is `asyncDispose` as well. -/
def step (s : Serve) : Label → Option Serve
  | .serve args => some (s.serve args).2
  | .loop_settles i fulfilled =>
    (s.cycles[i]?).bind fun c =>
      if c.loopDone = none then
        some { s with cycles := s.cycles.set i { c with loopDone := some fulfilled } }
      else none
  | .finishes i =>
    (s.cycles[i]?).bind fun c =>
      if c.loopDone ≠ none ∧ c.finished = false then
        some { s with cycles := s.cycles.set i { c with finished := true } }
      else none
  | .reset_guard i =>
    (s.cycles[i]?).bind fun c =>
      if c.finished ∧ c.reset = false then
        some { s with serveRunning := false, cycles := s.cycles.set i { c with reset := true } }
      else none
  | .close i => if i < s.cycles.length then some (s.doStop i) else none
  | .abort i =>
    (s.cycles[i]?).bind fun c =>
      if c.listener = .listening then
        some ({ s with cycles := s.cycles.set i { c with listener := .fired } }.doStop i)
      else none

end Serve

/-- **A stop goes to the cycle that asked for it.** No `stopServe` is issued for a cycle
that has finished while a later one runs; whatever runs is stopped by itself. -/
structure Own (s : Serve) : Prop where
  stale : ∀ e ∈ s.issued, e.finished = true → ∀ j ∈ e.running, ¬ e.cycle < j
  self : ∀ e ∈ s.issued, ∀ j ∈ e.running, j = e.cycle

/-- The first `doStop` of a cycle comes before it has finished, or at a time when none
runs. -/
def Meets (s : Serve) : Label → Prop
  | .close i => ∀ c, s.cycles[i]? = some c → c.finished = true → c.stopRequested = false →
      s.running = []
  | .abort i => ∀ c, s.cycles[i]? = some c → c.listener = .listening → c.finished = true →
      c.stopRequested = false → s.running = []
  | _ => True

/-! ## The guard -/

/-- A cycle for which the guard has not been opened again is the last, and the guard is
set. -/
structure Inv (s : Serve) : Prop where
  guarded : ∀ i c, s.cycles[i]? = some c → c.reset = false →
    s.serveRunning = true ∧ i + 1 = s.cycles.length
  settled : ∀ c ∈ s.cycles, c.reset = true → c.finished = true
  own : Own s

theorem inv_init : Inv Serve.init where
  guarded i c h := by simp [Serve.init] at h
  settled _ hc := absurd hc List.not_mem_nil
  own := ⟨fun _ he => absurd he List.not_mem_nil, fun _ he => absurd he List.not_mem_nil⟩

theorem mem_running {s : Serve} {j : ℕ} :
    j ∈ s.running ↔ ∃ c, s.cycles[j]? = some c ∧ c.finished = false := by
  rw [Serve.running, List.mem_filter, List.mem_range, Option.any_eq_true]
  constructor
  · rintro ⟨-, c, hc, hfin⟩
    exact ⟨c, hc, Bool.not_eq_true' _ ▸ hfin⟩
  · rintro ⟨c, hc, hfin⟩
    exact ⟨(List.getElem?_eq_some_iff.mp hc).1, c, hc, by simp [hfin]⟩

/-- What runs is the last cycle. -/
theorem Inv.running_last {s : Serve} (h : Inv s) {j : ℕ} (hj : j ∈ s.running) :
    j + 1 = s.cycles.length := by
  obtain ⟨c, hc, hfin⟩ := mem_running.mp hj
  have hreset : c.reset = false := by
    by_contra hr
    have hsettled := h.settled c (List.mem_of_getElem? hc) (Bool.not_eq_false _ ▸ hr)
    rw [hfin] at hsettled
    cases hsettled
  exact (h.guarded j c hc hreset).2

/-- A cycle changes in what the guard does not look at. -/
theorem Inv.set {s : Serve} (h : Inv s) {i : ℕ} {c : Cycle} (hc : s.cycles[i]? = some c)
    (c' : Cycle) (hreset : c'.reset = c.reset) (hfin : c.finished = true → c'.finished = true)
    {issued : List StopServe} (hown : Own { s with issued := issued }) :
    Inv { s with cycles := s.cycles.set i c', issued := issued } := by
  have hlt := (List.getElem?_eq_some_iff.mp hc).1
  refine ⟨?_, ?_, ⟨hown.stale, hown.self⟩⟩
  · intro j d hd hr
    dsimp only at hd ⊢
    rw [List.length_set]
    by_cases hij : i = j
    · subst hij
      rw [List.getElem?_set_self hlt] at hd
      obtain rfl := Option.some.inj hd
      exact h.guarded i c hc (hreset ▸ hr)
    · rw [List.getElem?_set_ne hij] at hd
      exact h.guarded j d hd hr
  · intro d hd hr
    rcases List.mem_or_eq_of_mem_set hd with hd | rfl
    · exact h.settled d hd hr
    · exact hfin (h.settled c (List.mem_of_getElem? hc) (hreset ▸ hr))

/-- `doStop` at the right time. -/
theorem Inv.doStop {s : Serve} (h : Inv s) {i : ℕ}
    (hmeets : ∀ c, s.cycles[i]? = some c → c.finished = true → c.stopRequested = false →
      s.running = []) : Inv (s.doStop i) := by
  unfold Serve.doStop
  split
  · exact h
  · next c hc =>
    split
    · exact h
    · next hreq =>
      rw [Bool.not_eq_true] at hreq
      refine h.set hc { c with stopRequested := true } rfl (fun hfin => hfin) ?_
      have hself : ∀ j ∈ s.running, j = i := by
        intro j hj
        by_cases hfin : c.finished = true
        · rw [hmeets c hc hfin hreq] at hj
          exact absurd hj List.not_mem_nil
        · -- the cycle runs itself, and only the last one does
          have hi : i ∈ s.running := mem_running.mpr ⟨c, hc, Bool.not_eq_true _ ▸ hfin⟩
          have hilast := h.running_last hi
          have hjlast := h.running_last hj
          omega
      constructor
      · intro e he hfin j hj
        rcases List.mem_append.mp he with he | he
        · exact h.own.stale e he hfin j hj
        · rw [List.mem_singleton.mp he] at hj ⊢
          have heq := hself j hj
          simp only
          omega
      · intro e he j hj
        rcases List.mem_append.mp he with he | he
        · exact h.own.self e he j hj
        · rw [List.mem_singleton.mp he] at hj ⊢
          exact hself j hj

/-- `doStop` at the wrong time. -/
theorem not_own_doStop {s : Serve} {i : ℕ} {c : Cycle} (hc : s.cycles[i]? = some c)
    (hfin : c.finished = true) (hreq : c.stopRequested = false) (hrun : s.running ≠ []) :
    ¬ Own (s.doStop i) := by
  obtain ⟨j, hj⟩ := List.exists_mem_of_ne_nil _ hrun
  intro hown
  unfold Serve.doStop at hown
  rw [hc] at hown
  simp only [hreq, Bool.false_eq_true, if_false] at hown
  have heq := hown.self ⟨i, c.finished, s.running⟩ (List.mem_append_right _ (List.mem_singleton_self _)) j hj
  obtain ⟨d, hd, hdfin⟩ := mem_running.mp hj
  dsimp only at heq
  rw [heq, hc] at hd
  rw [← Option.some.inj hd, hfin] at hdfin
  cases hdfin

/-! ## Calls and events -/

/-- A new cycle, once all before it are done. -/
theorem Inv.push {s : Serve} (h : Inv s) (hopen : s.serveRunning = false) (listener : Listener) :
    Inv { s with
      serveRunning := true
      cycles := s.cycles ++ [⟨false, none, false, false, listener⟩] } := by
  refine ⟨?_, ?_, ⟨h.own.stale, h.own.self⟩⟩
  · intro i c hc hr
    refine ⟨rfl, ?_⟩
    dsimp only at hc ⊢
    rw [List.length_append, List.length_singleton]
    by_cases hlt : i < s.cycles.length
    · rw [List.getElem?_append_left hlt] at hc
      have hset := (h.guarded i c hc hr).1
      rw [hopen] at hset
      cases hset
    · have hi := (List.getElem?_eq_some_iff.mp hc).1
      rw [List.length_append, List.length_singleton] at hi
      omega
  · intro c hc hr
    rcases List.mem_append.mp hc with hc | hc
    · exact h.settled c hc hr
    · rw [List.mem_singleton.mp hc] at hr
      cases hr

theorem Inv.serve {s : Serve} (h : Inv s) (args : Args) : Inv (s.serve args).2 := by
  unfold Serve.serve
  split
  · exact h
  · next hopen =>
    rw [Bool.not_eq_true] at hopen
    cases args with
    | no_handler =>
        refine ⟨?_, h.settled, ⟨h.own.stale, h.own.self⟩⟩
        intro i c hc hr
        exact ⟨rfl, (h.guarded i c hc hr).2⟩
    | handler signal_aborted =>
        dsimp only
        split
        · -- the signal was aborted before: the new cycle stops itself
          refine (h.push hopen _).doStop ?_
          intro c hc hfin _
          dsimp only at hc
          rw [List.getElem?_concat_length] at hc
          rw [← Option.some.inj hc] at hfin
          cases hfin
        · exact h.push hopen _

/-- The listener's own bookkeeping leaves the running cycles as they are. -/
theorem running_set {s : Serve} {i : ℕ} {c : Cycle} (hc : s.cycles[i]? = some c) (c' : Cycle)
    (hfin : c'.finished = c.finished) :
    { s with cycles := s.cycles.set i c' }.running = s.running := by
  have hlt := (List.getElem?_eq_some_iff.mp hc).1
  unfold Serve.running
  dsimp only
  rw [List.length_set]
  apply List.filter_congr
  intro j _
  by_cases hij : i = j
  · subst hij
    rw [List.getElem?_set_self hlt, hc, Option.any_some, Option.any_some, hfin]
  · rw [List.getElem?_set_ne hij]

theorem Inv.abort {s : Serve} (h : Inv s) {i : ℕ} {c : Cycle} (hc : s.cycles[i]? = some c)
    (hmeets : c.finished = true → c.stopRequested = false → s.running = []) :
    Inv ({ s with cycles := s.cycles.set i { c with listener := .fired } }.doStop i) := by
  have hlt := (List.getElem?_eq_some_iff.mp hc).1
  have hset : Inv { s with cycles := s.cycles.set i { c with listener := .fired } } :=
    h.set hc { c with listener := .fired } rfl (fun hfin => hfin) h.own
  refine hset.doStop ?_
  intro d hd hfin hreq
  dsimp only at hd
  rw [List.getElem?_set_self hlt] at hd
  obtain rfl := Option.some.inj hd
  rw [running_set hc { c with listener := .fired } rfl]
  exact hmeets hfin hreq

theorem inv_step {s s' : Serve} {a : Label} (h : Inv s) (hmeets : Meets s a)
    (hstep : s.step a = some s') : Inv s' := by
  cases a with
  | serve args =>
      obtain rfl := Option.some.inj hstep
      exact h.serve args
  | loop_settles i fulfilled =>
      obtain ⟨c, hc, hrest⟩ := Option.bind_eq_some_iff.mp hstep
      split at hrest
      · obtain rfl := Option.some.inj hrest
        exact h.set hc { c with loopDone := some fulfilled } rfl (fun hfin => hfin) h.own
      · cases hrest
  | finishes i =>
      obtain ⟨c, hc, hrest⟩ := Option.bind_eq_some_iff.mp hstep
      split at hrest
      · obtain rfl := Option.some.inj hrest
        exact h.set hc { c with finished := true } rfl (fun _ => rfl) h.own
      · cases hrest
  | reset_guard i =>
      obtain ⟨c, hc, hrest⟩ := Option.bind_eq_some_iff.mp hstep
      split at hrest
      · next hcond =>
        obtain rfl := Option.some.inj hrest
        have hlt := (List.getElem?_eq_some_iff.mp hc).1
        refine ⟨?_, ?_, ⟨h.own.stale, h.own.self⟩⟩
        · -- any other cycle to reset would be the last as well
          intro j d hd hr
          dsimp only at hd
          have hlast := (h.guarded i c hc hcond.2).2
          by_cases hij : i = j
          · subst hij
            rw [List.getElem?_set_self hlt] at hd
            rw [← Option.some.inj hd] at hr
            cases hr
          · rw [List.getElem?_set_ne hij] at hd
            have hlast' := (h.guarded j d hd hr).2
            omega
        · intro d hd hr
          rcases List.mem_or_eq_of_mem_set hd with hd | rfl
          · exact h.settled d hd hr
          · exact hcond.1
      · cases hrest
  | close i =>
      simp only [Serve.step] at hstep
      split at hstep
      · obtain rfl := Option.some.inj hstep
        exact h.doStop hmeets
      · cases hstep
  | abort i =>
      obtain ⟨c, hc, hrest⟩ := Option.bind_eq_some_iff.mp hstep
      split at hrest
      · next hlistening =>
        obtain rfl := Option.some.inj hrest
        exact h.abort hc (hmeets c hc hlistening)
      · cases hrest

/-- A step at the wrong time leads to a stop of somebody else's cycle. -/
theorem not_own_of_not_meets {s : Serve} {a : Label} (hmeets : ¬ Meets s a) :
    ∃ s', s.step a = some s' ∧ ¬ Own s' := by
  cases a with
  | serve args => exact absurd trivial hmeets
  | loop_settles i fulfilled => exact absurd trivial hmeets
  | finishes i => exact absurd trivial hmeets
  | reset_guard i => exact absurd trivial hmeets
  | close i =>
      simp only [Meets, not_forall] at hmeets
      obtain ⟨c, hc, hfin, hreq, hrun⟩ := hmeets
      have hlt := (List.getElem?_eq_some_iff.mp hc).1
      exact ⟨s.doStop i, if_pos hlt, not_own_doStop hc hfin hreq hrun⟩
  | abort i =>
      simp only [Meets, not_forall] at hmeets
      obtain ⟨c, hc, hlistening, hfin, hreq, hrun⟩ := hmeets
      have hlt := (List.getElem?_eq_some_iff.mp hc).1
      have hget : (s.cycles.set i { c with listener := .fired })[i]? =
          some { c with listener := .fired } := List.getElem?_set_self hlt
      refine ⟨{ s with cycles := s.cycles.set i { c with listener := .fired } }.doStop i, ?_, ?_⟩
      · simp only [Serve.step, hc, Option.bind_some, hlistening, if_true]
      · refine not_own_doStop (c := { c with listener := .fired }) hget hfin hreq ?_
        rw [running_set hc { c with listener := .fired } rfl]
        exact hrun

/-- **When a serve handle controls only its own cycle.** Along a schedule, every
`stopServe` is issued by the cycle that runs exactly when no cycle's first `doStop`
comes after it has finished and while another runs. -/
theorem stops_own_iff (l : List Label) :
    Machine.Along Serve.step Meets Serve.init l ↔
      ∀ n t, Machine.run Serve.step Serve.init (l.take n) = some t → Own t :=
  Machine.along_iff_forall_prefix (fun _ _ _ h hm hs => inv_step h hm hs) (fun _ h => h.own)
    (fun _ _ _ hm => not_own_of_not_meets hm) inv_init l

/-- The first cycle is rejected, the second one runs, and closing the first handle stops
it. -/
theorem stale_close_stops_later : ∃ s,
    Machine.run Serve.step Serve.init
      [.serve (.handler none), .loop_settles 0 false, .finishes 0, .reset_guard 0,
        .serve (.handler none), .close 0] = some s ∧
    s.issued = [⟨0, true, [1]⟩] ∧ ¬ Own s := by
  refine ⟨_, rfl, rfl, ?_⟩
  intro hown
  exact absurd (hown.self ⟨0, true, [1]⟩ (List.mem_singleton_self _) 1 (List.mem_singleton_self _))
    (by decide)

end IrohHttp.ServeGuard
