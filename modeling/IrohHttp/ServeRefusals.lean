/-
Which `serve` calls throw, and what a call that throws does to the guard (`makeServe` of
`serve.ts`).

The guard is set before the arguments are looked at, and opened by a continuation of `finished`.
A call can throw in between: it has no handler, or something outside throws, be it an accessor of
the options, `rawServe` itself, or the signal, when the loop runs already and nobody gets its
handle. And between the settlement of `finished` and the continuation there is one microtask.

`ServeGuard.lean` has the guard and the cycles.
-/
import IrohHttp.ServeGuard

set_option autoImplicit false

namespace IrohHttp.ServeRefusals

open IrohHttp.ServeGuard (Args Cycle Serve mem_running)

/-! ## Calls -/

/-- What may throw in a call that has its handler. -/
inductive Fault
  | options
  | raw_serve
  | signal
  deriving DecidableEq, Repr

/-- What comes of a call. -/
inductive Outcome
  | handle (cycle : ℕ)
  | type_error (message : String)
  | thrown (fault : Fault)
  deriving DecidableEq, Repr

/-- One call: the handles out whose `finished` had not settled, and the guard. -/
structure Call where
  outcome : Outcome
  pending : List ℕ
  guard_before : Bool
  guard_after : Bool
  deriving DecidableEq, Repr

/-- The calls made of one `makeServe` function. `lost` are the cycles whose call threw. -/
structure Calls where
  serve : Serve
  lost : List ℕ
  calls : List Call

/-- No call has been made. -/
def Calls.init : Calls := ⟨Serve.init, [], []⟩

/-- A call of `serve`, with the fault its start meets, or what else happens to a cycle. -/
inductive Label
  | serve (args : Args) (fault : Option Fault)
  /-- what else happens to a cycle, or what its holder does with it -/
  | cycle (label : ServeGuard.Label)

/-- The refusal of a second server. -/
def already_running : String :=
  "serve() is already running on this node. " ++
    "Call signal.abort() or node.close() to stop it first."

namespace Calls

/-- The handles that have been returned and whose `finished` has not settled. -/
def pending (s : Calls) : List ℕ := s.serve.running.filter fun i => !s.lost.contains i

/-- One call of `serve`: the guard, then the start, which may throw. -/
def call (s : Calls) (args : Args) (fault : Option Fault) : Outcome × Calls :=
  let result := s.serve.serve args
  match result.1 with
  | .error message => (.type_error message, { s with serve := result.2 })
  | .ok i =>
    match fault with
    | none => (.handle i, { s with serve := result.2 })
    -- the loop has been started
    | some .signal => (.thrown .signal, { s with serve := result.2, lost := s.lost ++ [i] })
    -- the loop has not, and the guard is set
    | some fault => (.thrown fault, { s with serve := { s.serve with serveRunning := true } })

/-- One step. A call is recorded with the guard before and after it. -/
def step (s : Calls) : Label → Option Calls
  | .serve args fault =>
    let result := s.call args fault
    some { result.2 with
      calls := s.calls ++
        [⟨result.1, s.pending, s.serve.serveRunning, result.2.serve.serveRunning⟩] }
  | .cycle (.serve _) => none
  | .cycle label => (s.serve.step label).map fun serve => { s with serve := serve }

end Calls

/-- A call throws the already-running error exactly when a handle is out that has not finished,
and a call that throws leaves the guard as it was. -/
structure Call.Exact (c : Call) : Prop where
  refused : c.outcome = .type_error already_running ↔ c.pending ≠ []
  guard : (∀ i, c.outcome ≠ .handle i) → c.guard_after = c.guard_before

/-- Every call of the run is exact. -/
def Exact (s : Calls) : Prop := ∀ c ∈ s.calls, c.Exact

/-- A call is made with a handler and nothing throws in it, where the guard lets it in; and no
call is made between the end of a cycle and the continuation that opens the guard. -/
def Meets (s : Calls) : Label → Prop
  | .serve args fault =>
    (s.serve.serveRunning = false → args ≠ .no_handler ∧ fault = none) ∧
      ∀ c ∈ s.serve.cycles, c.finished = true → c.reset = true
  | .cycle _ => True

/-! ## The guard of a cycle -/

/-- The guard is set for the cycle that has not been reset, which is the last. -/
structure Guarded (s : Serve) : Prop where
  guard : s.serveRunning = true ↔ ∃ c ∈ s.cycles, c.reset = false
  last : ∀ i c, s.cycles[i]? = some c → c.reset = false → i + 1 = s.cycles.length
  settled : ∀ c ∈ s.cycles, c.reset = true → c.finished = true

theorem Guarded.set {s : Serve} (h : Guarded s) {i : ℕ} {c : Cycle} (hc : s.cycles[i]? = some c)
    (c' : Cycle) (hreset : c'.reset = c.reset) (hfin : c.finished = true → c'.finished = true)
    (issued : List ServeGuard.StopServe) :
    Guarded { s with cycles := s.cycles.set i c', issued := issued } := by
  have hlt := (List.getElem?_eq_some_iff.mp hc).1
  have hmem := List.mem_of_getElem? hc
  refine ⟨?_, ?_, ?_⟩
  · rw [h.guard]
    constructor
    · rintro ⟨d, hd, hopen⟩
      obtain ⟨j, hj⟩ := List.mem_iff_getElem?.mp hd
      by_cases hij : i = j
      · subst hij
        rw [hc] at hj
        rw [← Option.some.inj hj] at hopen
        exact ⟨c', List.mem_of_getElem? (List.getElem?_set_self hlt), hreset.trans hopen⟩
      · refine ⟨d, List.mem_of_getElem? (i := j) ?_, hopen⟩
        rw [List.getElem?_set_ne hij]
        exact hj
    · rintro ⟨d, hd, hopen⟩
      rcases List.mem_or_eq_of_mem_set hd with hd | rfl
      · exact ⟨d, hd, hopen⟩
      · exact ⟨c, hmem, hreset ▸ hopen⟩
  · intro j d hd hopen
    dsimp only at hd ⊢
    rw [List.length_set]
    by_cases hij : i = j
    · subst hij
      rw [List.getElem?_set_self hlt] at hd
      rw [← Option.some.inj hd] at hopen
      exact h.last i c hc (hreset ▸ hopen)
    · rw [List.getElem?_set_ne hij] at hd
      exact h.last j d hd hopen
  · intro d hd hr
    rcases List.mem_or_eq_of_mem_set hd with hd | rfl
    · exact h.settled d hd hr
    · exact hfin (h.settled c hmem (hreset ▸ hr))

/-- `doStop` does not touch the guard. -/
theorem Guarded.doStop {s : Serve} (h : Guarded s) (i : ℕ) : Guarded (s.doStop i) := by
  unfold Serve.doStop
  split
  · exact h
  · next c hc =>
    split
    · exact h
    · exact h.set hc { c with stopRequested := true } rfl (fun hfin => hfin) _

/-- The continuation of `finished`: no cycle is left for which the guard would be set. -/
theorem Guarded.reset {s : Serve} (h : Guarded s) {i : ℕ} {c : Cycle} (hc : s.cycles[i]? = some c)
    (hfin : c.finished = true) (hopen : c.reset = false) :
    Guarded { s with serveRunning := false, cycles := s.cycles.set i { c with reset := true } } := by
  have hlt := (List.getElem?_eq_some_iff.mp hc).1
  have hlast := h.last i c hc hopen
  have hclosed : ∀ (j : ℕ) (d : Cycle), (s.cycles.set i { c with reset := true })[j]? = some d →
      d.reset = true := by
    intro j d hd
    by_cases hij : i = j
    · subst hij
      rw [List.getElem?_set_self hlt] at hd
      rw [← Option.some.inj hd]
    · rw [List.getElem?_set_ne hij] at hd
      by_contra hno
      rw [Bool.not_eq_true] at hno
      have hlast' := h.last j d hd hno
      omega
  refine ⟨?_, ?_, ?_⟩
  · refine iff_of_false Bool.false_ne_true ?_
    rintro ⟨d, hd, hno⟩
    obtain ⟨j, hj⟩ := List.mem_iff_getElem?.mp hd
    rw [hclosed j d hj] at hno
    cases hno
  · intro j d hd hno
    rw [hclosed j d hd] at hno
    cases hno
  · intro d hd hr
    rcases List.mem_or_eq_of_mem_set hd with hd | rfl
    · exact h.settled d hd hr
    · exact hfin

/-- What a step other than a call keeps of the guard. -/
theorem guarded_step {s s' : Serve} {label : ServeGuard.Label} (h : Guarded s)
    (hcall : ∀ args, label ≠ .serve args) (hstep : s.step label = some s') : Guarded s' := by
  cases label with
  | serve args => exact absurd rfl (hcall args)
  | loop_settles i fulfilled =>
      obtain ⟨c, hc, hrest⟩ := Option.bind_eq_some_iff.mp hstep
      split at hrest
      · obtain rfl := Option.some.inj hrest
        exact h.set hc { c with loopDone := some fulfilled } rfl (fun hfin => hfin) s.issued
      · cases hrest
  | finishes i =>
      obtain ⟨c, hc, hrest⟩ := Option.bind_eq_some_iff.mp hstep
      split at hrest
      · obtain rfl := Option.some.inj hrest
        exact h.set hc { c with finished := true } rfl (fun _ => rfl) s.issued
      · cases hrest
  | reset_guard i =>
      obtain ⟨c, hc, hrest⟩ := Option.bind_eq_some_iff.mp hstep
      split at hrest
      · next hcond =>
        obtain rfl := Option.some.inj hrest
        exact h.reset hc hcond.1 hcond.2
      · cases hrest
  | close i =>
      simp only [Serve.step] at hstep
      split at hstep
      · obtain rfl := Option.some.inj hstep
        exact h.doStop i
      · cases hstep
  | abort i =>
      obtain ⟨c, hc, hrest⟩ := Option.bind_eq_some_iff.mp hstep
      split at hrest
      · obtain rfl := Option.some.inj hrest
        exact (h.set hc { c with listener := .fired } rfl (fun hfin => hfin) s.issued).doStop i
      · cases hrest

/-- A new cycle, once the guard is open. -/
theorem Guarded.push {s : Serve} (h : Guarded s) (hopen : s.serveRunning = false)
    (listener : ServeGuard.Listener) :
    Guarded { s with
      serveRunning := true
      cycles := s.cycles ++ [⟨false, none, false, false, listener⟩] } := by
  have hclosed : ∀ c ∈ s.cycles, c.reset = true := by
    intro c hc
    by_contra hno
    have hset := h.guard.mpr ⟨c, hc, Bool.not_eq_true _ ▸ hno⟩
    rw [hopen] at hset
    cases hset
  refine ⟨iff_of_true rfl ?_, ?_, ?_⟩
  · exact ⟨_, List.mem_append_right _ (List.mem_singleton_self _), rfl⟩
  · intro i c hc hno
    dsimp only at hc ⊢
    by_cases hlt : i < s.cycles.length
    · rw [List.getElem?_append_left hlt] at hc
      rw [hclosed c (List.mem_of_getElem? hc)] at hno
      cases hno
    · have hi := (List.getElem?_eq_some_iff.mp hc).1
      rw [List.length_append, List.length_singleton] at hi ⊢
      omega
  · intro c hc hr
    rcases List.mem_append.mp hc with hc | hc
    · exact h.settled c hc hr
    · rw [List.mem_singleton.mp hc] at hr
      cases hr

/-! ## What a call does -/

/-- Three ways for a call: it is refused, it has no handler, or it starts a cycle. -/
theorem serve_cases (s : Serve) (args : Args) :
    (s.serveRunning = true ∧ s.serve args = (.error already_running, s)) ∨
    (s.serveRunning = false ∧ args = .no_handler ∧ s.serve args =
      (.error "serve() requires a handler function", { s with serveRunning := true })) ∨
    (s.serveRunning = false ∧ args ≠ .no_handler ∧ ∃ i, (s.serve args).1 = .ok i ∧
      (s.serve args).2.serveRunning = true ∧ (Guarded s → Guarded (s.serve args).2)) := by
  by_cases hrunning : s.serveRunning = true
  · refine Or.inl ⟨hrunning, ?_⟩
    rw [Serve.serve, if_pos hrunning]
    rfl
  · right
    have hopen := Bool.not_eq_true _ ▸ hrunning
    cases args with
    | no_handler =>
        refine Or.inl ⟨hopen, rfl, ?_⟩
        rw [Serve.serve, if_neg hrunning]
    | handler signal_aborted =>
        refine Or.inr ⟨hopen, (fun hno => by cases hno), s.cycles.length, ?_⟩
        rw [Serve.serve, if_neg hrunning]
        refine ⟨rfl, ?_, fun h => ?_⟩
        · dsimp only
          split
          · unfold Serve.doStop
            split
            · rfl
            · split
              · rfl
              · rfl
          · rfl
        · dsimp only
          split
          · exact (h.push hopen _).doStop _
          · exact h.push hopen _

/-- What a call that the guard lets in leaves behind when it throws. -/
theorem call_throws {s : Calls} (hopen : s.serve.serveRunning = false) {args : Args}
    {fault : Option Fault} (h : ¬ (args ≠ .no_handler ∧ fault = none)) :
    (∀ i, (s.call args fault).1 ≠ .handle i) ∧
      (s.call args fault).2.serve.serveRunning = true := by
  rcases serve_cases s.serve args with ⟨hrunning, -⟩ | ⟨-, -, heq⟩ | ⟨-, hargs, i, hok, hset, -⟩
  · rw [hopen] at hrunning
    cases hrunning
  · simp only [Calls.call, heq]
    exact ⟨(fun i hno => by cases hno), trivial⟩
  · simp only [Calls.call, hok]
    cases fault with
    | none => exact absurd ⟨hargs, rfl⟩ h
    | some fault =>
        cases fault with
        | options => exact ⟨(fun i hno => by cases hno), rfl⟩
        | raw_serve => exact ⟨(fun i hno => by cases hno), rfl⟩
        | signal => exact ⟨(fun i hno => by cases hno), hset⟩

/-! ## The invariant -/

/-- The invariant of a run: the guard is set while a cycle runs, no handle is lost, and every call
is exact. -/
structure Inv (s : Calls) : Prop where
  guarded : Guarded s.serve
  lost : s.lost = []
  exact : Exact s

theorem inv_init : Inv Calls.init where
  guarded :=
    { guard := iff_of_false Bool.false_ne_true fun ⟨_, hc, _⟩ => absurd hc List.not_mem_nil
      last := fun _ _ hc => by cases hc
      settled := fun _ hc => absurd hc List.not_mem_nil }
  lost := rfl
  exact _ hc := absurd hc List.not_mem_nil

/-- The guard is set while a cycle runs. -/
theorem Inv.pending_eq {s : Calls} (h : Inv s) : s.pending = s.serve.running := by
  rw [Calls.pending, h.lost]
  apply List.filter_eq_self.mpr
  intro i _
  rfl

/-- A handle is out exactly when the guard is set, outside of the one microtask. -/
theorem Inv.pending_iff {s : Calls} (h : Inv s)
    (hgap : ∀ c ∈ s.serve.cycles, c.finished = true → c.reset = true) :
    s.pending ≠ [] ↔ s.serve.serveRunning = true := by
  rw [h.pending_eq, h.guarded.guard]
  constructor
  · intro hne
    obtain ⟨i, hi⟩ := List.exists_mem_of_ne_nil _ hne
    obtain ⟨c, hc, hfin⟩ := mem_running.mp hi
    refine ⟨c, List.mem_of_getElem? hc, ?_⟩
    by_contra hno
    rw [Bool.not_eq_false] at hno
    rw [h.guarded.settled c (List.mem_of_getElem? hc) hno] at hfin
    cases hfin
  · rintro ⟨c, hc, hopen⟩
    obtain ⟨i, hi⟩ := List.mem_iff_getElem?.mp hc
    apply List.ne_nil_of_mem (a := i)
    refine mem_running.mpr ⟨c, hi, ?_⟩
    by_contra hno
    rw [Bool.not_eq_false] at hno
    rw [hgap c hc hno] at hopen
    cases hopen

/-- In the microtask after the end of a cycle no handle is out, and the guard is set. -/
theorem Inv.gap {s : Calls} (h : Inv s) {c : Cycle} (hc : c ∈ s.serve.cycles)
    (hfin : c.finished = true) (hopen : c.reset = false) :
    s.pending = [] ∧ s.serve.serveRunning = true := by
  refine ⟨?_, h.guarded.guard.mpr ⟨c, hc, hopen⟩⟩
  rw [h.pending_eq, List.eq_nil_iff_forall_not_mem]
  intro j hj
  obtain ⟨d, hd, hrunning⟩ := mem_running.mp hj
  obtain ⟨i, hi⟩ := List.mem_iff_getElem?.mp hc
  have hd_open : d.reset = false := by
    by_contra hno
    rw [Bool.not_eq_false] at hno
    rw [h.guarded.settled d (List.mem_of_getElem? hd) hno] at hrunning
    cases hrunning
  -- both would be the last cycle
  have hlast := h.guarded.last i c hi hopen
  have hlast' := h.guarded.last j d hd hd_open
  have hij : i = j := by omega
  subst hij
  rw [hi] at hd
  rw [← Option.some.inj hd, hfin] at hrunning
  cases hrunning

theorem exact_concat {s : Calls} {call : Call} (h : Exact s) (hcall : call.Exact) :
    ∀ c ∈ s.calls ++ [call], c.Exact := by
  intro c hc
  rcases List.mem_append.mp hc with hc | hc
  · exact h c hc
  · rw [List.mem_singleton.mp hc]
    exact hcall

/-- What one step keeps. -/
theorem inv_step {s s' : Calls} {label : Label} (h : Inv s) (hmeets : Meets s label)
    (hstep : s.step label = some s') : Inv s' := by
  cases label with
  | serve args fault =>
      obtain rfl := Option.some.inj hstep
      have hpending := h.pending_iff hmeets.2
      rcases serve_cases s.serve args with ⟨hrunning, heq⟩ | ⟨hopen, hargs, -⟩ | ⟨hopen, -, i, hok, -, hg⟩
      · -- the guard is set: the call is refused and changes nothing
        simp only [Calls.call, heq]
        refine ⟨h.guarded, h.lost, exact_concat h.exact ⟨?_, fun _ => rfl⟩⟩
        exact iff_of_true rfl (hpending.mpr hrunning)
      · exact absurd hargs (hmeets.1 hopen).1
      · obtain ⟨-, rfl⟩ := hmeets.1 hopen
        simp only [Calls.call, hok]
        refine ⟨hg h.guarded, h.lost, exact_concat h.exact ⟨?_, fun hno => absurd rfl (hno i)⟩⟩
        refine iff_of_false (fun hno => by cases hno) fun hne => ?_
        rw [hpending, hopen] at hne
        cases hne
  | cycle label =>
      cases label with
      | serve args => cases hstep
      | loop_settles i fulfilled =>
          obtain ⟨serve, hserve, rfl⟩ := Option.map_eq_some_iff.mp hstep
          exact ⟨guarded_step h.guarded (fun _ hno => by cases hno) hserve, h.lost, h.exact⟩
      | finishes i =>
          obtain ⟨serve, hserve, rfl⟩ := Option.map_eq_some_iff.mp hstep
          exact ⟨guarded_step h.guarded (fun _ hno => by cases hno) hserve, h.lost, h.exact⟩
      | reset_guard i =>
          obtain ⟨serve, hserve, rfl⟩ := Option.map_eq_some_iff.mp hstep
          exact ⟨guarded_step h.guarded (fun _ hno => by cases hno) hserve, h.lost, h.exact⟩
      | close i =>
          obtain ⟨serve, hserve, rfl⟩ := Option.map_eq_some_iff.mp hstep
          exact ⟨guarded_step h.guarded (fun _ hno => by cases hno) hserve, h.lost, h.exact⟩
      | abort i =>
          obtain ⟨serve, hserve, rfl⟩ := Option.map_eq_some_iff.mp hstep
          exact ⟨guarded_step h.guarded (fun _ hno => by cases hno) hserve, h.lost, h.exact⟩

/-- A call that does not meet the condition is not exact. -/
theorem not_exact_of_not_meets {s : Calls} {label : Label} (h : Inv s) (hmeets : ¬ Meets s label) :
    ∃ s', s.step label = some s' ∧ ¬ Exact s' := by
  cases label with
  | cycle label => exact absurd trivial hmeets
  | serve args fault =>
      refine ⟨_, rfl, fun hexact => ?_⟩
      have hcall := hexact _ (List.mem_append_right _ (List.mem_singleton_self _))
      by_cases hopen : s.serve.serveRunning = false
      · -- the guard stays set behind a call that throws
        have hbad : ¬ (args ≠ .no_handler ∧ fault = none) := by
          intro hgood
          refine hmeets ⟨fun _ => hgood, fun c hc hfin => ?_⟩
          by_contra hno
          have hset := (h.gap hc hfin (Bool.not_eq_true _ ▸ hno)).2
          rw [hopen] at hset
          cases hset
        obtain ⟨hthrown, hset⟩ := call_throws hopen hbad
        have hguard := hcall.guard hthrown
        dsimp only at hguard
        rw [hset, hopen] at hguard
        cases hguard
      · have hgap : ∃ c ∈ s.serve.cycles, c.finished = true ∧ c.reset = false := by
          by_contra hno
          push Not at hno
          refine hmeets ⟨fun hyes => absurd hyes hopen, fun c hc hfin => ?_⟩
          exact Bool.not_eq_false _ ▸ hno c hc hfin
        obtain ⟨c, hc, hfin, hreset⟩ := hgap
        obtain ⟨hpending, hrunning⟩ := h.gap hc hfin hreset
        have hrefused : (s.call args fault).1 = .type_error already_running := by
          rcases serve_cases s.serve args with ⟨-, heq⟩ | ⟨hno, -⟩ | ⟨hno, -⟩
          · simp only [Calls.call, heq]
          · exact absurd hno hopen
          · exact absurd hno hopen
        exact hcall.refused.mp hrefused hpending

/-- **When the guard is exact.** Along a schedule every call throws the already-running error
exactly when a handle is out that has not finished, and leaves the guard as it was where it throws,
exactly when every call that the guard lets in has a handler and nothing in it throws, and no call
comes in the microtask between the end of a cycle and the opening of the guard. -/
theorem guard_exact_iff (l : List Label) :
    Machine.Along Calls.step Meets Calls.init l ↔
      ∀ n t, Machine.run Calls.step Calls.init (l.take n) = some t → Exact t :=
  Machine.along_iff_forall_prefix (fun _ _ _ h hm hs => inv_step h hm hs) (fun _ h => h.exact)
    (fun _ _ h hm => not_exact_of_not_meets h hm) inv_init l

/-- A call without a handler throws and leaves the guard set, and the next one is refused though no
handle has ever been returned. -/
theorem no_handler_locks :
    ¬ ∀ l t, Machine.run Calls.step Calls.init l = some t → Exact t := by
  intro h
  have hexact := h [.serve .no_handler none, .serve (.handler none) none] _ rfl
  have hsecond := hexact ⟨.type_error already_running, [], true, true⟩ (by decide)
  exact hsecond.refused.mp rfl rfl

end IrohHttp.ServeRefusals
