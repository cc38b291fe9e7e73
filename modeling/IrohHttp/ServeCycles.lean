/-
Who owns an endpoint's serve slot, `iroh-http-core/src/endpoint/lifecycle.rs`,
`endpoint/mod.rs` and `http/server/handle.rs`.

An endpoint has one slot for the running serve cycle and one for the service
that answers its requests to itself. `serve` registers a cycle and then installs
its service; an adapter confirms the handle later; `stop_serve`, `close` and
`close_force` may come in between, from anywhere. Each label here is one critical
section: of the `serve_handle` mutex, or, for the clear of a close, of the
`local_service` mutex alone.

A cycle is its token, and `local_service` is the token of the cycle whose service
it is. Tokens are fresh: a cycle is registered once. `Cycles` keeps the past of the
cycles beside the slot, as the labels and the slot before each of them have it.
-/
import Mathlib.Logic.Function.Basic
import IrohHttp.Machine

set_option autoImplicit false

open Machine

namespace IrohHttp.Serve

/-! ## The handle of a cycle -/

/-- The flags that the clones of a `ServeHandle` share. -/
structure ServeHandle where
  shutdown_requested : Bool
  close_flag : Bool
  abort_requested : Bool
  deriving DecidableEq, Repr

namespace ServeHandle

/-- A cycle that has just been made. -/
def pending : ServeHandle := ⟨false, false, false⟩

/-- `shutdown`. -/
def shutdown (h : ServeHandle) : ServeHandle := { h with shutdown_requested := true }

/-- `shutdown` and the close flag, as a replaced cycle gets them. -/
def shutdown_and_close (h : ServeHandle) : ServeHandle :=
  { h with shutdown_requested := true, close_flag := true }

/-- `abort`. -/
def abort (h : ServeHandle) : ServeHandle := { h with abort_requested := true }

end ServeHandle

/-! ## The endpoint -/

/-- A `close` or a `close_force` has taken the slot; it has signalled the cycle it
took, and then it has cleared the local service. -/
inductive ClosePhase
  | taken
  | signalled
  | cleared
  deriving DecidableEq, Repr

/-- A call of `close` or `close_force`, with the cycle it took out of the slot. -/
structure CloseCall (T : Type) where
  force : Bool
  held : Option T
  phase : ClosePhase
  deriving DecidableEq, Repr

/-- `closes` are the calls of `close` and `close_force`, with what each has in hand. -/
structure ServeSlot (T : Type) where
  handles : T → ServeHandle
  serve_handle : Option T
  serve_done_rx : Option T
  serve_stopped_gen : Option T
  local_service : Option T
  closes : List (CloseCall T)

/-- The operations on the slot, one for each critical section. -/
inductive SlotStep (T : Type)
  | register_serve_handle (c : T)
  | set_local_service_for (c : T)
  | set_serve_handle (c : T)
  | stop_serve
  /-- the first critical section of `close` or `close_force` -/
  | close (force : Bool)
  /-- the `i`-th close shuts down or aborts what it took -/
  | signal (i : ℕ)
  /-- the `i`-th close clears the local service -/
  | clear (i : ℕ)
  deriving DecidableEq, Repr

namespace ServeSlot

variable {T : Type} [DecidableEq T]

/-- The slot of a fresh endpoint. -/
def init : ServeSlot T where
  handles _ := .pending
  serve_handle := none
  serve_done_rx := none
  serve_stopped_gen := none
  local_service := none
  closes := []

/-- The test of `set_local_service_for`: still the active cycle, and unstopped. -/
def installs (s : ServeSlot T) (c : T) : Bool :=
  s.serve_handle == some c && !(s.handles c).shutdown_requested

/-- Shutting down the cycle that is in the slot, if there is one. -/
def close_previous (s : ServeSlot T) : ServeSlot T :=
  match s.serve_handle with
  | none => s
  | some prev =>
    { s with handles := Function.update s.handles prev (s.handles prev).shutdown_and_close }

/-- `register_serve_handle`: the cycle before it is stopped and its service removed, then this one
takes the slot. -/
def register_serve_handle (s : ServeSlot T) (c : T) : ServeSlot T :=
  -- the same cycle again: `is_same_cycle` makes it return early
  if s.serve_handle = some c then s
  else
    { s.close_previous with
      local_service := none
      serve_done_rx := some c
      serve_handle := some c }

/-- `set_local_service_for`: the service is installed when the cycle still holds the slot, and has
not been told to stop. -/
def set_local_service_for (s : ServeSlot T) (c : T) : ServeSlot T :=
  if s.installs c then { s with local_service := some c } else s

/-- `set_serve_handle`: the confirmation of a registered cycle. -/
def set_serve_handle (s : ServeSlot T) (c : T) : ServeSlot T :=
  if s.serve_handle = some c then s
  -- a late confirmation of a cycle that lost the slot shuts that cycle down
  else { s with handles := Function.update s.handles c (s.handles c).shutdown_and_close }

/-- `stop_serve`: the cycle in the slot is told to stop, and its service is removed. -/
def stop_serve (s : ServeSlot T) : ServeSlot T :=
  match s.serve_handle with
  -- the slot keeps the stopped cycle: only its handle says that it is stopped
  | none => { s with local_service := none }
  | some c =>
    { s with
      local_service := none
      serve_stopped_gen := some c
      handles := Function.update s.handles c (s.handles c).shutdown }

/-- The first critical section of `close`: the cycle leaves the slot. -/
def close (s : ServeSlot T) (force : Bool) : ServeSlot T :=
  { s with
    serve_handle := none
    closes := s.closes ++ [⟨force, s.serve_handle, .taken⟩] }

/-- `drain` begins with `shutdown`; `close_force` aborts instead. -/
def signal (s : ServeSlot T) (call : CloseCall T) : T → ServeHandle :=
  match call.held with
  | none => s.handles
  | some c =>
    Function.update s.handles c
      (if call.force then (s.handles c).abort else (s.handles c).shutdown)

/-- One critical section. A close shuts its cycle down and then clears the service, in two more of
them. -/
def step (s : ServeSlot T) : SlotStep T → Option (ServeSlot T)
  | .register_serve_handle c => some (s.register_serve_handle c)
  | .set_local_service_for c => some (s.set_local_service_for c)
  | .set_serve_handle c => some (s.set_serve_handle c)
  | .stop_serve => some s.stop_serve
  | .close force => some (s.close force)
  | .signal i =>
    match s.closes[i]? with
    | some ⟨force, held, .taken⟩ =>
      some { s with
        handles := s.signal ⟨force, held, .taken⟩
        closes := s.closes.set i ⟨force, held, .signalled⟩ }
    | _ => none
  | .clear i =>
    match s.closes[i]? with
    | some ⟨force, held, .signalled⟩ =>
      some { s with local_service := none, closes := s.closes.set i ⟨force, held, .cleared⟩ }
    | _ => none

/-- A close that took `c` has not reached its clear. -/
def Held (s : ServeSlot T) (c : T) : Prop :=
  ∃ call ∈ s.closes, call.held = some c ∧ call.phase ≠ .cleared

/-- The test of `set_local_service_for` is that of the cycle in the slot, unstopped. -/
theorem installs_iff {s : ServeSlot T} {c : T} :
    s.installs c = true ↔ s.serve_handle = some c ∧ (s.handles c).shutdown_requested = false := by
  simp [installs]

/-- The only step that brings a local service is an install whose test is passed. -/
theorem installed_by {s s' : ServeSlot T} {label : SlotStep T} (hstep : s.step label = some s')
    {c : T} (hafter : s'.local_service = some c) (hbefore : s.local_service ≠ some c) :
    label = .set_local_service_for c ∧ s.installs c = true := by
  -- every other step keeps the service, or clears it
  cases label with
  | register_serve_handle d =>
      cases hstep
      unfold register_serve_handle at hafter
      split at hafter
      · exact absurd hafter hbefore
      · cases hafter
  | set_local_service_for d =>
      cases hstep
      unfold set_local_service_for at hafter
      split at hafter
      · next hin =>
        cases hafter
        exact ⟨rfl, hin⟩
      · exact absurd hafter hbefore
  | set_serve_handle d =>
      cases hstep
      unfold set_serve_handle at hafter
      split at hafter <;> exact absurd hafter hbefore
  | stop_serve =>
      cases hstep
      unfold stop_serve at hafter
      split at hafter <;> cases hafter
  | close force =>
      cases hstep
      exact absurd hafter hbefore
  | signal i =>
      simp only [step] at hstep
      split at hstep
      · cases hstep
        exact absurd hafter hbefore
      · cases hstep
  | clear i =>
      simp only [step] at hstep
      split at hstep
      · cases hstep
        cases hafter
      · cases hstep

end ServeSlot

/-! ## The past of the cycles -/

/-- The slot with the cycles that have been registered, and those that were in the
slot when another was registered, when `stop_serve` came, and when a close came. -/
structure Cycles (T : Type) where
  slot : ServeSlot T
  registered : List T
  replaced : List T
  stopped : List T
  taken : List T

namespace Cycles

variable {T : Type} [DecidableEq T]

/-- No step was taken. -/
def init : Cycles T := ⟨ServeSlot.init, [], [], [], []⟩

/-- The past after a label, which finds the slot as it is. -/
def record (x : Cycles T) (label : SlotStep T) : Cycles T :=
  match label with
  | .register_serve_handle c =>
    { x with registered := c :: x.registered, replaced := x.slot.serve_handle.toList ++ x.replaced }
  | .stop_serve => { x with stopped := x.slot.serve_handle.toList ++ x.stopped }
  | .close _ => { x with taken := x.slot.serve_handle.toList ++ x.taken }
  | _ => x

/-- A cycle is registered once, before its service or its handle are handed in. -/
def admits (x : Cycles T) : SlotStep T → Bool
  | .register_serve_handle c => c ∉ x.registered
  | .set_local_service_for c => c ∈ x.registered
  | .set_serve_handle c => c ∈ x.registered
  | _ => true

/-- A step of the slot, which the record keeps. -/
def step (x : Cycles T) (label : SlotStep T) : Option (Cycles T) :=
  if x.admits label then (x.slot.step label).map fun slot => { x.record label with slot := slot }
  else none

/-! ## Ownership -/

/-- The invariant of a run: a replaced or stopped cycle has been told so, the slot and the closes
hold registered cycles, and a service installed belongs to the cycle in the slot or to one a close
holds. -/
structure Inv (x : Cycles T) : Prop where
  replaced : ∀ c ∈ x.replaced,
    (x.slot.handles c).shutdown_requested = true ∧ (x.slot.handles c).close_flag = true
  stopped : ∀ c ∈ x.stopped, (x.slot.handles c).shutdown_requested = true
  current : ∀ c, x.slot.serve_handle = some c →
    c ∈ x.registered ∧ c ∉ x.replaced ∧ c ∉ x.taken
  past : ∀ c, c ∈ x.replaced ∨ c ∈ x.taken → c ∈ x.registered
  held : ∀ call ∈ x.slot.closes, ∀ c, call.held = some c → c ∈ x.taken
  served : ∀ c, x.slot.local_service = some c →
    x.slot.serve_handle = some c ∧ (x.slot.handles c).shutdown_requested = false ∨ x.slot.Held c

omit [DecidableEq T] in
theorem inv_init : Inv (init : Cycles T) where
  replaced := nofun
  stopped := nofun
  current := nofun
  past c h := by simp [init] at h
  held := nofun
  served := nofun

/-- No flag of a handle is ever taken back. -/
def Grown (h h' : ServeHandle) : Prop :=
  (h.shutdown_requested = true → h'.shutdown_requested = true) ∧
    (h.close_flag = true → h'.close_flag = true)

theorem grown_update (handles : T → ServeHandle) (c : T) {h' : ServeHandle}
    (hg : Grown (handles c) h') (d : T) : Grown (handles d) (Function.update handles c h' d) := by
  by_cases hd : d = c
  · rw [hd, Function.update_self]
    exact hg
  · rw [Function.update_of_ne hd]
    exact ⟨id, id⟩

theorem grown_shutdown (h : ServeHandle) : Grown h h.shutdown := ⟨fun _ => rfl, id⟩

theorem grown_shutdown_and_close (h : ServeHandle) : Grown h h.shutdown_and_close :=
  ⟨fun _ => rfl, fun _ => rfl⟩

theorem grown_abort (h : ServeHandle) : Grown h h.abort := ⟨id, id⟩

/-- Registering replaces what was in the slot and leaves no local service. -/
theorem Inv.register {x : Cycles T} (h : Inv x) {c : T} (hfresh : c ∉ x.registered) :
    Inv { x.record (.register_serve_handle c) with slot := x.slot.register_serve_handle c } := by
  -- a token is new, so the cycle is not in the past
  have hne : x.slot.serve_handle ≠ some c := fun hc => hfresh (h.current c hc).1
  have hold : c ∉ x.replaced ∧ c ∉ x.taken :=
    ⟨fun hc => hfresh (h.past c (.inl hc)), fun hc => hfresh (h.past c (.inr hc))⟩
  unfold record ServeSlot.register_serve_handle ServeSlot.close_previous
  rw [if_neg hne]
  cases hslot : x.slot.serve_handle with
  | none =>
      refine ⟨h.replaced, h.stopped, ?_, ?_, h.held, nofun⟩
      · rintro d hd
        cases hd
        exact ⟨List.mem_cons_self, hold⟩
      · exact fun d hd => List.mem_cons_of_mem c (h.past d hd)
  | some prev =>
      obtain ⟨hreg, -, -⟩ := h.current prev hslot
      have hgrown := grown_update x.slot.handles prev (grown_shutdown_and_close (x.slot.handles prev))
      refine ⟨?_, ?_, ?_, ?_, h.held, nofun⟩
      · intro d hd
        rcases List.mem_cons.mp hd with rfl | hd
        · simp [ServeHandle.shutdown_and_close]
        · exact ⟨(hgrown d).1 (h.replaced d hd).1, (hgrown d).2 (h.replaced d hd).2⟩
      · exact fun d hd => (hgrown d).1 (h.stopped d hd)
      · rintro d hd
        cases hd
        refine ⟨List.mem_cons_self, fun hc => ?_, hold.2⟩
        rcases List.mem_cons.mp hc with rfl | hc
        · exact hfresh hreg
        · exact hold.1 hc
      · rintro d (hd | hd)
        · rcases List.mem_cons.mp hd with rfl | hd
          · exact List.mem_cons_of_mem c hreg
          · exact List.mem_cons_of_mem c (h.past d (.inl hd))
        · exact List.mem_cons_of_mem c (h.past d (.inr hd))

/-- An install keeps the invariant: it is of the cycle in the slot. -/
theorem Inv.set_local_service_for {x : Cycles T} (h : Inv x) (c : T) :
    Inv { x with slot := x.slot.set_local_service_for c } := by
  unfold ServeSlot.set_local_service_for
  split
  · next hin =>
    refine ⟨h.replaced, h.stopped, h.current, h.past, h.held, ?_⟩
    rintro d hd
    cases hd
    exact .inl (ServeSlot.installs_iff.mp hin)
  · exact h

/-- The flags of a cycle outside the slot change: the rest stays. -/
theorem Inv.update_handle {x : Cycles T} (h : Inv x) {c : T} (hout : x.slot.serve_handle ≠ some c)
    {h' : ServeHandle} (hg : Grown (x.slot.handles c) h') :
    Inv { x with
      slot := { x.slot with handles := Function.update x.slot.handles c h' } } := by
  have hgrown := grown_update x.slot.handles c hg
  refine ⟨fun d hd => ?_, fun d hd => (hgrown d).1 (h.stopped d hd), h.current, h.past, h.held, ?_⟩
  · exact ⟨(hgrown d).1 (h.replaced d hd).1, (hgrown d).2 (h.replaced d hd).2⟩
  · intro d hd
    refine (h.served d hd).imp_left ?_
    rintro ⟨hslot, hopen⟩
    -- the cycle that serves is the one in the slot, and that one is not touched
    have hdc : d ≠ c := by
      rintro rfl
      exact hout hslot
    refine ⟨hslot, ?_⟩
    simp only [Function.update_of_ne hdc]
    exact hopen

/-- So does a confirmation. -/
theorem Inv.set_serve_handle {x : Cycles T} (h : Inv x) (c : T) :
    Inv { x with slot := x.slot.set_serve_handle c } := by
  unfold ServeSlot.set_serve_handle
  split
  · exact h
  · next hout => exact h.update_handle hout (grown_shutdown_and_close _)

/-- A stop shuts down what is in the slot and leaves no local service. -/
theorem Inv.stop_serve {x : Cycles T} (h : Inv x) :
    Inv { x.record .stop_serve with slot := x.slot.stop_serve } := by
  have hcurrent := h.current
  unfold record ServeSlot.stop_serve
  cases hslot : x.slot.serve_handle with
  | none =>
      rw [hslot] at hcurrent
      exact ⟨h.replaced, h.stopped, hcurrent, h.past, h.held, nofun⟩
  | some c =>
      rw [hslot] at hcurrent
      have hgrown := grown_update x.slot.handles c (grown_shutdown (x.slot.handles c))
      refine ⟨fun d hd => ?_, fun d hd => ?_, hcurrent, h.past, h.held, nofun⟩
      · exact ⟨(hgrown d).1 (h.replaced d hd).1, (hgrown d).2 (h.replaced d hd).2⟩
      · rcases List.mem_cons.mp hd with rfl | hd
        · simp [ServeHandle.shutdown]
        · exact (hgrown d).1 (h.stopped d hd)

omit [DecidableEq T] in
/-- A close takes the cycle along with the duty to clear its service. -/
theorem Inv.close {x : Cycles T} (h : Inv x) (force : Bool) :
    Inv { x.record (.close force) with slot := x.slot.close force } := by
  unfold record ServeSlot.close
  refine ⟨h.replaced, h.stopped, nofun, ?_, ?_, ?_⟩
  · rintro c (hc | hc)
    · exact h.past c (.inl hc)
    · rcases List.mem_append.mp hc with hnow | hbefore
      · exact (h.current c (Option.mem_toList.mp hnow)).1
      · exact h.past c (.inr hbefore)
  · intro call hcall c hc
    rcases List.mem_append.mp hcall with hold | hnew
    · exact List.mem_append_right _ (h.held call hold c hc)
    · rw [List.mem_singleton.mp hnew] at hc
      exact List.mem_append_left _ (Option.mem_toList.mpr hc)
  · intro c hc
    -- the slot is empty now, so whoever is served must be held
    right
    rcases h.served c hc with ⟨hslot, -⟩ | ⟨call, hcall, hheld⟩
    · exact ⟨_, List.mem_append_right _ (List.mem_singleton.mpr rfl), hslot, nofun⟩
    · exact ⟨call, List.mem_append_left _ hcall, hheld⟩

omit [DecidableEq T] in
/-- A call of the list at its next phase holds what it held. -/
theorem Inv.held_set {x : Cycles T} (h : Inv x) {i : ℕ} {force : Bool} {held : Option T}
    {phase : ClosePhase} (hi : x.slot.closes[i]? = some ⟨force, held, phase⟩)
    (phase' : ClosePhase) :
    ∀ call ∈ x.slot.closes.set i ⟨force, held, phase'⟩, ∀ c, call.held = some c → c ∈ x.taken := by
  intro call hcall c hc
  rcases List.mem_or_eq_of_mem_set hcall with hold | rfl
  · exact h.held call hold c hc
  · exact h.held _ (List.mem_of_getElem? hi) c hc

/-- A close shuts its cycle down. -/
theorem Inv.signal {x : Cycles T} (h : Inv x) {i : ℕ} {slot : ServeSlot T}
    (hstep : x.slot.step (.signal i) = some slot) : Inv { x with slot := slot } := by
  simp only [ServeSlot.step] at hstep
  split at hstep
  · next force held hi =>
    cases hstep
    have hmem := List.mem_of_getElem? hi
    -- what a close holds is out of the slot for good
    have hhandles : Inv { x with
        slot := { x.slot with handles := x.slot.signal ⟨force, held, .taken⟩ } } := by
      unfold ServeSlot.signal
      cases held with
      | none => exact h
      | some c =>
          have hout : x.slot.serve_handle ≠ some c :=
            fun hc => (h.current c hc).2.2 (h.held _ hmem c rfl)
          refine h.update_handle hout ?_
          split
          · exact grown_abort _
          · exact grown_shutdown _
    refine ⟨hhandles.replaced, hhandles.stopped, h.current, h.past, h.held_set hi .signalled, ?_⟩
    intro c hc
    refine (hhandles.served c hc).imp_right ?_
    rintro ⟨call, hcall, hheld, hphase⟩
    -- a call that has signalled still owes its clear
    obtain ⟨j, hj⟩ := List.mem_iff_getElem?.mp hcall
    by_cases hij : i = j
    · subst hij
      have hsame : call = ⟨force, held, .taken⟩ := Option.some.inj (hj.symm.trans hi)
      subst hsame
      refine ⟨_, List.mem_iff_getElem?.mpr ⟨i, List.getElem?_set_self ?_⟩, hheld, nofun⟩
      exact (List.getElem?_eq_some_iff.mp hi).1
    · refine ⟨call, List.mem_iff_getElem?.mpr ⟨j, ?_⟩, hheld, hphase⟩
      rw [List.getElem?_set_ne hij]
      exact hj
  · cases hstep

/-- A close clears the service, whoever installed it. -/
theorem Inv.clear {x : Cycles T} (h : Inv x) {i : ℕ} {slot : ServeSlot T}
    (hstep : x.slot.step (.clear i) = some slot) : Inv { x with slot := slot } := by
  simp only [ServeSlot.step] at hstep
  split at hstep
  · next force held hi =>
    cases hstep
    exact ⟨h.replaced, h.stopped, h.current, h.past, h.held_set hi .cleared, nofun⟩
  · cases hstep

/-- A step is one of the slot's, which the past admits. -/
theorem step_eq_some {x x' : Cycles T} {label : SlotStep T} (hstep : x.step label = some x') :
    x.admits label = true ∧ ∃ slot, x.slot.step label = some slot ∧
      x' = { x.record label with slot := slot } := by
  rw [step, Option.ite_none_right_eq_some] at hstep
  obtain ⟨hadmits, hmap⟩ := hstep
  obtain ⟨slot, hslot, heq⟩ := Option.map_eq_some_iff.mp hmap
  exact ⟨hadmits, slot, hslot, heq.symm⟩

/-- Every critical section keeps the invariant. -/
theorem inv_step (x : Cycles T) (label : SlotStep T) (x' : Cycles T) (h : Inv x)
    (hstep : x.step label = some x') : Inv x' := by
  obtain ⟨hadmits, slot, hslot, rfl⟩ := step_eq_some hstep
  cases label with
  | register_serve_handle c =>
      cases hslot
      exact h.register (of_decide_eq_true hadmits)
  | set_local_service_for c =>
      cases hslot
      exact h.set_local_service_for c
  | set_serve_handle c =>
      cases hslot
      exact h.set_serve_handle c
  | stop_serve =>
      cases hslot
      exact h.stop_serve
  | close force =>
      cases hslot
      exact h.close force
  | signal i => exact h.signal hslot
  | clear i => exact h.clear hslot

/-- **Serve-cycle ownership.** In every reachable state, a replaced cycle is shut
down and closed; the step that brings the local service of a cycle is its own
install, and the cycle has been neither stopped nor replaced nor taken; and a cycle
whose service is installed is the unstopped one in the slot or is held by a close
that has yet to clear it. -/
theorem serve_cycle_ownership (l : List (SlotStep T)) (x : Cycles T) (h : run step init l = some x) :
    (∀ c ∈ x.replaced,
      (x.slot.handles c).shutdown_requested = true ∧ (x.slot.handles c).close_flag = true) ∧
    (∀ label x' c, x.step label = some x' → x'.slot.local_service = some c →
      x.slot.local_service ≠ some c → label = .set_local_service_for c ∧
        c ∉ x.stopped ∧ c ∉ x.replaced ∧ c ∉ x.taken) ∧
    ∀ c, x.slot.local_service = some c →
      x.slot.serve_handle = some c ∧ c ∉ x.stopped ∧
          (x.slot.handles c).shutdown_requested = false ∨
        x.slot.Held c := by
  have hinv : Inv x := run_invariant inv_step inv_init h
  have hopen : ∀ c, (x.slot.handles c).shutdown_requested = false → c ∉ x.stopped := by
    intro c hc hmem
    rw [hinv.stopped c hmem] at hc
    exact nomatch hc
  refine ⟨hinv.replaced, fun label x' c hstep hafter hbefore => ?_, fun c hc => ?_⟩
  · obtain ⟨-, slot, hslot, rfl⟩ := step_eq_some hstep
    obtain ⟨hlabel, hin⟩ := ServeSlot.installed_by hslot hafter hbefore
    obtain ⟨hcurrent, hnot⟩ := ServeSlot.installs_iff.mp hin
    obtain ⟨-, hreplaced, htaken⟩ := hinv.current c hcurrent
    exact ⟨hlabel, hopen c hnot, hreplaced, htaken⟩
  · refine (hinv.served c hc).imp_left ?_
    rintro ⟨hslot, hnot⟩
    exact ⟨hslot, hopen c hnot, hnot⟩

/-- A cycle is replaced before its service arrives, its successor serves, a close
holds that one, and a third is stopped before its service arrives. -/
theorem serve_cycle_ownership_replaced :
    ∃ x : Cycles ℕ,
      run step init [.register_serve_handle 1, .register_serve_handle 2, .set_local_service_for 1,
        .set_local_service_for 2, .set_serve_handle 1, .close false, .register_serve_handle 3,
        .stop_serve, .set_local_service_for 3, .register_serve_handle 4,
        .set_local_service_for 4] = some x ∧
      x.replaced = [3, 1] ∧ x.stopped = [3] ∧ x.taken = [2] ∧ x.slot.local_service = some 4 ∧
      (x.slot.handles 3).close_flag = true ∧ x.slot.serve_handle = some 4 := by
  have hrun : run step (init : Cycles ℕ) [.register_serve_handle 1, .register_serve_handle 2,
      .set_local_service_for 1, .set_local_service_for 2, .set_serve_handle 1, .close false,
      .register_serve_handle 3, .stop_serve, .set_local_service_for 3, .register_serve_handle 4,
      .set_local_service_for 4] = some _ := rfl
  obtain ⟨hclosed, -, howner⟩ := serve_cycle_ownership _ _ hrun
  refine ⟨_, hrun, rfl, rfl, rfl, rfl, (hclosed 3 List.mem_cons_self).2, ?_⟩
  refine ((howner 4 rfl).resolve_right ?_).1
  -- what the close of this run holds is the second cycle
  rintro ⟨call, hcall, hheld, -⟩
  cases List.mem_singleton.mp hcall
  cases hheld

end Cycles

end IrohHttp.Serve
