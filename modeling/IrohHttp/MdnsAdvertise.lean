/-
`dns_sd.rs`: an mDNS advertisement is replaced by withdrawing it and announcing it
again, up to a second later, and closed from another thread at any time.

An update looks at the `closing` flag before it is queued, again under the operation
lock, and once more between the goodbye and the new registration, all under that lock.
Closing sets the flag and leaves the rest to one cleanup, which takes the same lock
before it unregisters the service and shuts the daemon down.

One step is one access to the flag or the lock, or one daemon command, whose result may
be anything. `commands` records them all, with their results.
-/
import IrohHttp.Machine
import IrohHttp.Parties

set_option autoImplicit false

namespace IrohHttp.MdnsAdvertise

open Parties

/-! ## Daemon commands -/

/-- The results of `mdns_sd` that the code tells apart. -/
inductive Error
  | Again
  | DaemonShutdown
  | other (message : String)
  deriving DecidableEq

/-- What a command of the daemon comes to. -/
abbrev Outcome := Except Error Unit

/-- The error of a transport: a text, or the daemon's. -/
inductive TransportError
  | text (message : String)
  | daemon (error : Error)

/-- How often a command is sent again when the daemon's queue is full. -/
def DAEMON_COMMAND_RETRIES : ℕ := 100

/-- `retry_daemon_command`: the retries left, if the command is given again. -/
def retry (retries : ℕ) : Outcome → Option ℕ
  | .error .Again => if retries ≠ 0 then some (retries - 1) else none
  | _ => none

/-- The last part of `stop_after_unregister`, with the results of both commands. -/
def stop_result (unregistered stopped : Outcome) : Outcome :=
  let stopped :=
    match stopped with
    | .error .DaemonShutdown => .ok ()
    | result => result
  match unregistered with
  | .ok _ => stopped
  | .error .DaemonShutdown => stopped
  | .error error => .error error

/-! ## The advertisement -/

variable {Info : Type}

/-- The commands that go to the daemon, those of the cleanup apart. -/
inductive Command (Info : Type)
  | unregister
  | register (info : Info)
  | cleanup_unregister
  | cleanup_shutdown

/-- Whether the cleanup sent it. -/
def Command.of_cleanup : Command Info → Bool
  | .cleanup_unregister => true
  | .cleanup_shutdown => true
  | _ => false

/-- A call of `update` with the record it wants, one of `request_close`, or a cleanup, by
its next step. -/
inductive Party (Info : Type)
  | update_check (info : Except String Info)
  | update_lock (info : Info)
  | update_locked (info : Info)
  | update_unregister (info : Info) (retries : ℕ)
  | update_goodbye (info : Info)
  | update_wait (info : Info)
  | update_decide (info : Info)
  | update_register (info : Info) (retries : ℕ)
  | update_returned (result : Except TransportError Unit)
  | close_swap
  | close_spawn
  | close_returned
  | cleanup_lock
  | cleanup_check
  | cleanup_unregister (retries : ℕ)
  | cleanup_shutdown (unregistered : Outcome) (retries : ℕ)
  | cleanup_returned

/-- An advertisement: its parties, the lock of the transaction, the result of the close, and the
record of the commands. -/
structure MdnsAdvertisement (Info : Type) where
  parties : List (Party Info) := []
  operation : Option ℕ := none
  close_result : Option Outcome := none
  closing : Bool := false
  commands : List (Command Info × Outcome) := []

/-- `update` carries what `service_info` makes of the new configuration, or why there is
none: it cannot be built, or has another identity. -/
inductive Label (Info : Type)
  | update (info : Except String Info)
  | request_close
  | advance (party : ℕ)
  | command (party : ℕ) (result : Outcome)
  | goodbye (party : ℕ) (result : Except String Unit)
  | spawned (party : ℕ) (ok : Bool)

namespace MdnsAdvertisement

/-- A party gets to another place. -/
def move (s : MdnsAdvertisement Info) (party : ℕ) (p : Party Info) : MdnsAdvertisement Info :=
  { s with parties := s.parties.set party p }

/-- A new party: an update or a close. -/
def begin_party (s : MdnsAdvertisement Info) (p : Party Info) : MdnsAdvertisement Info :=
  { s with parties := s.parties ++ [p] }

/-- The lock of the transaction, when it is free. -/
def lock (s : MdnsAdvertisement Info) (party : ℕ) (p : Party Info) :
    Option (MdnsAdvertisement Info) :=
  if s.operation = none then some ({ s with operation := some party }.move party p) else none

/-- The guard of the operation lock goes. -/
def unlock (s : MdnsAdvertisement Info) (party : ℕ) (p : Party Info) : MdnsAdvertisement Info :=
  { s with operation := none }.move party p

/-- The error of an update that comes too late. -/
def closed_error : Except TransportError Unit := .error (.text "advertisement is closed")

/-- The steps without a result from outside. -/
def advance (s : MdnsAdvertisement Info) (party : ℕ) :
    Party Info → Option (MdnsAdvertisement Info)
  | .update_check info =>
    if s.closing then some (s.move party (.update_returned closed_error))
    else
      match info with
      | .ok info => some (s.move party (.update_lock info))
      | .error error => some (s.move party (.update_returned (.error (.text error))))
  | .update_lock info => s.lock party (.update_locked info)
  | .update_locked info =>
    if s.closing then some (s.unlock party (.update_returned closed_error))
    else some (s.move party (.update_unregister info DAEMON_COMMAND_RETRIES))
  -- the wait ends when its time is up, or when the flag is set
  | .update_wait info => some (s.move party (.update_decide info))
  | .update_decide info =>
    if s.closing then some (s.unlock party (.update_returned closed_error))
    else some (s.move party (.update_register info DAEMON_COMMAND_RETRIES))
  | .close_swap =>
    if s.closing then some (s.move party .close_returned)
    else some ({ s with closing := true }.move party .close_spawn)
  | .cleanup_lock => s.lock party .cleanup_check
  | .cleanup_check =>
    if s.close_result.isSome then some (s.unlock party .cleanup_returned)
    else some (s.move party (.cleanup_unregister DAEMON_COMMAND_RETRIES))
  | _ => none

/-- A command has gone to the daemon. -/
def issue (s : MdnsAdvertisement Info) (command : Command Info) (result : Outcome) :
    MdnsAdvertisement Info :=
  { s with commands := s.commands ++ [(command, result)] }

/-- The end of a cleanup. -/
def close (s : MdnsAdvertisement Info) (party : ℕ) (result : Outcome) : MdnsAdvertisement Info :=
  { s with close_result := some result }.unlock party .cleanup_returned

/-- A daemon command and its result. -/
def command (s : MdnsAdvertisement Info) (party : ℕ) (result : Outcome) :
    Party Info → Option (MdnsAdvertisement Info)
  | .update_unregister info retries =>
    let s := s.issue .unregister result
    match retry retries result, result with
    | some retries, _ => some (s.move party (.update_unregister info retries))
    | none, .ok _ => some (s.move party (.update_goodbye info))
    | none, .error error => some (s.unlock party (.update_returned (.error (.daemon error))))
  | .update_register info retries =>
    let s := s.issue (.register info) result
    match retry retries result with
    | some retries => some (s.move party (.update_register info retries))
    | none => some (s.unlock party (.update_returned (result.mapError .daemon)))
  | .cleanup_unregister retries =>
    let s := s.issue .cleanup_unregister result
    match retry retries result with
    | some retries => some (s.move party (.cleanup_unregister retries))
    | none =>
      if result = .error .DaemonShutdown then some (s.close party (.ok ()))
      else some (s.move party (.cleanup_shutdown result DAEMON_COMMAND_RETRIES))
  | .cleanup_shutdown unregistered retries =>
    let s := s.issue .cleanup_shutdown result
    match retry retries result with
    | some retries => some (s.move party (.cleanup_shutdown unregistered retries))
    | none => some (s.close party (stop_result unregistered result))
  | _ => none

/-- The answer to the unregistration, or a timeout. -/
def goodbye (s : MdnsAdvertisement Info) (party : ℕ) (result : Except String Unit) :
    Party Info → Option (MdnsAdvertisement Info)
  | .update_goodbye info =>
    match result with
    | .ok _ => some (s.move party (.update_wait info))
    | .error error => some (s.unlock party (.update_returned (.error (.text error))))
  | _ => none

/-- The cleanup gets a thread of its own, or runs in the thread that closes. -/
def spawned (s : MdnsAdvertisement Info) (party : ℕ) (ok : Bool) :
    Party Info → Option (MdnsAdvertisement Info)
  | .close_spawn =>
    if ok then some ((s.move party .close_returned).begin_party .cleanup_lock)
    else some (s.move party .cleanup_lock)
  | _ => none

/-- One step, `none` where the label is not enabled. -/
def step (s : MdnsAdvertisement Info) : Label Info → Option (MdnsAdvertisement Info)
  | .update info => some (s.begin_party (.update_check info))
  | .request_close => some (s.begin_party .close_swap)
  | .advance party => (s.parties[party]?).bind (s.advance party)
  | .command party result => (s.parties[party]?).bind (s.command party result)
  | .goodbye party result => (s.parties[party]?).bind (s.goodbye party result)
  | .spawned party ok => (s.parties[party]?).bind (s.spawned party ok)

/-- The commands of cleanups. -/
def cleaned (s : MdnsAdvertisement Info) : List (Command Info × Outcome) :=
  s.commands.filter fun c => c.1.of_cleanup

end MdnsAdvertisement

/-! ## Who is where -/

/-- Whether the party holds the lock. -/
def Party.holds : Party Info → Bool
  | .update_locked _ => true
  | .update_unregister _ _ => true
  | .update_goodbye _ => true
  | .update_wait _ => true
  | .update_decide _ => true
  | .update_register _ _ => true
  | .cleanup_check => true
  | .cleanup_unregister _ => true
  | .cleanup_shutdown _ _ => true
  | _ => false

/-- An update that found the flag clear under the lock. -/
def Party.in_transaction : Party Info → Bool
  | .update_unregister _ _ => true
  | .update_goodbye _ => true
  | .update_wait _ => true
  | .update_decide _ => true
  | .update_register _ _ => true
  | _ => false

/-- The party that set the flag, and the cleanup it leads to. -/
def Party.cleaner : Party Info → Bool
  | .close_spawn => true
  | .cleanup_lock => true
  | .cleanup_check => true
  | .cleanup_unregister _ => true
  | .cleanup_shutdown _ _ => true
  | .cleanup_returned => true
  | _ => false

/-- An unregistration that found the queue full. -/
def again_unregister : Command Info × Outcome := (.cleanup_unregister, .error .Again)

/-- A shutdown that found the queue full. -/
def again_shutdown : Command Info × Outcome := (.cleanup_shutdown, .error .Again)

/-- The commands of one cleanup: `unregister`, as long as the daemon is busy, and unless
the daemon is gone, `shutdown` likewise. -/
def Finished (l : List (Command Info × Outcome)) : Prop :=
  ∃ a ≤ DAEMON_COMMAND_RETRIES, ∃ u : Outcome,
    (u = .error .DaemonShutdown ∧ l = List.replicate a again_unregister ++ [(.cleanup_unregister, u)]) ∨
    ∃ b ≤ DAEMON_COMMAND_RETRIES, ∃ r : Outcome,
      l = List.replicate a again_unregister ++
        (.cleanup_unregister, u) :: (List.replicate b again_shutdown ++ [(.cleanup_shutdown, r)])

/-- What a party knows of the cleanup. -/
def MdnsAdvertisement.Placed (s : MdnsAdvertisement Info) : Party Info → Prop
  | .close_spawn => s.cleaned = [] ∧ s.close_result = none
  | .cleanup_lock => s.cleaned = [] ∧ s.close_result = none
  | .cleanup_check => s.cleaned = [] ∧ s.close_result = none
  | .cleanup_unregister n => s.close_result = none ∧ ∃ a, a + n = DAEMON_COMMAND_RETRIES ∧
      s.cleaned = List.replicate a again_unregister
  | .cleanup_shutdown u n => s.close_result = none ∧ ∃ a ≤ DAEMON_COMMAND_RETRIES,
      ∃ b, b + n = DAEMON_COMMAND_RETRIES ∧ s.cleaned =
        List.replicate a again_unregister ++ (.cleanup_unregister, u) :: List.replicate b again_shutdown
  | .cleanup_returned => s.close_result.isSome = true ∧ Finished s.cleaned
  | p => p.in_transaction = true → s.cleaned = []

/-- The invariant: the lock, one cleanup, every party in place, and the cleanup's commands behind
all others. -/
structure Inv (s : MdnsAdvertisement Info) : Prop where
  lock : Held Party.holds s.operation s.parties
  cleaner : s.parties.countP Party.cleaner = if s.closing then 1 else 0
  placed : ∀ (i : ℕ) (p : Party Info), s.parties[i]? = some p → s.Placed p
  opened : s.closing = false → s.cleaned = [] ∧ s.close_result = none
  ordered : s.commands = (s.commands.filter fun c => !c.1.of_cleanup) ++ s.cleaned

theorem inv_start : Inv ({} : MdnsAdvertisement Info) where
  lock := held_nil _
  cleaner := rfl
  placed i p hi := by
    rw [List.getElem?_nil] at hi
    cases hi
  opened _ := ⟨rfl, rfl⟩
  ordered := rfl

/-- A party's place depends on the cleanup's commands and the result of the close. -/
theorem placed_congr {s s' : MdnsAdvertisement Info} {p : Party Info} (h : s.Placed p)
    (hcleaned : s'.cleaned = s.cleaned) (hresult : s'.close_result = s.close_result) :
    s'.Placed p := by
  cases p with
  | _ =>
    simp only [MdnsAdvertisement.Placed, hcleaned, hresult] at h ⊢
    exact h

/-- A party outside both the transaction and the cleanup knows nothing. -/
theorem placed_outside {s : MdnsAdvertisement Info} {p : Party Info} (hcleaner : p.cleaner = false)
    (hin : p.in_transaction = false) : s.Placed p := by
  cases p with
  | update_unregister info n => cases hin
  | update_goodbye info => cases hin
  | update_wait info => cases hin
  | update_decide info => cases hin
  | update_register info n => cases hin
  | close_spawn => cases hcleaner
  | cleanup_lock => cases hcleaner
  | cleanup_check => cases hcleaner
  | cleanup_unregister n => cases hcleaner
  | cleanup_shutdown u n => cases hcleaner
  | cleanup_returned => cases hcleaner
  | _ =>
    intro hno
    cases hno

/-- Only one party cleans up. -/
theorem Inv.cleaner_unique {s : MdnsAdvertisement Info} (h : Inv s) {i j : ℕ} {p q : Party Info}
    (hi : s.parties[i]? = some p) (hp : p.cleaner = true) (hj : s.parties[j]? = some q)
    (hq : q.cleaner = true) : i = j := by
  apply eq_of_countP_le_one _ hi hp hj hq
  rw [h.cleaner]
  split
  · exact Nat.le_refl 1
  · exact Nat.zero_le 1

/-! ## What a step keeps -/

/-- A party moves, and the cleanup stays as it is. -/
theorem Inv.keep {s s' : MdnsAdvertisement Info} (h : Inv s) {i : ℕ} {p p' : Party Info}
    (hi : s.parties[i]? = some p) (hparties : s'.parties = s.parties.set i p')
    (hlock : Held Party.holds s'.operation (s.parties.set i p')) (hcleaned : s'.cleaned = s.cleaned)
    (hresult : s'.close_result = s.close_result) (hclosing : s'.closing = s.closing)
    (hcleaner : p'.cleaner = p.cleaner) (hplaced : s.Placed p')
    (hordered : s'.commands = (s'.commands.filter fun c => !c.1.of_cleanup) ++ s'.cleaned) :
    Inv s' := by
  refine ⟨?_, ?_, ?_, ?_, hordered⟩
  · rw [hparties]
    exact hlock
  · have hcount := countP_set Party.cleaner hi p'
    have hone := h.cleaner
    rw [hcleaner] at hcount
    rw [hparties, hclosing]
    omega
  · intro j q hj
    rw [hparties] at hj
    apply placed_congr _ hcleaned hresult
    rcases getElem?_set_cases hj with ⟨-, rfl⟩ | ⟨-, hj⟩
    · exact hplaced
    · exact h.placed j q hj
  · rw [hclosing, hcleaned, hresult]
    exact h.opened

/-- The same without a command. -/
theorem Inv.move {s s' : MdnsAdvertisement Info} (h : Inv s) {i : ℕ} {p p' : Party Info}
    (hi : s.parties[i]? = some p) (hparties : s'.parties = s.parties.set i p')
    (hlock : Held Party.holds s'.operation (s.parties.set i p'))
    (hcommands : s'.commands = s.commands)
    (hresult : s'.close_result = s.close_result) (hclosing : s'.closing = s.closing)
    (hcleaner : p'.cleaner = p.cleaner) (hplaced : s.Placed p') : Inv s' := by
  have hcleaned : s'.cleaned = s.cleaned := by
    rw [MdnsAdvertisement.cleaned, hcommands]
    rfl
  apply h.keep hi hparties hlock hcleaned hresult hclosing hcleaner hplaced
  rw [hcleaned, hcommands]
  exact h.ordered

/-- A command of an update, while there was none of a cleanup. -/
theorem Inv.issue {s s' : MdnsAdvertisement Info} (h : Inv s) {i : ℕ} {p p' : Party Info}
    {c : Command Info} {r : Outcome} (hi : s.parties[i]? = some p) (hempty : s.cleaned = [])
    (hc : c.of_cleanup = false) (hparties : s'.parties = s.parties.set i p')
    (hlock : Held Party.holds s'.operation (s.parties.set i p'))
    (hcommands : s'.commands = s.commands ++ [(c, r)]) (hresult : s'.close_result = s.close_result)
    (hclosing : s'.closing = s.closing) (hcleaner : p'.cleaner = p.cleaner)
    (hplaced : s.Placed p') :
    Inv s' := by
  have hcleaned : s'.cleaned = s.cleaned := by
    rw [MdnsAdvertisement.cleaned, hcommands, List.filter_append]
    simp only [List.filter_cons, hc, Bool.false_eq_true, if_false, List.filter_nil, List.append_nil]
    rfl
  apply h.keep hi hparties hlock hcleaned hresult hclosing hcleaner hplaced
  have hordered := h.ordered
  rw [hempty, List.append_nil] at hordered
  rw [hcleaned, hempty, hcommands, List.filter_append, ← hordered]
  simp only [List.filter_cons, hc, Bool.not_false, if_true, List.filter_nil, List.append_nil]

/-- A step of the cleanup that has the lock. -/
theorem Inv.clean {s s' : MdnsAdvertisement Info} (h : Inv s) {i : ℕ} {p p' : Party Info}
    {c : Command Info} {r : Outcome} (hi : s.parties[i]? = some p) (hholds : p.holds = true)
    (hp : p.cleaner = true) (hc : c.of_cleanup = true) (hparties : s'.parties = s.parties.set i p')
    (hlock : Held Party.holds s'.operation (s.parties.set i p'))
    (hcommands : s'.commands = s.commands ++ [(c, r)]) (hclosing : s'.closing = s.closing)
    (hp' : p'.cleaner = true) (hplaced : s'.cleaned = s.cleaned ++ [(c, r)] → s'.Placed p') :
    Inv s' := by
  have hcleaned : s'.cleaned = s.cleaned ++ [(c, r)] := by
    rw [MdnsAdvertisement.cleaned, hcommands, List.filter_append]
    simp only [List.filter_cons, hc, if_true, List.filter_nil]
    rfl
  have hclosed : s.closing = true := by
    by_contra hopen
    have hnone := h.cleaner
    rw [if_neg hopen, List.countP_eq_zero] at hnone
    exact hnone p (List.mem_of_getElem? hi) hp
  refine ⟨?_, ?_, ?_, ?_, ?_⟩
  · rw [hparties]
    exact hlock
  · have hcount := countP_set Party.cleaner hi p'
    have hone := h.cleaner
    rw [hp, hp'] at hcount
    rw [hparties, hclosing]
    omega
  · intro j q hj
    rw [hparties] at hj
    rcases getElem?_set_cases hj with ⟨-, rfl⟩ | ⟨hne, hj⟩
    · exact hplaced hcleaned
    · -- nobody else cleans up, and nobody else has the lock
      apply placed_outside
      · rw [Bool.eq_false_iff]
        intro hq
        exact hne (h.cleaner_unique hj hq hi hp)
      · rw [Bool.eq_false_iff]
        intro hq
        have hqholds : q.holds = true := by
          cases q <;> first | rfl | cases hq
        exact hne (h.lock.only hi hholds hj hqholds)
  · rw [hclosing, hclosed]
    intro hno
    cases hno
  · have hordered := h.ordered
    rw [hcleaned, hcommands, List.filter_append]
    simp only [List.filter_cons, hc, Bool.not_true, Bool.false_eq_true, if_false, List.filter_nil,
      List.append_nil]
    rw [← List.append_assoc, ← hordered]

/-! ## The steps -/

/-- A party takes the lock when it is free. -/
theorem lock_eq {s s' : MdnsAdvertisement Info} {i : ℕ} {p : Party Info}
    (h : s.lock i p = some s') :
    s.operation = none ∧ s' = { s with operation := some i }.move i p := by
  unfold MdnsAdvertisement.lock at h
  split at h
  · next hfree => exact ⟨hfree, (Option.some.inj h).symm⟩
  · cases h

/-- A party goes on by itself. -/
theorem Inv.advance {s s' : MdnsAdvertisement Info} (h : Inv s) {i : ℕ} {p : Party Info}
    (hi : s.parties[i]? = some p) (hstep : s.advance i p = some s') : Inv s' := by
  have hplaced := h.placed i p hi
  cases p with
  | update_check info =>
      simp only [MdnsAdvertisement.advance] at hstep
      split at hstep
      · rw [← Option.some.inj hstep]
        exact h.move hi rfl (h.lock.keep hi rfl) rfl rfl rfl rfl (fun hno => by cases hno)
      · split at hstep
        · rw [← Option.some.inj hstep]
          exact h.move hi rfl (h.lock.keep hi rfl) rfl rfl rfl rfl (fun hno => by cases hno)
        · rw [← Option.some.inj hstep]
          exact h.move hi rfl (h.lock.keep hi rfl) rfl rfl rfl rfl (fun hno => by cases hno)
  | update_lock info =>
      obtain ⟨hfree, rfl⟩ := lock_eq hstep
      have hlock := h.lock
      rw [hfree] at hlock
      exact h.move hi rfl (hlock.acquire hi rfl) rfl rfl rfl rfl (fun hno => by cases hno)
  | update_locked info =>
      simp only [MdnsAdvertisement.advance] at hstep
      split at hstep
      · rw [← Option.some.inj hstep]
        exact h.move hi rfl (h.lock.release hi rfl rfl) rfl rfl rfl rfl (fun hno => by cases hno)
      · next hopen =>
        rw [← Option.some.inj hstep]
        exact h.move hi rfl (h.lock.keep hi rfl) rfl rfl rfl rfl
          (fun _ => (h.opened (Bool.eq_false_iff.mpr hopen)).1)
  | update_wait info =>
      rw [← Option.some.inj hstep]
      exact h.move hi rfl (h.lock.keep hi rfl) rfl rfl rfl rfl hplaced
  | update_decide info =>
      simp only [MdnsAdvertisement.advance] at hstep
      split at hstep
      · rw [← Option.some.inj hstep]
        exact h.move hi rfl (h.lock.release hi rfl rfl) rfl rfl rfl rfl (fun hno => by cases hno)
      · rw [← Option.some.inj hstep]
        exact h.move hi rfl (h.lock.keep hi rfl) rfl rfl rfl rfl hplaced
  -- only the first close finds the flag unset, and it alone spawns the cleanup
  | close_swap =>
      simp only [MdnsAdvertisement.advance] at hstep
      split at hstep
      · rw [← Option.some.inj hstep]
        exact h.move hi rfl (h.lock.keep hi rfl) rfl rfl rfl rfl (fun hno => by cases hno)
      · next hopen =>
        obtain rfl := Option.some.inj hstep
        obtain ⟨hcleaned, hnone⟩ := h.opened (Bool.eq_false_iff.mpr hopen)
        have hcount := countP_set Party.cleaner hi .close_spawn
        have hzero := h.cleaner
        rw [if_neg hopen] at hzero
        simp only [Party.cleaner, Bool.false_eq_true, if_false, if_true] at hcount
        refine ⟨h.lock.keep hi rfl, ?_, ?_, fun hno => (by cases hno), h.ordered⟩
        · simp only [MdnsAdvertisement.move, if_true]
          omega
        · intro j q hj
          rcases getElem?_set_cases hj with ⟨-, rfl⟩ | ⟨-, hj⟩
          · exact ⟨hcleaned, hnone⟩
          · exact placed_congr (h.placed j q hj) rfl rfl
  | cleanup_lock =>
      obtain ⟨hfree, rfl⟩ := lock_eq hstep
      have hlock := h.lock
      rw [hfree] at hlock
      exact h.move hi rfl (hlock.acquire hi rfl) rfl rfl rfl rfl hplaced
  | cleanup_check =>
      simp only [MdnsAdvertisement.advance] at hstep
      split at hstep
      -- a cleanup under way is the first: nothing has been cleaned up yet
      · next hsome =>
        rw [hplaced.2] at hsome
        cases hsome
      · rw [← Option.some.inj hstep]
        exact h.move hi rfl (h.lock.keep hi rfl) rfl rfl rfl rfl ⟨hplaced.2, 0, Nat.zero_add _, hplaced.1⟩
  | _ => cases hstep

/-- A command is sent again only when the queue was full. -/
theorem retry_eq_some {n m : ℕ} {r : Outcome} (h : retry n r = some m) :
    r = .error .Again ∧ n = m + 1 := by
  unfold retry at h
  split at h
  · split at h
    · have hm := Option.some.inj h
      exact ⟨rfl, by omega⟩
    · cases h
  · cases h

/-- A command of an update goes out under the lock. -/
theorem Inv.command_update {s s' : MdnsAdvertisement Info} (h : Inv s) {i : ℕ} {p : Party Info}
    {c : Command Info} {r : Outcome} (hi : s.parties[i]? = some p) (hin : p.in_transaction = true)
    (hc : c.of_cleanup = false)
    (hs : (∃ p' : Party Info, p'.in_transaction = true ∧ s' = (s.issue c r).move i p') ∨
      ∃ result, s' = (s.issue c r).unlock i (.update_returned result)) : Inv s' := by
  have hp : p.holds = true ∧ p.cleaner = false := by
    cases p <;> first | exact ⟨rfl, rfl⟩ | cases hin
  have hempty : s.cleaned = [] := by
    have hplaced := h.placed i p hi
    cases p <;> first | exact hplaced rfl | cases hin
  rcases hs with ⟨p', hin', rfl⟩ | ⟨result, rfl⟩
  · have hp' : p'.holds = true ∧ p'.cleaner = false ∧ s.Placed p' := by
      cases p' <;> first | exact ⟨rfl, rfl, fun _ => hempty⟩ | cases hin'
    exact h.issue hi hempty hc rfl (h.lock.keep hi (hp'.1.trans hp.1.symm)) rfl rfl rfl
      (hp'.2.1.trans hp.2.symm) hp'.2.2
  · exact h.issue hi hempty hc rfl (h.lock.release hi hp.1 rfl) rfl rfl rfl hp.2.symm
      (fun hno => by cases hno)

/-- **A command** goes out in its order. -/
theorem Inv.command {s s' : MdnsAdvertisement Info} (h : Inv s) {i : ℕ} {p : Party Info}
    {r : Outcome} (hi : s.parties[i]? = some p) (hstep : s.command i r p = some s') : Inv s' := by
  have hplaced := h.placed i p hi
  cases p with
  | update_unregister info n =>
      apply h.command_update hi rfl (c := .unregister) (r := r) rfl
      simp only [MdnsAdvertisement.command] at hstep
      split at hstep
      · exact .inl ⟨_, rfl, (Option.some.inj hstep).symm⟩
      · exact .inl ⟨_, rfl, (Option.some.inj hstep).symm⟩
      · exact .inr ⟨_, (Option.some.inj hstep).symm⟩
  | update_register info n =>
      apply h.command_update hi rfl (c := .register info) (r := r) rfl
      simp only [MdnsAdvertisement.command] at hstep
      split at hstep
      · exact .inl ⟨_, rfl, (Option.some.inj hstep).symm⟩
      · exact .inr ⟨_, (Option.some.inj hstep).symm⟩
  | cleanup_unregister n =>
      obtain ⟨hnone, a, ha, hcleaned⟩ := hplaced
      have hle : a ≤ DAEMON_COMMAND_RETRIES := by omega
      simp only [MdnsAdvertisement.command] at hstep
      split at hstep
      · next m hretry =>
        obtain ⟨rfl, rfl⟩ := retry_eq_some hretry
        obtain rfl := Option.some.inj hstep
        refine h.clean hi rfl rfl (c := .cleanup_unregister) (r := .error .Again) rfl rfl
          (h.lock.keep hi rfl) rfl rfl rfl ?_
        intro hadd
        refine ⟨hnone, a + 1, by omega, ?_⟩
        rw [hadd, hcleaned, List.replicate_succ']
        rfl
      · split at hstep
        · next hgone =>
          obtain rfl := Option.some.inj hstep
          refine h.clean hi rfl rfl (c := .cleanup_unregister) (r := r) rfl rfl
            (h.lock.release hi rfl rfl) rfl rfl rfl ?_
          intro hadd
          refine ⟨rfl, a, hle, r, .inl ⟨hgone, ?_⟩⟩
          rw [hadd, hcleaned]
        · obtain rfl := Option.some.inj hstep
          refine h.clean hi rfl rfl (c := .cleanup_unregister) (r := r) rfl rfl
            (h.lock.keep hi rfl) rfl rfl rfl ?_
          intro hadd
          refine ⟨hnone, a, hle, 0, Nat.zero_add _, ?_⟩
          rw [hadd, hcleaned]
          rfl
  | cleanup_shutdown u n =>
      obtain ⟨hnone, a, ha, b, hb, hcleaned⟩ := hplaced
      simp only [MdnsAdvertisement.command] at hstep
      split at hstep
      · next m hretry =>
        obtain ⟨rfl, rfl⟩ := retry_eq_some hretry
        obtain rfl := Option.some.inj hstep
        refine h.clean hi rfl rfl (c := .cleanup_shutdown) (r := .error .Again) rfl rfl
          (h.lock.keep hi rfl) rfl rfl rfl ?_
        intro hadd
        refine ⟨hnone, a, ha, b + 1, by omega, ?_⟩
        rw [hadd, hcleaned, List.replicate_succ', List.append_assoc]
        rfl
      · obtain rfl := Option.some.inj hstep
        refine h.clean hi rfl rfl (c := .cleanup_shutdown) (r := r) rfl rfl
          (h.lock.release hi rfl rfl) rfl rfl rfl ?_
        intro hadd
        refine ⟨rfl, a, ha, u, .inr ⟨b, by omega, r, ?_⟩⟩
        rw [hadd, hcleaned, List.append_assoc]
        rfl
  | _ => cases hstep

/-- The daemon's answer lets the update go on. -/
theorem Inv.goodbye {s s' : MdnsAdvertisement Info} (h : Inv s) {i : ℕ} {p : Party Info}
    {result : Except String Unit} (hi : s.parties[i]? = some p)
    (hstep : s.goodbye i result p = some s') : Inv s' := by
  have hplaced := h.placed i p hi
  cases p with
  | update_goodbye info =>
      cases result with
      | ok done =>
          rw [← Option.some.inj hstep]
          exact h.move hi rfl (h.lock.keep hi rfl) rfl rfl rfl rfl hplaced
      | error error =>
          rw [← Option.some.inj hstep]
          exact h.move hi rfl (h.lock.release hi rfl rfl) rfl rfl rfl rfl (fun hno => by cases hno)
  | _ => cases hstep

/-- A new party has nothing yet. -/
theorem Inv.begin_party {s : MdnsAdvertisement Info} (h : Inv s) {p : Party Info}
    (hholds : p.holds = false) (hcleaner : p.cleaner = false) (hin : p.in_transaction = false) :
    Inv (s.begin_party p) := by
  refine ⟨h.lock.add hholds, ?_, ?_, h.opened, h.ordered⟩
  · have hone := h.cleaner
    simp only [MdnsAdvertisement.begin_party, List.countP_append, List.countP_cons, List.countP_nil,
      hcleaner, Bool.false_eq_true, if_false]
    exact hone
  · intro j q hj
    rcases getElem?_concat_cases hj with ⟨-, rfl⟩ | hj
    · exact placed_outside hcleaner hin
    · exact placed_congr (h.placed j q hj) rfl rfl

/-- The cleanup is spawned, or runs where it was asked for. -/
theorem Inv.spawned {s s' : MdnsAdvertisement Info} (h : Inv s) {i : ℕ} {p : Party Info} {ok : Bool}
    (hi : s.parties[i]? = some p) (hstep : s.spawned i ok p = some s') : Inv s' := by
  have hplaced := h.placed i p hi
  cases p with
  | close_spawn =>
      simp only [MdnsAdvertisement.spawned] at hstep
      split at hstep
      · obtain rfl := Option.some.inj hstep
        have hlock : Held Party.holds s.operation (s.parties.set i .close_returned) :=
          h.lock.keep hi rfl
        refine ⟨hlock.add rfl, ?_, ?_, h.opened, h.ordered⟩
        · have hcount := countP_set Party.cleaner hi .close_returned
          have hone := h.cleaner
          simp only [Party.cleaner, if_true, Bool.false_eq_true, if_false] at hcount
          have hsame : (s.parties.set i .close_returned ++ [Party.cleanup_lock]).countP Party.cleaner =
              s.parties.countP Party.cleaner := by
            rw [List.countP_append]
            exact hcount
          exact hsame.trans hone
        · intro j q hj
          rcases getElem?_concat_cases hj with ⟨-, rfl⟩ | hj
          · exact hplaced
          · rcases getElem?_set_cases hj with ⟨-, rfl⟩ | ⟨-, hj⟩
            · exact fun hno => by cases hno
            · exact placed_congr (h.placed j q hj) rfl rfl
      · rw [← Option.some.inj hstep]
        exact h.move hi rfl (h.lock.keep hi rfl) rfl rfl rfl rfl hplaced
  | _ => cases hstep

/-- **One step** keeps the invariant. -/
theorem inv_step {s s' : MdnsAdvertisement Info} {a : Label Info} (h : Inv s)
    (hstep : s.step a = some s') : Inv s' := by
  cases a with
  | update info =>
      rw [← Option.some.inj hstep]
      exact h.begin_party rfl rfl rfl
  | request_close =>
      rw [← Option.some.inj hstep]
      exact h.begin_party rfl rfl rfl
  | advance i =>
      obtain ⟨p, hp, hs⟩ := Option.bind_eq_some_iff.mp hstep
      exact h.advance hp hs
  | command i result =>
      obtain ⟨p, hp, hs⟩ := Option.bind_eq_some_iff.mp hstep
      exact h.command hp hs
  | goodbye i result =>
      obtain ⟨p, hp, hs⟩ := Option.bind_eq_some_iff.mp hstep
      exact h.goodbye hp hs
  | spawned i ok =>
      obtain ⟨p, hp, hs⟩ := Option.bind_eq_some_iff.mp hstep
      exact h.spawned hp hs

/-- The invariant in every run. -/
theorem inv_run {l : List (Label Info)} {s : MdnsAdvertisement Info}
    (hrun : Machine.run MdnsAdvertisement.step {} l = some s) : Inv s :=
  Machine.run_invariant (fun _ _ _ h hs => inv_step h hs) inv_start hrun

/-! ## Staying down -/

/-- A cleanup that has yet to end. -/
def Party.cleaning : Party Info → Bool
  | .cleanup_returned => false
  | p => p.cleaner

/-- The commands of cleanups are those of one, from its `unregister` to its `shutdown`,
and nothing else is issued after the first of them. The result is there only when both
were given, or the daemon was gone for the first; and when the flag is set and nobody has
the cleanup still to do, the result is there. -/
structure StaysDown (s : MdnsAdvertisement Info) : Prop where
  once : ∃ a ≤ DAEMON_COMMAND_RETRIES + 1, ∃ b ≤ DAEMON_COMMAND_RETRIES + 1,
    s.cleaned.map Prod.fst =
      List.replicate a .cleanup_unregister ++ List.replicate b .cleanup_shutdown
  ordered : ∃ before, (∀ c ∈ before, c.1.of_cleanup = false) ∧ s.commands = before ++ s.cleaned
  attempted : s.close_result.isSome = true → Finished s.cleaned
  completed : s.closing = true →
    (∀ (i : ℕ) (p : Party Info), s.parties[i]? = some p → p.cleaning = false) →
    s.close_result.isSome = true

/-- A cleanup that is done has sent its unregistrations and then its shutdowns. -/
theorem sequence_of_finished {l : List (Command Info × Outcome)} (h : Finished l) :
    ∃ a ≤ DAEMON_COMMAND_RETRIES + 1, ∃ b ≤ DAEMON_COMMAND_RETRIES + 1,
      l.map Prod.fst = List.replicate a .cleanup_unregister ++ List.replicate b .cleanup_shutdown := by
  obtain ⟨a, ha, u, ⟨-, rfl⟩ | ⟨b, hb, r, rfl⟩⟩ := h
  · refine ⟨a + 1, by omega, 0, by omega, ?_⟩
    rw [List.map_append, List.map_replicate, List.replicate_succ', List.replicate_zero,
      List.append_nil]
    rfl
  · refine ⟨a + 1, by omega, b + 1, by omega, ?_⟩
    simp only [List.map_append, List.map_replicate, List.map_cons, List.map_nil, List.replicate_succ',
      List.append_assoc, again_unregister, again_shutdown]
    rfl

/-- The party that cleans up, once the flag is set. -/
theorem Inv.exists_cleaner {s : MdnsAdvertisement Info} (h : Inv s) (hclosing : s.closing = true) :
    ∃ (i : ℕ) (p : Party Info), s.parties[i]? = some p ∧ p.cleaner = true := by
  have hone := h.cleaner
  rw [if_pos hclosing] at hone
  have hpos : 0 < s.parties.countP Party.cleaner := by omega
  obtain ⟨p, hp, hcleaner⟩ := List.countP_pos_iff.mp hpos
  obtain ⟨i, hi⟩ := List.mem_iff_getElem?.mp hp
  exact ⟨i, p, hi, hcleaner⟩

/-- With the result set the cleanup has returned. -/
theorem Inv.finished {s : MdnsAdvertisement Info} (h : Inv s) (hsome : s.close_result.isSome = true) :
    Finished s.cleaned := by
  have hclosing : s.closing = true := by
    by_contra hopen
    rw [(h.opened (Bool.eq_false_iff.mpr hopen)).2] at hsome
    cases hsome
  obtain ⟨i, p, hi, hp⟩ := h.exists_cleaner hclosing
  have hplaced := h.placed i p hi
  have hno : s.close_result ≠ none := by
    intro hnone
    rw [hnone] at hsome
    cases hsome
  cases p with
  | close_spawn => exact absurd hplaced.2 hno
  | cleanup_lock => exact absurd hplaced.2 hno
  | cleanup_check => exact absurd hplaced.2 hno
  | cleanup_unregister n => exact absurd hplaced.1 hno
  | cleanup_shutdown u n => exact absurd hplaced.1 hno
  | cleanup_returned => exact hplaced.2
  | _ => cases hp

/-- The cleanup is done once. -/
theorem Inv.once {s : MdnsAdvertisement Info} (h : Inv s) :
    ∃ a ≤ DAEMON_COMMAND_RETRIES + 1, ∃ b ≤ DAEMON_COMMAND_RETRIES + 1, s.cleaned.map Prod.fst =
      List.replicate a .cleanup_unregister ++ List.replicate b .cleanup_shutdown := by
  have hempty : s.cleaned = [] → ∃ a ≤ DAEMON_COMMAND_RETRIES + 1, ∃ b ≤ DAEMON_COMMAND_RETRIES + 1,
      s.cleaned.map Prod.fst =
        List.replicate a .cleanup_unregister ++ List.replicate b .cleanup_shutdown := by
    intro hnil
    rw [hnil]
    exact ⟨0, Nat.zero_le _, 0, Nat.zero_le _, rfl⟩
  by_cases hclosing : s.closing = true
  · obtain ⟨i, p, hi, hp⟩ := h.exists_cleaner hclosing
    have hplaced := h.placed i p hi
    cases p with
    | close_spawn => exact hempty hplaced.1
    | cleanup_lock => exact hempty hplaced.1
    | cleanup_check => exact hempty hplaced.1
    | cleanup_unregister n =>
        obtain ⟨-, a, ha, hcleaned⟩ := hplaced
        refine ⟨a, by omega, 0, Nat.zero_le _, ?_⟩
        rw [hcleaned, List.map_replicate, List.replicate_zero, List.append_nil]
        rfl
    | cleanup_shutdown u n =>
        obtain ⟨-, a, ha, b, hb, hcleaned⟩ := hplaced
        refine ⟨a + 1, by omega, b, by omega, ?_⟩
        rw [hcleaned]
        simp only [List.map_append, List.map_replicate, List.map_cons, List.replicate_succ',
          List.append_assoc, again_unregister, again_shutdown]
        rfl
    | cleanup_returned => exact sequence_of_finished hplaced.2
    | _ => cases hp
  · exact hempty (h.opened (Bool.eq_false_iff.mpr hclosing)).1

/-- **Behind the cleanup** nothing is registered any more. -/
theorem Inv.stays_down {s : MdnsAdvertisement Info} (h : Inv s) : StaysDown s := by
  refine ⟨h.once, ⟨_, ?_, h.ordered⟩, h.finished, ?_⟩
  · intro c hc
    have hfilter := (List.mem_filter.mp hc).2
    rw [Bool.not_eq_true'] at hfilter
    exact hfilter
  · intro hclosing hover
    obtain ⟨i, p, hi, hp⟩ := h.exists_cleaner hclosing
    have hplaced := h.placed i p hi
    have hdone := hover i p hi
    cases p with
    | cleanup_returned => exact hplaced.1
    | close_spawn => cases hdone
    | cleanup_lock => cases hdone
    | cleanup_check => cases hdone
    | cleanup_unregister n => cases hdone
    | cleanup_shutdown u n => cases hdone
    | _ => cases hp

/-- With the result set no party has a command to give. -/
theorem Inv.no_command {s s' : MdnsAdvertisement Info} (h : Inv s)
    (hsome : s.close_result.isSome = true) {i : ℕ} {p : Party Info} {r : Outcome}
    (hi : s.parties[i]? = some p) : s.command i r p ≠ some s' := by
  have hplaced := h.placed i p hi
  have hno : s.close_result ≠ none := by
    intro hnone
    rw [hnone] at hsome
    cases hsome
  have hne : s.cleaned ≠ [] := by
    intro hnil
    obtain ⟨a, -, u, ⟨-, heq⟩ | ⟨b, -, r, heq⟩⟩ := h.finished hsome
    · rw [hnil] at heq
      simp at heq
    · rw [hnil] at heq
      simp at heq
  intro hs
  cases p with
  | update_unregister info n => exact hne (hplaced rfl)
  | update_register info n => exact hne (hplaced rfl)
  | cleanup_unregister n => exact hno hplaced.1
  | cleanup_shutdown u n => exact hno hplaced.1
  | _ => cases hs

/-- The other steps issue no command, and leave the result. -/
theorem quiet_step {s s' : MdnsAdvertisement Info} {a : Label Info} (hstep : s.step a = some s')
    (ha : ∀ i r, a ≠ .command i r) :
    s'.commands = s.commands ∧ s'.close_result = s.close_result := by
  cases a with
  | update info =>
      rw [← Option.some.inj hstep]
      exact ⟨rfl, rfl⟩
  | request_close =>
      rw [← Option.some.inj hstep]
      exact ⟨rfl, rfl⟩
  | command i r => exact absurd rfl (ha i r)
  | advance i =>
      obtain ⟨p, -, hs⟩ := Option.bind_eq_some_iff.mp hstep
      unfold MdnsAdvertisement.advance MdnsAdvertisement.lock at hs
      repeat' split at hs
      all_goals first
        | cases hs
          done
        | rw [← Option.some.inj hs]
          exact ⟨rfl, rfl⟩
  | goodbye i result =>
      obtain ⟨p, -, hs⟩ := Option.bind_eq_some_iff.mp hstep
      unfold MdnsAdvertisement.goodbye at hs
      repeat' split at hs
      all_goals first
        | cases hs
          done
        | rw [← Option.some.inj hs]
          exact ⟨rfl, rfl⟩
  | spawned i ok =>
      obtain ⟨p, -, hs⟩ := Option.bind_eq_some_iff.mp hstep
      unfold MdnsAdvertisement.spawned at hs
      repeat' split at hs
      all_goals first
        | cases hs
          done
        | rw [← Option.some.inj hs]
          exact ⟨rfl, rfl⟩

/-- The same in every run from there. -/
theorem down_run {s s' : MdnsAdvertisement Info} (h : Inv s) (hsome : s.close_result.isSome = true)
    {l : List (Label Info)} (hrun : Machine.run MdnsAdvertisement.step s l = some s') :
    s'.commands = s.commands ∧ s'.close_result = s.close_result := by
  have hstep : ∀ (t : MdnsAdvertisement Info) (a : Label Info) (t' : MdnsAdvertisement Info),
      Inv t ∧ t.commands = s.commands ∧ t.close_result = s.close_result → t.step a = some t' →
      Inv t' ∧ t'.commands = s.commands ∧ t'.close_result = s.close_result := by
    rintro t a t' ⟨hinv, hcommands, hresult⟩ hs
    have hquiet : t'.commands = t.commands ∧ t'.close_result = t.close_result := by
      apply quiet_step hs
      rintro i r rfl
      obtain ⟨p, hi, hcommand⟩ := Option.bind_eq_some_iff.mp hs
      exact hinv.no_command (hresult ▸ hsome) hi hcommand
    exact ⟨inv_step hinv hs, hquiet.1.trans hcommands, hquiet.2.trans hresult⟩
  exact (Machine.run_invariant hstep ⟨h, rfl, rfl⟩ hrun).2

/-- In every run a closed advertisement stays down. -/
theorem advertisement_stays_down (l : List (Label Info)) {s : MdnsAdvertisement Info}
    (hrun : Machine.run MdnsAdvertisement.step {} l = some s) :
    StaysDown s ∧ (s.close_result.isSome = true → ∀ l' s',
      Machine.run MdnsAdvertisement.step s l' = some s' →
      s'.commands = s.commands ∧ s'.close_result = s.close_result) :=
  ⟨(inv_run hrun).stays_down, fun hsome _ _ hrest => down_run (inv_run hrun) hsome hrest⟩

/-- An update waits between goodbye and registration when the advertisement is closed. -/
theorem advertisement_stays_down_withdrawn : ∃ s : MdnsAdvertisement ℕ,
    Machine.run MdnsAdvertisement.step {} [.update (.ok 1), .advance 0, .advance 0, .advance 0,
      .command 0 (.ok ()), .goodbye 0 (.ok ()), .request_close, .advance 1, .spawned 1 false,
      .advance 0, .advance 0, .advance 1, .advance 1, .command 1 (.ok ()),
      .command 1 (.ok ())] = some s ∧
    s.close_result = some (.ok ()) ∧ StaysDown s := by
  obtain ⟨s, hrun, hresult⟩ : ∃ s : MdnsAdvertisement ℕ,
      Machine.run MdnsAdvertisement.step {} [.update (.ok 1), .advance 0, .advance 0, .advance 0,
        .command 0 (.ok ()), .goodbye 0 (.ok ()), .request_close, .advance 1, .spawned 1 false,
        .advance 0, .advance 0, .advance 1, .advance 1, .command 1 (.ok ()),
        .command 1 (.ok ())] = some s ∧ s.close_result = some (.ok ()) := ⟨_, rfl, rfl⟩
  exact ⟨s, hrun, hresult, (advertisement_stays_down _ hrun).1⟩

/-- The daemon is gone when the cleanup unregisters: the result is set, and `shutdown`
was never attempted. -/
theorem daemon_gone : ∃ s : MdnsAdvertisement ℕ,
    Machine.run MdnsAdvertisement.step {} [.request_close, .advance 0, .spawned 0 true, .advance 1,
      .advance 1, .command 1 (.error .DaemonShutdown)] = some s ∧
    s.close_result = some (.ok ()) ∧ s.cleaned = [(.cleanup_unregister, .error .DaemonShutdown)] :=
  ⟨_, rfl, rfl, rfl⟩

end IrohHttp.MdnsAdvertise
