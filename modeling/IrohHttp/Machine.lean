/-
Step machines: a partial step function on a state, driven by a list of labels.

Every concurrent component of this development is one of these. A label carries
all of the nondeterminism of one atomic step -- which party moves, what the
environment answers, whether a timer fires -- so a list of labels is a schedule,
the step function stays executable, and a theorem over all lists is a theorem
over all interleavings. A label whose guard fails has no successor.

The file names no particular system. It has the rules that the invariants of the
later files go through: `run_invariant` for what every step keeps,
`along_invariant` for what every step keeps that meets a side condition,
`along_iff_forall_prefix` for a side condition that is exact,
`run_countP_add_le` for what bounds a run, `run_simulation` for two machines on one
schedule, and `run_relabelled` for two machines on related ones. What a run does on
its way, and not only where it ends, is read off a `log` of it.
-/
import Mathlib.Data.List.Basic

set_option autoImplicit false

namespace Machine

variable {σ τ α : Type*}

/-! ## Runs -/

/-- Drive `step` through a list of labels. `none` once a label is not enabled. -/
def run (step : σ → α → Option σ) : σ → List α → Option σ
  | s, [] => some s
  | s, a :: l => (step s a).bind fun s' => run step s' l

@[simp] theorem run_nil (step : σ → α → Option σ) (s : σ) : run step s [] = some s := rfl

theorem run_cons_eq_some {step : σ → α → Option σ} {s t : σ} {a : α} {l : List α} :
    run step s (a :: l) = some t ↔ ∃ s', step s a = some s' ∧ run step s' l = some t := by
  simp only [run, Option.bind_eq_some_iff]

theorem run_append {step : σ → α → Option σ} {s t : σ} {l₁ : List α}
    (hrun : run step s l₁ = some t) (l₂ : List α) : run step s (l₁ ++ l₂) = run step t l₂ := by
  induction l₁ generalizing s with
  | nil =>
      rw [run_nil, Option.some.injEq] at hrun
      rw [hrun, List.nil_append]
  | cons a l₁ ih =>
      obtain ⟨s', hs', hrest⟩ := run_cons_eq_some.mp hrun
      rw [List.cons_append, run, hs', Option.bind_some]
      exact ih hrest

theorem run_append_singleton {step : σ → α → Option σ} {s t u : σ} {a : α} {l : List α}
    (hrun : run step s l = some t) (hstep : step t a = some u) :
    run step s (l ++ [a]) = some u := by
  rw [run_append hrun]
  exact run_cons_eq_some.mpr ⟨u, hstep, rfl⟩

/-- Every step that the schedule `l` takes from `s` meets `C`. -/
def Along (step : σ → α → Option σ) (C : σ → α → Prop) : σ → List α → Prop
  | _, [] => True
  | s, a :: l => C s a ∧ ∀ s', step s a = some s' → Along step C s' l

/-- A schedule that fails the side condition has a first step that does: a
prefix that meets it and a label that does not. -/
theorem exists_first_violation {step : σ → α → Option σ} {C : σ → α → Prop} {l : List α} {s : σ}
    (h : ¬ Along step C s l) :
    ∃ l₁ a l₂ s', l = l₁ ++ a :: l₂ ∧ Along step C s l₁ ∧ run step s l₁ = some s' ∧ ¬ C s' a := by
  induction l generalizing s with
  | nil => exact absurd trivial h
  | cons a l ih =>
      by_cases hC : C s a
      · -- the first label is fine, so the violation is further on
        have hrest : ∃ s', step s a = some s' ∧ ¬ Along step C s' l := by
          by_contra hno
          push Not at hno
          exact h ⟨hC, hno⟩
        obtain ⟨s', hs', hbad⟩ := hrest
        obtain ⟨l₁, b, l₂, t, rfl, hal, hrun, hnC⟩ := ih hbad
        refine ⟨a :: l₁, b, l₂, t, rfl, ⟨hC, ?_⟩, ?_, hnC⟩
        · intro u hu
          rw [hs', Option.some.injEq] at hu
          exact hu ▸ hal
        · exact run_cons_eq_some.mpr ⟨s', hs', hrun⟩
      · exact ⟨[], a, l, s, rfl, trivial, rfl, hC⟩

/-- A side condition on labels alone. -/
theorem along_of_forall {step : σ → α → Option σ} {C : σ → α → Prop} {l : List α}
    (h : ∀ a ∈ l, ∀ s, C s a) (s : σ) : Along step C s l := by
  induction l generalizing s with
  | nil => trivial
  | cons a l ih =>
      refine ⟨h a List.mem_cons_self s, fun s' _ => ?_⟩
      exact ih (fun b hb => h b (List.mem_cons_of_mem a hb)) s'

theorem along_append {step : σ → α → Option σ} {C : σ → α → Prop} {l₁ l₂ : List α} {s : σ} :
    Along step C s (l₁ ++ l₂)
      ↔ Along step C s l₁ ∧ ∀ t, run step s l₁ = some t → Along step C t l₂ := by
  induction l₁ generalizing s with
  | nil => simp only [List.nil_append, Along, run_nil, Option.some.injEq, forall_eq', true_and]
  | cons a l₁ ih =>
      simp only [List.cons_append, Along, ih, run_cons_eq_some]
      constructor
      · rintro ⟨hC, h⟩
        refine ⟨⟨hC, fun s' hs' => (h s' hs').1⟩, ?_⟩
        rintro t ⟨s', hs', hrun⟩
        exact (h s' hs').2 t hrun
      · rintro ⟨⟨hC, h₁⟩, h₂⟩
        exact ⟨hC, fun s' hs' => ⟨h₁ s' hs', fun t ht => h₂ t ⟨s', hs', ht⟩⟩⟩

theorem along_cons {step : σ → α → Option σ} {C : σ → α → Prop} {l : List α} {s s' : σ} {a : α}
    (hstep : step s a = some s') (hC : C s a) (h : Along step C s' l) :
    Along step C s (a :: l) := by
  refine ⟨hC, fun t ht => ?_⟩
  rw [hstep, Option.some.injEq] at ht
  exact ht ▸ h

/-- A side condition that can be decided is checked by running under it. -/
theorem along_of_guarded {step : σ → α → Option σ} {C : σ → α → Prop} [∀ s a, Decidable (C s a)]
    {l : List α} {s t : σ} (h : run (fun s a => if C s a then step s a else none) s l = some t) :
    Along step C s l := by
  induction l generalizing s with
  | nil => trivial
  | cons a l ih =>
      obtain ⟨s', hs', hrest⟩ := run_cons_eq_some.mp h
      split at hs'
      · next hC => exact along_cons hs' hC (ih hrest)
      · cases hs'

theorem along_and {step : σ → α → Option σ} {C D : σ → α → Prop} {l : List α} {s : σ}
    (hC : Along step C s l) (hD : Along step D s l) :
    Along step (fun s a => C s a ∧ D s a) s l := by
  induction l generalizing s with
  | nil => trivial
  | cons a l ih => exact ⟨⟨hC.1, hD.1⟩, fun s' hs' => ih (hC.2 s' hs') (hD.2 s' hs')⟩

/-- Labels that all carry different values never carry one that the run has
logged before. -/
theorem along_fresh {β : Type*} {step : σ → α → Option σ} {f : α → Option β} {g : σ → List β}
    (hlog : ∀ s a s', step s a = some s' → g s' = g s ++ (f a).toList) {l : List α} {s : σ}
    (h : (g s ++ l.filterMap f).Nodup) :
    Along step (fun s a => ∀ b, f a = some b → b ∉ g s) s l := by
  induction l generalizing s with
  | nil => trivial
  | cons a l ih =>
      have hcons : (a :: l).filterMap f = (f a).toList ++ l.filterMap f := by
        cases hf : f a with
        | none => rw [List.filterMap_cons_none hf]; rfl
        | some b => rw [List.filterMap_cons_some hf]; rfl
      rw [hcons, ← List.append_assoc] at h
      refine ⟨fun b hb hmem => ?_, fun s' hs' => ih (by rw [hlog s a s' hs']; exact h)⟩
      have hdisj := (List.nodup_append.mp (List.nodup_append.mp h).1).2.2
      exact hdisj b hmem b (by rw [hb]; exact List.mem_singleton_self b) rfl

/-- A step function that is never stuck runs as a fold. -/
theorem run_total (f : σ → α → σ) (s : σ) (l : List α) :
    run (fun s a => some (f s a)) s l = some (l.foldl f s) := by
  induction l generalizing s with
  | nil => rfl
  | cons a l ih => exact ih (f s a)

/-- What every step uses up bounds the steps of a run: those that `own` names, of
which each costs one. -/
theorem run_countP_add_le {step : σ → α → Option σ} {own : α → Bool} {m : σ → ℕ}
    (hstep : ∀ s a s', step s a = some s' → (if own a then 1 else 0) + m s' ≤ m s) {l : List α}
    {s t : σ} (hrun : run step s l = some t) : l.countP own + m t ≤ m s := by
  induction l generalizing s with
  | nil =>
      rw [run_nil, Option.some.injEq] at hrun
      simp only [hrun, List.countP_nil, Nat.zero_add, Nat.le_refl]
  | cons a l ih =>
      obtain ⟨s', hs', hrest⟩ := run_cons_eq_some.mp hrun
      have hfirst := hstep s a s' hs'
      have hlast := ih hrest
      rw [List.countP_cons]
      omega

/-! ## The invariant rules -/

/-- **The invariant rule under a side condition.** What every step meeting `C`
keeps holds at the end of every run all of whose steps meet `C`. -/
theorem along_invariant {step : σ → α → Option σ} {C : σ → α → Prop} {P : σ → Prop}
    (hstep : ∀ s a s', P s → C s a → step s a = some s' → P s') {l : List α} {s t : σ}
    (hs : P s) (hC : Along step C s l) (hrun : run step s l = some t) : P t := by
  induction l generalizing s with
  | nil =>
      rw [run_nil, Option.some.injEq] at hrun
      exact hrun ▸ hs
  | cons a l ih =>
      obtain ⟨s', hs', hrest⟩ := run_cons_eq_some.mp hrun
      exact ih (hstep s a s' hs hC.1 hs') (hC.2 s' hs') hrest

/-- The same for every state on the way. -/
theorem along_invariant_take {step : σ → α → Option σ} {C : σ → α → Prop} {P : σ → Prop}
    (hstep : ∀ s a s', P s → C s a → step s a = some s' → P s') {l : List α} {s t : σ} {n : ℕ}
    (hs : P s) (hC : Along step C s l) (hrun : run step s (l.take n) = some t) : P t := by
  rw [← List.take_append_drop n l] at hC
  exact along_invariant hstep hs (along_append.mp hC).1 hrun

/-- **The rule of an exact side condition.** Where a step that meets `C` keeps the
invariant, the invariant gives `Q`, and a step that fails `C` leads out of `Q`,
the schedules that meet `C` are those all of whose states are in `Q`. -/
theorem along_iff_forall_prefix {step : σ → α → Option σ} {C : σ → α → Prop} {P Q : σ → Prop}
    (hstep : ∀ s a s', P s → C s a → step s a = some s' → P s') (hgood : ∀ s, P s → Q s)
    (hbad : ∀ s a, P s → ¬ C s a → ∃ s', step s a = some s' ∧ ¬ Q s') {s : σ} (hs : P s)
    (l : List α) : Along step C s l ↔ ∀ n t, run step s (l.take n) = some t → Q t := by
  constructor
  · intro hal n t hrun
    exact hgood t (along_invariant_take hstep hs hal hrun)
  · intro hall
    by_contra hno
    obtain ⟨l₁, a, l₂, t, rfl, hal, hrun, hviol⟩ := exists_first_violation hno
    obtain ⟨u, hu, hout⟩ := hbad t a (along_invariant hstep hs hal hrun) hviol
    refine hout (hall (l₁.length + 1) u ?_)
    rw [List.take_append, List.take_of_length_le (Nat.le_succ _), Nat.add_sub_cancel_left]
    exact run_append_singleton hrun hu

/-- A run that comes to `Q` has a first step that does: it starts outside `Q`,
in a state that a prefix of the schedule reaches and that keeps the invariant. -/
theorem exists_first_step {step : σ → α → Option σ} {C : σ → α → Prop} {P Q : σ → Prop}
    (hstep : ∀ s a s', P s → C s a → step s a = some s' → P s') {l : List α} {s t : σ}
    (hP : P s) (hs : ¬ Q s) (ht : Q t) (hC : Along step C s l) (hrun : run step s l = some t) :
    ∃ n s₁ a s₂, run step s (l.take n) = some s₁ ∧ P s₁ ∧ ¬ Q s₁ ∧ C s₁ a ∧
      step s₁ a = some s₂ ∧ Q s₂ := by
  induction l generalizing s with
  | nil =>
      rw [run_nil, Option.some.injEq] at hrun
      exact absurd (hrun ▸ ht) hs
  | cons a l ih =>
      obtain ⟨s', hs', hrest⟩ := run_cons_eq_some.mp hrun
      by_cases hQ : Q s'
      · -- this is the step
        exact ⟨0, s, a, s', rfl, hP, hs, hC.1, hs', hQ⟩
      · obtain ⟨n, s₁, b, s₂, hpre, h⟩ := ih (hstep s a s' hP hC.1 hs') hQ (hC.2 s' hs') hrest
        refine ⟨n + 1, s₁, b, s₂, ?_, h⟩
        rw [List.take_succ_cons]
        exact run_cons_eq_some.mpr ⟨s', hs', hpre⟩

/-- **The simulation rule.** What one step of the first machine, meeting `C`,
does, a step of the second does with the same label; then a whole run is matched
on the same schedule. -/
theorem run_simulation {step : σ → α → Option σ} {step' : τ → α → Option τ} {C : σ → α → Prop}
    {R : σ → τ → Prop}
    (hstep : ∀ s t a s', R s t → C s a → step s a = some s' → ∃ t', step' t a = some t' ∧ R s' t')
    {l : List α} {s s' : σ} {t : τ} (hR : R s t) (hC : Along step C s l)
    (hrun : run step s l = some s') : ∃ t', run step' t l = some t' ∧ R s' t' := by
  induction l generalizing s t with
  | nil =>
      rw [run_nil, Option.some.injEq] at hrun
      exact ⟨t, rfl, hrun ▸ hR⟩
  | cons a l ih =>
      obtain ⟨s₁, hs₁, hrest⟩ := run_cons_eq_some.mp hrun
      obtain ⟨t₁, ht₁, hR₁⟩ := hstep s t a s₁ hR hC.1 hs₁
      obtain ⟨t', ht', hR'⟩ := ih hR₁ (hC.2 s₁ hs₁) hrest
      exact ⟨t', run_cons_eq_some.mpr ⟨t₁, ht₁, ht'⟩, hR'⟩

/-- **The simulation rule for another schedule.** Where a step is matched by one with a related
label, a run is matched on a schedule of related labels. -/
theorem run_relabelled {β : Type*} {step : σ → α → Option σ} {step' : τ → β → Option τ}
    {L : α → β → Prop} {R : σ → τ → Prop}
    (hstep : ∀ s t a s', R s t → step s a = some s' → ∃ b t', L a b ∧ step' t b = some t' ∧ R s' t')
    {l : List α} {s s' : σ} {t : τ} (hR : R s t) (hrun : run step s l = some s') :
    ∃ l' t', List.Forall₂ L l l' ∧ run step' t l' = some t' ∧ R s' t' := by
  induction l generalizing s t with
  | nil =>
      rw [run_nil, Option.some.injEq] at hrun
      exact ⟨[], t, .nil, rfl, hrun ▸ hR⟩
  | cons a l ih =>
      obtain ⟨s₁, hs₁, hrest⟩ := run_cons_eq_some.mp hrun
      obtain ⟨b, t₁, hlabel, ht₁, hR₁⟩ := hstep s t a s₁ hR hs₁
      obtain ⟨l', t', hlabels, ht', hR'⟩ := ih hR₁ hrest
      exact ⟨b :: l', t', .cons hlabel hlabels, run_cons_eq_some.mpr ⟨t₁, ht₁, ht'⟩, hR'⟩

/-- Two side conditions that agree where an invariant holds are met by the same
schedules. -/
theorem along_congr {step : σ → α → Option σ} {C D : σ → α → Prop} {P : σ → Prop}
    (hstep : ∀ s a s', P s → step s a = some s' → P s') (hiff : ∀ s a, P s → (C s a ↔ D s a))
    {l : List α} {s : σ} (hs : P s) : Along step C s l ↔ Along step D s l := by
  induction l generalizing s with
  | nil => exact Iff.rfl
  | cons a l ih =>
      refine and_congr (hiff s a hs) (forall_congr' fun s' => ?_)
      exact forall_congr' fun hs' => ih (hstep s a s' hs hs')

/-- **The invariant rule.** What every step keeps holds at the end of every run. -/
theorem run_invariant {step : σ → α → Option σ} {P : σ → Prop}
    (hstep : ∀ s a s', P s → step s a = some s' → P s') {l : List α} {s t : σ}
    (hs : P s) (hrun : run step s l = some t) : P t :=
  along_invariant (fun s a s' h _ => hstep s a s' h) hs (along_of_forall (fun _ _ _ => trivial) s) hrun

/-- **The invariant rule with the past.** What holds of a state and the labels before it, and is kept
by every step, holds of a run's end and its schedule. -/
theorem run_past_invariant {step : σ → α → Option σ} {P : List α → σ → Prop}
    (hstep : ∀ past s a s', P past s → step s a = some s' → P (past ++ [a]) s') {l : List α}
    {s t : σ}
    (hs : P [] s) (hrun : run step s l = some t) : P l t := by
  have hgo : ∀ (l past : List α) (s : σ), P past s → run step s l = some t → P (past ++ l) t := by
    intro l
    induction l with
    | nil =>
        intro past s hs hrun
        rw [run_nil, Option.some.injEq] at hrun
        rw [List.append_nil, ← hrun]
        exact hs
    | cons a l ih =>
        intro past s hs hrun
        obtain ⟨s', hs', hrest⟩ := run_cons_eq_some.mp hrun
        have hnext := ih (past ++ [a]) s' (hstep past s a s' hs hs') hrest
        rw [List.append_assoc] at hnext
        exact hnext
  exact hgo l [] s hs hrun

/-- A counter that goes up at the labels that `own` names has counted those of the run. -/
theorem run_countP_eq {step : σ → α → Option σ} {own : α → Bool} {m : σ → ℕ}
    (hstep : ∀ s a s', step s a = some s' → m s' = m s + (own a).toNat) {l : List α}
    {s t : σ} (hrun : run step s l = some t) : m t = m s + l.countP own := by
  apply run_past_invariant (P := fun past s' => m s' = m s + past.countP own) _ rfl hrun
  intro past s' a s'' h hs''
  have hone : [a].countP own = (own a).toNat := by
    rw [List.countP_singleton]
    cases own a <;> rfl
  rw [hstep s' a s'' hs'', h, List.countP_append, hone, Nat.add_assoc]

/-! ## Logs -/

section Log

variable {β : Type*} {step : σ → α → Option σ} {lines : σ → α → σ → List β}

/-- What somebody writes down of a run who sees each label, and the states before and after it. The
machine has no part in it. -/
def log (step : σ → α → Option σ) (lines : σ → α → σ → List β) : σ → List α → List β
  | _, [] => []
  | s, a :: l =>
    match step s a with
    | none => []
    | some s' => lines s a s' ++ log step lines s' l

theorem log_cons {s s' : σ} {a : α} {l : List α} (hstep : step s a = some s') :
    log step lines s (a :: l) = lines s a s' ++ log step lines s' l := by
  rw [log, hstep]

theorem log_cons_stuck {s : σ} {a : α} {l : List α} (hstep : step s a = none) :
    log step lines s (a :: l) = [] := by
  rw [log, hstep]

/-- **The rule of the lines.** What each step writes from a state with the invariant is true of the
whole log. -/
theorem forall_mem_log {P : σ → Prop} {Q : β → Prop}
    (hstep : ∀ s a s', P s → step s a = some s' → P s')
    (hlines : ∀ s a s', P s → step s a = some s' → ∀ line ∈ lines s a s', Q line) {s : σ} (hs : P s)
    (l : List α) : ∀ line ∈ log step lines s l, Q line := by
  induction l generalizing s with
  | nil => exact fun line hline => absurd hline List.not_mem_nil
  | cons a l ih =>
      intro line hline
      rcases hs' : step s a with _ | s'
      · rw [log_cons_stuck hs'] at hline
        exact absurd hline List.not_mem_nil
      · rw [log_cons hs', List.mem_append] at hline
        rcases hline with hfirst | hrest
        · exact hlines s a s' hs hs' line hfirst
        · exact ih (hstep s a s' hs hs') line hrest

/-- **The rule of the length.** A log is no longer than what its lines use up. -/
theorem length_log_le {P : σ → Prop} {m : σ → ℕ}
    (hstep : ∀ s a s', P s → step s a = some s' → P s')
    (hlines : ∀ s a s', P s → step s a = some s' → (lines s a s').length + m s' ≤ m s) {s : σ}
    (hs : P s) (l : List α) : (log step lines s l).length ≤ m s := by
  induction l generalizing s with
  | nil => exact Nat.zero_le _
  | cons a l ih =>
      rcases hs' : step s a with _ | s'
      · rw [log_cons_stuck hs']
        exact Nat.zero_le _
      · have hfirst := hlines s a s' hs hs'
        have hrest := ih (hstep s a s' hs hs')
        rw [log_cons hs', List.length_append]
        omega

end Log

end Machine
