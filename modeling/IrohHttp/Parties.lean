/-
Parties: a list of states, one for each call or task there has been, of which one moves
at a time.

The lemmas say what a move of one party does to what is said of all of them: to a
property by index, to a count, and to the things the parties hold between them. `Held`
is a lock: the parties that are inside are those that own it, so there is one at most.
-/
import Mathlib.Data.List.Basic
import Mathlib.Data.Option.Basic

set_option autoImplicit false

namespace IrohHttp.Parties

variable {C : Type} {l : List C} {i j : ℕ} {c c' d : C}

/-! ## One of them -/

/-- A party of the updated list is the new one, or another that was there. -/
theorem getElem?_set_cases (hj : (l.set i c')[j]? = some d) :
    (j = i ∧ d = c') ∨ (j ≠ i ∧ l[j]? = some d) := by
  rw [List.getElem?_set] at hj
  by_cases hij : i = j
  · rw [if_pos hij] at hj
    split at hj
    · exact .inl ⟨hij.symm, (Option.some.inj hj).symm⟩
    · cases hj
  · rw [if_neg hij] at hj
    exact .inr ⟨fun h => hij h.symm, hj⟩

theorem getElem?_set_self (hi : l[i]? = some c) : (l.set i c')[i]? = some c' :=
  List.getElem?_set_self (List.getElem?_eq_some_iff.mp hi).1

/-- A party of the modified list is the modified one, or another that was there. -/
theorem getElem?_modify_cases {f : C → C} (hj : (l.modify i f)[j]? = some d) :
    (j = i ∧ ∃ c, l[j]? = some c ∧ d = f c) ∨ (j ≠ i ∧ l[j]? = some d) := by
  rw [List.getElem?_modify] at hj
  obtain ⟨c, hc, hd⟩ := Option.map_eq_some_iff.mp hj
  by_cases hij : i = j
  · rw [if_pos hij] at hd
    exact .inl ⟨hij.symm, c, hc, hd.symm⟩
  · rw [if_neg hij] at hd
    exact .inr ⟨fun h => hij h.symm, hc.trans (congrArg some hd)⟩

/-- A party of the longer list is the new one, or one that was there. -/
theorem getElem?_concat_cases (hj : (l ++ [c])[j]? = some d) :
    (j = l.length ∧ d = c) ∨ l[j]? = some d := by
  rcases Nat.lt_trichotomy j l.length with hlt | heq | hgt
  · rw [List.getElem?_append_left hlt] at hj
    exact .inr hj
  · rw [heq, List.getElem?_concat_length] at hj
    exact .inl ⟨heq, (Option.some.inj hj).symm⟩
  · have hlen : (l ++ [c]).length ≤ j := by
      rw [List.length_append, List.length_singleton]
      omega
    rw [List.getElem?_eq_none hlen] at hj
    cases hj

theorem lt_of_getElem? (hi : l[i]? = some c) : i < l.length :=
  (List.getElem?_eq_some_iff.mp hi).1

theorem mem_set_self (hi : l[i]? = some c) : c' ∈ l.set i c' :=
  List.mem_set (lt_of_getElem? hi) _

/-- A party that is not the one that moves is still there. -/
theorem mem_set_of_ne (hi : l[i]? = some c) (hd : d ∈ l) (hne : d ≠ c) : d ∈ l.set i c' := by
  obtain ⟨j, hj⟩ := List.mem_iff_getElem?.mp hd
  have hij : i ≠ j := by
    rintro rfl
    exact hne (Option.some.inj (hj.symm.trans hi))
  exact List.mem_of_getElem? ((List.getElem?_set_ne hij).trans hj)

theorem mem_concat_cases (hd : d ∈ l ++ [c]) : d ∈ l ∨ d = c := by
  rcases List.mem_append.mp hd with hd | hd
  · exact .inl hd
  · exact .inr (List.mem_singleton.mp hd)

theorem exists_concat {P : C → Prop} (h : ∃ d ∈ l, P d) : ∃ d ∈ l ++ [c], P d := by
  obtain ⟨d, hd, hp⟩ := h
  exact ⟨d, List.mem_append_left _ hd, hp⟩

/-- What some party has to do it has still to do, unless it was the one that moved. -/
theorem exists_set (hi : l[i]? = some c) {P : C → Prop} (h : ∃ d ∈ l, P d) (hc : P c → P c') :
    ∃ d ∈ l.set i c', P d := by
  obtain ⟨d, hd, hp⟩ := h
  by_cases hdc : d = c
  · exact ⟨c', mem_set_self hi, hc (hdc ▸ hp)⟩
  · exact ⟨d, mem_set_of_ne hi hd hdc, hp⟩

/-! ## All of them -/

/-- A list around the entry that moves. -/
theorem set_split (hi : l[i]? = some c) :
    ∃ l₁ l₂, l = l₁ ++ c :: l₂ ∧ l₁.length = i ∧ ∀ c', l.set i c' = l₁ ++ c' :: l₂ := by
  obtain ⟨hlt, hget⟩ := List.getElem?_eq_some_iff.mp hi
  refine ⟨l.take i, l.drop (i + 1), ?_, ?_,
    fun c' => List.set_eq_take_append_cons_drop.trans (if_pos hlt)⟩
  · rw [← hget, ← List.drop_eq_getElem_cons hlt, List.take_append_drop]
  · rw [List.length_take]
    omega

/-- The last entry moves. -/
theorem set_last_split (hi : l[i]? = some c) (hlast : i + 1 = l.length) :
    ∃ l₁, l = l₁ ++ [c] ∧ ∀ c', l.set i c' = l₁ ++ [c'] := by
  obtain ⟨l₁, l₂, heq, hlen, hset⟩ := set_split hi
  have hnil : l₂ = [] := by
    rw [heq, List.length_append, List.length_cons] at hlast
    apply List.eq_nil_of_length_eq_zero
    omega
  subst hnil
  exact ⟨l₁, heq, hset⟩

/-- Replacing a party changes a count by that party alone. -/
theorem countP_set (p : C → Bool) (hi : l[i]? = some c) (c' : C) :
    (l.set i c').countP p + (if p c then 1 else 0) =
      l.countP p + (if p c' then 1 else 0) := by
  obtain ⟨l₁, l₂, heq, -, hset⟩ := set_split hi
  rw [hset c', heq]
  simp only [List.countP_append, List.countP_cons]
  omega

/-- Only one index can be counted. -/
theorem countP_le_one {p : C → Bool} (h : ∀ (i j : ℕ) (c d : C), l[i]? = some c → p c = true →
    l[j]? = some d → p d = true → i = j) : l.countP p ≤ 1 := by
  by_cases hsome : ∃ (i : ℕ) (c : C), l[i]? = some c ∧ p c = true
  · obtain ⟨i, c, hi, hc⟩ := hsome
    obtain ⟨l₁, l₂, heq, hlen, -⟩ := set_split hi
    have hzero : ∀ (l' : List C) (n : ℕ), (∀ (j : ℕ) (d : C), l'[j]? = some d → l[n + j]? = some d) →
        (∀ j, j < l'.length → n + j ≠ i) → l'.countP p = 0 := by
      intro l' n hl' hne
      rw [List.countP_eq_zero]
      intro d hd hpd
      obtain ⟨j, hj⟩ := List.mem_iff_getElem?.mp hd
      exact hne j (lt_of_getElem? hj) (h _ _ d c (hl' j d hj) hpd hi hc)
    have hleft : l₁.countP p = 0 := by
      apply hzero l₁ 0
      · intro j d hj
        rw [Nat.zero_add, heq, List.getElem?_append_left (lt_of_getElem? hj)]
        exact hj
      · intro j hj
        omega
    have hright : l₂.countP p = 0 := by
      apply hzero l₂ (i + 1)
      · intro j d hj
        rw [heq, List.getElem?_append_right (by omega), show i + 1 + j - l₁.length = j + 1 by omega,
          List.getElem?_cons_succ]
        exact hj
      · intro j hj
        omega
    have hone : l.countP p = 1 := by
      rw [heq, List.countP_append, List.countP_cons, hleft, hright, if_pos hc]
    omega
  · have hzero : l.countP p = 0 := by
      rw [List.countP_eq_zero]
      intro c hc hpc
      obtain ⟨i, hi⟩ := List.mem_iff_getElem?.mp hc
      exact hsome ⟨i, c, hi, hpc⟩
    omega

/-- If one is counted, there is no other. -/
theorem eq_of_countP_le_one {p : C → Bool} (h : l.countP p ≤ 1) (hi : l[i]? = some c)
    (hc : p c = true) (hj : l[j]? = some d) (hd : p d = true) : i = j := by
  by_contra hij
  obtain ⟨l₁, l₂, heq, hlen, -⟩ := set_split hi
  rw [heq, List.countP_append, List.countP_cons, if_pos hc] at h
  have hleft : l₁.countP p = 0 := by omega
  have hright : l₂.countP p = 0 := by omega
  rw [List.countP_eq_zero] at hleft hright
  rw [heq] at hj
  rcases Nat.lt_trichotomy j l₁.length with hlt | heq' | hgt
  · rw [List.getElem?_append_left hlt] at hj
    exact hleft d (List.mem_of_getElem? hj) hd
  · omega
  · rw [List.getElem?_append_right (by omega), show j - l₁.length = j - l₁.length - 1 + 1 by omega,
      List.getElem?_cons_succ] at hj
    exact hright d (List.mem_of_getElem? hj) hd

/-- What the parties hold between them, after one has moved. -/
theorem count_flatMap_set {X : Type} [BEq X] (f : C → List X) (hi : l[i]? = some c) (c' : C)
    (x : X) :
    ((l.set i c').flatMap f).count x + (f c).count x = (l.flatMap f).count x + (f c').count x := by
  obtain ⟨l₁, l₂, heq, -, hset⟩ := set_split hi
  rw [hset c', heq]
  simp only [List.flatMap_append, List.flatMap_cons, List.count_append]
  omega

/-! ## A lock -/

/-- The party inside is the owner. -/
structure Held (holds : C → Bool) (owner : Option ℕ) (l : List C) : Prop where
  owns : ∀ i c, l[i]? = some c → (holds c = true ↔ owner = some i)
  bound : ∀ i, owner = some i → i < l.length

variable {holds : C → Bool} {owner : Option ℕ}

theorem held_nil (holds : C → Bool) : Held holds none [] where
  owns i c hi := by
    rw [List.getElem?_nil] at hi
    cases hi
  bound i hi := by cases hi

/-- Nobody else is inside. -/
theorem Held.only (h : Held holds owner l) (hi : l[i]? = some c) (hc : holds c = true)
    (hj : l[j]? = some d) (hd : holds d = true) : j = i := by
  have howner := (h.owns i c hi).mp hc
  rw [(h.owns j d hj).mp hd] at howner
  exact Option.some.inj howner

/-- With no owner, no party is inside. -/
theorem Held.none_inside (h : Held holds none l) (hi : l[i]? = some c) : holds c = false := by
  rw [Bool.eq_false_iff]
  intro hc
  have howner := (h.owns i c hi).mp hc
  cases howner

theorem Held.add (h : Held holds owner l) (hc : holds c = false) : Held holds owner (l ++ [c]) where
  owns j d hj := by
    rcases getElem?_concat_cases hj with ⟨rfl, rfl⟩ | hj
    · rw [hc]
      constructor
      · intro hno
        cases hno
      · intro howner
        exact absurd (h.bound _ howner) (Nat.lt_irrefl _)
    · exact h.owns j d hj
  bound j hj := by
    have hlt := h.bound j hj
    rw [List.length_append]
    omega

/-- A party moves, and stays inside or outside. -/
theorem Held.keep (h : Held holds owner l) (hi : l[i]? = some c) (hc : holds c' = holds c) :
    Held holds owner (l.set i c') where
  owns j d hj := by
    rcases getElem?_set_cases hj with ⟨rfl, rfl⟩ | ⟨-, hj⟩
    · rw [hc]
      exact h.owns j c hi
    · exact h.owns j d hj
  bound j hj := by
    rw [List.length_set]
    exact h.bound j hj

/-- A party takes the lock. -/
theorem Held.acquire (h : Held holds none l) (hi : l[i]? = some c) (hc : holds c' = true) :
    Held holds (some i) (l.set i c') where
  owns j d hj := by
    rcases getElem?_set_cases hj with ⟨rfl, rfl⟩ | ⟨hne, hj⟩
    · simp only [hc]
    · rw [h.none_inside hj, Option.some.injEq]
      constructor
      · intro hno
        cases hno
      · intro heq
        exact absurd heq.symm hne
  bound j hj := by
    obtain rfl := Option.some.inj hj
    rw [List.length_set]
    exact lt_of_getElem? hi

/-- The party inside leaves. -/
theorem Held.release (h : Held holds owner l) (hi : l[i]? = some c) (hin : holds c = true)
    (hc : holds c' = false) : Held holds none (l.set i c') where
  owns j d hj := by
    rcases getElem?_set_cases hj with ⟨rfl, rfl⟩ | ⟨hne, hj⟩
    · simp only [hc, Bool.false_eq_true, false_iff]
      intro hno
      cases hno
    · constructor
      · intro hd
        exact absurd (h.only hi hin hj hd) hne
      · intro hno
        cases hno
  bound j hj := by cases hj

end IrohHttp.Parties
