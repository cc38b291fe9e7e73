/-
Finite maps: Mathlib's association lists with distinct keys, at one type of values.

What the later files store per key and then summarise over all keys -- the
contributions of an address lookup, say -- lives in one of these. Lookup agrees
with membership because the keys are distinct, and a summary of the entries that
meet a predicate depends on nothing but those entries; the two facts together say
which summaries an update leaves alone. Lookup, insertion and erasure are those of
`AList`; what is added here is membership of entries after an update, the entries
that a predicate keeps, and the summaries.
-/
import Mathlib.Data.Finset.Lattice.Basic
import Mathlib.Data.Finset.Union
import Mathlib.Data.List.AList

set_option autoImplicit false

/-- A map from finitely many keys to values. -/
abbrev FiniteMap (K V : Type*) := AList fun _ : K => V

namespace AList

variable {K V A : Type*} {m m' : FiniteMap K V} {k : K} {v : V} {e : Σ _ : K, V}

/-! ## Updates -/

/-- The entries that meet `p`. -/
def retain (m : FiniteMap K V) (p : K → V → Bool) : FiniteMap K V where
  entries := m.entries.filter fun e => p e.1 e.2
  nodupKeys := m.nodupKeys.sublist List.filter_sublist

theorem mem_retain {p : K → V → Bool} :
    e ∈ (m.retain p).entries ↔ e ∈ m.entries ∧ p e.1 e.2 = true :=
  List.mem_filter

section Keys

variable [DecidableEq K]

/-- `mem_lookup_iff` as an equation, to rewrite with. -/
theorem lookup_eq_some_iff : m.lookup k = some v ↔ ⟨k, v⟩ ∈ m.entries := mem_lookup_iff

/-- A lookup after an erasure, at any key. -/
theorem lookup_erase_eq_ite (m : FiniteMap K V) (k k' : K) :
    (m.erase k).lookup k' = if k' = k then none else m.lookup k' := by
  split
  next heq => rw [heq, lookup_erase]
  next hne => exact lookup_erase_ne hne

/-- A lookup after an insertion, at any key. -/
theorem lookup_insert_eq_ite (m : FiniteMap K V) (k k' : K) (v : V) :
    (m.insert k v).lookup k' = if k' = k then some v else m.lookup k' := by
  split
  next heq => rw [heq, lookup_insert]
  next hne => exact lookup_insert_ne hne

theorem mem_entries_erase : e ∈ (m.erase k).entries ↔ e ∈ m.entries ∧ e.1 ≠ k := by
  obtain ⟨k', v⟩ := e
  rw [← lookup_eq_some_iff, ← lookup_eq_some_iff, lookup_erase_eq_ite]
  split
  next heq => exact ⟨nofun, fun h => absurd heq h.2⟩
  next hne => exact ⟨fun h => ⟨h, hne⟩, And.left⟩

/-- A new entry takes the place of the key's old one. -/
theorem mem_entries_insert :
    e ∈ (m.insert k v).entries ↔ e = ⟨k, v⟩ ∨ e ∈ m.entries ∧ e.1 ≠ k := by
  rw [entries_insert, List.mem_cons]
  exact or_congr_right mem_entries_erase

/-- Erasing a key retains the entries under the others, in their order. -/
theorem entries_erase (m : FiniteMap K V) (k : K) :
    (m.erase k).entries = m.entries.filter fun e => decide (e.1 ≠ k) := by
  by_cases hk : k ∈ m.entries.keys
  · obtain ⟨v, before, rest, hbefore, hentries, herase⟩ := List.exists_of_kerase hk
    -- the rest of the list has no second entry under the key
    have hrest : k ∉ rest.keys := by
      have hnodup := m.nodupKeys
      rw [hentries] at hnodup
      have hmiddle := (List.nodupKeys_cons.mp (List.nodupKeys_middle.mp hnodup)).1
      rw [List.keys_append, List.mem_append, not_or] at hmiddle
      exact hmiddle.2
    have hkept : ∀ l : List (Σ _ : K, V), k ∉ l.keys → l.filter (fun e => decide (e.1 ≠ k)) = l :=
      fun l hl => List.filter_eq_self.mpr fun e he =>
        decide_eq_true fun heq => hl (heq ▸ List.mem_keys_of_mem he)
    calc (m.erase k).entries
        = before ++ rest := herase
      _ = before.filter (fun e => decide (e.1 ≠ k)) ++ rest.filter (fun e => decide (e.1 ≠ k)) := by
          rw [hkept before hbefore, hkept rest hrest]
      _ = m.entries.filter fun e => decide (e.1 ≠ k) := by
          rw [hentries, List.filter_append, List.filter_cons_of_neg (by simp)]
  · refine (List.kerase_of_notMem_keys hk).trans (List.filter_eq_self.mpr fun e he => ?_).symm
    exact decide_eq_true fun heq => hk (heq ▸ List.mem_keys_of_mem he)

end Keys

/-! ## Values -/

/-- The values, in the order of their entries. -/
def values (m : FiniteMap K V) : List V := m.entries.map Sigma.snd

/-- Retaining splits the values in two. -/
theorem values_perm_retain (m : FiniteMap K V) (p : K → V → Bool) :
    m.values.Perm
      ((m.entries.filter fun e => p e.1 e.2).map Sigma.snd ++
        (m.retain fun k v => !p k v).values) := by
  rw [values, values, ← List.map_append]
  exact (List.filter_append_perm (fun e => p e.1 e.2) m.entries).symm.map Sigma.snd

section ValueKeys

variable [DecidableEq K]

/-- The entries under one key are the one that a lookup finds. -/
theorem filter_key (m : FiniteMap K V) (k : K) :
    (m.entries.filter fun e => decide (e.1 = k)).map Sigma.snd = (m.lookup k).toList := by
  rw [lookup, ← List.lookupAll_eq_dlookup k m.nodupKeys]
  induction m.entries with
  | nil => rfl
  | cons e l ih =>
      obtain ⟨k', v⟩ := e
      by_cases heq : k' = k
      · subst heq
        rw [List.filter_cons_of_pos (by simp), List.map_cons, ih, List.lookupAll_cons_eq]
      · rw [List.filter_cons_of_neg (by simpa using heq), ih,
          List.lookupAll_cons_ne _ _ (Ne.symm heq)]

theorem values_perm_erase (m : FiniteMap K V) (k : K) :
    m.values.Perm ((m.lookup k).toList ++ (m.erase k).values) := by
  rw [← filter_key, values, values, entries_erase, ← List.map_append]
  have hsplit := List.filter_append_perm (fun e : Σ _ : K, V => decide (e.1 = k)) m.entries
  simpa only [ne_eq, decide_not] using hsplit.symm.map Sigma.snd

theorem values_insert (m : FiniteMap K V) (k : K) (v : V) :
    (m.insert k v).values = v :: (m.erase k).values := rfl

end ValueKeys

/-! ## Summaries -/

/-- Some entry meets `p`. -/
def any (m : FiniteMap K V) (p : K → V → Bool) : Bool := m.entries.any fun e => p e.1 e.2

theorem any_eq_true_iff {p : K → V → Bool} :
    m.any p = true ↔ ∃ e ∈ m.entries, p e.1 e.2 = true :=
  List.any_eq_true

/-- Whether an entry meets `p` depends on the entries that meet it alone. -/
theorem any_congr {p : K → V → Bool}
    (h : ∀ e : Σ _ : K, V, p e.1 e.2 = true → (e ∈ m.entries ↔ e ∈ m'.entries)) :
    m.any p = m'.any p := by
  rw [Bool.eq_iff_iff, any_eq_true_iff, any_eq_true_iff]
  constructor
  · rintro ⟨e, he, hp⟩
    exact ⟨e, (h e hp).mp he, hp⟩
  · rintro ⟨e, he, hp⟩
    exact ⟨e, (h e hp).mpr he, hp⟩

variable [DecidableEq A]

/-- The union of `f` over the entries that meet `p`. -/
def gather (m : FiniteMap K V) (p : K → V → Bool) (f : V → Finset A) : Finset A :=
  (m.entries.filter fun e => p e.1 e.2).foldr (fun e u => f e.2 ∪ u) ∅

theorem mem_gather {p : K → V → Bool} {f : V → Finset A} {a : A} :
    a ∈ m.gather p f ↔ ∃ e ∈ m.entries, p e.1 e.2 = true ∧ a ∈ f e.2 := by
  have hfold : ∀ l : List (Σ _ : K, V),
      a ∈ l.foldr (fun e u => f e.2 ∪ u) ∅ ↔ ∃ e ∈ l, a ∈ f e.2 := by
    intro l
    induction l with
    | nil => simp
    | cons e l ih => rw [List.foldr_cons, Finset.mem_union, ih, List.exists_mem_cons_iff]
  rw [gather, hfold]
  simp only [List.mem_filter, and_assoc]

/-- The summary of the entries that meet `p` depends on those alone. -/
theorem gather_congr {p : K → V → Bool} {f : V → Finset A}
    (h : ∀ e : Σ _ : K, V, p e.1 e.2 = true → (e ∈ m.entries ↔ e ∈ m'.entries)) :
    m.gather p f = m'.gather p f := by
  ext a
  rw [mem_gather, mem_gather]
  constructor
  · rintro ⟨e, he, hp, ha⟩
    exact ⟨e, (h e hp).mp he, hp, ha⟩
  · rintro ⟨e, he, hp, ha⟩
    exact ⟨e, (h e hp).mpr he, hp, ha⟩

end AList
