/-
Generational slot maps: what a client may rely on, and a free-list model that
has it.

`SlotMap K M` is the interface. Its laws are the ones a generational map is
documented to keep: a lookup sees exactly the entries inserted and not yet
removed, one map value never issues a key twice, and a fresh map issues its
first key again. The second law is carried by `Issued`, the keys a map value
has handed out since it was created; it grows with `insert` and with nothing
else, and a key outside it is the only kind `insert` returns.

`Slots` is the model: a vector of versioned slots and a stack of the vacant
ones. A version is even while its slot is vacant and odd while it is occupied,
and it only grows, which is all of the freshness argument. Versions are natural
numbers here, so the 32-bit wrap-around of a real slot is not modelled -- that
is exactly the assumption that a key is never issued twice.
-/
import Mathlib.Algebra.Group.Nat.Defs
import Mathlib.Data.List.Basic
import Mathlib.Data.List.Nodup
import Mathlib.Data.Nat.Pairing

set_option autoImplicit false

/-! ## The interface -/

/-- A map from keys it issues itself to values. `as_ffi` and `from_ffi` are the
integer form of a key; every other field is the operation of that name. -/
class SlotMap (K : outParam Type) (M : Type → Type) where
  with_key : {V : Type} → M V
  insert : {V : Type} → M V → V → K × M V
  get : {V : Type} → M V → K → Option V
  modify : {V : Type} → M V → K → (V → V) → M V
  remove : {V : Type} → M V → K → M V
  iter : {V : Type} → M V → List (K × V)
  capacity : {V : Type} → M V → ℕ
  as_ffi : K → ℕ
  from_ffi : ℕ → K
  /-- The keys this map value has issued since `with_key`. -/
  Issued : {V : Type} → M V → K → Prop
  get_with_key : ∀ {V : Type} (k : K), get (with_key : M V) k = none
  get_insert_self : ∀ {V : Type} (m : M V) (v : V), get (insert m v).2 (insert m v).1 = some v
  get_insert_of_ne : ∀ {V : Type} {m : M V} {v : V} {k : K},
    k ≠ (insert m v).1 → get (insert m v).2 k = get m k
  get_modify_self : ∀ {V : Type} (m : M V) (k : K) (f : V → V),
    get (modify m k f) k = (get m k).map f
  get_modify_of_ne : ∀ {V : Type} {m : M V} {j k : K} {f : V → V},
    k ≠ j → get (modify m j f) k = get m k
  get_remove_self : ∀ {V : Type} (m : M V) (k : K), get (remove m k) k = none
  get_remove_of_ne : ∀ {V : Type} {m : M V} {j k : K}, k ≠ j → get (remove m j) k = get m k
  remove_absent : ∀ {V : Type} (m : M V) (k : K), get m k = none → remove m k = m
  modify_absent : ∀ {V : Type} (m : M V) (k : K) (f : V → V), get m k = none → modify m k f = m
  mem_iter : ∀ {V : Type} (m : M V) (k : K) (v : V), (k, v) ∈ iter m ↔ get m k = some v
  issued_with_key : ∀ {V : Type} (k : K), ¬ Issued (with_key : M V) k
  issued_insert : ∀ {V : Type} (m : M V) (v : V) (k : K),
    Issued (insert m v).2 k ↔ k = (insert m v).1 ∨ Issued m k
  issued_modify : ∀ {V : Type} (m : M V) (j : K) (f : V → V) (k : K),
    Issued (modify m j f) k ↔ Issued m k
  issued_remove : ∀ {V : Type} (m : M V) (j k : K), Issued (remove m j) k ↔ Issued m k
  issued_of_get : ∀ {V : Type} (m : M V) (k : K) (v : V), get m k = some v → Issued m k
  /-- One map value never issues the same key twice. -/
  insert_fresh : ∀ {V : Type} (m : M V) (v : V), ¬ Issued m (insert m v).1
  /-- A fresh map starts again from its initial key. -/
  insert_with_key : ∀ {V : Type} (v w : V),
    (insert (with_key : M V) v).1 = (insert (with_key : M V) w).1
  /-- The integer form of an issued key decodes to that key. -/
  from_as_ffi : ∀ {V : Type} (m : M V) (k : K), Issued m k → from_ffi (as_ffi k) = k

namespace SlotMap

variable {K : Type} {M : Type → Type} [SlotMap K M] {V : Type}

/-- The number of entries. -/
def len (m : M V) : ℕ := (iter m).length

/-- No entry is left. -/
def is_empty (m : M V) : Bool := (iter m).isEmpty

theorem is_empty_iff (m : M V) : is_empty m = true ↔ ∀ k, get m k = none := by
  rw [is_empty, List.isEmpty_iff]
  constructor
  · intro h k
    cases hk : get m k with
    | none => rfl
    | some v => rw [← mem_iter, h] at hk; exact absurd hk (List.not_mem_nil)
  · intro h
    refine List.eq_nil_iff_forall_not_mem.mpr ?_
    rintro ⟨k, v⟩ hkv
    rw [mem_iter, h k] at hkv
    exact absurd hkv (by simp)

/-- Removing a list of keys, one after the other. -/
def removeAll (m : M V) (ks : List K) : M V := ks.foldl remove m

@[simp] theorem removeAll_nil (m : M V) : removeAll m [] = m := rfl

@[simp] theorem removeAll_cons (m : M V) (k : K) (ks : List K) :
    removeAll m (k :: ks) = removeAll (remove m k) ks := rfl

/-- A key that is not removed keeps its value. -/
theorem get_removeAll_of_not_mem {m : M V} {ks : List K} {k : K} (h : k ∉ ks) :
    get (removeAll m ks) k = get m k := by
  induction ks generalizing m with
  | nil => rw [removeAll_nil]
  | cons j ks ih =>
      rw [List.mem_cons, not_or] at h
      rw [removeAll_cons, ih h.2, get_remove_of_ne h.1]

/-- A key that is removed has none. -/
theorem get_removeAll_of_mem {m : M V} {ks : List K} {k : K} (h : k ∈ ks) :
    get (removeAll m ks) k = none := by
  induction ks generalizing m with
  | nil => exact absurd h List.not_mem_nil
  | cons j ks ih =>
      rw [removeAll_cons]
      by_cases hk : k ∈ ks
      · exact ih hk
      · rcases List.mem_cons.mp h with rfl | h
        · rw [get_removeAll_of_not_mem hk, get_remove_self]
        · exact absurd h hk

/-- Removing issues nothing, and takes nothing back. -/
theorem issued_removeAll (m : M V) (ks : List K) (k : K) :
    Issued (removeAll m ks) k ↔ Issued m k := by
  induction ks generalizing m with
  | nil => rw [removeAll_nil]
  | cons j ks ih => rw [removeAll_cons, ih, issued_remove]

end SlotMap

/-- An iteration that visits every entry once. -/
class IteratesOnce (K : outParam Type) (M : Type → Type) [SlotMap K M] : Prop where
  iter_nodup : ∀ {V : Type} (m : M V), ((SlotMap.iter m).map Prod.fst).Nodup

namespace SlotMap

variable {K : Type} {M : Type → Type} [SlotMap K M] {V : Type}

/-- The keys of the iteration are those with a value. -/
theorem mem_keys {m : M V} {k : K} : k ∈ (iter m).map Prod.fst ↔ get m k ≠ none := by
  simp only [List.mem_map, Prod.exists, exists_and_right, exists_eq_right, mem_iter,
    Option.ne_none_iff_exists']

theorem len_with_key : len (with_key : M V) = 0 := by
  rw [len, List.length_eq_zero_iff]
  refine List.eq_nil_iff_forall_not_mem.mpr ?_
  rintro ⟨k, v⟩ hkv
  rw [mem_iter, get_with_key] at hkv
  cases hkv

variable [IteratesOnce K M]

/-- A map in which nothing new resolves has not grown. -/
theorem len_le_of_absent {m m' : M V} (h : ∀ k, get m k = none → get m' k = none) :
    len m' ≤ len m := by
  have hsub : (iter m').map Prod.fst ⊆ (iter m).map Prod.fst := by
    intro k hk
    rw [mem_keys] at hk ⊢
    exact fun hnone => hk (h k hnone)
  have hle := List.Nodup.length_le_of_subset (IteratesOnce.iter_nodup m') hsub
  simpa only [len, List.length_map] using hle

theorem len_insert (m : M V) (v : V) : len (insert m v).2 = len m + 1 := by
  have hnew : get m (insert m v).1 = none := by
    cases hk : get m (insert m v).1 with
    | none => rfl
    | some w => exact absurd (issued_of_get m _ w hk) (insert_fresh m v)
  have hnodup : ((insert m v).1 :: (iter m).map Prod.fst).Nodup := by
    refine List.nodup_cons.mpr ⟨?_, IteratesOnce.iter_nodup m⟩
    rw [mem_keys]
    exact fun h => h hnew
  have hperm : (iter (insert m v).2).map Prod.fst |>.Perm
      ((insert m v).1 :: (iter m).map Prod.fst) := by
    rw [List.perm_ext_iff_of_nodup (IteratesOnce.iter_nodup _) hnodup]
    intro k
    rw [List.mem_cons, mem_keys, mem_keys]
    by_cases hk : k = (insert m v).1
    · simp only [hk, get_insert_self, ne_eq, reduceCtorEq, not_false_eq_true, true_or]
    · simp only [get_insert_of_ne hk, hk, false_or]
  have hlen := hperm.length_eq
  simpa only [len, List.length_map, List.length_cons] using hlen

end SlotMap

/-- Keys that are a slot and a version, and integers made of the two: a slot is
first filled under version 1, and every reuse raises its version by 2. -/
class VersionedKeys (K : outParam Type) (M : Type → Type) [SlotMap K M] where
  index : K → ℕ
  version : K → ℕ
  /-- The version is the high word and the index the low one. -/
  as_ffi_eq : ∀ k : K, SlotMap.as_ffi M k < 2 ^ 64 →
    index k < 2 ^ 32 ∧ SlotMap.as_ffi M k = version k * 2 ^ 32 + index k
  version_first : ∀ {V : Type} (m : M V) (v : V),
    (∀ j, SlotMap.Issued m j → index j ≠ index (SlotMap.insert m v).1) →
      version (SlotMap.insert m v).1 = 1
  version_reused : ∀ {V : Type} (m : M V) (v : V) (j : K), SlotMap.Issued m j →
    index j = index (SlotMap.insert m v).1 →
    (∀ j', SlotMap.Issued m j' → index j' = index j → version j' ≤ version j) →
      version (SlotMap.insert m v).1 = version j + 2

/-! ## A free-list model

A key's index is one more than its slot's position, the vector's first element
being unused; `free` is the stack the vacant positions are threaded on. Indices
past 32 bits do not exist in practice; their integer form is given an even high
word, which no occupied version has, so that the encoding stays injective
without a bound on the vector. -/

/-- One slot: its version and the value in it. -/
structure Slot (V : Type) where
  version : ℕ
  value : Option V

/-- The index of a slot and the version it was filled under. -/
structure SlotKey where
  idx : ℕ
  version : ℕ
  deriving DecidableEq, Repr

/-- A slot map: `len` slots, the vacant positions among them, and the allocated
length of the vector. The last four fields are what every operation keeps. -/
structure Slots (V : Type) where
  len : ℕ
  slot : ℕ → Slot V
  free : List ℕ
  allocated : ℕ
  free_nodup : free.Nodup
  free_vacant : ∀ i ∈ free, (slot i).value = none ∧ i < len
  unused : ∀ i, len ≤ i → (slot i).value = none
  parity : ∀ i, (slot i).value = none ↔ (slot i).version % 2 = 0

namespace Slots

variable {V : Type}

/-- The position the next insertion fills. -/
def vacancy (m : Slots V) : ℕ := m.free.headD m.len

/-- The value behind a key, when the slot is at the key's version. -/
def get (m : Slots V) (k : SlotKey) : Option V :=
  match k.idx with
  | 0 => none
  | i + 1 => if (m.slot i).version = k.version then (m.slot i).value else none

/-- The key's version is one its slot has had a value at. -/
def Issued (m : Slots V) (k : SlotKey) : Prop :=
  match k.idx with
  | 0 => False
  | i + 1 => k.version % 2 = 1 ∧ k.version ≤ (m.slot i).version

/-- The vector doubles, from a smallest allocation of four, when a push finds
it full. -/
def grow (allocated len : ℕ) : ℕ :=
  if len = allocated then max (2 * allocated) 4 else allocated

/-- The next slot to be filled has no value. -/
theorem vacancy_vacant (m : Slots V) : (m.slot m.vacancy).value = none := by
  rw [vacancy]
  cases hf : m.free with
  | nil => exact m.unused m.len (Nat.le_refl _)
  | cons i rest => exact (m.free_vacant i (by rw [hf]; exact List.mem_cons_self)).1

theorem vacancy_version (m : Slots V) : (m.slot m.vacancy).version % 2 = 0 :=
  (m.parity m.vacancy).mp m.vacancy_vacant

/-- A vacant position behind the one being filled is a different one. -/
theorem ne_vacancy_of_mem_tail (m : Slots V) {i : ℕ} (hi : i ∈ m.free.tail) : i ≠ m.vacancy := by
  rw [vacancy]
  have hn := m.free_nodup
  cases hf : m.free with
  | nil => rw [hf] at hi; exact absurd hi List.not_mem_nil
  | cons j rest =>
      rw [hf, List.nodup_cons] at hn
      rw [hf] at hi
      rintro rfl
      exact hn.1 hi

/-- No slot is in use. -/
def empty : Slots V where
  len := 0
  slot := fun _ => ⟨0, none⟩
  free := []
  allocated := 1
  free_nodup := List.nodup_nil
  free_vacant := by simp
  unused := by simp
  parity := by simp

/-- Fill the vacant slot and bump its version to odd. -/
def insert (m : Slots V) (v : V) : SlotKey × Slots V :=
  (⟨m.vacancy + 1, (m.slot m.vacancy).version + 1⟩,
    { len := if m.free = [] then m.len + 1 else m.len
      slot := fun j => if j = m.vacancy then ⟨(m.slot j).version + 1, some v⟩ else m.slot j
      free := m.free.tail
      allocated := if m.free = [] then grow m.allocated (m.len + 1) else m.allocated
      free_nodup := m.free_nodup.sublist (List.tail_sublist _)
      free_vacant := by
        intro i hi
        have hne := m.ne_vacancy_of_mem_tail hi
        obtain ⟨hv, hl⟩ := m.free_vacant i (List.mem_of_mem_tail hi)
        refine ⟨by rw [if_neg hne]; exact hv, ?_⟩
        split <;> omega
      unused := by
        intro i hi
        -- the vacancy is below the new length, popped or pushed
        have hne : i ≠ m.vacancy := by
          rintro rfl
          simp only [vacancy] at hi
          cases hf : m.free with
          | nil => simp only [hf, if_true, List.headD_nil] at hi; omega
          | cons j rest =>
              have := (m.free_vacant j (by rw [hf]; exact List.mem_cons_self)).2
              simp only [hf, List.headD_cons, reduceCtorEq, if_false] at hi
              omega
        rw [if_neg hne]
        exact m.unused i (by split at hi <;> omega)
      parity := by
        intro i
        by_cases hi : i = m.vacancy
        · subst hi
          have := m.vacancy_version
          simp only [if_true, reduceCtorEq, false_iff]
          omega
        · rw [if_neg hi]; exact m.parity i })

/-- Run `f` on the value under `k`, if there is one. -/
def modify (m : Slots V) (k : SlotKey) (f : V → V) : Slots V where
  len := m.len
  slot := fun j =>
    if j + 1 = k.idx ∧ (m.slot j).version = k.version
      then ⟨(m.slot j).version, (m.slot j).value.map f⟩ else m.slot j
  free := m.free
  allocated := m.allocated
  free_nodup := m.free_nodup
  free_vacant := by
    intro i hi
    obtain ⟨hv, hl⟩ := m.free_vacant i hi
    exact ⟨by split <;> simp [hv], hl⟩
  unused := by
    intro i hi
    have := m.unused i hi
    split <;> simp [this]
  parity := by
    intro i
    have := m.parity i
    split <;> simp [this]

/-- What a key with a value says of its slot. -/
theorem get_eq_some {m : Slots V} {k : SlotKey} {v : V} (h : m.get k = some v) :
    0 < k.idx ∧ (m.slot (k.idx - 1)).version = k.version ∧ (m.slot (k.idx - 1)).value = some v := by
  obtain ⟨_ | i, ver⟩ := k
  · simp [get] at h
  · simp only [get, Option.ite_none_right_eq_some] at h
    exact ⟨Nat.succ_pos i, h⟩

theorem occupied_of_get {m : Slots V} {k : SlotKey} {v : V} (h : m.get k = some v) :
    (m.slot (k.idx - 1)).value ≠ none ∧ k.idx - 1 < m.len := by
  obtain ⟨-, -, hv⟩ := get_eq_some h
  refine ⟨by rw [hv]; simp, ?_⟩
  by_contra hlen
  rw [m.unused _ (by omega)] at hv
  exact absurd hv (by simp)

/-- Empty the slot under `k`, bump its version to even and stack it. -/
def remove (m : Slots V) (k : SlotKey) : Slots V :=
  match hk : m.get k with
  | none => m
  | some _ =>
    have hocc := occupied_of_get hk
    { len := m.len
      -- the version goes from odd to even: `k` does not resolve any more
      slot := fun j => if j = k.idx - 1 then ⟨(m.slot j).version + 1, none⟩ else m.slot j
      free := (k.idx - 1) :: m.free
      allocated := m.allocated
      free_nodup := by
        refine List.nodup_cons.mpr ⟨fun h => hocc.1 (m.free_vacant _ h).1, m.free_nodup⟩
      free_vacant := by
        intro i hi
        by_cases he : i = k.idx - 1
        · subst he; exact ⟨by simp, hocc.2⟩
        · rcases List.mem_cons.mp hi with h | h
          · exact absurd h he
          · rw [if_neg he]; exact m.free_vacant i h
      unused := by
        intro i hi
        rw [if_neg (by omega)]
        exact m.unused i hi
      parity := by
        intro i
        have := m.parity i
        by_cases he : i = k.idx - 1
        · subst he
          have hodd : ¬ (m.slot (k.idx - 1)).version % 2 = 0 := fun h => hocc.1 (this.mpr h)
          simp only [if_true, true_iff]
          omega
        · rw [if_neg he]; exact this }

/-- The occupied slots, in index order. -/
def iter (m : Slots V) : List (SlotKey × V) :=
  (List.range m.len).filterMap fun i =>
    (m.slot i).value.map fun v => (⟨i + 1, (m.slot i).version⟩, v)

/-- The integer form of a key: the version in the high word, the index in the
low one. -/
def as_ffi (k : SlotKey) : ℕ :=
  if k.idx < 2 ^ 32 then k.version * 2 ^ 32 + k.idx
  else 2 * Nat.pair k.idx k.version * 2 ^ 32

/-- A key from its number: the index below, the version above. An even number above belongs to a
key whose index does not fit below. -/
def from_ffi (h : ℕ) : SlotKey :=
  if h / 2 ^ 32 % 2 = 1 then ⟨h % 2 ^ 32, h / 2 ^ 32⟩
  else ⟨(Nat.unpair (h / 2 ^ 32 / 2)).1, (Nat.unpair (h / 2 ^ 32 / 2)).2⟩

/-! ### The laws -/

/-- A key is read back from its number. -/
theorem from_as_ffi {k : SlotKey} (h : k.version % 2 = 1) : from_ffi (as_ffi k) = k := by
  obtain ⟨idx, version⟩ := k
  simp only [as_ffi]
  split
  · next hidx =>
    have hdiv : (version * 2 ^ 32 + idx) / 2 ^ 32 = version := by omega
    have hmod : (version * 2 ^ 32 + idx) % 2 ^ 32 = idx := by omega
    rw [from_ffi, hdiv, hmod, if_pos h]
  · have hdiv : 2 * Nat.pair idx version * 2 ^ 32 / 2 ^ 32 = 2 * Nat.pair idx version := by omega
    rw [from_ffi, hdiv, if_neg (by omega), Nat.mul_div_cancel_left _ (by omega), Nat.unpair_pair]

/-- The key of an insert has its value. -/
theorem get_insert_self (m : Slots V) (v : V) :
    (m.insert v).2.get (m.insert v).1 = some v := by
  simp [insert, get]

/-- No other key is changed by it. -/
theorem get_insert_of_ne {m : Slots V} {v : V} {k : SlotKey} (h : k ≠ (m.insert v).1) :
    (m.insert v).2.get k = m.get k := by
  obtain ⟨_ | i, ver⟩ := k
  · rfl
  · by_cases hi : i = m.vacancy
    · subst hi
      have hver : ¬ (m.slot m.vacancy).version + 1 = ver := by
        rintro rfl; exact h rfl
      simp [insert, get, hver, m.vacancy_vacant]
    · simp [insert, get, hi]

theorem get_modify_self (m : Slots V) (k : SlotKey) (f : V → V) :
    (m.modify k f).get k = (m.get k).map f := by
  obtain ⟨_ | i, ver⟩ := k
  · rfl
  · by_cases hv : (m.slot i).version = ver <;> simp [modify, get, hv]

theorem get_modify_of_ne {m : Slots V} {j k : SlotKey} {f : V → V} (h : k ≠ j) :
    (m.modify j f).get k = m.get k := by
  obtain ⟨_ | i, ver⟩ := k
  · rfl
  · by_cases hj : i + 1 = j.idx ∧ (m.slot i).version = j.version
    · have hver : ¬ j.version = ver := by
        rintro rfl
        exact h (by rw [hj.1])
      simp [modify, get, hj.1, hj.2, hver]
    · simp only [modify, get, hj, if_false]

theorem remove_of_get_none {m : Slots V} {k : SlotKey} (h : m.get k = none) : m.remove k = m := by
  unfold remove
  split
  · rfl
  · next v hv => rw [h] at hv; cases hv

theorem remove_slot {m : Slots V} {k : SlotKey} {v : V} (h : m.get k = some v) (j : ℕ) :
    (m.remove k).slot j
      = if j = k.idx - 1 then ⟨(m.slot j).version + 1, none⟩ else m.slot j := by
  unfold remove
  split
  · next hn => rw [h] at hn; cases hn
  · rfl

theorem remove_free {m : Slots V} {k : SlotKey} {v : V} (h : m.get k = some v) :
    (m.remove k).len = m.len ∧ (m.remove k).free = (k.idx - 1) :: m.free := by
  unfold remove
  split
  · next hn => rw [h] at hn; cases hn
  · exact ⟨rfl, rfl⟩

/-- A removed key has no value. -/
theorem get_remove_self (m : Slots V) (k : SlotKey) : (m.remove k).get k = none := by
  cases hk : m.get k with
  | none => rw [remove_of_get_none hk, hk]
  | some v =>
      obtain ⟨_ | i, ver⟩ := k
      · rfl
      · simp [get, remove_slot hk]

/-- No other key is changed by it. -/
theorem get_remove_of_ne {m : Slots V} {j k : SlotKey} (h : k ≠ j) :
    (m.remove j).get k = m.get k := by
  cases hj : m.get j with
  | none => rw [remove_of_get_none hj]
  | some v =>
      obtain ⟨hpos, hver, -⟩ := get_eq_some hj
      obtain ⟨_ | i, ver⟩ := k
      · rfl
      · simp only [get, remove_slot hj]
        by_cases hi : i = j.idx - 1
        · subst hi
          have hne : ¬ (m.slot (j.idx - 1)).version = ver := by
            rintro rfl
            refine h ?_
            obtain ⟨idx, version⟩ := j
            simp only [SlotKey.mk.injEq]
            exact ⟨Nat.succ_pred_eq_of_pos hpos, hver⟩
          simp [hne]
        · rw [if_neg hi]

theorem modify_of_get_none {m : Slots V} {k : SlotKey} {f : V → V} (h : m.get k = none) :
    m.modify k f = m := by
  have hslot : (m.modify k f).slot = m.slot := by
    funext j
    simp only [modify]
    split
    · next hj =>
      have hv : (m.slot j).value = none := by
        rw [← h]
        simp [get, ← hj.1, hj.2]
      rw [hv, Option.map_none, ← hv]
    · rfl
  cases m
  simp only [modify, Slots.mk.injEq, true_and, and_true] at hslot ⊢
  exact hslot

theorem mem_iter (m : Slots V) (k : SlotKey) (v : V) : (k, v) ∈ m.iter ↔ m.get k = some v := by
  simp only [iter, List.mem_filterMap, List.mem_range, Option.map_eq_some_iff, Prod.mk.injEq]
  constructor
  · rintro ⟨i, -, w, hw, rfl, rfl⟩
    simp [get, hw]
  · intro h
    obtain ⟨hpos, hver, hval⟩ := get_eq_some h
    refine ⟨k.idx - 1, (occupied_of_get h).2, v, hval, ?_, rfl⟩
    rw [hver, Nat.sub_add_cancel hpos]

/-- An insert issues its own key. -/
theorem issued_insert (m : Slots V) (v : V) (k : SlotKey) :
    (m.insert v).2.Issued k ↔ k = (m.insert v).1 ∨ m.Issued k := by
  obtain ⟨_ | i, ver⟩ := k
  · simp [insert, Issued]
  · have hev := m.vacancy_version
    by_cases hi : i = m.vacancy
    · -- the version was even, so the one odd number it newly bounds is its successor
      subst hi
      simp only [insert, Issued, if_true, SlotKey.mk.injEq, true_and]
      omega
    · simp [insert, Issued, hi]

/-- A key is issued once. -/
theorem insert_fresh (m : Slots V) (v : V) : ¬ m.Issued (m.insert v).1 := by
  simp only [insert, Issued, not_and, not_le]
  omega

theorem issued_modify (m : Slots V) (j : SlotKey) (f : V → V) (k : SlotKey) :
    (m.modify j f).Issued k ↔ m.Issued k := by
  obtain ⟨_ | i, ver⟩ := k
  · rfl
  · by_cases hj : i + 1 = j.idx ∧ (m.slot i).version = j.version <;> simp [modify, Issued, hj]

/-- A removal takes no key back. -/
theorem issued_remove (m : Slots V) (j k : SlotKey) : (m.remove j).Issued k ↔ m.Issued k := by
  cases hj : m.get j with
  | none => rw [remove_of_get_none hj]
  | some v =>
      obtain ⟨_ | i, ver⟩ := k
      · rfl
      · simp only [Issued, remove_slot hj]
        by_cases hi : i = j.idx - 1
        · -- from odd to even: no further odd number is bounded
          subst hi
          have hodd : ¬ (m.slot (j.idx - 1)).version % 2 = 0 :=
            fun h => (occupied_of_get hj).1 ((m.parity _).mpr h)
          simp only [if_true]
          omega
        · rw [if_neg hi]

theorem issued_of_get {m : Slots V} {k : SlotKey} {v : V} (h : m.get k = some v) : m.Issued k := by
  obtain ⟨-, hver, -⟩ := get_eq_some h
  have hocc := (occupied_of_get h).1
  obtain ⟨_ | i, ver⟩ := k
  · simp [get] at h
  · simp only [Nat.add_sub_cancel] at hver hocc
    have hodd : ¬ (m.slot i).version % 2 = 0 := fun h => hocc ((m.parity i).mpr h)
    simp only [Issued]
    omega

end Slots

/-- The free-list model has every law of the interface. -/
instance : SlotMap SlotKey Slots where
  with_key := Slots.empty
  insert := Slots.insert
  get := Slots.get
  modify := Slots.modify
  remove := Slots.remove
  iter := Slots.iter
  capacity m := m.allocated - 1
  as_ffi := Slots.as_ffi
  from_ffi := Slots.from_ffi
  Issued := Slots.Issued
  get_with_key k := by
    obtain ⟨_ | i, ver⟩ := k
    · rfl
    · exact ite_self none
  get_insert_self := Slots.get_insert_self
  get_insert_of_ne := Slots.get_insert_of_ne
  get_modify_self := Slots.get_modify_self
  get_modify_of_ne := Slots.get_modify_of_ne
  get_remove_self := Slots.get_remove_self
  get_remove_of_ne := Slots.get_remove_of_ne
  remove_absent _ _ := Slots.remove_of_get_none
  modify_absent _ _ _ := Slots.modify_of_get_none
  mem_iter := Slots.mem_iter
  issued_with_key k := by
    obtain ⟨_ | i, ver⟩ := k
    · simp [Slots.Issued]
    · simp only [Slots.Issued, Slots.empty]; omega
  issued_insert := Slots.issued_insert
  issued_modify := Slots.issued_modify
  issued_remove := Slots.issued_remove
  issued_of_get _ _ _ := Slots.issued_of_get
  insert_fresh := Slots.insert_fresh
  insert_with_key _ _ := rfl
  from_as_ffi m k h := by
    obtain ⟨_ | i, ver⟩ := k
    · exact absurd h (by simp [Slots.Issued])
    · exact Slots.from_as_ffi h.1

theorem Slots.as_ffi_eq {k : SlotKey} (h : Slots.as_ffi k < 2 ^ 64) :
    k.idx < 2 ^ 32 ∧ Slots.as_ffi k = k.version * 2 ^ 32 + k.idx := by
  unfold Slots.as_ffi at h ⊢
  by_cases hidx : k.idx < 2 ^ 32
  · rw [if_pos hidx]
    exact ⟨hidx, rfl⟩
  · -- the integer form of a larger index is no 64-bit number
    rw [if_neg hidx] at h
    have hpair := Nat.left_le_pair k.idx k.version
    omega

/-- The slot to be filled was last issued under the version before its own. -/
theorem Slots.issued_vacancy {V : Type} (m : Slots V) {ver : ℕ} :
    m.Issued ⟨m.vacancy + 1, ver⟩ ↔ ver % 2 = 1 ∧ ver < (m.slot m.vacancy).version := by
  have hev := m.vacancy_version
  simp only [Slots.Issued]
  omega

/-- Its versions are those of the documented map. -/
instance : VersionedKeys SlotKey Slots where
  index := SlotKey.idx
  version := SlotKey.version
  as_ffi_eq _ := Slots.as_ffi_eq
  version_first m v h := by
    have hev := m.vacancy_version
    have hfirst : ¬ m.Issued ⟨m.vacancy + 1, 1⟩ := fun hiss => h _ hiss rfl
    rw [Slots.issued_vacancy] at hfirst
    show (m.slot m.vacancy).version + 1 = 1
    omega
  version_reused m v j hj hidx hlast := by
    have hev := m.vacancy_version
    obtain ⟨idx, ver⟩ := j
    have hidx' : idx = m.vacancy + 1 := hidx
    subst hidx'
    have hj' := m.issued_vacancy.mp hj
    have hprev : m.Issued ⟨m.vacancy + 1, (m.slot m.vacancy).version - 1⟩ :=
      m.issued_vacancy.mpr (by omega)
    have hle : (m.slot m.vacancy).version - 1 ≤ ver := hlast _ hprev rfl
    show (m.slot m.vacancy).version + 1 = ver + 2
    omega

instance : IteratesOnce SlotKey Slots where
  iter_nodup {V} m := by
    show (m.iter.map Prod.fst).Nodup
    rw [Slots.iter, List.map_filterMap]
    refine List.Nodup.filterMap ?_ List.nodup_range
    -- two slots that hand out one key have one position
    intro i j k hi hj
    simp only [Option.mem_def, Option.map_map, Option.map_eq_some_iff, Function.comp_apply] at hi hj
    obtain ⟨v, -, rfl⟩ := hi
    obtain ⟨w, -, hw⟩ := hj
    have hidx := congrArg SlotKey.idx hw
    exact (Nat.succ.inj hidx).symm
