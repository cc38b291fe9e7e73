/-
Handles as JavaScript numbers: `key_to_handle` of
`iroh-http-core/src/ffi/handles.rs`, the decoding of payloads in
`iroh-http-deno/src/adapter.ts` and `iroh-http-tauri/guest-js/index.ts`, and
`bigintToSafeNumber` of `iroh-http-shared/src/utils.ts`.

A handle leaves the native side as digits in a JSON text. `JSON.parse` reads a
binary64 number, `BigInt` keeps its value, and on the way back
`bigintToSafeNumber` checks the range before the value is written as digits
again. Whether the handle comes through is a matter of its high word, which is
the version of its slot: `Reuses` counts how often each slot has been filled.
-/
import IrohHttp.Binary64
import IrohHttp.HandleRuns

set_option autoImplicit false

namespace IrohHttp.Handles

open SlotMap

/-! ## Crossing -/

/-- `Number.MAX_SAFE_INTEGER`. -/
def MAX_SAFE_INTEGER : ℕ := 2 ^ 53 - 1

/-- A `RangeError` of JavaScript. -/
structure RangeError where
  message : String
  deriving DecidableEq, Repr

/-- Its text. -/
def out_of_range (field : String) (value : ℤ) : RangeError :=
  ⟨s!"[iroh-http] {field} value {value} exceeds safe integer range and cannot be safely serialised"⟩

/-- `bigintToSafeNumber` -/
def bigint_to_safe_number (value : ℤ) (field : String) : Except RangeError ℕ :=
  if value < 0 ∨ (MAX_SAFE_INTEGER : ℤ) < value then .error (out_of_range field value)
  else .ok value.toNat

/-- `BigInt(raw.handle)`, where `raw` is parsed from a text that has the digits
of the handle. -/
def parse_handle (h : ℕ) : ℕ := Binary64.round Binary64.PRECISION h

/-- There and back again. -/
def cross (field : String) (h : ℕ) : Except RangeError ℕ :=
  bigint_to_safe_number (parse_handle h) field

/-- A handle comes back unchanged if it is a safe integer, and not at all if it
is not. -/
theorem cross_eq (field : String) (h : ℕ) :
    cross field h
      = if h < 2 ^ 53 then .ok h else .error (out_of_range field (parse_handle h)) := by
  unfold cross bigint_to_safe_number parse_handle MAX_SAFE_INTEGER Binary64.PRECISION
  by_cases hsafe : h < 2 ^ 53
  · rw [if_pos hsafe, Binary64.round_of_lt (by decide) hsafe, if_neg (by omega), Int.toNat_natCast]
  · -- rounding does not bring a large value below `2 ^ 53`, so the check sees it
    have hround := Binary64.le_round (p := 53) (by decide) (Nat.not_lt.mp hsafe)
    rw [if_neg hsafe, if_pos (by omega)]

/-! ## How often a slot is filled -/

section Runs

variable {K : Type} {M : Type → Type} [SlotMap K M] [VersionedKeys K M] {R : Registry → Type}

/-- A store with how often its run has filled each slot of each registry's
present slot map. `issued` are the handles in order, each with the number of
earlier uses of its slot. -/
structure Reuses (M : Type → Type) (R : Registry → Type) where
  store : HandleStore M R
  uses : Registry → ℕ → ℕ
  issued : List (Registry × ℕ × ℕ)

namespace Reuses

/-- An empty store. -/
def start (config : StoreConfig) : Reuses M R := ⟨HandleStore.new config, fun _ _ => 0, []⟩

/-- The slot of a handle. -/
def slot_of (M : Type → Type) [SlotMap K M] [VersionedKeys K M] (h : ℕ) : ℕ :=
  VersionedKeys.index M (handle_to_key M h)

/-- A slot map that is replaced starts over. -/
def step (t : Reuses M R) (a : Instant × StoreOp R) : Reuses M R :=
  let r := perform t.store a.2 a.1
  { store := r.2
    uses := fun j slot =>
      if compacted_by t.store a.2 a.1 j then 0
      else match r.1 with
        | some (i, h) => t.uses j slot + if i = j ∧ slot_of M h = slot then 1 else 0
        | none => t.uses j slot
    issued := t.issued ++ r.1.toList.map fun p => (p.1, p.2, t.uses p.1 (slot_of M p.2)) }

/-- A run of operations. -/
def run (config : StoreConfig) (ops : List (Instant × StoreOp R)) : Reuses M R :=
  ops.foldl step (start config)

/-- The handles are those of the history of the same run. -/
theorem run_eq (config : StoreConfig) (ops : List (Instant × StoreOp R)) :
    (run config ops : Reuses M R).store = (History.run config ops : History M R).store ∧
      (run config ops : Reuses M R).issued.map (fun p => (p.1, p.2.1))
        = (History.run config ops : History M R).issued := by
  -- both runs perform the same operations on the same store
  have hfold : ∀ (t : Reuses M R) (t' : History M R), t.store = t'.store →
      t.issued.map (fun p => (p.1, p.2.1)) = t'.issued →
      (ops.foldl step t).store = (ops.foldl History.step t').store ∧
        (ops.foldl step t).issued.map (fun p => (p.1, p.2.1))
          = (ops.foldl History.step t').issued := by
    induction ops with
    | nil => exact fun t t' hstore hissued => ⟨hstore, hissued⟩
    | cons a ops ih =>
        intro t t' hstore hissued
        refine ih (t.step a) (t'.step a) ?_ ?_
        · simp only [step, History.step, hstore]
        · simp only [step, History.step, hstore, List.map_append, hissued, List.map_map,
            Function.comp_def, List.map_id']
  exact hfold _ _ rfl rfl

/-! ### Versions count uses -/

/-- The latest version of a slot that was filled `n` times is `2 * n - 1`; the
handles say so. -/
structure Inv (t : Reuses M R) : Prop where
  bound : ∀ j k, Issued (t.store.registry j) k →
    VersionedKeys.version M k + 1 ≤ 2 * t.uses j (VersionedKeys.index M k)
  latest : ∀ j slot, 0 < t.uses j slot → ∃ k, Issued (t.store.registry j) k ∧
    VersionedKeys.index M k = slot ∧ VersionedKeys.version M k + 1 = 2 * t.uses j slot
  handles : ∀ p ∈ t.issued, p.2.1 < 2 ^ 64 →
    ∃ slot < 2 ^ 32, p.2.1 = (2 * p.2.2 + 1) * 2 ^ 32 + slot

/-- The invariant of an empty store. -/
theorem inv_start (config : StoreConfig) : Inv (start config : Reuses M R) where
  bound _ k hk := absurd hk (issued_with_key k)
  latest _ _ h := absurd h (Nat.lt_irrefl 0)
  handles _ hp := absurd hp List.not_mem_nil

/-- A key that is inserted has the version after the latest of its slot. -/
theorem Inv.version_insert {t : Reuses M R} (hinv : Inv t) (j : Registry) (e : Timed (R j)) :
    VersionedKeys.version M (insert (t.store.registry j) e).1
      = 2 * t.uses j (VersionedKeys.index M (insert (t.store.registry j) e).1) + 1 := by
  by_cases huses : t.uses j (VersionedKeys.index M (insert (t.store.registry j) e).1) = 0
  · -- nothing issued has this index
    rw [huses]
    refine VersionedKeys.version_first _ e fun k hk hidx => ?_
    have hbound := hinv.bound j k hk
    rw [hidx, huses] at hbound
    omega
  · obtain ⟨k, hk, hidx, hver⟩ := hinv.latest j _ (Nat.pos_of_ne_zero huses)
    -- the slot's latest key, by the bound on all of them
    have hnext := VersionedKeys.version_reused (M := M) _ e k hk hidx fun k' hk' hidx' => by
      have hbound := hinv.bound j k' hk'
      rw [hidx', hidx] at hbound
      omega
    omega

/-- The slot of the handle of an inserted key. -/
theorem slot_of_insert (j : Registry) (reg : M (Timed (R j))) (e : Timed (R j)) :
    slot_of M (key_to_handle M (insert reg e).1) = VersionedKeys.index M (insert reg e).1 := by
  rw [slot_of, handle_to_key, key_to_handle,
    from_as_ffi _ _ ((issued_insert reg e (insert reg e).1).mpr (.inl rfl))]

/-- What an operation that issues a handle does to the counts of its registry. -/
theorem uses_inserted {t : Reuses M R} {a : Instant × StoreOp R} {j : Registry} {h : ℕ}
    (hout : (perform t.store a.2 a.1).1 = some (j, h))
    (hc : compacted_by t.store a.2 a.1 j = false) (slot : ℕ) :
    (t.step a).uses j slot = t.uses j slot + if slot_of M h = slot then 1 else 0 := by
  simp only [step, hc, hout, Bool.false_eq_true, if_false, true_and]

/-- An operation that issues nothing keeps the uses of a slot. -/
theorem uses_shrunk {t : Reuses M R} {a : Instant × StoreOp R} {j : Registry}
    (hout : ∀ h, (perform t.store a.2 a.1).1 ≠ some (j, h))
    (hc : compacted_by t.store a.2 a.1 j = false) (slot : ℕ) :
    (t.step a).uses j slot = t.uses j slot := by
  simp only [step, hc, Bool.false_eq_true, if_false]
  split
  · next i h hsome =>
    have hne : ¬ i = j := fun hij => hout h (hij ▸ hsome)
    rw [if_neg fun hand => hne hand.1, Nat.add_zero]
  · rfl

/-- A slot map that is replaced begins anew. -/
theorem uses_replaced {t : Reuses M R} {a : Instant × StoreOp R} {j : Registry}
    (hc : compacted_by t.store a.2 a.1 j = true) (slot : ℕ) : (t.step a).uses j slot = 0 := by
  simp only [step, hc, if_true]

/-- The handle an operation issues has the version of its slot's next use. -/
theorem Inv.issued_handle {t : Reuses M R} (hinv : Inv t) {a : Instant × StoreOp R}
    {p : Registry × ℕ} (hout : (perform t.store a.2 a.1).1 = some p) (hu64 : p.2 < 2 ^ 64) :
    ∃ slot < 2 ^ 32, p.2 = (2 * t.uses p.1 (slot_of M p.2) + 1) * 2 ^ 32 + slot := by
  obtain ⟨j, h⟩ := p
  rcases registry_step t.store a.2 a.1 j with
    ⟨e, -, -, hins, -, -⟩ | ⟨-, hno, -, -⟩ | ⟨hno, -, -, -⟩
  · rw [hout, Option.some.injEq, Prod.mk.injEq] at hins
    obtain ⟨-, rfl⟩ := hins
    obtain ⟨hidx, hffi⟩ := VersionedKeys.as_ffi_eq (M := M) _ hu64
    refine ⟨_, hidx, ?_⟩
    rw [slot_of_insert, ← hinv.version_insert j e]
    exact hffi
  · exact absurd hout (hno h)
  · exact absurd hout (hno h)

/-- **One operation** keeps the invariant. -/
theorem inv_step {t : Reuses M R} (hinv : Inv t) (a : Instant × StoreOp R) : Inv (t.step a) where
  bound j k hk := by
    rcases registry_step t.store a.2 a.1 j with
      ⟨e, -, -, hout, hreg, hc⟩ | ⟨-, hno, hreg, hc⟩ | ⟨-, hreg, -, hc⟩
    · rw [uses_inserted hout hc, slot_of_insert]
      dsimp only [step] at hk
      rw [hreg, issued_insert] at hk
      obtain rfl | hold := hk
      · rw [if_pos rfl, hinv.version_insert j e]
        omega
      · have hbound := hinv.bound j k hold
        split <;> omega
    · rw [uses_shrunk hno hc]
      exact hinv.bound j k ((hreg.issued k).mp hk)
    · dsimp only [step] at hk
      rw [hreg] at hk
      exact absurd hk (issued_with_key k)
  latest j slot hpos := by
    rcases registry_step t.store a.2 a.1 j with
      ⟨e, -, -, hout, hreg, hc⟩ | ⟨-, hno, hreg, hc⟩ | ⟨-, hreg, -, hc⟩
    · rw [uses_inserted hout hc, slot_of_insert] at hpos ⊢
      dsimp only [step]
      rw [hreg]
      by_cases hslot : VersionedKeys.index M (insert (t.store.registry j) e).1 = slot
      · -- the key just inserted
        refine ⟨_, (issued_insert _ _ _).mpr (.inl rfl), hslot, ?_⟩
        rw [if_pos hslot, hinv.version_insert j e, hslot]
        omega
      · rw [if_neg hslot, Nat.add_zero] at hpos ⊢
        obtain ⟨k, hk, hidx, hver⟩ := hinv.latest j slot hpos
        exact ⟨k, (issued_insert _ _ _).mpr (.inr hk), hidx, hver⟩
    · rw [uses_shrunk hno hc] at hpos ⊢
      obtain ⟨k, hk, hidx, hver⟩ := hinv.latest j slot hpos
      exact ⟨k, (hreg.issued k).mpr hk, hidx, hver⟩
    · rw [uses_replaced hc] at hpos
      cases hpos
  handles p hp hu64 := by
    simp only [step, List.mem_append, List.mem_map, Option.mem_toList] at hp
    obtain hold | ⟨q, hq, rfl⟩ := hp
    · exact hinv.handles p hold hu64
    · exact hinv.issued_handle hq hu64

/-- The invariant in every run. -/
theorem inv_run (config : StoreConfig) (ops : List (Instant × StoreOp R)) :
    Inv (run config ops : Reuses M R) := by
  have hstep : ∀ (t : Reuses M R) a t', Inv t → some (step t a) = some t' → Inv t' := by
    intro t a t' hinv ht
    rw [Option.some.injEq] at ht
    exact ht ▸ inv_step hinv a
  exact Machine.run_invariant hstep (inv_start config) (Machine.run_total step _ ops)

/-- **Which handles survive the crossing.** In every run, a 64-bit handle comes
back as it was if its slot was used fewer than `2 ^ 20` times before; otherwise
it is turned away, and never taken for another. -/
theorem handle_crossing (config : StoreConfig) (ops : List (Instant × StoreOp R)) :
    (run config ops : Reuses M R).issued.map (fun p => (p.1, p.2.1))
        = (History.run config ops : History M R).issued ∧
      ∀ i h n, (i, h, n) ∈ (run config ops : Reuses M R).issued → h < 2 ^ 64 → ∀ field,
        cross field h
          = if n < 2 ^ 20 then .ok h else .error (out_of_range field (parse_handle h)) := by
  refine ⟨(run_eq config ops).2, fun i h n hmem hu64 field => ?_⟩
  obtain ⟨slot, hslot, hval⟩ := (inv_run config ops).handles _ hmem hu64
  -- the version is odd, so the slot index in the low word decides nothing
  have hiff : h < 2 ^ 53 ↔ n < 2 ^ 20 := by
    dsimp only at hval
    omega
  rw [cross_eq]
  by_cases hn : n < 2 ^ 20
  · rw [if_pos hn, if_pos (hiff.mpr hn)]
  · rw [if_neg hn, if_neg fun h => hn (hiff.mp h)]

/-- Two readers, of which the first is cancelled, and one more, which gets its slot. -/
def reusing : List (Instant × StoreOp fun _ => Unit) :=
  [(0, .insert_reader ()), (1, .insert_reader ()), (2, .cancel_reader 0x100000001),
    (3, .insert_reader ())]

/-- A slot is used, freed and used again, and its handle still crosses. -/
theorem handle_crossing_reused :
    (run {} reusing : Reuses Slots fun _ => Unit).issued =
        [(.readers, 0x100000001, 0), (.readers, 0x100000002, 0), (.readers, 0x300000001, 1)] ∧
      cross "handle" 0x300000001 = .ok 0x300000001 := by
  have hissued : (run {} reusing : Reuses Slots fun _ => Unit).issued =
      [(.readers, 0x100000001, 0), (.readers, 0x100000002, 0), (.readers, 0x300000001, 1)] := by decide
  refine ⟨hissued, (handle_crossing (M := Slots) {} reusing).2 .readers _ 1 ?_ (by decide) "handle"⟩
  rw [hissued]
  decide

end Reuses

end Runs

/-! ## A slot that is used too often -/

section Recycling

variable {V : Type} {n : ℕ} {m : Slots V}

/-- A map of one slot, vacant, that has been filled and emptied `n` times. -/
def Recycled (n : ℕ) (m : Slots V) : Prop :=
  (m.len = 0 ∧ m.free = [] ∨ m.len = 1 ∧ m.free = [0]) ∧ (m.slot 0).version = 2 * n

theorem Recycled.vacancy (h : Recycled n m) : m.vacancy = 0 := by
  obtain ⟨⟨hlen, hfree⟩ | ⟨-, hfree⟩, -⟩ := h
  · rw [Slots.vacancy, hfree, hlen]
    rfl
  · rw [Slots.vacancy, hfree]
    rfl

theorem Recycled.len (h : Recycled n m) : len m = 0 := by
  -- both before the first use and between two uses the slot is empty
  have hvacant : (m.slot 0).value = none := h.vacancy ▸ m.vacancy_vacant
  show m.iter.length = 0
  obtain ⟨⟨hlen, -⟩ | ⟨hlen, -⟩, -⟩ := h
  · rw [Slots.iter, hlen]
    rfl
  · rw [Slots.iter, hlen]
    simp only [List.range_one, List.filterMap_cons, hvacant, Option.map_none, List.filterMap_nil,
      List.length_nil]

/-- The next key of a slot that was recycled so often. -/
theorem Recycled.key (h : Recycled n m) (v : V) : (m.insert v).1 = ⟨1, 2 * n + 1⟩ := by
  simp only [Slots.insert, h.vacancy, h.2]

/-- The slot is filled and emptied once more. -/
theorem Recycled.succ (h : Recycled n m) (v : V) :
    Recycled (n + 1) ((m.insert v).2.remove ⟨1, 2 * n + 1⟩) := by
  have hget : (m.insert v).2.get ⟨1, 2 * n + 1⟩ = some v := by
    rw [← h.key v]
    exact Slots.get_insert_self m v
  have hver : ((m.insert v).2.slot 0).version = 2 * n + 1 := by
    simp only [Slots.insert, h.vacancy, if_true, h.2]
  have hone : (m.insert v).2.len = 1 ∧ (m.insert v).2.free = [] := by
    obtain ⟨⟨hlen, hfree⟩ | ⟨hlen, hfree⟩, -⟩ := h
    · simp only [Slots.insert, hlen, hfree, if_true, List.tail_nil, and_self]
    · simp only [Slots.insert, hlen, hfree, reduceCtorEq, if_false, List.tail_cons, and_self]
  obtain ⟨hlen, hfree⟩ := Slots.remove_free hget
  refine ⟨.inr ⟨hlen.trans hone.1, ?_⟩, ?_⟩
  · rw [hfree, hone.2]
    rfl
  · rw [Slots.remove_slot hget, if_pos (show 0 = 1 - 1 from rfl), hver]
    show 2 * n + 1 + 1 = 2 * (n + 1)
    omega

end Recycling

/-- The handle of the slot's use after `n` others. -/
def reader_handle (n : ℕ) : ℕ := (2 * n + 1) * 2 ^ 32 + 1

/-- Readers that come and go one at a time. -/
def cycles : ℕ → List (Instant × StoreOp fun _ => Unit)
  | 0 => []
  | n + 1 => cycles n ++ [(0, .insert_reader ()), (0, .cancel_reader (reader_handle n))]

/-- Its number. -/
theorem reader_handle_eq (n : ℕ) : key_to_handle Slots ⟨1, 2 * n + 1⟩ = reader_handle n := by
  show Slots.as_ffi ⟨1, 2 * n + 1⟩ = reader_handle n
  rw [Slots.as_ffi, if_pos (show 1 < 2 ^ 32 by decide)]
  rfl

/-- A handle of an occupied key leads back to it. -/
theorem handle_to_key_eq {k : SlotKey} (hodd : k.version % 2 = 1) :
    handle_to_key Slots (key_to_handle Slots k) = k := Slots.from_as_ffi hodd

theorem handle_to_key_reader (n : ℕ) :
    handle_to_key Slots (reader_handle n) = ⟨1, 2 * n + 1⟩ := by
  have hodd : (2 * n + 1) % 2 = 1 := by omega
  rw [← reader_handle_eq, handle_to_key_eq hodd]

/-- A reader is inserted under the slot's next handle. -/
theorem perform_insert_recycled {n : ℕ} {s : HandleStore Slots fun _ => Unit}
    (hroom : 0 < s.config.max_handles) (h : Recycled n (s.registry .readers)) :
    perform s (.insert_reader ()) 0 = (some (.readers, reader_handle n),
      s.set .readers ((s.registry .readers).insert (Timed.new () 0)).2) := by
  have hlen : len (s.registry .readers) < s.config.max_handles := by
    rw [h.len]
    exact hroom
  have hins := perform_insert_reader (s := s) () 0 hlen
  rw [← reader_handle_eq n, ← h.key (Timed.new () 0)]
  exact hins

/-- So many rounds of insertion and expiry recycle the slot as often. -/
theorem recycled_cycles (n : ℕ) :
    Recycled n ((History.run {} (cycles n) : History Slots fun _ => Unit).store.registry .readers) ∧
      0 < (History.run {} (cycles n) : History Slots fun _ => Unit).store.config.max_handles := by
  induction n with
  | zero => exact ⟨⟨.inl ⟨rfl, rfl⟩, rfl⟩, by decide⟩
  | succ n ih =>
      obtain ⟨hrec, hroom⟩ := ih
      have hins := congrArg Prod.snd (perform_insert_recycled hroom hrec)
      have hstep : (History.run {} (cycles (n + 1)) : History Slots fun _ => Unit).store
          = ((perform (History.run {} (cycles n) : History Slots fun _ => Unit).store
              (.insert_reader ()) 0).2.remove_from .readers (reader_handle n)).2 := by
        rw [History.run, cycles, List.foldl_append]
        rfl
      rw [hstep, hins, HandleStore.remove_from, handle_to_key_reader]
      refine ⟨?_, hroom⟩
      rw [HandleStore.set_registry_self, HandleStore.set_registry_self]
      exact hrec.succ (Timed.new () 0)

/-- After `2 ^ 20` uses of its slot, a reader's handle no longer comes back. -/
theorem reused_slot_handle_lost :
    ¬ ∀ (config : StoreConfig) (ops : List (Instant × StoreOp fun _ => Unit)) (i : Registry) (h : ℕ),
      (i, h) ∈ (History.run config ops : History Slots fun _ => Unit).issued → h < 2 ^ 64 →
        cross "handle" h = .ok h := by
  intro hall
  obtain ⟨hrec, hroom⟩ := recycled_cycles (2 ^ 20)
  have hout := perform_insert_recycled hroom hrec
  have hmem : (.readers, reader_handle (2 ^ 20)) ∈ (History.run {} (cycles (2 ^ 20) ++
      [(0, .insert_reader ())]) : History Slots fun _ => Unit).issued := by
    rw [History.run, List.foldl_append]
    refine History.mem_issued_step.mpr (.inr ?_)
    exact congrArg Prod.fst hout
  have hback := hall _ _ _ _ hmem (by decide)
  rw [cross_eq, if_neg (by decide)] at hback
  cases hback

end IrohHttp.Handles
