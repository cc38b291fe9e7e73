/-
Cutting a list into pieces of a bounded length, and handing the pieces on one by one where
any of them may be refused.

`send_slices` is the usual loop over an offset, for any way to move the offset on (`Stride`).
What a program hands on is a relation of the states before and after it: `Transfer` has one
relation for a list that went over whole, and one for a list that was stopped in. `Moves`
says that a program does the first where it succeeds and the second where it fails, and a
program that is put together moves the lists of its parts one after the other.
-/
import Mathlib.Data.List.Infix

set_option autoImplicit false

namespace Cutting

/-! ## Pieces -/

section Pieces

variable {α : Type} {limit : ℕ} {xs ys : List α} {pieces pieces' : List (List α)}

/-- The pieces are `xs` in order; none is empty, and none is above the limit. -/
structure Cuts (limit : ℕ) (xs : List α) (pieces : List (List α)) : Prop where
  ne_nil : ∀ piece ∈ pieces, piece ≠ []
  length_le : ∀ piece ∈ pieces, piece.length ≤ limit
  flatten : pieces.flatten = xs

/-- Nothing is cut into nothing. -/
theorem Cuts.nil : Cuts limit ([] : List α) [] where
  ne_nil _ h := absurd h List.not_mem_nil
  length_le _ h := absurd h List.not_mem_nil
  flatten := List.flatten_nil

/-- What is within the limit is one piece. -/
theorem Cuts.single (hne : xs ≠ []) (hle : xs.length ≤ limit) : Cuts limit xs [xs] where
  ne_nil _ h := by rwa [List.mem_singleton.mp h]
  length_le _ h := by rwa [List.mem_singleton.mp h]
  flatten := List.flatten_singleton

/-- Pieces of two parts, one after the other. -/
theorem Cuts.append (h : Cuts limit xs pieces) (h' : Cuts limit ys pieces') :
    Cuts limit (xs ++ ys) (pieces ++ pieces') where
  ne_nil piece hmem := (List.mem_append.mp hmem).elim (h.ne_nil piece) (h'.ne_nil piece)
  length_le piece hmem :=
    (List.mem_append.mp hmem).elim (h.length_le piece) (h'.length_le piece)
  flatten := by rw [List.flatten_append, h.flatten, h'.flatten]

end Pieces

/-! ## The loop over an offset -/

/-- A way to move an offset on, up to the length of what is cut. -/
structure Stride (length : ℕ) where
  next : ℕ → ℕ
  lt_next : ∀ offset, offset < length → offset < next offset
  next_le : ∀ offset, offset < length → next offset ≤ length

/-- `xs[start..stop]`. -/
def slice {α : Type} (xs : List α) (start stop : ℕ) : List α := (xs.drop start).take (stop - start)

/-- A slice is no longer than the whole. -/
theorem slice_length_le {α : Type} (xs : List α) (start stop : ℕ) :
    (slice xs start stop).length ≤ xs.length := by
  rw [slice, List.length_take, List.length_drop]
  omega

/-- Send `xs` from `offset` on, a slice at a time. -/
def send_slices {α : Type} {m : Type → Type} [Monad m] (xs : List α)
    (send : (piece : List α) → piece.length ≤ xs.length → m Unit) (stride : Stride xs.length)
    (offset : ℕ) : m Unit :=
  if _h : offset < xs.length then do
    send (slice xs offset (stride.next offset)) (slice_length_le _ _ _)
    send_slices xs send stride (stride.next offset)
  else pure ()
termination_by xs.length - offset
decreasing_by
  have := stride.lt_next offset _h
  omega

/-! ## What a program moves -/

/-- What it means that a list went over between two states, and that it was stopped in. -/
structure Transfer (σ α : Type) where
  whole : List α → σ → σ → Prop
  part : List α → σ → σ → Prop
  whole_nil : ∀ s, whole [] s s
  whole_append : ∀ {xs ys s t u}, whole xs s t → whole ys t u → whole (xs ++ ys) s u
  part_nil : ∀ s, part [] s s
  part_append : ∀ {xs ys s t u}, whole xs s t → part ys t u → part (xs ++ ys) s u
  part_more : ∀ {xs s t} ys, part xs s t → part (xs ++ ys) s t

section Moves

variable {σ α ε : Type} {t : Transfer σ α} {xs ys : List α}

/-- How a program that moves `xs` leaves the state it began in: over, or stopped in it. -/
def Transfer.After (t : Transfer σ α) (xs : List α) (s : σ) : Except ε Unit × σ → Prop
  | (.ok _, s') => t.whole xs s s'
  | (.error _, s') => t.part xs s s'

/-- The program moves `xs` where it succeeds, and a part of it where it fails. -/
def Moves (t : Transfer σ α) (xs : List α) (p : ExceptT ε (StateM σ) Unit) : Prop :=
  ∀ s, t.After xs s (p.run.run s)

theorem Moves.pure : Moves t [] (Pure.pure () : ExceptT ε (StateM σ) Unit) := t.whole_nil

/-- A program that fails has moved no more than it may. -/
theorem Moves.throw (e : ε) : Moves t xs (throw e : ExceptT ε (StateM σ) Unit) :=
  fun s => t.part_more xs (t.part_nil s)

/-- One program after another moves the one list after the other. -/
theorem Moves.seq {p q : ExceptT ε (StateM σ) Unit} (hp : Moves t xs p) (hq : Moves t ys q) :
    Moves t (xs ++ ys) (p >>= fun _ => q) := by
  intro s
  have hrun : (p >>= fun _ => q).run.run s =
      match p.run.run s with
      | (.ok _, s') => q.run.run s'
      | (.error e, s') => (.error e, s') := by
    rw [ExceptT.run_bind, StateT.run_bind]
    rcases p.run.run s with ⟨_ | _, s'⟩ <;> rfl
  rw [hrun]
  have hfirst := hp s
  rcases hp' : p.run.run s with ⟨_ | _, s'⟩
  · -- stopped in the first of the two
    rw [hp'] at hfirst
    exact t.part_more ys hfirst
  · rw [hp'] at hfirst
    have hsecond := hq s'
    change t.After (xs ++ ys) s (q.run.run s')
    rcases hq' : q.run.run s' with ⟨_ | _, s''⟩
    · rw [hq'] at hsecond
      exact t.part_append hfirst hsecond
    · rw [hq'] at hsecond
      exact t.whole_append hfirst hsecond

/-- The loop moves what is left from its offset on, where no stride is above the limit and
the sending of a piece moves the piece. -/
theorem Moves.send_slices
    {send : (piece : List α) → piece.length ≤ xs.length → ExceptT ε (StateM σ) Unit} {limit : ℕ}
    {stride : Stride xs.length}
    (hstride : ∀ offset, offset < xs.length → stride.next offset ≤ offset + limit)
    (hsend : ∀ piece h, piece ≠ [] → piece.length ≤ limit → Moves t piece (send piece h))
    (offset : ℕ) : Moves t (xs.drop offset) (Cutting.send_slices xs send stride offset) := by
  induction offset using Cutting.send_slices.induct xs stride with
  | case1 offset h ih =>
      have hlt := stride.lt_next offset h
      have hle := stride.next_le offset h
      have hlimit := hstride offset h
      have hlength : (slice xs offset (stride.next offset)).length = stride.next offset - offset := by
        rw [slice, List.length_take, List.length_drop]
        omega
      have hpiece := hsend (slice xs offset (stride.next offset)) (slice_length_le _ _ _)
        (List.ne_nil_of_length_pos (by omega)) (by omega)
      have hsplit : xs.drop offset =
          slice xs offset (stride.next offset) ++ xs.drop (stride.next offset) := by
        have hdrop : xs.drop (stride.next offset) =
            (xs.drop offset).drop (stride.next offset - offset) := by
          rw [List.drop_drop]
          congr 1
          omega
        rw [hdrop, slice, List.take_append_drop]
      rw [Cutting.send_slices, dif_pos h, hsplit]
      exact hpiece.seq ih
  | case2 offset h =>
      rw [Cutting.send_slices, dif_neg h, List.drop_eq_nil_of_le (by omega)]
      exact Moves.pure

end Moves

/-! ## Logs of pieces -/

section Logs

variable {σ α β β' : Type}

/-- Between the states, pieces that cut `xs` entered the log, each as its entry. -/
def Logged (log : σ → List β) (entry : List α → β) (limit : ℕ) (xs : List α) (s s' : σ) : Prop :=
  ∃ pieces, log s' = log s ++ pieces.map entry ∧ Cuts limit xs pieces

variable {log : σ → List β} {entry : List α → β} {limit : ℕ} {xs ys : List α} {s s' s'' : σ}

theorem Logged.refl : Logged log entry limit [] s s := ⟨[], (List.append_nil _).symm, Cuts.nil⟩

/-- Two parts of a log. -/
theorem Logged.trans (h : Logged log entry limit xs s s') (h' : Logged log entry limit ys s' s'') :
    Logged log entry limit (xs ++ ys) s s'' := by
  obtain ⟨pieces, hlog, hcuts⟩ := h
  obtain ⟨pieces', hlog', hcuts'⟩ := h'
  refine ⟨pieces ++ pieces', ?_, hcuts.append hcuts'⟩
  rw [hlog', hlog, List.map_append, List.append_assoc]

/-- One log: what was stopped in has entered it up to some point. -/
def logging (log : σ → List β) (entry : List α → β) (limit : ℕ) : Transfer σ α where
  whole := Logged log entry limit
  part xs s s' := ∃ sent, sent <+: xs ∧ Logged log entry limit sent s s'
  whole_nil s := Logged.refl
  whole_append := Logged.trans
  part_nil s := ⟨[], List.nil_prefix, Logged.refl⟩
  part_append := by
    rintro xs ys s t u hxs ⟨sent, hsent, hlog⟩
    exact ⟨xs ++ sent, (List.prefix_append_right_inj xs).mpr hsent, hxs.trans hlog⟩
  part_more := by
    rintro xs s t ys ⟨sent, hsent, hlog⟩
    exact ⟨sent, hsent.trans (List.prefix_append xs ys), hlog⟩

/-- Two logs, the second of them behind the first. -/
def relaying (first : σ → List β) (entry : List α → β) (limit : ℕ)
    (second : σ → List β') (entry' : List α → β') (limit' : ℕ) : Transfer σ α where
  whole xs s s' := Logged first entry limit xs s s' ∧ Logged second entry' limit' xs s s'
  part xs s s' := ∃ sent, sent <+: xs ∧ Logged first entry limit sent s s' ∧
    ∃ relayed, relayed <+: sent ∧ Logged second entry' limit' relayed s s'
  whole_nil s := ⟨Logged.refl, Logged.refl⟩
  whole_append h h' := ⟨h.1.trans h'.1, h.2.trans h'.2⟩
  part_nil s := ⟨[], List.nil_prefix, Logged.refl, [], List.nil_prefix, Logged.refl⟩
  part_append := by
    rintro xs ys s t u ⟨hfirst, hsecond⟩ ⟨sent, hsent, hlog, relayed, hrelayed, hlog'⟩
    exact ⟨xs ++ sent, (List.prefix_append_right_inj xs).mpr hsent, hfirst.trans hlog,
      xs ++ relayed, (List.prefix_append_right_inj xs).mpr hrelayed, hsecond.trans hlog'⟩
  part_more := by
    rintro xs s t ys ⟨sent, hsent, hlog, hrelayed⟩
    exact ⟨sent, hsent.trans (List.prefix_append xs ys), hlog, hrelayed⟩

end Logs

end Cutting
