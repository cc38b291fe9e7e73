/-
Numbers as text: digits in a radix, and the number that a text of digits stands for.

A numeral is a text of digits that is not empty, is not too long, has no zero in front
where none is allowed, and does not stand for too much. `read_number` reads one from the
front of a text and takes as many digits as there are; `read_number_eq_some` says so
without the loop.

The file names no particular format.
-/
import Mathlib.Data.List.Basic
import Mathlib.Tactic.IntervalCases

set_option autoImplicit false

namespace Digits

/-! ## Digits -/

/-- The digit that a character stands for. Letters of both cases count from ten. -/
def to_digit (radix : ℕ) (c : Char) : Option ℕ :=
  let digit :=
    if '0' ≤ c ∧ c ≤ '9' then some (c.toNat - '0'.toNat)
    else if 'a' ≤ c ∧ c ≤ 'z' then some (c.toNat - 'a'.toNat + 10)
    else if 'A' ≤ c ∧ c ≤ 'Z' then some (c.toNat - 'A'.toNat + 10)
    else none
  digit.filter (· < radix)

/-- Whether the character is a digit. -/
def is_digit (radix : ℕ) (c : Char) : Bool := (to_digit radix c).isSome

/-- The number that a text stands for, after what `init` stands for. -/
def number_from (radix init : ℕ) (cs : List Char) : ℕ :=
  cs.foldl (fun result c => result * radix + (to_digit radix c).getD 0) init

/-- The number that the digits write, the first one the highest. -/
def number (radix : ℕ) (cs : List Char) : ℕ := number_from radix 0 cs

section

variable {radix : ℕ}

@[simp] theorem number_from_nil (init : ℕ) : number_from radix init [] = init := rfl

/-- The first digit counts before the others. -/
theorem number_from_cons (init : ℕ) (c : Char) (cs : List Char) :
    number_from radix init (c :: cs)
      = number_from radix (init * radix + (to_digit radix c).getD 0) cs := rfl

/-- More digits do not make the number smaller. -/
theorem le_number_from (hradix : 0 < radix) (init : ℕ) (cs : List Char) :
    init ≤ number_from radix init cs := by
  induction cs generalizing init with
  | nil => exact Nat.le_refl init
  | cons c cs ih =>
      have hmul : init ≤ init * radix := Nat.le_mul_of_pos_right init hradix
      have hrest := ih (init * radix + (to_digit radix c).getD 0)
      rw [number_from_cons]
      omega

/-- The last digit counts once. -/
theorem number_concat (cs : List Char) (c : Char) :
    number radix (cs ++ [c]) = number radix cs * radix + (to_digit radix c).getD 0 := by
  rw [number, number_from, List.foldl_append]
  rfl

/-- A digit is below its radix. -/
theorem to_digit_lt {c : Char} {n : ℕ} (h : to_digit radix c = some n) : n < radix := by
  unfold to_digit at h
  rw [Option.filter_eq_some_iff] at h
  exact of_decide_eq_true h.2

/-- So many digits write a number below the power of the radix. -/
theorem number_from_lt (init : ℕ) {cs : List Char} (h : ∀ c ∈ cs, is_digit radix c = true) :
    number_from radix init cs < (init + 1) * radix ^ cs.length := by
  induction cs generalizing init with
  | nil =>
      rw [number_from_nil, List.length_nil, pow_zero]
      omega
  | cons c cs ih =>
      obtain ⟨digit, hdigit⟩ := Option.isSome_iff_exists.mp (h c List.mem_cons_self)
      have hlt := to_digit_lt hdigit
      have hrest := ih (init * radix + digit) fun x hx => h x (List.mem_cons_of_mem c hx)
      have hle : (init * radix + digit + 1) * radix ^ cs.length
          ≤ (init + 1) * radix * radix ^ cs.length := by
        apply Nat.mul_le_mul_right
        rw [Nat.add_mul, Nat.one_mul]
        omega
      rw [number_from_cons, hdigit, Option.getD_some, List.length_cons, pow_succ']
      calc number_from radix (init * radix + digit) cs
          < (init * radix + digit + 1) * radix ^ cs.length := hrest
        _ ≤ (init + 1) * radix * radix ^ cs.length := hle
        _ = (init + 1) * (radix * radix ^ cs.length) := Nat.mul_assoc _ _ _

/-- As many digits as `cs` has stand for less than so many powers of the radix. -/
theorem number_lt {cs : List Char} (h : ∀ c ∈ cs, is_digit radix c = true) :
    number radix cs < radix ^ cs.length := by
  have hlt := number_from_lt 0 h
  rw [Nat.zero_add, Nat.one_mul] at hlt
  exact hlt

/-- The character of a digit is read as the digit. -/
theorem to_digit_digitChar {n : ℕ} (hn : n < 16) (hlt : n < radix) :
    to_digit radix n.digitChar = some n := by
  have hall : ∀ m < 16, to_digit 16 (Nat.digitChar m) = some m := by decide
  have hvalue := hall n hn
  unfold to_digit at hvalue ⊢
  rw [Option.filter_eq_some_iff] at hvalue ⊢
  exact ⟨hvalue.1, decide_eq_true hlt⟩

/-- A number is written in digits. -/
theorem is_digit_of_mem_toDigits (hradix : 1 < radix) (hle : radix ≤ 16) (n : ℕ) :
    ∀ c ∈ Nat.toDigits radix n, is_digit radix c = true := by
  induction n using Nat.strongRecOn with
  | ind n ih =>
      intro c hc
      rw [Nat.toDigits_eq_if hradix] at hc
      have hlast (d : ℕ) (hd : d < radix) : is_digit radix d.digitChar = true := by
        rw [is_digit, to_digit_digitChar (by omega) hd]
        rfl
      split at hc
      · next hlt =>
        rw [List.mem_singleton.mp hc]
        exact hlast n hlt
      · next hge =>
        rcases List.mem_append.mp hc with hc | hc
        · exact ih (n / radix) (Nat.div_lt_self (by omega) hradix) c hc
        · rw [List.mem_singleton.mp hc]
          exact hlast (n % radix) (Nat.mod_lt n (by omega))

/-- A number reads back as itself. -/
theorem number_toDigits (hradix : 1 < radix) (hle : radix ≤ 16) (n : ℕ) :
    number radix (Nat.toDigits radix n) = n := by
  induction n using Nat.strongRecOn with
  | ind n ih =>
      rw [Nat.toDigits_eq_if hradix]
      split
      · next hlt =>
        show 0 * radix + (to_digit radix n.digitChar).getD 0 = n
        rw [to_digit_digitChar (by omega) hlt, Option.getD_some]
        omega
      · next hge =>
        have hmod : n % radix < radix := Nat.mod_lt n (by omega)
        rw [number_concat, ih (n / radix) (Nat.div_lt_self (by omega) hradix),
          to_digit_digitChar (by omega) hmod, Option.getD_some]
        exact Nat.div_add_mod' n radix

/-- Only zero begins with a zero. -/
theorem head_toDigits_ne_zero (hradix : 1 < radix) {n : ℕ} (hn : 0 < n) :
    (Nat.toDigits radix n).head? ≠ some '0' := by
  induction n using Nat.strongRecOn with
  | ind n ih =>
      rw [Nat.toDigits_eq_if hradix]
      split
      · next hlt =>
        rw [List.head?_cons, ne_eq, Option.some.injEq, Nat.digitChar_eq_zero]
        omega
      · next hge =>
        have hne : Nat.toDigits radix (n / radix) ≠ [] := Nat.toDigits_ne_nil
        rw [List.head?_append_of_ne_nil _ hne]
        apply ih (n / radix) (Nat.div_lt_self hn hradix)
        exact Nat.div_pos (by omega) (by omega)

end

/-! ## Where a text of digits ends -/

/-- No digit comes next. -/
def Stops (radix : ℕ) (rest : List Char) : Prop :=
  ∀ c, rest.head? = some c → is_digit radix c = false

theorem stops_nil (radix : ℕ) : Stops radix [] := by
  intro c hno
  cases hno

/-- Reading stops at a character that is no digit. -/
theorem stops_cons {radix : ℕ} {c : Char} {rest : List Char} :
    Stops radix (c :: rest) ↔ is_digit radix c = false := by
  constructor
  · intro h
    exact h c rfl
  · intro h c' hc'
    rw [List.head?_cons, Option.some.injEq] at hc'
    rw [← hc']
    exact h

/-- Two ways to split a text after its digits are one. -/
theorem append_eq_append {radix : ℕ} {ds ds' rest rest' : List Char}
    (hds : ∀ c ∈ ds, is_digit radix c = true) (hds' : ∀ c ∈ ds', is_digit radix c = true)
    (hrest : Stops radix rest) (hrest' : Stops radix rest') (heq : ds ++ rest = ds' ++ rest') :
    ds = ds' ∧ rest = rest' := by
  induction ds generalizing ds' with
  | nil =>
      cases ds' with
      | nil => exact ⟨rfl, heq⟩
      | cons d ds' =>
          rw [List.nil_append] at heq
          rw [heq, List.cons_append, stops_cons, hds' d List.mem_cons_self] at hrest
          cases hrest
  | cons c ds ih =>
      cases ds' with
      | nil =>
          rw [List.nil_append] at heq
          rw [← heq, List.cons_append, stops_cons, hds c List.mem_cons_self] at hrest'
          cases hrest'
      | cons d ds' =>
          rw [List.cons_append, List.cons_append, List.cons.injEq] at heq
          obtain ⟨rfl, heq⟩ := heq
          obtain ⟨rfl, hrest⟩ := ih (fun x hx => hds x (List.mem_cons_of_mem c hx))
            (fun x hx => hds' x (List.mem_cons_of_mem c hx)) heq
          exact ⟨rfl, hrest⟩

/-! ## Numerals -/

/-- A numeral of at most `max_digits` digits for a number of at most `max`. -/
structure Numeral (max radix : ℕ) (max_digits : Option ℕ) ( allow_zero_prefix : Bool)
    (ds : List Char) : Prop where
  digits : ∀ c ∈ ds, is_digit radix c = true
  ne_nil : ds ≠ []
  length : ∀ k, max_digits = some k → ds.length ≤ k
  zero : allow_zero_prefix = false → 1 < ds.length → ds.head? ≠ some '0'
  le : number radix ds ≤ max

/-- One digit too many where digits are limited, too large a number where they are not. -/
def exceeds (max : ℕ) (max_digits : Option ℕ) (result digit_count : ℕ) : Bool :=
  match max_digits with
  | some k => k < digit_count
  | none => max < result

/-- The loop that reads digits, with the number so far and how many there were. -/
def read_digits (max radix : ℕ) (max_digits : Option ℕ) (result digit_count : ℕ) :
    List Char → Option (ℕ × ℕ × List Char)
  | [] => some (result, digit_count, [])
  | c :: cs =>
    match to_digit radix c with
    | none => some (result, digit_count, c :: cs)
    | some digit =>
      if exceeds max max_digits (result * radix + digit) (digit_count + 1) then none
      else read_digits max radix max_digits (result * radix + digit) (digit_count + 1) cs

/-- A number off the front of a text. -/
def read_number (max radix : ℕ) (max_digits : Option ℕ) ( allow_zero_prefix : Bool)
    (cs : List Char) : Option (ℕ × List Char) :=
  (read_digits max radix max_digits 0 0 cs).bind fun read =>
    if read.2.1 = 0 then none
    else if allow_zero_prefix = false ∧ cs.head? = some '0' ∧ 1 < read.2.1 then none
    else if max < read.1 then none
    else some (read.1, read.2.2)

section

variable {max radix : ℕ} {max_digits : Option ℕ} { allow_zero_prefix : Bool}

/-- What exceeds no bound does not with fewer digits. -/
theorem exceeds_mono {n n' count count' : ℕ} (hn : n ≤ n') (hcount : count ≤ count')
    (h : exceeds max max_digits n' count' = false) : exceeds max max_digits n count = false := by
  unfold exceeds at h ⊢
  cases max_digits with
  | none =>
      rw [decide_eq_false_iff_not] at h ⊢
      omega
  | some k =>
      rw [decide_eq_false_iff_not] at h ⊢
      omega

/-- **What is read are digits**, up to where they stop, within the bounds. -/
theorem read_digits_sound {result digit_count : ℕ} {cs rest : List Char} {n count : ℕ}
    (h : read_digits max radix max_digits result digit_count cs = some (n, count, rest)) :
    ∃ ds, cs = ds ++ rest ∧ (∀ c ∈ ds, is_digit radix c = true) ∧ Stops radix rest ∧
      n = number_from radix result ds ∧ count = digit_count + ds.length ∧
      (ds ≠ [] → exceeds max max_digits n count = false) := by
  induction cs generalizing result digit_count with
  | nil =>
      rw [read_digits, Option.some.injEq, Prod.mk.injEq, Prod.mk.injEq] at h
      obtain ⟨rfl, rfl, rfl⟩ := h
      exact ⟨[], rfl, fun c hno => absurd hno List.not_mem_nil, stops_nil radix, rfl, rfl,
        fun hno => absurd rfl hno⟩
  | cons c cs ih =>
      rw [read_digits] at h
      cases hdigit : to_digit radix c with
      | none =>
          have hstop : is_digit radix c = false := by rw [is_digit, hdigit]; rfl
          rw [hdigit] at h
          obtain ⟨rfl, rfl, rfl⟩ := h
          exact ⟨[], rfl, fun c hno => absurd hno List.not_mem_nil, stops_cons.mpr hstop, rfl, rfl,
            fun hno => absurd rfl hno⟩
      | some digit =>
          have hyes : is_digit radix c = true := by rw [is_digit, hdigit]; rfl
          rw [hdigit] at h
          dsimp only at h
          split at h
          · cases h
          next hbound =>
          obtain ⟨ds, rfl, hds, hrest, hn, hcount, hexceeds⟩ := ih h
          refine ⟨c :: ds, rfl, ?_, hrest, ?_, ?_, fun _ => ?_⟩
          · intro d hd
            rcases List.mem_cons.mp hd with rfl | hd
            · exact hyes
            · exact hds d hd
          · rw [number_from_cons, hdigit]
            exact hn
          · rw [List.length_cons]
            omega
          · rcases eq_or_ne ds [] with rfl | hne
            · rw [hn, hcount]
              exact Bool.eq_false_iff.mpr hbound
            · exact hexceeds hne

/-- **All digits are read** when they are within the bounds. -/
theorem read_digits_complete (hradix : 0 < radix) {result digit_count : ℕ} {ds rest : List Char}
    (hds : ∀ c ∈ ds, is_digit radix c = true) (hrest : Stops radix rest)
    (hbound : ds ≠ [] → exceeds max max_digits (number_from radix result ds)
      (digit_count + ds.length) = false) :
    read_digits max radix max_digits result digit_count (ds ++ rest)
      = some (number_from radix result ds, digit_count + ds.length, rest) := by
  induction ds generalizing result digit_count with
  | nil =>
      cases rest with
      | nil => rfl
      | cons c rest =>
          have hnone : to_digit radix c = none := by
            have hstop := stops_cons.mp hrest
            rw [is_digit, Option.isSome_eq_false_iff, Option.isNone_iff_eq_none] at hstop
            exact hstop
          rw [List.nil_append, read_digits, hnone]
          rfl
  | cons c ds ih =>
      obtain ⟨digit, hdigit⟩ := Option.isSome_iff_exists.mp (hds c List.mem_cons_self)
      have hlast := hbound (List.cons_ne_nil c ds)
      rw [number_from_cons, hdigit, Option.getD_some, List.length_cons] at hlast
      have hle := le_number_from hradix (result * radix + digit) ds
      have hfirst : exceeds max max_digits (result * radix + digit) (digit_count + 1) = false :=
        exceeds_mono hle (by omega) hlast
      have hsum : digit_count + (ds.length + 1) = digit_count + 1 + ds.length := by omega
      rw [List.cons_append, read_digits, hdigit]
      dsimp only
      rw [hfirst, if_neg Bool.false_ne_true, ih (fun x hx => hds x (List.mem_cons_of_mem c hx)),
        number_from_cons, hdigit, Option.getD_some, List.length_cons, hsum]
      intro _
      rw [← hsum]
      exact hlast

/-- A number is read where a numeral ends, and all of it. -/
theorem read_number_eq_some (hradix : 0 < radix) {cs rest : List Char} {n : ℕ} :
    read_number max radix max_digits allow_zero_prefix cs = some (n, rest) ↔
      ∃ ds, Numeral max radix max_digits allow_zero_prefix ds ∧ n = number radix ds ∧
        cs = ds ++ rest ∧ Stops radix rest := by
  have hhead {ds rest : List Char} (hne : ds ≠ []) : (ds ++ rest).head? = ds.head? :=
    List.head?_append_of_ne_nil ds hne
  constructor
  · intro h
    rw [read_number, Option.bind_eq_some_iff] at h
    obtain ⟨⟨result, count, rest'⟩, hread, h⟩ := h
    obtain ⟨ds, rfl, hds, hrest, rfl, rfl, hexceeds⟩ := read_digits_sound hread
    dsimp only at h
    rw [Nat.zero_add] at h hexceeds
    split at h
    · cases h
    next hcount =>
    split at h
    · cases h
    next hzero =>
    split at h
    · cases h
    next hle =>
    obtain ⟨rfl, rfl⟩ := h
    have hne : ds ≠ [] := fun hno => hcount (by rw [hno, List.length_nil])
    refine ⟨ds, ⟨hds, hne, ?_, ?_, Nat.le_of_not_lt hle⟩, rfl, rfl, hrest⟩
    · rintro k rfl
      have hk := hexceeds hne
      rw [exceeds, decide_eq_false_iff_not] at hk
      omega
    · intro hfalse hlt hhead'
      rw [hhead hne] at hzero
      exact hzero ⟨hfalse, hhead', hlt⟩
  · rintro ⟨ds, h, rfl, rfl, hrest⟩
    have hlength : 0 < ds.length := List.length_pos_iff.mpr h.ne_nil
    have hread : read_digits max radix max_digits 0 0 (ds ++ rest)
        = some (number radix ds, 0 + ds.length, rest) := by
      apply read_digits_complete hradix h.digits hrest
      intro _
      rw [Nat.zero_add]
      cases max_digits with
      | none => exact decide_eq_false (Nat.not_lt.mpr h.le)
      | some k => exact decide_eq_false (Nat.not_lt.mpr (h.length k rfl))
    rw [read_number, hread, Option.bind_some, Nat.zero_add, if_neg (Nat.ne_of_gt hlength), if_neg,
      if_neg (Nat.not_lt.mpr h.le)]
    rintro ⟨hfalse, hzero, hlt⟩
    rw [hhead h.ne_nil] at hzero
    exact h.zero hfalse hlt hzero

end
end Digits
