/-
Texts and lists of texts in JSON, as `JSON.stringify` and `serde_json::to_string` write them,
and a reader of what they write.

A quotation mark and a backslash are escaped, and the control characters: five of them by a
letter of their own, the others by their number in four hexadecimal digits.
-/
import Mathlib.Data.List.Basic
import Mathlib.Data.Nat.Notation

set_option autoImplicit false

namespace Json

/-- The characters that a letter stands for behind a backslash. -/
def escapes : List (Char × Char) :=
  [('\x22', '\x22'), ('\x5c', '\x5c'), ('\x08', 'b'), ('\x09', 't'), ('\x0a', 'n'), ('\x0c', 'f'),
    ('\x0d', 'r')]

/-- A character in a JSON text. -/
def escape (c : Char) : List Char :=
  match escapes.lookup c with
  | some letter => ['\x5c', letter]
  | none =>
    if c.toNat < 32 then
      ['\x5c', 'u', '0', '0', Nat.digitChar (c.toNat / 16), Nat.digitChar (c.toNat % 16)]
    else [c]

/-- A text in quotation marks. -/
def quote (s : String) : String := String.ofList ('\x22' :: s.toList.flatMap escape ++ ['\x22'])

/-- A list of texts. -/
def array : List String → String
  | [] => "[]"
  | item :: items => "[" ++ quote item ++ String.join (items.map fun item => "," ++ quote item) ++ "]"

/-- The value of a hexadecimal digit in lower case. -/
def hex_value (c : Char) : Option ℕ := (List.range 16).find? fun digit => Nat.digitChar digit = c

/-- The character behind a backslash. -/
def unescape (letter : Char) : Option Char := (escapes.find? fun e => e.2 = letter).map Prod.fst

/-- What is in front of the closing quotation mark, and what is behind it. -/
def read_text : List Char → Option (List Char × List Char)
  | [] => none
  | '\x22' :: rest => some ([], rest)
  | '\x5c' :: 'u' :: '0' :: '0' :: high :: low :: rest => do
    let high ← hex_value high
    let low ← hex_value low
    let (cs, rest) ← read_text rest
    return (Char.ofNat (16 * high + low) :: cs, rest)
  | '\x5c' :: letter :: rest => do
    let c ← unescape letter
    let (cs, rest) ← read_text rest
    return (c :: cs, rest)
  | c :: rest => do
    let (cs, rest) ← read_text rest
    return (c :: cs, rest)

/-- The items behind the first one, to the closing bracket. -/
def read_items : ℕ → List Char → Option (List String × List Char)
  | _, ']' :: rest => some ([], rest)
  | fuel + 1, ',' :: '\x22' :: rest => do
    let (cs, rest) ← read_text rest
    let (items, rest) ← read_items fuel rest
    return (String.ofList cs :: items, rest)
  | _, _ => none

/-- An array of texts from the front of the characters. -/
def read_array : List Char → Option (List String × List Char)
  | '[' :: ']' :: rest => some ([], rest)
  | '[' :: '\x22' :: rest => do
    let (cs, rest) ← read_text rest
    let (items, rest) ← read_items rest.length rest
    return (String.ofList cs :: items, rest)
  | _ => none

/-! ## Reading back -/

theorem mem_of_lookup {c letter : Char} (h : escapes.lookup c = some letter) :
    (c, letter) ∈ escapes := by
  obtain ⟨before, behind, heq, -⟩ := List.lookup_eq_some_iff.mp h
  rw [heq]
  exact List.mem_append_right _ List.mem_cons_self

/-- A digit is read back. -/
theorem hex_value_digitChar {n : ℕ} (h : n < 16) : hex_value (Nat.digitChar n) = some n := by
  revert n
  decide

/-- The reader on a character that stands for itself, on a letter behind a backslash, and on a
number behind one. -/
theorem read_text_cases (rest : List Char) :
    (∀ c, c ≠ '\x22' → c ≠ '\x5c' →
      read_text (c :: rest) = (read_text rest).map fun p => (c :: p.1, p.2)) ∧
    (∀ letter c, letter ≠ 'u' → unescape letter = some c →
      read_text ('\x5c' :: letter :: rest) = (read_text rest).map fun p => (c :: p.1, p.2)) ∧
    (∀ high low m n, hex_value high = some m → hex_value low = some n →
      read_text ('\x5c' :: 'u' :: '0' :: '0' :: high :: low :: rest) =
        (read_text rest).map fun p => (Char.ofNat (16 * m + n) :: p.1, p.2)) := by
  refine ⟨fun c hquote hescape => ?_, fun letter c hu hletter => ?_, fun high low m n hm hn => ?_⟩
  · rw [read_text]
    · cases read_text rest with
      | none => rfl
      | some p => rfl
    · exact fun h => hquote h
    · exact fun _ _ _ h => absurd h hescape
    · exact fun _ _ h => absurd h hescape
  · rw [read_text, hletter]
    · cases read_text rest with
      | none => rfl
      | some p => rfl
    · exact fun _ _ _ hno => absurd hno hu
  · rw [read_text, hm, hn]
    cases read_text rest with
    | none => rfl
    | some p => rfl

/-- A character with a letter of its own. -/
theorem read_text_letter {c letter : Char} (h : (c, letter) ∈ escapes) (rest : List Char) :
    read_text ('\x5c' :: letter :: rest) = (read_text rest).map fun p => (c :: p.1, p.2) := by
  have hall : ∀ e ∈ escapes, e.2 ≠ 'u' ∧ unescape e.2 = some e.1 := by decide
  obtain ⟨hu, hletter⟩ := hall _ h
  exact (read_text_cases rest).2.1 letter c hu hletter

/-- A character that was escaped is read back. -/
theorem read_text_escape (c : Char) (rest : List Char) :
    read_text (escape c ++ rest) = (read_text rest).map fun p => (c :: p.1, p.2) := by
  cases hlookup : escapes.lookup c with
  | some letter =>
      rw [escape, hlookup]
      exact read_text_letter (mem_of_lookup hlookup) rest
  | none =>
      have hplain : ∀ e ∈ escapes, c ≠ e.1 := by
        intro e he heq
        have hne := List.lookup_eq_none_iff.mp hlookup e he
        rw [heq] at hne
        simp at hne
      rw [escape, hlookup]
      dsimp only
      by_cases hcontrol : c.toNat < 32
      · have hself : Char.ofNat (16 * (c.toNat / 16) + c.toNat % 16) = c := by
          rw [Nat.div_add_mod, Char.ofNat_toNat]
        have hhigh : hex_value (Nat.digitChar (c.toNat / 16)) = some (c.toNat / 16) :=
          hex_value_digitChar (by omega)
        have hlow : hex_value (Nat.digitChar (c.toNat % 16)) = some (c.toNat % 16) :=
          hex_value_digitChar (by omega)
        rw [if_pos hcontrol]
        simp only [List.cons_append, List.nil_append]
        rw [(read_text_cases rest).2.2 _ _ _ _ hhigh hlow, hself]
      · have hquote : c ≠ '\x22' := hplain ('\x22', '\x22') (by decide)
        have hescape : c ≠ '\x5c' := hplain ('\x5c', '\x5c') (by decide)
        rw [if_neg hcontrol, List.singleton_append]
        exact (read_text_cases rest).1 c hquote hescape

/-- A text is read back up to its quote. -/
theorem read_text_quoted (cs rest : List Char) :
    read_text (cs.flatMap escape ++ '\x22' :: rest) = some (cs, rest) := by
  induction cs with
  | nil => rfl
  | cons c cs ih =>
      rw [List.flatMap_cons, List.append_assoc, read_text_escape, ih]
      rfl

theorem quote_append (s : String) (rest : List Char) :
    (quote s).toList ++ rest = '\x22' :: (s.toList.flatMap escape ++ '\x22' :: rest) := by
  rw [quote, String.toList_ofList, List.append_assoc]
  rfl

/-- The items behind a comma are read back. -/
theorem read_items_join {items : List String} {fuel : ℕ} (h : items.length ≤ fuel) (rest : List Char) :
    read_items fuel ((String.join (items.map fun item => "," ++ quote item)).toList ++ ']' :: rest)
      = some (items, rest) := by
  induction items generalizing fuel with
  | nil =>
      cases fuel with
      | zero => rfl
      | succ fuel => rfl
  | cons item items ih =>
      cases fuel with
      | zero => cases h
      | succ fuel =>
          have hle : items.length ≤ fuel := by
            rw [List.length_cons] at h
            omega
          rw [List.map_cons, String.join_cons, String.toList_append, String.toList_append,
            List.append_assoc, List.append_assoc, quote_append]
          have hcomma : ",".toList = [','] := rfl
          rw [hcomma, List.singleton_append, read_items, read_text_quoted]
          simp only [Option.bind_eq_bind, Option.bind_some, ih hle, Option.pure_def,
            String.ofList_toList]

theorem length_join_le (items : List String) :
    items.length ≤ (String.join (items.map fun item => "," ++ quote item)).length := by
  induction items with
  | nil => exact Nat.zero_le _
  | cons item items ih =>
      have hcomma : ",".length = 1 := rfl
      rw [List.map_cons, String.join_cons, String.length_append, String.length_append,
        List.length_cons, hcomma]
      omega

/-- **A list of texts reads back as itself.** -/
theorem read_array_array (items : List String) (rest : List Char) :
    read_array ((array items).toList ++ rest) = some (items, rest) := by
  have hopen : "[".toList = ['['] := rfl
  have hclose : "]".toList = [']'] := rfl
  cases items with
  | nil => rfl
  | cons item items =>
      have hfuel : items.length ≤ ((String.join (items.map fun item => "," ++ quote item)).toList
          ++ ']' :: rest).length := by
        rw [List.length_append, String.length_toList]
        exact Nat.le_add_right_of_le (length_join_le items)
      rw [array, String.toList_append, String.toList_append, String.toList_append, hopen, hclose,
        List.append_assoc, List.append_assoc, List.append_assoc, List.singleton_append, quote_append,
        List.singleton_append, read_array, read_text_quoted]
      simp only [Option.bind_eq_bind, Option.bind_some, read_items_join hfuel, Option.pure_def,
        String.ofList_toList]

/-! ## No control character is left -/

theorem digitChar_printable {n : ℕ} (h : n < 16) : 32 ≤ (Nat.digitChar n).toNat := by
  revert n
  decide

/-- What is escaped has no control characters. -/
theorem escape_printable {c d : Char} (h : d ∈ escape c) : 32 ≤ d.toNat := by
  rw [escape] at h
  split at h
  · next letter hlookup =>
    have hall : ∀ e ∈ escapes, 32 ≤ e.2.toNat := by decide
    rcases List.mem_cons.mp h with rfl | h
    · decide
    · rw [List.mem_singleton.mp h]
      exact hall _ (mem_of_lookup hlookup)
  · split at h
    · next hcontrol =>
      have hhigh := digitChar_printable (n := c.toNat / 16) (by omega)
      have hlow := digitChar_printable (n := c.toNat % 16) (by omega)
      simp only [List.mem_cons, List.not_mem_nil, or_false] at h
      rcases h with rfl | rfl | rfl | rfl | rfl | rfl
      · decide
      · decide
      · decide
      · decide
      · exact hhigh
      · exact hlow
    · next hprintable =>
      rw [List.mem_singleton.mp h]
      omega

/-- Nor has a quoted text. -/
theorem quote_printable {s : String} {d : Char} (h : d ∈ (quote s).toList) : 32 ≤ d.toNat := by
  rw [quote, String.toList_ofList, List.mem_append, List.mem_cons, List.mem_singleton] at h
  rcases h with (rfl | h) | rfl
  · decide
  · obtain ⟨c, -, hd⟩ := List.mem_flatMap.mp h
    exact escape_printable hd
  · decide

/-- Nor has an array. -/
theorem array_printable {items : List String} {d : Char} (h : d ∈ (array items).toList) :
    32 ≤ d.toNat := by
  have hjoin : ∀ items : List String, ∀ d ∈ (String.join (items.map fun item => "," ++ quote item)).toList,
      32 ≤ d.toNat := by
    intro items d hd
    induction items with
    | nil => cases hd
    | cons item items ih =>
        rw [List.map_cons, String.join_cons, String.toList_append, String.toList_append,
          List.mem_append, List.mem_append] at hd
        rcases hd with (hd | hd) | hd
        · rw [List.mem_singleton.mp hd]
          decide
        · exact quote_printable hd
        · exact ih hd
  cases items with
  | nil =>
      have hbrackets : "[]".toList.all (fun d => decide (32 ≤ d.toNat)) = true := by decide
      exact of_decide_eq_true (List.all_eq_true.mp hbrackets d h)
  | cons item items =>
      rw [array, String.toList_append, String.toList_append, String.toList_append, List.mem_append,
        List.mem_append, List.mem_append] at h
      rcases h with ((h | h) | h) | h
      · rw [List.mem_singleton.mp h]
        decide
      · exact quote_printable h
      · exact hjoin items d h
      · rw [List.mem_singleton.mp h]
        decide

end Json
