/-
The components of a URL with an authority, as the regular expression of RFC 3986, appendix B
takes them apart: a component ends where the next one's first character is.
-/
import Mathlib.Data.List.TakeWhile

set_option autoImplicit false

namespace Uri

/-- `/^start/i`, for a `start` in small letters. -/
def begins (start text : List Char) : Bool := start.isPrefixOf (text.map Char.toLower)

/-- Only a capital letter has another small one. -/
theorem toLower_eq {c d : Char} (h : c.toLower = d) (hd : d.toNat < 97) : c = d := by
  unfold Char.toLower at h
  split at h
  · next hupper =>
    have hval : (c.val + ('a'.val - 'A'.val)).toNat = d.toNat := congrArg Char.toNat h
    have hle : 65 ≤ c.val.toNat := UInt32.le_iff_toNat_le.mp hupper.1
    have hle' : c.val.toNat ≤ 90 := UInt32.le_iff_toNat_le.mp hupper.2
    have hshift : ('a'.val - 'A'.val).toNat = 32 := rfl
    rw [UInt32.toNat_add] at hval
    omega
  · exact h

/-- The five parts of a URI. -/
structure Parts where
  scheme : List Char
  authority : List Char
  path : List Char
  query : Option (List Char)
  fragment : Option (List Char)
  deriving DecidableEq, Repr

/-- What is behind a mark, if the text begins with it. -/
def marked (mark : Char) : List Char → Option (List Char)
  | [] => none
  | c :: cs => if c = mark then some cs else none

/-- Characters at which the authority ends. -/
def ends_authority (c : Char) : Bool := c == '/' || c == '?' || c == '#'

/-- Characters at which the path ends. -/
def ends_path (c : Char) : Bool := c == '?' || c == '#'

/-- The components behind the authority's `//`. -/
def split_authority (scheme rest : List Char) : Parts :=
  let behind_authority := rest.dropWhile fun c => !ends_authority c
  let behind_path := behind_authority.dropWhile fun c => !ends_path c
  { scheme
    authority := rest.takeWhile fun c => !ends_authority c
    path := behind_authority.takeWhile fun c => !ends_path c
    query := (marked '?' behind_path).map fun cs => cs.takeWhile (· ≠ '#')
    fragment := marked '#' (behind_path.dropWhile (· ≠ '#')) }

/-- `scheme://authority/path?query#fragment` -/
def split (text : List Char) : Parts :=
  split_authority (text.takeWhile (· ≠ ':')) ((text.dropWhile (· ≠ ':')).drop 3)

/-- The query with its mark. -/
def Parts.query_text (p : Parts) : List Char := p.query.elim [] ('?' :: ·)

/-- The origin form of a request target. -/
def Parts.request_target (p : Parts) : List Char :=
  (if p.path = [] then ['/'] else p.path) ++ p.query_text

section

variable {scheme rest : List Char}

theorem slash_notMem_authority : '/' ∉ (split_authority scheme rest).authority := by
  intro hmem
  have hclear := List.mem_takeWhile_imp hmem
  revert hclear
  decide

/-- A path that is there begins with a slash. -/
theorem path_cases : (split_authority scheme rest).path = [] ∨
    ∃ cs, (split_authority scheme rest).path = '/' :: cs := by
  have hpath : (split_authority scheme rest).path =
      (rest.dropWhile fun c => !ends_authority c).takeWhile fun c => !ends_path c := rfl
  rw [hpath]
  cases hbehind : rest.dropWhile fun c => !ends_authority c with
  | nil => exact Or.inl rfl
  | cons c cs =>
      have hends : ends_authority c = true := by
        have hhead := List.head?_dropWhile_not (fun c => !ends_authority c) rest
        rw [hbehind, List.head?_cons] at hhead
        simpa using hhead
      rw [List.takeWhile_cons]
      by_cases hslash : c = '/'
      · right
        subst hslash
        exact ⟨_, if_pos rfl⟩
      · left
        rw [if_neg]
        rw [ends_authority, Bool.or_eq_true, Bool.or_eq_true, beq_iff_eq, beq_iff_eq,
          beq_iff_eq] at hends
        rw [ends_path, Bool.not_eq_true', Bool.or_eq_false_iff, beq_eq_false_iff_ne,
          beq_eq_false_iff_ne]
        rintro ⟨hquery, hfragment⟩
        rcases hends with (hends | hends) | hends
        · exact hslash hends
        · exact hquery hends
        · exact hfragment hends

/-- Everything in front of the fragment. -/
theorem takeWhile_fragment : rest.takeWhile (· ≠ '#') =
    (split_authority scheme rest).authority ++ (split_authority scheme rest).path ++
      (split_authority scheme rest).query_text := by
  have hauthority : ∀ c ∈ rest.takeWhile (fun c => !ends_authority c), decide (c ≠ '#') = true := by
    intro c hc
    have hclear := List.mem_takeWhile_imp hc
    rw [decide_eq_true_eq]
    rintro rfl
    revert hclear
    decide
  have hpath : ∀ c ∈ (rest.dropWhile fun c => !ends_authority c).takeWhile (fun c => !ends_path c),
      decide (c ≠ '#') = true := by
    intro c hc
    have hclear := List.mem_takeWhile_imp hc
    rw [decide_eq_true_eq]
    rintro rfl
    revert hclear
    decide
  have hquery : ∀ cs : List Char, (cs.dropWhile fun c => !ends_path c).takeWhile (· ≠ '#')
      = ((marked '?' (cs.dropWhile fun c => !ends_path c)).map
          fun cs => cs.takeWhile (· ≠ '#')).elim [] ('?' :: ·) := by
    intro cs
    cases hbehind : cs.dropWhile fun c => !ends_path c with
    | nil => rfl
    | cons c cs' =>
        have hends : ends_path c = true := by
          have hhead := List.head?_dropWhile_not (fun c => !ends_path c) cs
          rw [hbehind, List.head?_cons] at hhead
          simpa using hhead
        rw [ends_path, Bool.or_eq_true, beq_iff_eq, beq_iff_eq] at hends
        rcases hends with rfl | rfl
        · rfl
        · rfl
  have hcut (p : Char → Bool) (cs : List Char) (h : ∀ c ∈ cs.takeWhile p, decide (c ≠ '#') = true) :
      cs.takeWhile (· ≠ '#') = cs.takeWhile p ++ (cs.dropWhile p).takeWhile (· ≠ '#') := by
    rw [← List.takeWhile_append_of_pos h, List.takeWhile_append_dropWhile]
  rw [hcut _ rest hauthority, hcut _ _ hpath, hquery, ← List.append_assoc]
  rfl

end

end Uri
