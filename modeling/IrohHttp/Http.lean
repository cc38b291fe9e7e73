/-
The parts of the `http` crate that the dispatcher and the client rely on.

The crate is not part of the repository, so its checks are the fields of
`HttpCrate`: which header values are text, which status codes, header names and
header values exist, and what header list a response builder makes of a head.
Two of them come with a law: reading a value as text does not change its bytes,
and a header map is a multimap by names in lower case. `visible_ascii` is the
crate as its documentation describes it.

The two string functions are those of the Rust standard library.
-/
import IrohHttp.CoreError
import Mathlib.Data.List.Dedup
import Mathlib.Data.List.Induction

set_option autoImplicit false

namespace IrohHttp.Http

/-! ## Strings -/

/-- The UTF-8 bytes of a string. -/
def as_bytes (s : String) : Bytes := s.toUTF8.data.toList

/-- `str::eq_ignore_ascii_case` -/
def eq_ignore_ascii_case (a b : String) : Bool :=
  a.toList.map Char.toLower == b.toList.map Char.toLower

/-- The digits of `u64::from_str`: at least one, and no overflow. -/
def parse_digits : List Char → ℕ → Option ℕ
  | [], acc => some acc
  | c :: cs, acc =>
    if c.isDigit then
      let acc := acc * 10 + (c.toNat - '0'.toNat)
      if acc < 2 ^ 64 then parse_digits cs acc else none
    else none

/-- `str::parse::<u64>`: one leading plus sign is allowed, an empty string of
digits is not. -/
def parse_u64 (s : String) : Option ℕ :=
  match s.toList with
  | [] => none
  | ['+'] => none
  | '+' :: cs => parse_digits cs 0
  | cs => parse_digits cs 0

/-- `to_ascii_lowercase`. -/
def to_ascii_lowercase (s : String) : String := String.ofList (s.toList.map Char.toLower)

/-! ## The crate -/

/-- What the `http` crate decides. -/
structure HttpCrate where
  /-- `HeaderValue::to_str`. -/
  to_str : Bytes → Option String
  /-- The text of a value has the bytes of the value. -/
  to_str_bytes : ∀ v s, to_str v = some s → as_bytes s = v
  /-- `StatusCode::from_u16` succeeds. -/
  status_code : ℕ → Bool
  /-- `HeaderName::from_bytes` succeeds. -/
  header_name : String → Bool
  /-- `HeaderValue::from_str` succeeds. -/
  header_value : String → Bool
  /-- `response::Builder::body` on this status and these headers: the header list
  of the response, unless the builder has failed. -/
  build : ℕ → List (String × String) → Option (List (String × String))
  /-- A header map keeps every row, under the name in lower case. -/
  build_perm : ∀ status headers built, build status headers = some built →
    built.Perm (headers.map fun h => (to_ascii_lowercase h.1, h.2))

/-- A header name is a token. -/
def is_token (c : Char) : Bool :=
  c.isAlphanum || c ∈ ['!', '#', '$', '%', '&', '\x27', '*', '+', '-', '.', '^', '_', '\x60', '|', '~']

/-- Visible ASCII, space and tab. -/
def is_visible_ascii (n : ℕ) : Bool := (32 ≤ n && n < 127) || n == 9

/-- The bytes of a header value: no control character but the tab. -/
def is_header_byte (n : ℕ) : Bool := (32 ≤ n && n != 127) || n == 9

/-- The most slots of a header map. -/
def MAX_SIZE : ℕ := 2 ^ 15

/-- A header map fills three quarters of its slots. -/
def usable_capacity (cap : ℕ) : ℕ := cap - cap / 4

/-- Each append of a header finds room for one name more, also where its name is
there already. -/
def fits_header_map (headers : List (String × String)) : Bool :=
  decide ((headers.dropLast.map fun h => to_ascii_lowercase h.1).dedup.length
    < usable_capacity MAX_SIZE)

/-- A row comes after the last one of its name, or last. -/
def append_row : List (String × String) → String × String → List (String × String)
  | [], row => [row]
  | first :: rest, row =>
    if first.1 = row.1 ∧ ∀ other ∈ rest, other.1 ≠ row.1 then first :: row :: rest
    else first :: append_row rest row

/-- The header list of a map that the rows were appended to. -/
def header_map (headers : List (String × String)) : List (String × String) :=
  headers.foldl (fun rows h => append_row rows (to_ascii_lowercase h.1, h.2)) []

/-- A header map has the rows that were appended, in some order. -/
theorem append_row_perm (rows : List (String × String)) (row : String × String) :
    (append_row rows row).Perm (row :: rows) := by
  induction rows with
  | nil => exact .refl _
  | cons first rest ih =>
      unfold append_row
      split
      · exact .swap row first rest
      · exact (ih.cons first).trans (.swap row first rest)

/-- A header map keeps every row. -/
theorem header_map_perm (headers : List (String × String)) :
    (header_map headers).Perm (headers.map fun h => (to_ascii_lowercase h.1, h.2)) := by
  induction headers using List.reverseRecOn with
  | nil => exact .refl _
  | append_singleton headers h ih =>
      rw [header_map, List.foldl_append, List.map_append]
      exact ((append_row_perm _ _).trans (ih.cons _)).trans (List.perm_append_singleton _ _).symm

/-- Only visible ASCII is text, and its text is its bytes. -/
def to_str (v : Bytes) : Option String :=
  if v.all fun b => is_visible_ascii b.toNat then String.fromUTF8? ⟨v.toArray⟩ else none

/-- A value that is text has the bytes of the text. -/
theorem to_str_bytes (v : Bytes) (s : String) (h : to_str v = some s) : as_bytes s = v := by
  unfold to_str at h
  rw [Option.ite_none_right_eq_some] at h
  obtain ⟨-, h⟩ := h
  unfold String.fromUTF8? at h
  split at h
  · rw [Option.some.injEq] at h
    rw [← h]
    rfl
  · cases h

/-- `StatusCode::from_u16` -/
def status_code (n : ℕ) : Bool := 100 ≤ n && n ≤ 999

/-- `HeaderName::from_bytes` -/
def header_name (s : String) : Bool :=
  0 < s.length && s.length < 2 ^ 16 && s.toList.all is_token

/-- `from_str` takes the bytes of the text, whatever characters they stand for. -/
def header_value (s : String) : Bool := (as_bytes s).all fun b => is_header_byte b.toNat

/-- The builder of a response: the status and the headers that it takes. -/
def build (status : ℕ) (headers : List (String × String)) : Option (List (String × String)) :=
  if status_code status && headers.all (fun h => header_name h.1 && header_value h.2)
      && fits_header_map headers then some (header_map headers)
  else none

/-- What was built has the rows that were given, in lower case. -/
theorem build_perm (status : ℕ) (headers built : List (String × String))
    (h : build status headers = some built) :
    built.Perm (headers.map fun h => (to_ascii_lowercase h.1, h.2)) := by
  obtain ⟨-, h⟩ := Option.ite_none_right_eq_some.mp h
  cases h
  exact header_map_perm headers

/-- The crate as documented. -/
def visible_ascii : HttpCrate where
  to_str := to_str
  to_str_bytes := to_str_bytes
  status_code := status_code
  header_name := header_name
  header_value := header_value
  build := build
  build_perm := build_perm

end IrohHttp.Http
