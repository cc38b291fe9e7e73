/-
From the URL of a fetch to the target of its request: the URL handling of `irohFetch`
(`shared/src/fetch.ts`) and `extract_path` (`iroh-http-core/src/ffi/fetch.rs`).

The one looks for the scheme in any letter case and cuts the fragment off; the other looks
for the scheme in small letters, and behind it for the first slash, wherever that is.
-/
import IrohHttp.Uri

set_option autoImplicit false

namespace IrohHttp.Fetch

/-! ## The code -/

/-- The scheme test, `new URL` and the removal of the fragment, of `irohFetch`: the host name and
the URL that is forwarded. -/
def iroh_fetch_url (new_url : String → Option String) (raw : String) : Option (String × String) :=
  if !Uri.begins "httpi://".toList raw.toList then none
  else (new_url raw).map fun hostname => (hostname, String.ofList (raw.toList.takeWhile (· ≠ '#')))

/-- `str::strip_prefix` -/
def strip_start (start text : List Char) : Option (List Char) :=
  if start.isPrefixOf text then some (text.drop start.length) else none

/-- `rest[rest.find('/')..]`, or a slash. -/
def from_slash (rest : List Char) : List Char :=
  match rest.dropWhile (· ≠ '/') with
  | [] => ['/']
  | target => target

/-- `extract_path`: the fragment is cut off, then `httpi://` and what stands before the next slash,
and what is left starts with a slash. -/
def extract_path (url : String) : String :=
  let url := url.toList.takeWhile (· ≠ '#')
  match strip_start "httpi://".toList url with
  | some rest => String.ofList (from_slash rest)
  | none => if url.head? = some '/' then String.ofList url else String.ofList ('/' :: url)

example : extract_path "httpi://node/a/b?c=1#d" = "/a/b?c=1" := by decide

/-! ## The forwarded URL -/

section

variable {raw url hostname : String} {new_url : String → Option String}

/-- The scheme, in some letter case, and what is behind its slashes. -/
theorem begins_split (h : Uri.begins "httpi://".toList raw.toList = true) :
    ∃ scheme rest, raw.toList = scheme ++ ':' :: '/' :: '/' :: rest ∧
      scheme.map Char.toLower = "httpi".toList := by
  rw [Uri.begins, List.isPrefixOf_iff_prefix] at h
  obtain ⟨tail, htail⟩ := h
  have hsplit : "httpi".toList ++ (':' :: '/' :: '/' :: tail) = raw.toList.map Char.toLower := htail
  obtain ⟨scheme, marks, hraw, hscheme, hmarks⟩ := List.map_eq_append_iff.mp hsplit.symm
  obtain ⟨c, marks, rfl, hcolon, hmarks⟩ := List.map_eq_cons_iff.mp hmarks
  obtain ⟨c', marks, rfl, hslash, hmarks⟩ := List.map_eq_cons_iff.mp hmarks
  obtain ⟨c'', rest, rfl, hslash', -⟩ := List.map_eq_cons_iff.mp hmarks
  rw [Uri.toLower_eq hcolon (by decide), Uri.toLower_eq hslash (by decide),
    Uri.toLower_eq hslash' (by decide)] at hraw
  exact ⟨scheme, rest, hraw, hscheme⟩

/-- A mark is not a letter of the scheme. -/
theorem mark_notMem {scheme : List Char} (h : scheme.map Char.toLower = "httpi".toList) {d : Char}
    (hd : d.toLower ∉ "httpi".toList) : d ∉ scheme := by
  intro hmem
  apply hd
  rw [← h]
  exact List.mem_map_of_mem hmem

theorem takeWhile_append_of_notMem {d : Char} {front : List Char} (h : d ∉ front) (cs : List Char) :
    (front ++ cs).takeWhile (· ≠ d) = front ++ cs.takeWhile (· ≠ d) := by
  apply List.takeWhile_append_of_pos
  intro c hc
  rw [decide_eq_true_eq]
  rintro rfl
  exact h hc

theorem dropWhile_append_of_notMem {d : Char} {front : List Char} (h : d ∉ front) (cs : List Char) :
    (front ++ cs).dropWhile (· ≠ d) = cs.dropWhile (· ≠ d) := by
  apply List.dropWhile_append_of_pos
  intro c hc
  rw [decide_eq_true_eq]
  rintro rfl
  exact h hc

/-- A URI with an `httpi` scheme in any case has an authority. -/
theorem split_of_scheme {scheme rest : List Char} (h : scheme.map Char.toLower = "httpi".toList) :
    Uri.split (scheme ++ ':' :: '/' :: '/' :: rest) = Uri.split_authority scheme rest := by
  have hcolon : ':' ∉ scheme := mark_notMem h (by decide)
  rw [Uri.split, takeWhile_append_of_notMem hcolon, dropWhile_append_of_notMem hcolon]
  simp

/-- What is forwarded is the URL without its fragment, and it stays so. -/
theorem forwarded_text {scheme rest : List Char} (h : scheme.map Char.toLower = "httpi".toList)
    (hraw : raw.toList = scheme ++ ':' :: '/' :: '/' :: rest)
    (hurl : iroh_fetch_url new_url raw = some (hostname, url)) :
    url.toList.takeWhile (· ≠ '#')
      = scheme ++ ':' :: '/' :: '/' :: ((Uri.split raw.toList).authority ++
          (Uri.split raw.toList).path ++ (Uri.split raw.toList).query_text) := by
  rw [iroh_fetch_url] at hurl
  split at hurl
  · cases hurl
  · rw [Option.map_eq_some_iff] at hurl
    obtain ⟨hostname', -, heq⟩ := hurl
    rw [Prod.mk.injEq] at heq
    have hmark : '#' ∉ scheme ++ [':', '/', '/'] := by
      rw [List.mem_append, not_or]
      exact ⟨mark_notMem h (by decide), by decide⟩
    have hassoc : scheme ++ ':' :: '/' :: '/' :: rest = (scheme ++ [':', '/', '/']) ++ rest := by
      rw [List.append_assoc]
      rfl
    have hidem (cs : List Char) : (cs.takeWhile (· ≠ '#')).takeWhile (· ≠ '#')
        = cs.takeWhile (· ≠ '#') := by
      rw [List.takeWhile_eq_self_iff]
      intro c hc
      have hclear := List.mem_takeWhile_imp hc
      exact hclear
    rw [← heq.2, String.toList_ofList, hidem, hraw, split_of_scheme h, hassoc,
      takeWhile_append_of_notMem hmark, Uri.takeWhile_fragment, List.append_assoc]
    rfl

/-- `extract_path` sees the scheme in small letters only. -/
theorem strip_start_scheme {scheme : List Char} (h : scheme.map Char.toLower = "httpi".toList)
    (rest : List Char) : strip_start "httpi://".toList (scheme ++ ':' :: '/' :: '/' :: rest) =
      if scheme = "httpi".toList then some rest else none := by
  have hlength : scheme.length = 5 := by
    have hlen := congrArg List.length h
    rw [List.length_map] at hlen
    exact hlen
  have hassoc : scheme ++ ':' :: '/' :: '/' :: rest = (scheme ++ [':', '/', '/']) ++ rest := by
    rw [List.append_assoc]
    rfl
  rw [strip_start]
  by_cases hsmall : scheme = "httpi".toList
  · rw [if_pos hsmall, hsmall]
    rfl
  · rw [if_neg hsmall, if_neg]
    rw [List.isPrefixOf_iff_prefix, hassoc]
    rintro ⟨tail, htail⟩
    have heq := List.append_inj_left htail (by rw [List.length_append, hlength]; rfl)
    have hscheme : "httpi".toList ++ [':', '/', '/'] = scheme ++ [':', '/', '/'] := heq
    exact hsmall (List.append_cancel_right hscheme).symm

/-- The first slash is that of the path, unless there is none. -/
theorem from_slash_iff {p : Uri.Parts} (hslash : '/' ∉ p.authority)
    (hpath : p.path = [] ∨ ∃ cs, p.path = '/' :: cs) :
    from_slash (p.authority ++ p.path ++ p.query_text) = p.request_target ↔
      p.path ≠ [] ∨ p.query = none := by
  have hdrop : (p.authority ++ p.path ++ p.query_text).dropWhile (· ≠ '/')
      = (p.path ++ p.query_text).dropWhile (· ≠ '/') := by
    rw [List.append_assoc, dropWhile_append_of_notMem hslash]
  rw [from_slash, hdrop, Uri.Parts.request_target]
  rcases hpath with hnil | ⟨cs, hcs⟩
  · rw [hnil, if_pos rfl, List.nil_append, Uri.Parts.query_text]
    cases hquery : p.query with
    | none => exact iff_of_true rfl (Or.inr rfl)
    | some qs =>
        have hlt : ∀ t : List Char, t.length ≤ qs.length + 1 →
            t ≠ ['/'] ++ (some qs).elim [] ('?' :: ·) := by
          rintro t hlt rfl
          simp only [Option.elim_some, List.length_append, List.length_cons, List.length_nil] at hlt
          omega
        apply iff_of_false
        · split
          · apply hlt
            rw [List.length_singleton]
            omega
          · apply hlt
            have hle := (List.dropWhile_suffix (l := (some qs).elim [] ('?' :: ·)) (· ≠ '/')).length_le
            exact hle
        · simp
  · rw [hcs, if_neg (List.cons_ne_nil _ _)]
    exact iff_of_true rfl (Or.inl (List.cons_ne_nil _ _))

/-- The whole URL behind a slash is too long for a target. -/
theorem url_ne_target {p : Uri.Parts} {front : List Char} (h : front.length = 8) :
    '/' :: (front ++ (p.authority ++ p.path ++ p.query_text)) ≠ p.request_target := by
  intro heq
  have hlength := congrArg List.length heq
  rw [Uri.Parts.request_target] at hlength
  split at hlength
  · simp only [List.length_cons, List.length_append, List.length_nil, h] at hlength
    omega
  · simp only [List.length_cons, List.length_append, h] at hlength
    omega

/-- **The target is the path and the query** if and only if the scheme is in small letters, and
there is a path or no query. -/
theorem extract_path_iff (hurl : iroh_fetch_url new_url raw = some (hostname, url)) :
    (extract_path url).toList = (Uri.split raw.toList).request_target ↔
      (Uri.split raw.toList).scheme = "httpi".toList ∧
        ((Uri.split raw.toList).path ≠ [] ∨ (Uri.split raw.toList).query = none) := by
  have hbegins : Uri.begins "httpi://".toList raw.toList = true := by
    rw [← Bool.not_eq_false]
    intro hno
    rw [iroh_fetch_url, hno] at hurl
    cases hurl
  obtain ⟨scheme, rest, hraw, hscheme⟩ := begins_split hbegins
  have htext := forwarded_text hscheme hraw hurl
  have hsplit : Uri.split raw.toList = Uri.split_authority scheme rest := by
    rw [hraw, split_of_scheme hscheme]
  rw [hsplit] at htext ⊢
  have hname : (Uri.split_authority scheme rest).scheme = scheme := rfl
  simp only [extract_path, htext, strip_start_scheme hscheme, hname]
  by_cases hsmall : scheme = "httpi".toList
  · rw [if_pos hsmall, and_iff_right hsmall]
    dsimp only
    rw [String.toList_ofList]
    exact from_slash_iff Uri.slash_notMem_authority Uri.path_cases
  · rw [if_neg hsmall]
    have hlength : (scheme ++ [':', '/', '/']).length = 8 := by
      have hlen := congrArg List.length hscheme
      rw [List.length_map] at hlen
      rw [List.length_append, hlen]
      rfl
    have hhead : ¬ (scheme ++ ':' :: '/' :: '/' :: ((Uri.split_authority scheme rest).authority ++
        (Uri.split_authority scheme rest).path ++
          (Uri.split_authority scheme rest).query_text)).head? = some '/' := by
      intro hno
      cases scheme with
      | nil => cases hscheme
      | cons c cs =>
          rw [List.cons_append, List.head?_cons, Option.some.injEq] at hno
          exact mark_notMem hscheme (d := '/') (by decide) (hno ▸ List.mem_cons_self)
    dsimp only
    rw [if_neg hhead, String.toList_ofList]
    apply iff_of_false
    · have hne := url_ne_target (p := Uri.split_authority scheme rest) hlength
      rw [List.append_assoc] at hne
      exact hne
    · exact fun hno => hsmall hno.1

/-- A scheme in capital letters, and a slash in a query without a path. -/
theorem extract_path_differs :
    ¬ ∀ (new_url : String → Option String) (raw hostname url : String),
      iroh_fetch_url new_url raw = some (hostname, url) →
      (extract_path url).toList = (Uri.split raw.toList).request_target := by
  intro h
  have hcapital := h (fun _ => some "node") "HTTPI://node/a" "node" "HTTPI://node/a" (by decide)
  revert hcapital
  decide

theorem extract_path_of_query :
    iroh_fetch_url (fun _ => some "node") "httpi://node?x=/a" = some ("node", "httpi://node?x=/a") ∧
      extract_path "httpi://node?x=/a" = "/a" ∧
      (Uri.split "httpi://node?x=/a".toList).request_target = "/?x=/a".toList := by
  decide

/-- The URL of the doc. -/
theorem extract_path_of_path :
    (extract_path "httpi://node/path?query").toList
        = (Uri.split "httpi://node/path?query#frag".toList).request_target ∧
      (extract_path "httpi://node/path?query") = "/path?query" := by
  have hurl : iroh_fetch_url (fun _ => some "node") "httpi://node/path?query#frag"
      = some ("node", "httpi://node/path?query") := by
    decide
  refine ⟨(extract_path_iff hurl).mpr ⟨?_, Or.inl ?_⟩, ?_⟩
  · decide
  · decide
  · decide

end

end IrohHttp.Fetch
