/-
Header rows out to JavaScript and back: `DeliverableRequest::from_payload` and
`validate_header_rows` of `iroh-http-adapter/src/lib.rs`.

The `http` crate lets a value be empty, the adapter's bound on strings lets nothing be empty.
Everything else that the crate takes, within the limits on length and number, comes back.
-/
import IrohHttp.ServeCallback
import IrohHttp.Utf8

set_option autoImplicit false

namespace IrohHttp.Shared

open IrohHttp.Http IrohHttp.Dispatcher

/-! ## The code -/

/-- A request in the shape in which it is handed to JavaScript. -/
structure DeliverableRequest where
  req_handle : ℕ
  req_body_handle : ℕ
  res_body_handle : ℕ
  is_bidi : Bool
  method : String
  url : String
  headers : List (List String)
  remote_node_id : String
  deriving DecidableEq, Repr

/-- The request of the host, with its headers as rows of two. -/
def DeliverableRequest.from_payload (payload : Dispatcher.RequestPayload) : DeliverableRequest where
  req_handle := payload.req_handle
  req_body_handle := payload.req_body_handle
  res_body_handle := payload.res_body_handle
  is_bidi := payload.is_bidi
  method := payload.method
  url := payload.url
  headers := payload.headers.map fun h => [h.1, h.2]
  remote_node_id := payload.remote_node_id

/-! ## What the core accepts -/

/-- What the `http` crate says of header names and values. -/
structure HeaderLaws (http : HttpCrate) : Prop where
  name_ne_empty : ∀ s, http.header_name s = true → s ≠ ""
  name_no_nul : ∀ s, http.header_name s = true → '\x00' ∉ s.toList
  value_no_nul : ∀ s, http.header_value s = true → '\x00' ∉ s.toList

/-- Headers that the core accepts, within the limits of the adapter. -/
structure WithinLimits (http : HttpCrate) (headers : List (String × String)) : Prop where
  count : headers.length ≤ MAX_HEADER_COUNT
  valid : ∀ h ∈ headers, http.header_name h.1 = true ∧ http.header_value h.2 = true
  lengths : ∀ h ∈ headers, (as_bytes h.1).length ≤ MAX_HEADER_NAME_LEN ∧
    (as_bytes h.2).length ≤ MAX_HEADER_VALUE_LEN

theorem headerLaws_visible_ascii : HeaderLaws visible_ascii where
  name_ne_empty := by
    rintro s h rfl
    revert h
    decide
  name_no_nul := by
    intro s h hnul
    have htoken := List.all_eq_true.mp (Bool.and_eq_true_iff.mp h).2 _ hnul
    revert htoken
    decide
  value_no_nul := by
    intro s h hnul
    have hbyte := List.all_eq_true.mp h 0 (Utf8.zero_mem_toUTF8.mpr hnul)
    revert hbyte
    decide

/-! ## The bound on strings -/

/-- A text without bytes is empty. -/
theorem as_bytes_isEmpty {value : String} : (as_bytes value).isEmpty = true ↔ value = "" := by
  rw [List.isEmpty_iff, ← List.length_eq_zero_iff]
  exact String.utf8ByteSize_eq_zero_iff

/-- What the check of a text accepts. -/
theorem validate_bounded_string_iff (field value : String) (max_len : ℕ) :
    validate_bounded_string field value max_len = .ok () ↔
      value ≠ "" ∧ (as_bytes value).length ≤ max_len ∧ '\x00' ∉ value.toList := by
  have hnul : (as_bytes value).contains 0 = true ↔ '\x00' ∈ value.toList := by
    rw [List.contains_iff_mem]
    exact Utf8.zero_mem_toUTF8
  rw [validate_bounded_string]
  by_cases hempty : value = ""
  · rw [if_pos (as_bytes_isEmpty.mpr hempty)]
    exact iff_of_false (fun h => by cases h) fun h => h.1 hempty
  · rw [if_neg (fun h => hempty (as_bytes_isEmpty.mp h))]
    by_cases hlong : max_len < (as_bytes value).length
    · rw [if_pos hlong]
      exact iff_of_false (fun h => by cases h) fun h => by omega
    · rw [if_neg hlong]
      by_cases hmem : '\x00' ∈ value.toList
      · rw [if_pos (hnul.mpr hmem)]
        exact iff_of_false (fun h => by cases h) fun h => h.2.2 hmem
      · rw [if_neg fun h => hmem (hnul.mp h)]
        exact iff_of_true rfl ⟨hempty, by omega, hmem⟩

/-! ## The rows -/

section

variable {http : HttpCrate} {headers : List (String × String)}

/-- One row more at the front. -/
theorem validate_rows_cons {name value : String} {rows : List (List String)}
    {pairs : List (String × String)} :
    validate_rows ([name, value] :: rows) = .ok ((name, value) :: pairs) ↔
      validate_bounded_string "headerName" name MAX_HEADER_NAME_LEN = .ok () ∧
        validate_bounded_string "headerValue" value MAX_HEADER_VALUE_LEN = .ok () ∧
        validate_rows rows = .ok pairs := by
  rw [validate_rows]
  cases hname : validate_bounded_string "headerName" name MAX_HEADER_NAME_LEN with
  | error e => exact iff_of_false (fun h => by cases h) fun h => by cases h.1
  | ok u =>
      cases hvalue : validate_bounded_string "headerValue" value MAX_HEADER_VALUE_LEN with
      | error e => exact iff_of_false (fun h => by cases h) fun h => by cases h.2.1
      | ok u' =>
          cases hrows : validate_rows rows with
          | error e => exact iff_of_false (fun h => by cases h) fun h => by cases h.2.2
          | ok pairs' => simp [bind, Except.bind, pure, Except.pure]

/-- Each pair is checked, none of them is changed. -/
theorem validate_rows_iff : validate_rows (headers.map fun h => [h.1, h.2]) = .ok headers ↔
    ∀ h ∈ headers, validate_bounded_string "headerName" h.1 MAX_HEADER_NAME_LEN = .ok () ∧
      validate_bounded_string "headerValue" h.2 MAX_HEADER_VALUE_LEN = .ok () := by
  induction headers with
  | nil => exact iff_of_true rfl fun h hno => absurd hno List.not_mem_nil
  | cons header headers ih =>
      rw [List.map_cons, validate_rows_cons, ih, List.forall_mem_cons, and_assoc]

/-- **The headers come back** as they were delivered if and only if no value is empty. -/
theorem delivered_headers_return (payload : Dispatcher.RequestPayload) (laws : HeaderLaws http)
    (h : WithinLimits http payload.headers) :
    validate_header_rows (DeliverableRequest.from_payload payload).headers = .ok payload.headers ↔
      ∀ header ∈ payload.headers, header.2 ≠ "" := by
  have hcount : ¬ MAX_HEADER_COUNT < (DeliverableRequest.from_payload payload).headers.length := by
    have hle := h.count
    rw [DeliverableRequest.from_payload, List.length_map]
    omega
  rw [validate_header_rows, if_neg hcount, DeliverableRequest.from_payload, validate_rows_iff]
  apply forall₂_congr
  intro header hmem
  obtain ⟨hname, hvalue⟩ := h.valid header hmem
  obtain ⟨hname_len, hvalue_len⟩ := h.lengths header hmem
  rw [validate_bounded_string_iff, validate_bounded_string_iff]
  constructor
  · exact fun hboth => hboth.2.1
  · intro hne
    exact ⟨⟨laws.name_ne_empty _ hname, hname_len, laws.name_no_nul _ hname⟩, hne, hvalue_len,
      laws.value_no_nul _ hvalue⟩

end

/-! ## An empty value -/

/-- A request with these headers. -/
def payload_of (headers : List (String × String)) : Dispatcher.RequestPayload :=
  ⟨1, 2, 3, "GET", "httpi://node/", headers, "node", false⟩

/-- The headers of the echo of a request with an empty header. -/
theorem empty_value_refused :
    ¬ ∀ (http : HttpCrate) (payload : Dispatcher.RequestPayload), HeaderLaws http →
      WithinLimits http payload.headers →
      validate_header_rows (DeliverableRequest.from_payload payload).headers = .ok payload.headers := by
  intro h
  have hempty := h visible_ascii (payload_of [("x-empty", "")]) headerLaws_visible_ascii
    { count := by decide, valid := by decide, lengths := by decide }
  revert hempty
  decide

/-- Two headers of one name. -/
theorem delivered_headers_return_two :
    validate_header_rows (DeliverableRequest.from_payload
      (payload_of [("accept", "*/*"), ("accept", "text/plain")])).headers
        = .ok [("accept", "*/*"), ("accept", "text/plain")] :=
  (delivered_headers_return (payload_of [("accept", "*/*"), ("accept", "text/plain")])
    headerLaws_visible_ascii { count := by decide, valid := by decide, lengths := by decide }).mpr
      (by decide)

end IrohHttp.Shared
