/-
`base32Encode` and `base32Decode` of `base32.ts`, and what they have in common with the codec of
`encoding.rs`.

The decoder reads a table by the first code unit of a character. The table has 256 entries, so
that a unit behind its end reads `undefined`, which is not the mark of an invalid character and
counts as zero in the accumulator. It reads upper case, to which characters outside ASCII may come
down as letters of the alphabet, and no further than the first `=`.
-/
import IrohHttp.Base32
import IrohHttp.BitBuffer

set_option autoImplicit false

namespace IrohHttp.NodeIdText

/-! ## Strings of JavaScript -/

/-- UTF-16 code units. -/
abbrev JsString := List UInt16

/-- The first unit of a pair. -/
def is_high_surrogate (u : UInt16) : Bool := 0xd800 ≤ u && u ≤ 0xdbff

/-- The second unit of a pair. -/
def is_low_surrogate (u : UInt16) : Bool := 0xdc00 ≤ u && u ≤ 0xdfff

/-- `for (const ch of s)`: a pair of surrogates is one character. -/
def chars : JsString → List JsString
  | [] => []
  | [u] => [[u]]
  | u :: v :: rest =>
    if is_high_surrogate u && is_low_surrogate v then [u, v] :: chars rest
    else [u] :: chars (v :: rest)

/-- `s.charCodeAt(0)`, of a string that is not empty. -/
def char_code (s : JsString) : ℕ := (s.headD 0).toNat

/-- The UTF-16 units of a character. -/
def char_units (c : Char) : JsString :=
  if c.toNat < 0x10000 then [UInt16.ofNat c.toNat]
  else
    [UInt16.ofNat (0xd800 + (c.toNat - 0x10000) / 0x400),
      UInt16.ofNat (0xdc00 + (c.toNat - 0x10000) % 0x400)]

/-- A text as a string of JavaScript. -/
def units (text : String) : JsString := text.toList.flatMap char_units

/-- All units are ASCII. -/
def is_ascii (s : JsString) : Prop := ∀ u ∈ s, u < 128

/-- The capital of an ASCII letter. -/
def upper (u : UInt16) : UInt16 := if 97 ≤ u ∧ u ≤ 122 then u - 32 else u

/-- The small letter of an ASCII capital. -/
def lower (u : UInt16) : UInt16 := if 65 ≤ u ∧ u ≤ 90 then u + 32 else u

/-- The case mapping of the runtime, of which ASCII is what the codec needs. -/
structure CaseMapping where
  to_upper_case : JsString → JsString
  to_lower_case : JsString → JsString
  upper_ascii : ∀ s, is_ascii s → to_upper_case s = s.map upper
  lower_ascii : ∀ s, is_ascii s → to_lower_case s = s.map lower

/-- It leaves all but ASCII as it is. -/
def CaseMapping.ascii : CaseMapping :=
  ⟨List.map upper, List.map lower, fun _ _ => rfl, fun _ _ => rfl⟩

/-! ## The codec -/

/-- The alphabet of the TypeScript side, in capitals. -/
def B32_ALPHA : JsString := units "ABCDEFGHIJKLMNOPQRSTUVWXYZ234567"

/-- The table from a unit to its digit, `0xff` where there is none. -/
def B32_LOOKUP : List ℕ :=
  B32_ALPHA.zipIdx.foldl (fun table (code, i) => table.set code.toNat i) (List.replicate 256 0xff)

/-- `while (bits >= 5)` -/
def emit (s : BitBuffer 32) (out : JsString) : BitBuffer 32 × JsString :=
  if 5 ≤ s.bits then emit (s.drop 5) (out ++ [B32_ALPHA.getD ((s.drop 5).top 5) 0]) else (s, out)
termination_by s.bits
decreasing_by
  have hbits : (s.drop 5).bits = s.bits - 5 := rfl
  omega

/-- The loop of `base32Encode` over the bytes. -/
def encode_bytes : List UInt8 → BitBuffer 32 → JsString → BitBuffer 32 × JsString
  | [], s, out => (s, out)
  | byte :: b, s, out =>
    let (s, out) := emit (s.put 8 byte.toNat) out
    encode_bytes b s out

/-- `base32Encode` -/
def base32_encode (unicode : CaseMapping) (b : List UInt8) : JsString :=
  let (s, out) := encode_bytes b .empty []
  let out := if 0 < s.bits then out ++ [B32_ALPHA.getD (s.last 5 (5 - s.bits)) 0] else out
  unicode.to_lower_case out

/-- The padding. -/
def EQUALS : JsString := [61]

/-- The loop of `base32Decode` over the characters; beyond the table a character counts as zero. -/
def decode_chars : List JsString → BitBuffer 32 → List ℕ → Except JsString (List ℕ)
  | [], _, out => .ok out
  | ch :: rest, s, out =>
    if ch = EQUALS then .ok out
    else
      let val := B32_LOOKUP[char_code ch]?
      if val = some 0xff then .error (units "Invalid base32 character: " ++ ch)
      else
        -- `undefined` is 0 to the bit operators
        let s := s.put 5 (val.getD 0)
        if 8 ≤ s.bits then decode_chars rest (s.drop 8) (out ++ [(s.drop 8).top 8])
        else decode_chars rest s out

/-- `base32Decode` -/
def base32_decode (unicode : CaseMapping) (s : JsString) : Except JsString (List UInt8) :=
  (decode_chars (chars (unicode.to_upper_case s)) .empty []).map (·.map UInt8.ofNat)

/-- `PublicKey.fromString`, whose constructor takes 32 bytes. -/
def from_string (unicode : CaseMapping) (s : JsString) : Except JsString (Vector UInt8 32) :=
  (base32_decode unicode s).bind fun bytes =>
    if h : bytes.length = 32 then .ok ⟨bytes.toArray, h⟩
    else .error (units ("PublicKey must be 32 bytes, got " ++ toString bytes.length))

/-! ## The table -/

theorem B32_ALPHA_eq : B32_ALPHA =
    [65, 66, 67, 68, 69, 70, 71, 72, 73, 74, 75, 76, 77, 78, 79, 80, 81, 82, 83, 84, 85, 86, 87, 88, 89,
     90, 50, 51, 52, 53, 54, 55] := by
  rfl

theorem B32_ALPHA_toNat : B32_ALPHA.map UInt16.toNat =
    [65, 66, 67, 68, 69, 70, 71, 72, 73, 74, 75, 76, 77, 78, 79, 80, 81, 82, 83, 84, 85, 86, 87, 88, 89,
     90, 50, 51, 52, 53, 54, 55] := by
  rw [B32_ALPHA_eq]
  rfl

/-- An entry that is set twice keeps the second value; in a list without duplicates there is none. -/
theorem getElem?_foldl_set (codes : List UInt16) (hnodup : (codes.map UInt16.toNat).Nodup)
    (table : List ℕ) (k c : ℕ) :
    ((codes.zipIdx k).foldl (fun table (code, i) => table.set code.toNat i) table)[c]?
      = (table[c]?).map fun old => (((codes.map UInt16.toNat).idxOf? c).map (k + ·)).getD old := by
  induction codes generalizing table k with
  | nil => simp
  | cons code codes ih =>
      rw [List.map_cons, List.nodup_cons] at hnodup
      rw [List.zipIdx_cons, List.foldl_cons, ih hnodup.2, List.map_cons, List.idxOf?_cons, List.getElem?_set]
      by_cases hcode : code.toNat = c
      · -- the other codes leave the entry as it has been set
        have hnone : (codes.map UInt16.toNat).idxOf? c = none := by
          rw [List.idxOf?_eq_none_iff, ← hcode]
          exact hnodup.1
        by_cases hc : c < table.length
        · simp [hcode, hnone, hc]
        · simp [hcode, hc]
      · simp [hcode, Option.map_map, Function.comp_def, Nat.add_assoc, Nat.add_comm 1]

/-- The value of a letter, if it is one. -/
theorem B32_LOOKUP_eq (c : ℕ) :
    B32_LOOKUP[c]? = if c < 256 then some (((B32_ALPHA.map UInt16.toNat).idxOf? c).getD 0xff) else none := by
  have hnodup : (B32_ALPHA.map UInt16.toNat).Nodup := by
    rw [B32_ALPHA_toNat]
    decide
  rw [B32_LOOKUP, getElem?_foldl_set _ hnodup, List.getElem?_replicate]
  by_cases hc : c < 256
  · simp [hc]
  · simp [hc]

/-! ## What the decoder makes of characters -/

/-- The characters in front of the first `=`. -/
def before_padding (cs : List JsString) : List JsString := cs.takeWhile (· ≠ EQUALS)

/-- The decoder throws at such a character. -/
def Invalid (ch : JsString) : Prop := B32_LOOKUP[char_code ch]? = some 0xff

/-- The digit of a character. -/
def value (ch : JsString) : ℕ := (B32_LOOKUP[char_code ch]?).getD 0

theorem value_lt {ch : JsString} (h : ¬ Invalid ch) : value ch < 2 ^ 5 := by
  rw [Invalid, B32_LOOKUP_eq] at h
  rw [value, B32_LOOKUP_eq]
  by_cases hcode : char_code ch < 256
  · rw [if_pos hcode] at h
    rw [if_pos hcode, Option.getD_some]
    cases hindex : (B32_ALPHA.map UInt16.toNat).idxOf? (char_code ch) with
    | none =>
        rw [hindex] at h
        exact absurd rfl h
    | some i =>
        have hlt := (List.findIdx?_eq_some_iff_getElem.mp hindex).1
        rw [List.length_map, B32_ALPHA_eq] at hlt
        exact hlt
  · rw [if_neg hcode]
    decide

theorem before_padding_cons {ch : JsString} (h : ch ≠ EQUALS) (rest : List JsString) :
    before_padding (ch :: rest) = ch :: before_padding rest :=
  List.takeWhile_cons_of_pos (decide_eq_true h)

/-- The accumulator holds the values of the characters read so far. -/
theorem decode_chars_holds (cs : List JsString) (hvalid : ∀ ch ∈ before_padding cs, ¬ Invalid ch)
    {values out : List ℕ} {s : BitBuffer 32}
    (h : s.Holds 8 out (BitBuffer.number 5 values) (5 * values.length)) (hbits : s.bits < 8) :
    ∃ (out' : List ℕ) (s' : BitBuffer 32), decode_chars cs s out = .ok out' ∧ s'.bits < 8 ∧
      s'.Holds 8 out' (BitBuffer.number 5 (values ++ (before_padding cs).map value))
        (5 * (values ++ (before_padding cs).map value).length) := by
  induction cs generalizing values out s with
  | nil =>
      refine ⟨out, s, rfl, hbits, ?_⟩
      rwa [show before_padding [] = [] from rfl, List.map_nil, List.append_nil]
  | cons ch rest ih =>
      rw [decode_chars]
      by_cases hpad : ch = EQUALS
      · have hnone : before_padding (ch :: rest) = [] := List.takeWhile_cons_of_neg (by simp [hpad])
        rw [if_pos hpad, hnone, List.map_nil, List.append_nil]
        exact ⟨out, s, rfl, hbits, h⟩
      · rw [before_padding_cons hpad] at hvalid ⊢
        have hch := hvalid ch List.mem_cons_self
        have hrest := fun c hc => hvalid c (List.mem_cons_of_mem ch hc)
        have hput : (s.put 5 (value ch)).Holds 8 out (BitBuffer.number 5 (values ++ [value ch]))
            (5 * (values ++ [value ch]).length) := by
          rw [BitBuffer.number_append, List.length_append]
          exact h.put (value_lt hch)
        have hcount : (s.put 5 (value ch)).bits = s.bits + 5 := rfl
        have happend : values ++ (ch :: before_padding rest).map value
            = (values ++ [value ch]) ++ (before_padding rest).map value := by
          rw [List.map_cons, List.append_assoc, List.singleton_append]
        rw [if_neg hpad, happend]
        have hvalue : (B32_LOOKUP[char_code ch]?).getD 0 = value ch := rfl
        rw [Invalid] at hch
        simp only [if_neg hch, hvalue]
        -- one byte at most is complete behind five more bits
        by_cases hfull : 8 ≤ (s.put 5 (value ch)).bits
        · have hdrop : ((s.put 5 (value ch)).drop 8).bits = s.bits + 5 - 8 := rfl
          have htake := hput.take hfull (by omega)
          rw [if_pos hfull]
          exact ih hrest htake (by omega)
        · rw [if_neg hfull]
          exact ih hrest hput (by omega)

/-- One character that is not looked up is enough for an error. -/
theorem decode_chars_invalid {cs : List JsString} (h : ∃ ch ∈ before_padding cs, Invalid ch)
    (s : BitBuffer 32) (out : List ℕ) : ∃ error, decode_chars cs s out = .error error := by
  induction cs generalizing s out with
  | nil =>
      obtain ⟨ch, hmem, -⟩ := h
      exact absurd hmem List.not_mem_nil
  | cons ch rest ih =>
      rw [decode_chars]
      by_cases hpad : ch = EQUALS
      · have hnone : before_padding (ch :: rest) = [] := List.takeWhile_cons_of_neg (by simp [hpad])
        obtain ⟨c, hmem, -⟩ := h
        rw [hnone] at hmem
        exact absurd hmem List.not_mem_nil
      · rw [before_padding_cons hpad] at h
        rw [if_neg hpad]
        by_cases hch : Invalid ch
        · rw [Invalid] at hch
          simp only [if_pos hch]
          exact ⟨_, rfl⟩
        · obtain ⟨c, hmem, hc⟩ := h
          have hne : c ≠ ch := fun heq => hch (heq ▸ hc)
          have hrest := ih ⟨c, (List.mem_cons.mp hmem).resolve_left hne, hc⟩
          rw [Invalid] at hch
          simp only [if_neg hch]
          split_ifs
          · apply hrest
          · apply hrest

variable (unicode : CaseMapping)

/-- The characters that the decoder looks up. -/
def looked_up (s : JsString) : List JsString := before_padding (chars (unicode.to_upper_case s))

/-- The loop decodes a text whose characters are all looked up. -/
theorem base32_decode_ok {s : JsString} (h : ∀ ch ∈ looked_up unicode s, ¬ Invalid ch) :
    base32_decode unicode s = .ok (Base32.to_bytes ((looked_up unicode s).map value)) := by
  have hempty : (BitBuffer.empty : BitBuffer 32).Holds 8 [] (BitBuffer.number 5 [])
      (5 * ([] : List ℕ).length) := BitBuffer.holds_empty 8
  have hzero : (BitBuffer.empty : BitBuffer 32).bits < 8 := by decide
  obtain ⟨out, buffer, hrun, hbits, hholds⟩ := decode_chars_holds _ h hempty hzero
  rw [List.nil_append] at hholds
  rw [base32_decode, hrun, hholds.digits_eq hbits]
  have hmod : ∀ n, n % 8 = n - 8 * (n / 8) := by omega
  rw [Base32.to_bytes, hmod]
  rfl

/-- It refuses a text with a character that is not. -/
theorem base32_decode_error {s : JsString} (h : ∃ ch ∈ looked_up unicode s, Invalid ch) :
    ∃ error, base32_decode unicode s = .error error := by
  obtain ⟨error, hrun⟩ := decode_chars_invalid h .empty []
  exact ⟨error, by rw [base32_decode, hrun, Except.map]⟩

/-! ## Strings of ASCII -/

theorem toNat_lt_of_ascii {u : UInt16} (h : u < 128) : u.toNat < 128 := UInt16.lt_iff_toNat_lt.mp h

theorem upper_toNat (u : UInt16) :
    (upper u).toNat = if 97 ≤ u.toNat ∧ u.toNat ≤ 122 then u.toNat - 32 else u.toNat := by
  unfold upper
  by_cases h : 97 ≤ u ∧ u ≤ 122
  · have hlow : 97 ≤ u.toNat := UInt16.le_iff_toNat_le.mp h.1
    have hhigh : u.toNat ≤ 122 := UInt16.le_iff_toNat_le.mp h.2
    have hle : (32 : UInt16) ≤ u := UInt16.le_iff_toNat_le.mpr (le_trans (by decide) hlow)
    rw [if_pos h, if_pos ⟨hlow, hhigh⟩, UInt16.toNat_sub_of_le u 32 hle]
    rfl
  · rw [if_neg h, if_neg fun hnat => h
      ⟨UInt16.le_iff_toNat_le.mpr hnat.1, UInt16.le_iff_toNat_le.mpr hnat.2⟩]

theorem upper_lt (u : UInt16) (hu : u < 128) : upper u < 128 := by
  have hlt := toNat_lt_of_ascii hu
  apply UInt16.lt_iff_toNat_lt.mpr
  rw [upper_toNat]
  change _ < 128
  split_ifs <;> omega

theorem upper_eq_equals (u : UInt16) (hu : u < 128) : upper u = 61 ↔ u = 61 := by
  have hlt := toNat_lt_of_ascii hu
  rw [← UInt16.toNat_inj, ← UInt16.toNat_inj, upper_toNat]
  change _ = 61 ↔ u.toNat = 61
  split_ifs <;> omega

theorem chars_ascii {s : JsString} (h : is_ascii s) : chars s = s.map fun u => [u] := by
  fun_induction chars s with
  | case1 => rfl
  | case2 u => rfl
  | case3 u v rest hpair ih =>
      -- an ASCII unit is no surrogate
      have hlt := toNat_lt_of_ascii (h u List.mem_cons_self)
      have hge : 0xd800 ≤ u.toNat := by
        simp only [is_high_surrogate, Bool.and_eq_true, decide_eq_true_eq] at hpair
        exact UInt16.le_iff_toNat_le.mp hpair.1.1
      omega
  | case4 u v rest hpair ih =>
      rw [ih fun w hw => h w (List.mem_cons_of_mem u hw)]
      rfl

theorem before_padding_ascii {s : JsString} (h : is_ascii s) :
    before_padding (s.map fun u => [upper u]) = (s.takeWhile (· ≠ 61)).map fun u => [upper u] := by
  induction s with
  | nil => rfl
  | cons u rest ih =>
      have hu := upper_eq_equals u (h u List.mem_cons_self)
      have hrest := ih fun v hv => h v (List.mem_cons_of_mem u hv)
      by_cases hpad : u = 61
      · rw [List.map_cons, before_padding, List.takeWhile_cons_of_neg (by simp [hu.mpr hpad, EQUALS]),
          List.takeWhile_cons_of_neg (by simp [hpad]), List.map_nil]
      · have hne : [upper u] ≠ EQUALS := fun heq => hpad (hu.mp (List.singleton_inj.mp heq))
        rw [List.map_cons, before_padding_cons hne, hrest, List.takeWhile_cons_of_pos (by simp [hpad]),
          List.map_cons]

/-- Of an ASCII text, what stands before the first `=` is looked up, in capitals. -/
theorem looked_up_ascii {s : JsString} (h : is_ascii s) :
    looked_up unicode s = (s.takeWhile (· ≠ 61)).map fun u => [upper u] := by
  have hupper : is_ascii (s.map upper) := by
    intro u hu
    obtain ⟨v, hv, rfl⟩ := List.mem_map.mp hu
    exact upper_lt v (h v hv)
  rw [looked_up, unicode.upper_ascii s h, chars_ascii hupper, List.map_map]
  exact before_padding_ascii h

/-- RFC 4648, in either case. -/
def is_base32 (u : UInt16) : Prop := 65 ≤ u ∧ u ≤ 90 ∨ 97 ≤ u ∧ u ≤ 122 ∨ 50 ≤ u ∧ u ≤ 55

instance (u : UInt16) : Decidable (is_base32 u) := inferInstanceAs (Decidable (_ ∨ _))

/-- A character is refused when its code is below 256 and not of the alphabet. -/
theorem invalid_iff (ch : JsString) :
    Invalid ch ↔ char_code ch < 256 ∧ ∀ u ∈ B32_ALPHA, u.toNat ≠ char_code ch := by
  rw [Invalid, B32_LOOKUP_eq]
  by_cases hcode : char_code ch < 256
  · rw [if_pos hcode]
    cases hindex : (B32_ALPHA.map UInt16.toNat).idxOf? (char_code ch) with
    | none =>
        have hno := List.idxOf?_eq_none_iff.mp hindex
        refine ⟨fun _ => ⟨hcode, fun u hu heq => hno ?_⟩, fun _ => rfl⟩
        exact List.mem_map.mpr ⟨u, hu, heq⟩
    | some i =>
        -- an index into the alphabet is not the mark
        have hlt := (List.findIdx?_eq_some_iff_getElem.mp hindex).1
        have hmem : char_code ch ∈ B32_ALPHA.map UInt16.toNat := by
          by_contra hno
          rw [List.idxOf?_eq_none_iff.mpr hno] at hindex
          exact absurd hindex (Option.some_ne_none i).symm
        obtain ⟨u, hu, heq⟩ := List.mem_map.mp hmem
        rw [List.length_map, B32_ALPHA_eq] at hlt
        have hne : i ≠ 255 := Nat.ne_of_lt (lt_trans hlt (by decide))
        exact ⟨fun h => absurd (Option.some_inj.mp h) hne, fun h => absurd heq (h.2 u hu)⟩
  · rw [if_neg hcode]
    exact ⟨fun h => absurd h (Option.some_ne_none _).symm, fun h => absurd h.1 hcode⟩

theorem mem_alphabet_iff (n : ℕ) :
    n ∈ B32_ALPHA.map UInt16.toNat ↔ 65 ≤ n ∧ n ≤ 90 ∨ 50 ≤ n ∧ n ≤ 55 := by
  rw [B32_ALPHA_toNat]
  simp only [List.mem_cons, List.not_mem_nil, or_false]
  omega

theorem invalid_upper_iff (u : UInt16) (hu : u < 128) : Invalid [upper u] ↔ ¬ is_base32 u := by
  have hlt := toNat_lt_of_ascii hu
  have hcode : char_code [upper u] = (upper u).toNat := rfl
  have hmem : (∀ v ∈ B32_ALPHA, v.toNat ≠ (upper u).toNat) ↔
      (upper u).toNat ∉ B32_ALPHA.map UInt16.toNat := by
    rw [List.mem_map]
    exact ⟨fun h ⟨v, hv, heq⟩ => h v hv heq, fun h v hv heq => h ⟨v, hv, heq⟩⟩
  rw [invalid_iff, hcode, hmem, mem_alphabet_iff, upper_toNat]
  simp only [is_base32, UInt16.le_iff_toNat_le]
  change _ ↔ ¬ (65 ≤ u.toNat ∧ u.toNat ≤ 90 ∨ 97 ≤ u.toNat ∧ u.toNat ≤ 122 ∨
    50 ≤ u.toNat ∧ u.toNat ≤ 55)
  by_cases hletter : 97 ≤ u.toNat ∧ u.toNat ≤ 122
  · rw [if_pos hletter]
    omega
  · rw [if_neg hletter]
    omega

theorem alphabet_ascii (c : Char) (hc : c ∈ Base32.alphabet) : c.toNat < 128 := by
  have hall : Base32.alphabet.all (fun c => decide (c.toNat < 128)) = true := by
    rw [Base32.alphabet_eq]
    rfl
  exact of_decide_eq_true (List.all_eq_true.mp hall c hc)

/-- Small letters and capitals of the alphabet have the same value. -/
theorem value_alphabet : ∀ d < 32, ∀ n, (n = (Base32.alphabet.getD d 'a').toNat ∨
      65 ≤ n ∧ n ≤ 90 ∧ n + 32 = (Base32.alphabet.getD d 'a').toNat) →
    is_base32 (UInt16.ofNat n) ∧ value [upper (UInt16.ofNat n)] = d := by
  have hsmall : ∀ d < 32, let n := (Base32.alphabet.getD d 'a').toNat
      is_base32 (UInt16.ofNat n) ∧ value [upper (UInt16.ofNat n)] = d := by
    simp only [Base32.alphabet_eq, value, B32_LOOKUP_eq, B32_ALPHA_toNat]
    decide
  have hcapital : ∀ d < 32, let n := (Base32.alphabet.getD d 'a').toNat - 32
      65 ≤ n → is_base32 (UInt16.ofNat n) ∧ value [upper (UInt16.ofNat n)] = d := by
    simp only [Base32.alphabet_eq, value, B32_LOOKUP_eq, B32_ALPHA_toNat]
    decide
  intro d hd n hn
  rcases hn with rfl | ⟨hlow, -, hsum⟩
  · exact hsmall d hd
  · have hn : n = (Base32.alphabet.getD d 'a').toNat - 32 := by omega
    rw [hn] at hlow ⊢
    exact hcapital d hd hlow

theorem toLower_toNat (c : Char) :
    c.toNat = c.toLower.toNat ∨ 65 ≤ c.toNat ∧ c.toNat ≤ 90 ∧ c.toNat + 32 = c.toLower.toNat := by
  unfold Char.toLower
  split_ifs with hcapital
  · have hlow : 65 ≤ c.toNat := UInt32.le_iff_toNat_le.mp hcapital.1
    have hhigh : c.toNat ≤ 90 := UInt32.le_iff_toNat_le.mp hcapital.2
    have hsum : (c.val + ('a'.val - 'A'.val)).toNat = c.toNat + 32 := by
      rw [UInt32.toNat_add]
      exact Nat.mod_eq_of_lt (lt_of_le_of_lt (Nat.add_le_add_right hhigh 32) (by decide))
    exact .inr ⟨hlow, hhigh, hsum.symm⟩
  · exact .inl rfl

/-- The digit of a character in lower case is the value in the table. -/
theorem value_digit {c : Char} {d : ℕ} (h : Base32.digit c.toLower = some d) :
    c.toNat < 128 ∧ is_base32 (UInt16.ofNat c.toNat) ∧ value [upper (UInt16.ofNat c.toNat)] = d := by
  obtain ⟨hd, hlower, hmem⟩ := Base32.digit_eq_some h
  have hascii := alphabet_ascii _ hmem
  have hcase := toLower_toNat c
  refine ⟨by omega, value_alphabet d hd _ ?_⟩
  rw [hlower]
  exact hcase

theorem char_units_ascii {c : Char} (h : c.toNat < 128) : char_units c = [UInt16.ofNat c.toNat] :=
  if_pos (by omega)

theorem units_ascii {text : String} (h : ∀ c ∈ text.toList, c.toNat < 128) :
    units text = text.toList.map fun c => UInt16.ofNat c.toNat := by
  rw [units, List.flatMap_congr fun c hc => char_units_ascii (h c hc)]
  exact List.flatMap_pure_eq_map _ _

theorem ascii_of_base32 : ∀ u : UInt16, is_base32 u → u < 128 ∧ u ≠ 61 := by
  intro u hu
  have hnat := hu
  simp only [is_base32, UInt16.le_iff_toNat_le] at hnat
  have hlt : u.toNat < 128 := by
    rcases hnat with h | h | h
    · exact lt_of_le_of_lt h.2 (by decide)
    · exact lt_of_le_of_lt h.2 (by decide)
    · exact lt_of_le_of_lt h.2 (by decide)
  refine ⟨UInt16.lt_iff_toNat_lt.mpr hlt, ?_⟩
  rintro rfl
  exact absurd hu (by decide)

/-- A text of base32 digits is looked up digit by digit. -/
theorem values_of_digits {body : List Char} {digits : List ℕ}
    (h : (body.map Char.toLower).mapM Base32.digit = some digits) :
    (∀ c ∈ body, c.toNat < 128 ∧ is_base32 (UInt16.ofNat c.toNat)) ∧
      body.map (fun c => value [upper (UInt16.ofNat c.toNat)]) = digits := by
  induction body generalizing digits with
  | nil =>
      have hnil : digits = [] := (Option.some_inj.mp h).symm
      exact ⟨fun c hc => absurd hc List.not_mem_nil, hnil.symm⟩
  | cons c body ih =>
      rw [List.map_cons, List.mapM_cons] at h
      obtain ⟨d, hd, h⟩ := Option.bind_eq_some_iff.mp h
      obtain ⟨ds, hds, hcons⟩ := Option.bind_eq_some_iff.mp h
      obtain ⟨hascii, hbase, hvalue⟩ := value_digit hd
      obtain ⟨hall, hvalues⟩ := ih hds
      refine ⟨?_, ?_⟩
      · intro e he
        rcases List.mem_cons.mp he with rfl | he
        · exact ⟨hascii, hbase⟩
        · exact hall e he
      · rw [List.map_cons, hvalue, hvalues]
        exact Option.some_inj.mp hcons

theorem takeWhile_padded {body padding : JsString} (hbody : ∀ u ∈ body, u ≠ 61)
    (hpadding : ∀ u ∈ padding, u = 61) :
    (body ++ padding).takeWhile (· ≠ 61) = body ∧ (body ++ padding).dropWhile
    (· ≠ 61) = padding := by
  have hall : ∀ u ∈ body, decide (u ≠ 61) = true := fun u hu => decide_eq_true (hbody u hu)
  have hnone : padding.takeWhile (fun u => decide (u ≠ 61)) = [] ∧
      padding.dropWhile (fun u => decide (u ≠ 61)) = padding := by
    cases padding with
    | nil => exact ⟨rfl, rfl⟩
    | cons u padding =>
        have hu := hpadding u List.mem_cons_self
        rw [List.takeWhile_cons_of_neg (by simp [hu]), List.dropWhile_cons_of_neg (by simp [hu])]
        exact ⟨rfl, rfl⟩
  rw [List.takeWhile_append_of_pos hall, List.dropWhile_append_of_pos hall, hnone.1, hnone.2,
    List.append_nil]
  exact ⟨rfl, rfl⟩

/-- What Rust decodes, with or without padding, decodes to the same bytes. -/
theorem base32_decode_units {text : String} {body padding : List Char} {digits : List ℕ}
    (htext : text.toList = body ++ padding) (hpadding : ∀ c ∈ padding, c = '=')
    (hdigits : (body.map Char.toLower).mapM Base32.digit = some digits) :
    base32_decode unicode (units text) = .ok (Base32.to_bytes digits) := by
  obtain ⟨hbody, hvalues⟩ := values_of_digits hdigits
  have hascii : ∀ c ∈ text.toList, c.toNat < 128 := by
    intro c hc
    rw [htext] at hc
    rcases List.mem_append.mp hc with hc | hc
    · exact (hbody c hc).1
    · rw [hpadding c hc]
      decide
  have hunits : is_ascii (units text) := by
    intro u hu
    rw [units_ascii hascii] at hu
    obtain ⟨c, hc, rfl⟩ := List.mem_map.mp hu
    have hlt := hascii c hc
    have hself : (UInt16.ofNat c.toNat).toNat = c.toNat := UInt16.toNat_ofNat_of_lt' (lt_trans hlt (by decide))
    exact UInt16.lt_iff_toNat_lt.mpr (lt_of_eq_of_lt hself hlt)
  have htake : (units text).takeWhile (· ≠ 61) = body.map fun c => UInt16.ofNat c.toNat := by
    rw [units_ascii hascii, htext, List.map_append]
    apply (takeWhile_padded ?_ ?_).1
    · intro u hu
      obtain ⟨c, hc, rfl⟩ := List.mem_map.mp hu
      exact (ascii_of_base32 _ (hbody c hc).2).2
    · intro u hu
      obtain ⟨c, hc, rfl⟩ := List.mem_map.mp hu
      rw [hpadding c hc]
      rfl
  have hlooked : looked_up unicode (units text)
      = body.map fun c => [upper (UInt16.ofNat c.toNat)] := by
    rw [looked_up_ascii unicode hunits, htake, List.map_map]
    rfl
  have hvalid : ∀ ch ∈ looked_up unicode (units text), ¬ Invalid ch := by
    intro ch hch
    rw [hlooked] at hch
    obtain ⟨c, hc, rfl⟩ := List.mem_map.mp hch
    have hbase := (hbody c hc).2
    rw [invalid_upper_iff _ (ascii_of_base32 _ hbase).1, not_not]
    exact hbase
  rw [base32_decode_ok unicode hvalid, hlooked, List.map_map, ← hvalues]
  rfl

/-! ## The encoder -/

/-- The character of a digit. -/
def letter (d : ℕ) : UInt16 := B32_ALPHA.getD d 0

theorem lower_letter :
    ∀ d < 32, lower (letter d) = UInt16.ofNat (Base32.alphabet.getD d 'a').toNat := by
  simp only [letter, B32_ALPHA_eq, Base32.alphabet_eq]
  decide

theorem letter_lt : ∀ d < 32, letter d < 128 := by
  simp only [letter, B32_ALPHA_eq]
  decide

/-- The loop takes digits of five bits until there are none left. -/
theorem emit_holds {digits : List ℕ} {n total : ℕ} {s : BitBuffer 32} (h : s.Holds 5 digits n total)
    (hbits : s.bits ≤ 32) :
    ∃ (digits' : List ℕ) (s' : BitBuffer 32), emit s (digits.map letter) = (s', digits'.map letter) ∧
      s'.bits < 5 ∧ s'.Holds 5 digits' n total := by
  induction hn : s.bits using Nat.strong_induction_on generalizing s digits with
  | _ bits ih =>
      rw [emit]
      by_cases hfull : 5 ≤ s.bits
      · have hdrop : (s.drop 5).bits = s.bits - 5 := rfl
        have hrun := ih (s.drop 5).bits (by omega) (h.take hfull hbits) (by omega) rfl
        rw [List.map_append, List.map_singleton] at hrun
        rw [if_pos hfull]
        exact hrun
      · rw [if_neg hfull]
        exact ⟨digits, s, rfl, by omega, h⟩

/-- The encoder's loop keeps the number it has read. -/
theorem encode_bytes_holds (b : List UInt8) {bytes digits : List ℕ} {s : BitBuffer 32}
    (h : s.Holds 5 digits (BitBuffer.number 8 bytes) (8 * bytes.length)) (hbits : s.bits < 5) :
    ∃ (digits' : List ℕ) (s' : BitBuffer 32),
      encode_bytes b s (digits.map letter) = (s', digits'.map letter) ∧ s'.bits < 5 ∧
      s'.Holds 5 digits' (BitBuffer.number 8 (bytes ++ b.map UInt8.toNat))
        (8 * (bytes ++ b.map UInt8.toNat).length) := by
  induction b generalizing bytes digits s with
  | nil =>
      refine ⟨digits, s, rfl, hbits, ?_⟩
      rwa [List.map_nil, List.append_nil]
  | cons byte b ih =>
      have hput : (s.put 8 byte.toNat).Holds 5 digits (BitBuffer.number 8 (bytes ++ [byte.toNat]))
          (8 * (bytes ++ [byte.toNat]).length) := by
        rw [BitBuffer.number_append, List.length_append]
        exact h.put byte.toNat_lt
      have hcount : (s.put 8 byte.toNat).bits = s.bits + 8 := rfl
      have happend : bytes ++ (byte :: b).map UInt8.toNat
          = (bytes ++ [byte.toNat]) ++ b.map UInt8.toNat := by
        rw [List.map_cons, List.append_assoc, List.singleton_append]
      obtain ⟨digits', s', hemit, hlt, hholds⟩ := emit_holds hput (by omega)
      rw [encode_bytes, hemit, happend]
      exact ih hholds hlt

/-- The digits are those of RFC 4648, the last one filled up with zero bits. -/
theorem digits_eq {bytes : List UInt8} {digits : List ℕ} {s : BitBuffer 32}
    (h : s.Holds 5 digits (BitBuffer.number 8 (bytes.map UInt8.toNat)) (8 * (bytes.map UInt8.toNat).length))
    (hbits : s.bits < 5) :
    (if 0 < s.bits then digits ++ [s.last 5 (5 - s.bits)] else digits)
      = (Base32.to_digits bytes).reverse := by
  have htotal := h.total
  have htaken := h.taken
  rw [List.length_map] at htotal
  have hnumber : BitBuffer.number 8 (bytes.map UInt8.toNat) = Base32.to_number bytes := rfl
  by_cases hrest : 0 < s.bits
  · have hlength : (digits ++ [s.last 5 (5 - s.bits)]).length = Base32.width bytes.length := by
      rw [List.length_append, List.length_singleton, Base32.width]
      omega
    have hshift : 5 * Base32.width bytes.length - 8 * bytes.length = 5 - s.bits := by
      rw [Base32.width]
      omega
    have hsmall : ∀ d ∈ digits ++ [s.last 5 (5 - s.bits)], d < 2 ^ 5 := by
      intro d hd
      rcases List.mem_append.mp hd with hd | hd
      · exact h.small d hd
      · rw [List.mem_singleton.mp hd]
        exact BitBuffer.last_lt _ (by omega)
    have hfill := h.fill (by omega) (by omega)
    rw [if_pos hrest, BitBuffer.eq_digits_number (by omega) hsmall, hlength, hfill, hnumber,
      Base32.to_digits, hshift]
    rfl
  · have hzero : s.bits = 0 := by omega
    have hlength : digits.length = Base32.width bytes.length := by
      rw [Base32.width]
      omega
    have hshift : 5 * Base32.width bytes.length - 8 * bytes.length = 0 := by
      rw [Base32.width]
      omega
    rw [hzero, pow_zero, Nat.div_one] at htaken
    rw [if_neg hrest, BitBuffer.eq_digits_number (by omega) h.small, hlength, htaken, hnumber,
      Base32.to_digits, hshift, pow_zero, Nat.mul_one]
    rfl

/-- The encoder is the one of Rust. -/
theorem base32_encode_eq (b : List UInt8) : base32_encode unicode b = units (Base32.encode b) := by
  have hempty : (BitBuffer.empty : BitBuffer 32).Holds 5 [] (BitBuffer.number 8 [])
      (8 * ([] : List ℕ).length) := BitBuffer.holds_empty 5
  have hzero : (BitBuffer.empty : BitBuffer 32).bits < 5 := by decide
  obtain ⟨digits, s, hrun, hbits, hholds⟩ := encode_bytes_holds b hempty hzero
  rw [List.map_nil] at hrun
  rw [List.nil_append] at hholds
  have hdigits := digits_eq hholds hbits
  have hout : (if 0 < s.bits then digits.map letter ++ [B32_ALPHA.getD (s.last 5 (5 - s.bits)) 0]
      else digits.map letter) = (Base32.to_digits b).reverse.map letter := by
    rw [← hdigits]
    split_ifs
    · rw [List.map_append, List.map_singleton, letter]
    · rfl
  have hlt : ∀ d ∈ (Base32.to_digits b).reverse, d < 32 :=
    fun d hd => Base32.to_digits_lt b d (List.mem_reverse.mp hd)
  have hascii : is_ascii ((Base32.to_digits b).reverse.map letter) := by
    intro u hu
    obtain ⟨d, hd, rfl⟩ := List.mem_map.mp hu
    exact letter_lt d (hlt d hd)
  have htext : ∀ c ∈ (Base32.encode b).toList, c.toNat < 128 :=
    fun c hc => alphabet_ascii c (Base32.mem_alphabet_of_mem_encode hc)
  rw [base32_encode, hrun]
  simp only [hout]
  rw [unicode.lower_ascii _ hascii, units_ascii htext, Base32.encode, String.toList_ofList, List.map_map,
    List.map_map]
  exact List.map_congr_left fun d hd => lower_letter d (hlt d hd)

/-! ## One meaning -/

/-- `base32_decode` of `encoding.rs`, over the crate's `decode`. -/
def Encoding.base32_decode (decode : String → Option (List UInt8)) (s : String) :
    Except String (List UInt8) :=
  match decode s with
  | some bytes => .ok bytes
  | none => .error ("invalid base32 string: " ++ s)

/-- The crate decodes texts of RFC 4648 only, in either case. Padding means nothing to it, if it is
let through. -/
def Rfc4648 (decode : String → Option (List UInt8)) : Prop :=
  ∀ text bytes, decode text = some bytes → ∃ body padding : List Char, text.toList = body ++ padding ∧
    (∀ c ∈ padding, c = '=') ∧ Base32.decode (String.ofList (body.map Char.toLower)) = some bytes

/-- Characters of the alphabet, and padding at the end. -/
def Legal (s : JsString) : Prop :=
  ∃ body padding, s = body ++ padding ∧ (∀ u ∈ body, is_base32 u) ∧ ∀ u ∈ padding, u = 61

/-- A node id has one meaning: `bytes` come back from their text, the text `s` is refused if it is
no base32, and the two decoders do not disagree on it. -/
structure OneMeaning (decode : String → Option (List UInt8)) (bytes : List UInt8) (s : JsString) :
    Prop where
  round_trip : base32_decode unicode (base32_encode unicode bytes) = .ok bytes
  legal : ∀ out, base32_decode unicode s = .ok out → Legal s
  agree : ∀ text out out', units text = s → base32_decode unicode s = .ok out →
    Encoding.base32_decode decode text = .ok out' → out = out'

/-- A character of Latin-1 outside the alphabet stands in front of the padding of the text in
capitals. -/
def Refused (s : JsString) : Prop :=
  ∃ ch ∈ looked_up unicode s, char_code ch < 256 ∧ ∀ u ∈ B32_ALPHA, u.toNat ≠ char_code ch

/-- ASCII, and nothing but `=` behind the first `=`. -/
def Plain (s : JsString) : Prop := is_ascii s ∧ ∀ u ∈ s.dropWhile (· ≠ 61), u = 61

/-- The alphabet is in lower case. -/
theorem map_toLower_of_alphabet {text : List Char} (h : ∀ c ∈ text, c ∈ Base32.alphabet) :
    text.map Char.toLower = text := by
  have hall : Base32.alphabet.all (fun c => c.toLower == c) = true := by
    rw [Base32.alphabet_eq]
    decide
  rw [List.map_congr_left (g := id) fun c hc => eq_of_beq (List.all_eq_true.mp hall c (h c hc)),
    List.map_id]

theorem alphabet_of_digits {text : List Char} {digits : List ℕ}
    (h : text.mapM Base32.digit = some digits) : ∀ c ∈ text, c ∈ Base32.alphabet := by
  induction text generalizing digits with
  | nil => exact fun c hc => absurd hc List.not_mem_nil
  | cons c text ih =>
      rw [List.mapM_cons] at h
      obtain ⟨d, hd, h⟩ := Option.bind_eq_some_iff.mp h
      obtain ⟨ds, hds, -⟩ := Option.bind_eq_some_iff.mp h
      intro e he
      rcases List.mem_cons.mp he with rfl | he
      · exact (Base32.digit_eq_some hd).2.2
      · exact ih hds e he

/-- What the encoder writes, the decoder reads back. -/
theorem round_trip (bytes : List UInt8) :
    base32_decode unicode (base32_encode unicode bytes) = .ok bytes := by
  have hread := Base32.mapM_digit (Base32.to_digits bytes).reverse
    fun d hd => Base32.to_digits_lt bytes d (List.mem_reverse.mp hd)
  have hdigits := hread
  rw [← map_toLower_of_alphabet (alphabet_of_digits hread)] at hdigits
  have htext : (Base32.encode bytes).toList
      = ((Base32.to_digits bytes).reverse.map fun digit => Base32.alphabet.getD digit 'a') ++ [] := by
    rw [Base32.encode, String.toList_ofList, List.append_nil]
  rw [base32_encode_eq, base32_decode_units unicode htext (fun c hc => absurd hc List.not_mem_nil) hdigits,
    Base32.to_bytes_to_digits]

/-- Where both decoders accept, they say the same. -/
theorem agree {decode : String → Option (List UInt8)} (hdecode : Rfc4648 decode) {text : String}
    {out out' : List UInt8} (h : base32_decode unicode (units text) = .ok out)
    (h' : Encoding.base32_decode decode text = .ok out') : out = out' := by
  cases hdecoded : decode text with
  | none =>
      rw [Encoding.base32_decode, hdecoded] at h'
      cases h'
  | some bytes =>
      rw [Encoding.base32_decode, hdecoded] at h'
      obtain ⟨body, padding, htext, hpadding, hbody⟩ := hdecode text bytes hdecoded
      rw [Base32.decode, String.toList_ofList] at hbody
      obtain ⟨digits, hdigits, hbytes⟩ := Option.map_eq_some_iff.mp hbody
      rw [base32_decode_units unicode htext hpadding hdigits] at h
      rw [← Except.ok.inj h, ← Except.ok.inj h', hbytes]

/-- A text that is plain has what it takes to be legal, but for the letters. -/
theorem plain_of_legal {s : JsString} (h : Legal s) : Plain s := by
  obtain ⟨body, padding, rfl, hbody, hpadding⟩ := h
  have hne : ∀ u ∈ body, u ≠ 61 := fun u hu => (ascii_of_base32 u (hbody u hu)).2
  refine ⟨?_, ?_⟩
  · intro u hu
    rcases List.mem_append.mp hu with hu | hu
    · exact (ascii_of_base32 u (hbody u hu)).1
    · rw [hpadding u hu]
      decide
  · rw [(takeWhile_padded hne hpadding).2]
    exact hpadding

theorem legal_of_plain {s : JsString} (h : Plain s) (hvalid : ∀ ch ∈ looked_up unicode s, ¬ Invalid ch) :
    Legal s := by
  refine ⟨s.takeWhile (· ≠ 61), s.dropWhile (· ≠ 61), List.takeWhile_append_dropWhile.symm, ?_, h.2⟩
  intro u hu
  have hlt := h.1 u ((List.takeWhile_sublist _).subset hu)
  have hch : [upper u] ∈ looked_up unicode s := by
    rw [looked_up_ascii unicode h.1]
    exact List.mem_map.mpr ⟨u, hu, rfl⟩
  have hno := hvalid _ hch
  rwa [invalid_upper_iff u hlt, not_not] at hno

/-- **A node id has one meaning** exactly if the decoder refuses the text or can only read it as
ASCII. -/
theorem one_meaning_iff (decode : String → Option (List UInt8)) (hdecode : Rfc4648 decode)
    (bytes : List UInt8) (s : JsString) :
    OneMeaning unicode decode bytes s ↔ Refused unicode s ∨ Plain s := by
  constructor
  · intro h
    by_cases hrefused : Refused unicode s
    · exact .inl hrefused
    · have hvalid : ∀ ch ∈ looked_up unicode s, ¬ Invalid ch :=
        fun ch hch hinvalid => hrefused ⟨ch, hch, (invalid_iff ch).mp hinvalid⟩
      exact .inr (plain_of_legal (h.legal _ (base32_decode_ok unicode hvalid)))
  · intro h
    refine ⟨round_trip unicode bytes, ?_, ?_⟩
    · intro out hout
      have hvalid : ∀ ch ∈ looked_up unicode s, ¬ Invalid ch := by
        intro ch hch hinvalid
        obtain ⟨error, herror⟩ := base32_decode_error unicode ⟨ch, hch, hinvalid⟩
        rw [herror] at hout
        cases hout
      rcases h with ⟨ch, hch, hrefused⟩ | hplain
      · exact absurd ((invalid_iff ch).mpr hrefused) (hvalid ch hch)
      · exact legal_of_plain unicode hplain hvalid
    · rintro text out out' rfl hout hout'
      exact agree unicode hdecode hout hout'

theorem base32_rfc4648 : Rfc4648 Base32.decode := by
  intro text bytes h
  refine ⟨text.toList, [], (List.append_nil _).symm, fun c hc => absurd hc List.not_mem_nil, ?_⟩
  obtain ⟨digits, hdigits, -⟩ := Option.map_eq_some_iff.mp h
  rwa [map_toLower_of_alphabet (alphabet_of_digits hdigits), String.ofList_toList]

theorem padded_text_has_one_meaning :
    OneMeaning .ascii Base32.decode [97, 98] [77, 70, 82, 65, 61, 61, 61, 61] :=
  (one_meaning_iff .ascii Base32.decode base32_rfc4648 _ _).mpr
    (.inr ⟨by simp [is_ascii], by simp⟩)

/-- The letter Ā has no entry in the table, and two of them are a byte. -/
theorem letter_without_entry_decodes :
    ¬ ∀ unicode decode bytes s, Rfc4648 decode → OneMeaning unicode decode bytes s := by
  intro h
  have hout : base32_decode .ascii [0x100, 0x100] = .ok [0] := by
    have hvalid : ∀ ch ∈ looked_up .ascii [0x100, 0x100], ¬ Invalid ch := by
      have hlooked : looked_up .ascii [0x100, 0x100] = [[0x100], [0x100]] := by decide
      rw [hlooked]
      simp only [invalid_iff]
      decide
    rw [base32_decode_ok .ascii hvalid]
    decide
  obtain ⟨body, padding, htext, hbody, hpadding⟩ :=
    (h .ascii Base32.decode [] [0x100, 0x100] base32_rfc4648).legal _ hout
  have hplain := plain_of_legal ⟨body, padding, htext, hbody, hpadding⟩
  exact absurd (hplain.1 0x100 List.mem_cons_self) (by decide)

/-! ## Public keys -/

/-- A key comes back from its text. -/
theorem from_string_base32_encode (key : Vector UInt8 32) :
    from_string unicode (base32_encode unicode key.toList) = .ok key := by
  have hlength : key.toList.length = 32 := Vector.length_toList
  rw [from_string, round_trip, Except.bind, dif_pos hlength]
  rfl

end IrohHttp.NodeIdText
