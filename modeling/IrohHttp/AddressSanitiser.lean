/-
The two gates of a direct address: `isDialableSocketAddr` of `shared/src/discovery.ts` in
front of the dialer, and the dialer's own `parse_direct_addrs` of `endpoint/bind.rs`,
which drops the whole list for one bad entry.

The sanitiser splits and matches, the dialer parses. Each of the two is shown to accept a
grammar, and the grammars are compared. They are alike but for three kinds of text: an
interface index behind `%`, which only the dialer takes, more than five digits of a port,
which only the dialer takes, and an IPv4 address in front of a `::` at the end, which only
the sanitiser takes.
-/
import IrohHttp.NetParser

set_option autoImplicit false

open Digits

namespace IrohHttp.Discovery

/-! ## `isDialableSocketAddr` -/

/-- `[0-9]` -/
def is_decimal (c : Char) : Bool := '0' ≤ c && c ≤ '9'

/-- `[0-9A-Fa-f]` -/
def is_hex (c : Char) : Bool := is_decimal c || ('A' ≤ c && c ≤ 'F') || ('a' ≤ c && c ≤ 'f')

/-- `String.prototype.lastIndexOf` of a colon, with the slices before and behind it. -/
def split_last_colon : List Char → Option (List Char × List Char)
  | [] => none
  | c :: cs =>
    match split_last_colon cs with
    | some (host, port) => some (c :: host, port)
    | none => if c = ':' then some ([], cs) else none

/-- `String.prototype.split("::")` -/
def split_double_colon : List Char → List (List Char)
  | [] => [[]]
  | ':' :: ':' :: cs => [] :: split_double_colon cs
  | c :: cs => (split_double_colon cs).modifyHead (c :: ·)

/-- The test of `isIpv4Literal` on one octet: one to three digits, no leading zero, at most 255. -/
def is_ipv4_octet (o : List Char) : Bool :=
  if !(o.all is_decimal && 1 ≤ o.length && o.length ≤ 3) then false
  else if 1 < o.length && o.head? == some '0' then false
  else number 10 o ≤ 255

/-- `isIpv4Literal`: four octets between dots. -/
def is_ipv4_literal (h : List Char) : Bool :=
  let octets := h.splitOn '.'
  if octets.length ≠ 4 then false else octets.all is_ipv4_octet

/-- `/^[0-9A-Fa-f]{1,4}$/` -/
def is_ipv6_group (g : List Char) : Bool := g.all is_hex && 1 ≤ g.length && g.length ≤ 4

/-- The loop over the groups, with the count so far. -/
def count_groups : ℕ → List (List Char) → Option ℕ
  | count, [] => some count
  | count, g :: groups =>
    if groups = [] ∧ '.' ∈ g then
      if is_ipv4_literal g then count_groups (count + 2) groups else none
    else if is_ipv6_group g then count_groups (count + 1) groups
    else none

/-- The groups of one half of a literal. -/
def split_half (half : List Char) : List (List Char) := if half = [] then [] else half.splitOn ':'

/-- `isIpv6Literal`, on the text between the brackets. -/
def is_ipv6_literal (h : List Char) : Bool :=
  if h.length = 0 || h.any fun c => !(is_hex c || c == ':' || c == '.') then false
  else
    match split_double_colon h with
    -- without compression, exactly eight groups
    | [first] => count_groups 0 (split_half first) == some 8
    -- the `::` stands for one group of zeroes at least
    | [first, second] => (count_groups 0 (split_half first ++ split_half second)).any (· ≤ 7)
    | _ => false

/-- `isDialableSocketAddr`: a host and a port of one to five digits, an IPv6 host in brackets. -/
def is_dialable_socket_addr (s : String) : Bool :=
  match split_last_colon s.toList with
  | none => false
  | some (host, port_str) =>
    if host = [] || port_str = [] then false
    else if !(port_str.all is_decimal && 1 ≤ port_str.length && port_str.length ≤ 5) then false
    else
      let port := number 10 port_str
      if port < 1 || 65535 < port then false
      else if host.head? = some '[' then
        if host.getLast? ≠ some ']' || host.length ≤ 2 then false
        else is_ipv6_literal host.tail.dropLast
      else is_ipv4_literal host

/-! ## `parse_direct_addrs` -/

/-- One entry; `debug` is the text of `{s:?}`. -/
def parse_direct_addr (debug : String → String) (s : String) : Except String SocketAddr :=
  match parse_socket_addr s with
  | none => .error ("invalid direct address " ++ debug s ++ ": invalid socket address syntax")
  | some addr =>
    if addr.port = 0 then
      .error ("invalid direct address " ++ debug s ++
        ": refusing to dial address with no port (port 0)")
    else .ok addr

/-- `parse_direct_addrs`: no list stays none, and the first text that is refused fails the call. -/
def parse_direct_addrs (debug : String → String) :
    Option (List String) → Except String (Option (List SocketAddr))
  | none => .ok none
  | some v => (v.mapM (parse_direct_addr debug)).map some

/-! ## Characters -/

theorem char_le_iff (c d : Char) : c ≤ d ↔ c.toNat ≤ d.toNat := by
  rw [Char.le_def, UInt32.le_iff_toNat_le]
  rfl

theorem is_digit_ten (c : Char) : is_digit 10 c = is_decimal c := by
  simp only [is_digit, to_digit, is_decimal, char_le_iff, Char.reduceToNat]
  grind

theorem is_digit_sixteen (c : Char) : is_digit 16 c = is_hex c := by
  simp only [is_digit, to_digit, is_hex, is_decimal, char_le_iff, Char.reduceToNat]
  grind

/-! ## IPv4 literals -/

/-- The octets of the sanitiser are those of the standard library's grammar. -/
theorem is_ipv4_octet_iff {o : List Char} : is_ipv4_octet o = true ↔ OctetText o (number 10 o) := by
  unfold is_ipv4_octet
  constructor
  · intro h
    split at h
    · cases h
    next hchars =>
    split at h
    · cases h
    next hzero =>
    simp only [Bool.not_eq_true, Bool.not_eq_false', Bool.and_eq_true, List.all_eq_true,
      decide_eq_true_eq] at hchars
    simp only [Bool.and_eq_true, decide_eq_true_eq, beq_iff_eq] at hzero
    refine ⟨⟨?_, ?_, ?_, ?_, of_decide_eq_true h⟩, rfl⟩
    · intro c hc
      rw [is_digit_ten]
      exact hchars.1.1 c hc
    · intro hnil
      rw [hnil, List.length_nil] at hchars
      omega
    · intro k hk
      rw [Option.some.injEq] at hk
      omega
    · intro _ hlt hhead
      exact hzero ⟨hlt, hhead⟩
  · rintro ⟨h, -⟩
    have hall : o.all is_decimal = true := by
      rw [List.all_eq_true]
      intro c hc
      rw [← is_digit_ten]
      exact h.digits c hc
    have hpos : 1 ≤ o.length := List.length_pos_iff.mpr h.ne_nil
    have hle : o.length ≤ 3 := h.length 3 rfl
    have hchars : (!(o.all is_decimal && decide (1 ≤ o.length) && decide (o.length ≤ 3))) = false := by
      rw [hall, decide_eq_true hpos, decide_eq_true hle]
      rfl
    rw [hchars, if_neg Bool.false_ne_true, if_neg]
    · exact decide_eq_true h.le
    · rw [Bool.and_eq_true, decide_eq_true_eq, beq_iff_eq]
      rintro ⟨hlt, hhead⟩
      exact h.zero rfl hlt hhead

/-- Octets that pass the test are the texts of their numbers. -/
theorem octets_of_forall {os : List (List Char)} (h : ∀ o ∈ os, is_ipv4_octet o = true) :
    List.Forall₂ OctetText os (os.map (number 10)) := by
  rw [List.forall₂_map_right_iff, List.forall₂_same]
  intro o ho
  exact is_ipv4_octet_iff.mp (h o ho)

/-- The texts of octets pass the test. -/
theorem forall_of_octets {os : List (List Char)} {ns : List ℕ} (h : List.Forall₂ OctetText os ns) :
    ∀ o ∈ os, OctetText o (number 10 o) := by
  induction h with
  | nil =>
      intro o hno
      exact absurd hno List.not_mem_nil
  | cons ho hos ih =>
      intro o hmem
      rcases List.mem_cons.mp hmem with rfl | hmem
      · exact ⟨ho.1, rfl⟩
      · exact ih o hmem

/-- **IPv4.** The sanitiser takes the literals that the parser of the standard library takes. -/
theorem is_ipv4_literal_iff {t : List Char} : is_ipv4_literal t = true ↔ ∃ ip, Ipv4Text t ip := by
  unfold is_ipv4_literal
  constructor
  · intro h
    dsimp only at h
    split at h
    · cases h
    next hlength =>
    rw [not_not] at hlength
    rw [List.all_eq_true] at h
    exact ⟨_, t.splitOn '.', _, octets_of_forall h, hlength, (List.intercalate_splitOn '.').symm, rfl⟩
  · rintro ⟨ip, os, ns, hos, hlength, rfl, -⟩
    have hoctets := forall_of_octets hos
    have hsplit : (['.'].intercalate os).splitOn '.' = os := by
      apply List.splitOn_intercalate
      · intro o ho hdot
        have hdigit := (hoctets o ho).1.digits '.' hdot
        revert hdigit
        decide
      · intro hnil
        rw [hnil] at hlength
        cases hlength
    dsimp only
    rw [hsplit, if_neg (not_not.mpr hlength), List.all_eq_true]
    intro o ho
    exact is_ipv4_octet_iff.mpr (hoctets o ho)

/-! ## Groups -/

/-- A group of the sanitiser is one of the grammar. -/
theorem is_ipv6_group_iff {g : List Char} :
    is_ipv6_group g = true ↔ GroupText g (number 16 g) := by
  unfold is_ipv6_group
  rw [Bool.and_eq_true, Bool.and_eq_true, List.all_eq_true, decide_eq_true_eq, decide_eq_true_eq]
  constructor
  · rintro ⟨⟨hchars, hpos⟩, hle⟩
    have hdigits : ∀ c ∈ g, is_digit 16 c = true := by
      intro c hc
      rw [is_digit_sixteen]
      exact hchars c hc
    have hlt := number_lt hdigits
    have hpow : 16 ^ g.length ≤ 16 ^ 4 := Nat.pow_le_pow_right (by omega) hle
    refine ⟨⟨hdigits, List.length_pos_iff.mp hpos, ?_, fun hno => (by cases hno), by omega⟩, rfl⟩
    intro k hk
    rw [Option.some.injEq] at hk
    omega
  · rintro ⟨h, -⟩
    refine ⟨⟨?_, List.length_pos_iff.mpr h.ne_nil⟩, h.length 4 rfl⟩
    intro c hc
    rw [← is_digit_sixteen]
    exact h.digits c hc

theorem dot_notMem_group {g : List Char} {n : ℕ} (h : GroupText g n) : '.' ∉ g := by
  intro hdot
  have hdigit := h.1.digits '.' hdot
  revert hdigit
  decide

theorem Ipv4Text.dot_mem {t : List Char} {ip : ℕ} (h : Ipv4Text t ip) : '.' ∈ t := by
  obtain ⟨o, n, rest, -, rfl⟩ := h.exists_octet
  exact List.mem_append_right o List.mem_cons_self

/-- The loop counts an IPv4 address as two groups, and allows it at the end. -/
theorem count_groups_eq_some {count total : ℕ} {groups : List (List Char)} :
    count_groups count groups = some total ↔
      ∃ dotted ns, GroupsText dotted groups ns ∧ total = count + ns.length := by
  induction groups generalizing count with
  | nil =>
      rw [count_groups, Option.some.injEq]
      constructor
      · rintro rfl
        exact ⟨false, [], .nil, rfl⟩
      · rintro ⟨dotted, ns, h, rfl⟩
        cases h
        rfl
  | cons g groups ih =>
      rw [count_groups]
      by_cases hlast : groups = [] ∧ '.' ∈ g
      · obtain ⟨rfl, hdot⟩ := hlast
        rw [if_pos ⟨rfl, hdot⟩]
        constructor
        · intro h
          split at h
          case isFalse => cases h
          next hipv4 =>
          obtain ⟨ip, hip⟩ := is_ipv4_literal_iff.mp hipv4
          rw [count_groups, Option.some.injEq] at h
          exact ⟨true, _, .dotted hip, h.symm⟩
        · rintro ⟨dotted, ns, h, rfl⟩
          cases h with
          | dotted hip => rw [if_pos (is_ipv4_literal_iff.mpr ⟨_, hip⟩)]; rfl
          | cons hg _ => exact absurd hdot (dot_notMem_group hg)
      · rw [if_neg hlast]
        constructor
        · intro h
          split at h
          case isFalse => cases h
          next hgroup =>
          obtain ⟨dotted, ns, hns, rfl⟩ := ih.mp h
          refine ⟨dotted, _, .cons (is_ipv6_group_iff.mp hgroup) hns, ?_⟩
          rw [List.length_cons]
          omega
        · rintro ⟨dotted, ns, h, rfl⟩
          cases h with
          | dotted hip => exact absurd ⟨rfl, hip.dot_mem⟩ hlast
          | @cons _ _ n _ ns hg hns =>
              rw [if_pos (is_ipv6_group_iff.mpr ⟨hg.1, rfl⟩), ih, List.length_cons]
              exact ⟨dotted, ns, hns, by omega⟩

/-- The groups in front of others are not dotted. -/
theorem GroupsText.split {dotted : Bool} {hs ps : List (List Char)} {ns : List ℕ}
    (h : GroupsText dotted (hs ++ ps) ns) (hps : ps ≠ []) :
    ∃ hns pns, GroupsText false hs hns ∧ GroupsText dotted ps pns ∧ ns = hns ++ pns := by
  induction hs generalizing ns with
  | nil => exact ⟨[], ns, .nil, h, rfl⟩
  | cons g hs ih =>
      generalize hall : g :: hs ++ ps = all at h
      rw [List.cons_append] at hall
      cases h with
      | nil => cases hall
      | dotted hip =>
          rw [List.cons.injEq] at hall
          exact absurd (List.append_eq_nil_iff.mp hall.2).2 hps
      | @cons _ g' n _ ns hg hns =>
          rw [List.cons.injEq] at hall
          obtain ⟨rfl, rfl⟩ := hall
          obtain ⟨hns', pns, hhs, hps', rfl⟩ := ih hns
          exact ⟨n :: hns', pns, .cons hg hhs, hps', rfl⟩

/-- Groups without a dotted end may stand in front of any groups. -/
theorem GroupsText.append {dotted : Bool} {hs ps : List (List Char)} {hns pns : List ℕ}
    (hhs : GroupsText false hs hns) (hps : GroupsText dotted ps pns) :
    GroupsText dotted (hs ++ ps) (hns ++ pns) := by
  generalize hfalse : false = plain at hhs
  induction hhs with
  | nil => exact hps
  | dotted hip => cases hfalse
  | cons hg _ ih => exact .cons hg (ih hfalse)

/-! ## IPv6 literals -/

/-- Every colon has another character behind it, so that `::` is nowhere and cannot come up
behind the text. -/
def Spaced : List Char → Prop
  | [] => True
  | c :: cs => (c = ':' → ∃ d, cs.head? = some d ∧ d ≠ ':') ∧ Spaced cs

theorem spaced_of_notMem {g : List Char} (h : ':' ∉ g) : Spaced g := by
  induction g with
  | nil => trivial
  | cons c cs ih =>
      rw [List.mem_cons, not_or] at h
      exact ⟨fun heq => absurd heq.symm h.1, ih h.2⟩

theorem spaced_append {a b : List Char} (ha : Spaced a) (hb : Spaced b) : Spaced (a ++ b) := by
  induction a with
  | nil => exact hb
  | cons c cs ih =>
      refine ⟨fun heq => ?_, ih ha.2⟩
      obtain ⟨d, hd, hne⟩ := ha.1 heq
      refine ⟨d, ?_, hne⟩
      show (cs ++ b).head? = some d
      rw [List.head?_append, hd]
      rfl

/-- Groups that are not empty and have no colon leave no double colon between them. -/
theorem spaced_intercalate {ps : List (List Char)} (h : ∀ p ∈ ps, p ≠ [] ∧ ':' ∉ p) :
    Spaced ([':'].intercalate ps) := by
  cases ps with
  | nil => trivial
  | cons p ps =>
      rw [intercalate_cons_eq_flatMap]
      apply spaced_append (spaced_of_notMem (h p List.mem_cons_self).2)
      have hrest : ∀ q ∈ ps, q ≠ [] ∧ ':' ∉ q := fun q hq => h q (List.mem_cons_of_mem p hq)
      clear h
      induction ps with
      | nil => trivial
      | cons q ps ih =>
          obtain ⟨hne, hcolon⟩ := hrest q List.mem_cons_self
          rw [List.flatMap_cons]
          refine spaced_append ⟨fun _ => ?_, spaced_of_notMem hcolon⟩
            (ih fun r hr => hrest r (List.mem_cons_of_mem q hr))
          obtain ⟨d, q, rfl⟩ := List.exists_cons_of_ne_nil hne
          refine ⟨d, rfl, ?_⟩
          rintro rfl
          exact hcolon List.mem_cons_self

/-- A character that does not begin a `::` goes to the first part. -/
theorem split_double_colon_cons {c : Char} {cs : List Char}
    (h : c = ':' → cs.head? ≠ some ':') :
    split_double_colon (c :: cs) = (split_double_colon cs).modifyHead (c :: ·) := by
  rw [split_double_colon]
  rintro cs' rfl rfl
  exact h rfl rfl

/-- A text without `::` is one part. -/
theorem split_double_colon_spaced {t : List Char} (h : Spaced t) : split_double_colon t = [t] := by
  induction t with
  | nil => rfl
  | cons c cs ih =>
      rw [split_double_colon_cons, ih h.2]
      · rfl
      · intro heq hcolon
        obtain ⟨d, hd, hne⟩ := h.1 heq
        rw [hd, Option.some.injEq] at hcolon
        exact hne hcolon

/-- The first `::` ends the first part. -/
theorem split_double_colon_append {t : List Char} (h : Spaced t) (rest : List Char) :
    split_double_colon (t ++ ':' :: ':' :: rest) = t :: split_double_colon rest := by
  induction t with
  | nil => rfl
  | cons c cs ih =>
      rw [List.cons_append, split_double_colon_cons, ih h.2]
      · rfl
      · intro heq hcolon
        obtain ⟨d, hd, hne⟩ := h.1 heq
        rw [List.head?_append, hd] at hcolon
        exact hne (Option.some.inj hcolon)

theorem split_double_colon_ne_nil (t : List Char) : split_double_colon t ≠ [] := by
  fun_induction split_double_colon t with
  | case1 => exact List.cons_ne_nil _ _
  | case2 cs ih => exact List.cons_ne_nil _ _
  | case3 c cs hne ih =>
      intro hno
      rw [List.modifyHead_eq_nil_iff] at hno
      exact ih hno

/-- The parts, with `::` between them, are the text again. -/
theorem intercalate_split_double_colon (t : List Char) :
    [':', ':'].intercalate (split_double_colon t) = t := by
  fun_induction split_double_colon t with
  | case1 => rfl
  | case2 cs ih =>
      obtain ⟨p, ps, hsplit⟩ := List.exists_cons_of_ne_nil (split_double_colon_ne_nil cs)
      rw [hsplit] at ih ⊢
      rw [List.intercalate_cons_cons, ih]
      rfl
  | case3 c cs hne ih =>
      obtain ⟨p, ps, hsplit⟩ := List.exists_cons_of_ne_nil (split_double_colon_ne_nil cs)
      rw [hsplit] at ih ⊢
      rw [List.modifyHead_cons]
      cases ps with
      | nil =>
          rw [List.intercalate_singleton] at ih ⊢
          rw [ih]
      | cons q ps =>
          rw [List.intercalate_cons_cons] at ih ⊢
          rw [List.cons_append, List.cons_append, ih]

theorem mem_intercalate {separator c : Char} {ps : List (List Char)}
    (h : c ∈ [separator].intercalate ps) : c = separator ∨ ∃ p ∈ ps, c ∈ p := by
  by_contra hno
  push Not at hno
  exact notMem_intercalate (fun hc => hno.1 (List.mem_singleton.mp hc)) hno.2 h

/-- The characters of groups, and that none is empty. -/
theorem GroupsText.chars {dotted : Bool} {ps : List (List Char)} {ns : List ℕ}
    (h : GroupsText dotted ps ns) :
    ∀ p ∈ ps, p ≠ [] ∧ ∀ c ∈ p, is_hex c = true ∨ c = '.' := by
  induction h with
  | nil =>
      intro p hno
      exact absurd hno List.not_mem_nil
  | @dotted t ip ht =>
      intro p hp
      rw [List.mem_singleton.mp hp]
      refine ⟨List.ne_nil_of_mem ht.dot_mem, ?_⟩
      obtain ⟨os, ns, hos, -, rfl, -⟩ := ht
      intro c hc
      rcases mem_intercalate hc with rfl | ⟨o, ho, hc⟩
      · exact Or.inr rfl
      · have hdigit := is_digit_hex ((forall_of_octets hos o ho).1.digits c hc)
        rw [is_digit_sixteen] at hdigit
        exact Or.inl hdigit
  | @cons dotted g n ps ns hg hps ih =>
      intro p hp
      rcases List.mem_cons.mp hp with rfl | hp
      · refine ⟨hg.1.ne_nil, ?_⟩
        intro c hc
        rw [← is_digit_sixteen]
        exact Or.inl (hg.1.digits c hc)
      · exact ih p hp

/-- A group is not empty and has no colon in it. -/
theorem GroupsText.colon_notMem {dotted : Bool} {ps : List (List Char)} {ns : List ℕ}
    (h : GroupsText dotted ps ns) : ∀ p ∈ ps, p ≠ [] ∧ ':' ∉ p := by
  intro p hp
  obtain ⟨hne, hchars⟩ := h.chars p hp
  refine ⟨hne, fun hcolon => ?_⟩
  have hno := hchars ':' hcolon
  revert hno
  decide

/-- An IPv4 address in front of a `::` that ends the text. -/
def DottedFront (t : List Char) : Prop :=
  ∃ ps ns, GroupsText true ps ns ∧ ns.length ≤ 7 ∧ t = [':'].intercalate ps ++ [':', ':']

/-- Splitting a half at its colons gives the groups that it was written from. -/
theorem split_half_intercalate {dotted : Bool} {ps : List (List Char)} {ns : List ℕ}
    (h : GroupsText dotted ps ns) : split_half ([':'].intercalate ps) = ps := by
  have hps := h.colon_notMem
  unfold split_half
  cases ps with
  | nil => rfl
  | cons p ps =>
      have hne : [':'].intercalate (p :: ps) ≠ [] := by
        rw [intercalate_cons_eq_flatMap]
        exact fun hno => (hps p List.mem_cons_self).1 (List.append_eq_nil_iff.mp hno).1
      rw [if_neg hne]
      exact List.splitOn_intercalate ':' (fun q hq => (hps q hq).2) (List.cons_ne_nil p ps)

theorem intercalate_split_half (half : List Char) : [':'].intercalate (split_half half) = half := by
  unfold split_half
  split
  · next hnil => rw [hnil, List.intercalate_nil]
  · exact List.intercalate_splitOn ':'

/-- The characters of a literal, which the sanitiser looks at first. -/
theorem literal_chars {dotted : Bool} {ps : List (List Char)} {ns : List ℕ}
    (h : GroupsText dotted ps ns) :
    ∀ c ∈ [':'].intercalate ps, (is_hex c || c == ':' || c == '.') = true := by
  intro c hc
  rw [Bool.or_eq_true, Bool.or_eq_true, beq_iff_eq, beq_iff_eq]
  rcases mem_intercalate hc with rfl | ⟨p, hp, hc⟩
  · exact Or.inl (Or.inr rfl)
  · rcases (h.chars p hp).2 c hc with hhex | hdot
    · exact Or.inl (Or.inl hhex)
    · exact Or.inr hdot

/-- Eight groups without `::` are a literal. -/
theorem is_ipv6_literal_full {dotted : Bool} {ps : List (List Char)} {ns : List ℕ}
    (h : GroupsText dotted ps ns) (hlength : ns.length = 8) :
    is_ipv6_literal ([':'].intercalate ps) = true := by
  have hne : [':'].intercalate ps ≠ [] := by
    intro hno
    have hnil := split_half_intercalate h
    rw [hno] at hnil
    rw [← hnil] at h
    cases h
    cases hlength
  have hcount : count_groups 0 ps = some 8 := by
    rw [count_groups_eq_some]
    exact ⟨dotted, ns, h, by omega⟩
  unfold is_ipv6_literal
  rw [if_neg, split_double_colon_spaced (spaced_intercalate h.colon_notMem)]
  · dsimp only
    rw [split_half_intercalate h, hcount]
    rfl
  · simp only [Bool.or_eq_true, decide_eq_true_eq, List.length_eq_zero_iff, hne, List.any_eq_true,
      false_or, not_exists, not_and]
    intro c hc
    rw [literal_chars h c hc]
    decide

/-- Seven groups at most leave one for a `::`. -/
theorem is_ipv6_literal_compressed {dotted : Bool} {hs ps : List (List Char)} {ns : List ℕ}
    (hhs : ∃ dotted hns, GroupsText dotted hs hns) (hps : ∃ dotted pns, GroupsText dotted ps pns)
    (h : GroupsText dotted (hs ++ ps) ns) (hlength : ns.length ≤ 7) :
    is_ipv6_literal ([':'].intercalate hs ++ ':' :: ':' :: [':'].intercalate ps) = true := by
  obtain ⟨_, _, hhs⟩ := hhs
  obtain ⟨_, _, hps⟩ := hps
  have hcount : count_groups 0 (hs ++ ps) = some ns.length := by
    rw [count_groups_eq_some]
    exact ⟨dotted, ns, h, by omega⟩
  unfold is_ipv6_literal
  rw [if_neg, split_double_colon_append (spaced_intercalate hhs.colon_notMem),
    split_double_colon_spaced (spaced_intercalate hps.colon_notMem)]
  · dsimp only
    rw [split_half_intercalate hhs, split_half_intercalate hps, hcount]
    exact decide_eq_true hlength
  · simp only [Bool.or_eq_true, decide_eq_true_eq, List.length_eq_zero_iff, List.append_eq_nil_iff,
      List.cons_ne_nil, and_false, List.any_eq_true, false_or, not_exists, not_and]
    intro c hc
    rcases List.mem_append.mp hc with hc | hc
    · rw [literal_chars hhs c hc]
      decide
    · rcases List.mem_cons.mp hc with rfl | hc
      · decide
      · rcases List.mem_cons.mp hc with rfl | hc
        · decide
        · rw [literal_chars hps c hc]
          decide

/-- **What the sanitiser takes for an IPv6 address.** -/
theorem is_ipv6_literal_iff {t : List Char} :
    is_ipv6_literal t = true ↔ (∃ ip, Ipv6Text t ip) ∨ DottedFront t := by
  constructor
  · intro h
    unfold is_ipv6_literal at h
    split at h
    · cases h
    have ht := intercalate_split_double_colon t
    split at h
    -- no `::`: all eight groups are there
    · next first hsplit =>
      rw [hsplit, List.intercalate_singleton] at ht
      rw [beq_iff_eq, count_groups_eq_some] at h
      obtain ⟨dotted, ns, hns, hlength⟩ := h
      have hfull := Ipv6Text.full hns (by omega)
      rw [intercalate_split_half, ht] at hfull
      exact Or.inl ⟨_, hfull⟩
    -- one `::`: the halves are counted together, which forgets where an IPv4 group stood
    · next first second hsplit =>
      rw [hsplit, List.intercalate_cons_cons, List.intercalate_singleton] at ht
      rw [Option.any_eq_true] at h
      obtain ⟨count, hcount, hle⟩ := h
      rw [count_groups_eq_some] at hcount
      obtain ⟨dotted, ns, hns, rfl⟩ := hcount
      have hle' := of_decide_eq_true hle
      rcases eq_or_ne (split_half second) [] with hnil | hne
      · -- nothing behind the `::`
        have hsecond := intercalate_split_half second
        rw [hnil, List.intercalate_nil] at hsecond
        rw [hnil, List.append_nil] at hns
        cases dotted with
        | false =>
            have hcompressed := Ipv6Text.compressed hns .nil (by rw [List.length_nil]; omega)
            rw [intercalate_split_half, List.intercalate_nil] at hcompressed
            rw [← ht, ← hsecond, List.append_nil]
            exact Or.inl ⟨_, hcompressed⟩
        | true =>
            refine Or.inr ⟨_, ns, hns, by omega, ?_⟩
            rw [intercalate_split_half, ← ht, ← hsecond, List.append_nil]
      · obtain ⟨hns', pns, hhs, hps, rfl⟩ := hns.split hne
        rw [List.length_append] at hle'
        have hcompressed := Ipv6Text.compressed hhs hps (by omega)
        rw [intercalate_split_half, intercalate_split_half] at hcompressed
        rw [← ht, List.append_assoc]
        exact Or.inl ⟨_, hcompressed⟩
    · cases h
  · rintro (⟨ip, h⟩ | ⟨ps, ns, hps, hlength, rfl⟩)
    · cases h with
      | full hps hlength => exact is_ipv6_literal_full hps hlength
      | compressed hhs hps hle =>
          apply is_ipv6_literal_compressed ⟨_, _, hhs⟩ ⟨_, _, hps⟩ (hhs.append hps)
          rw [List.length_append]
          exact hle
    · have h := is_ipv6_literal_compressed ⟨_, _, hps⟩ ⟨_, _, .nil⟩
        ((List.append_nil ps).symm ▸ hps) hlength
      rw [List.intercalate_nil] at h
      exact h

/-! ## Socket addresses -/

/-- The port is what follows the last colon. -/
theorem split_last_colon_eq_some {cs host port : List Char} :
    split_last_colon cs = some (host, port) ↔ cs = host ++ ':' :: port ∧ ':' ∉ port := by
  -- the rest is looked at first, so a colon splits only where there is none behind it
  have hnone (cs : List Char) : split_last_colon cs = none ↔ ':' ∉ cs := by
    induction cs with
    | nil => simp only [split_last_colon, List.not_mem_nil, not_false_eq_true]
    | cons c cs ih =>
        rw [split_last_colon, List.mem_cons, not_or, ← ih]
        cases hrest : split_last_colon cs with
        | none =>
            simp only [ite_eq_right_iff, reduceCtorEq, imp_false, and_true]
            exact ne_comm
        | some halves => simp only [reduceCtorEq, and_false]
  induction cs generalizing host port with
  | nil =>
      simp only [split_last_colon, reduceCtorEq, List.nil_eq, List.append_eq_nil_iff,
        List.cons_ne_nil, and_false, false_and]
  | cons c cs ih =>
      rw [split_last_colon]
      cases hrest : split_last_colon cs with
      | none =>
          have hcolon := (hnone cs).mp hrest
          dsimp only
          constructor
          · intro h
            split at h
            · next heq =>
              rw [Option.some.injEq, Prod.mk.injEq] at h
              obtain ⟨rfl, rfl⟩ := h
              exact ⟨by rw [heq]; rfl, hcolon⟩
            · cases h
          · rintro ⟨hcs, hport⟩
            cases host with
            | nil =>
                rw [List.nil_append, List.cons.injEq] at hcs
                rw [if_pos hcs.1, hcs.2]
            | cons d host =>
                rw [List.cons_append, List.cons.injEq] at hcs
                rw [hcs.2] at hcolon
                exact absurd (List.mem_append_right host List.mem_cons_self) hcolon
      | some halves =>
          obtain ⟨host', port'⟩ := halves
          dsimp only
          rw [Option.some.injEq, Prod.mk.injEq]
          constructor
          · rintro ⟨rfl, rfl⟩
            obtain ⟨rfl, hport⟩ := ih.mp hrest
            exact ⟨rfl, hport⟩
          · rintro ⟨hcs, hport⟩
            cases host with
            | nil =>
                rw [List.nil_append, List.cons.injEq] at hcs
                obtain ⟨hcs', -⟩ := ih.mp hrest
                rw [← hcs.2, hcs'] at hport
                exact absurd (List.mem_append_right host' List.mem_cons_self) hport
            | cons d host =>
                rw [List.cons_append, List.cons.injEq] at hcs
                have hsome := ih.mpr ⟨hcs.2, hport⟩
                rw [hrest, Option.some.injEq, Prod.mk.injEq] at hsome
                exact ⟨by rw [hcs.1, hsome.1], hsome.2⟩

/-- A port that is not zero, in at most five digits. -/
structure ShortPort (ds : List Char) : Prop where
  text : PortText ds
  pos : number 10 ds ≠ 0
  length : ds.length ≤ 5

theorem colon_notMem_digits {radix : ℕ} {ds : List Char} (h : ∀ c ∈ ds, is_digit radix c = true) :
    ':' ∉ ds := by
  intro hcolon
  have hdigit := h ':' hcolon
  rw [is_digit, to_digit] at hdigit
  revert hdigit
  simp only [Char.reduceLE, and_false, false_and, if_false, Option.filter_none, Option.isSome_none]
  exact Bool.false_ne_true

theorem is_ipv6_literal_nil : is_ipv6_literal [] = false := rfl

/-- The slice between the brackets. -/
theorem bracketed {host : List Char} (hhead : host.head? = some '[')
    (hlast : host.getLast? = some ']') : host = '[' :: host.tail.dropLast ++ [']'] := by
  cases host with
  | nil => cases hhead
  | cons c cs =>
      rw [List.head?_cons, Option.some.injEq] at hhead
      subst hhead
      rw [List.tail_cons]
      cases cs with
      | nil =>
          rw [List.getLast?_singleton] at hlast
          revert hlast
          decide
      | cons d cs =>
          rw [List.getLast?_cons_cons] at hlast
          have hconcat := List.dropLast_append_getLast? ']' hlast
          rw [List.cons_append, hconcat]

/-- **What the sanitiser takes for a socket address.** -/
theorem is_dialable_iff {s : String} : is_dialable_socket_addr s = true ↔
    ∃ host ds, s.toList = host ++ ':' :: ds ∧ ShortPort ds ∧
      ((∃ ip, Ipv4Text host ip) ∨
        ∃ t, host = '[' :: t ++ [']'] ∧ ((∃ ip, Ipv6Text t ip) ∨ DottedFront t)) := by
  unfold is_dialable_socket_addr
  constructor
  · intro h
    -- the checks of the source in their order: the colon, the digits, the range, the brackets
    split at h
    · cases h
    next host ds hsplit =>
    obtain ⟨hs, -⟩ := split_last_colon_eq_some.mp hsplit
    split at h
    · cases h
    split at h
    · cases h
    next hchars =>
    dsimp only at h
    split at h
    · cases h
    next hport =>
    simp only [Bool.not_eq_true, Bool.not_eq_false', Bool.and_eq_true, List.all_eq_true,
      decide_eq_true_eq] at hchars
    simp only [Bool.or_eq_true, decide_eq_true_eq, not_or] at hport
    have hdigits : ∀ c ∈ ds, is_digit 10 c = true := by
      intro c hc
      rw [is_digit_ten]
      exact hchars.1.1 c hc
    have hshort : ShortPort ds := by
      refine ⟨⟨hdigits, List.length_pos_iff.mp hchars.1.2, fun k hno => (by cases hno),
        fun hno => (by cases hno), by omega⟩, by omega, hchars.2⟩
    refine ⟨host, ds, hs, hshort, ?_⟩
    split at h
    · next hhead =>
      split at h
      · cases h
      next hlast =>
      simp only [Bool.or_eq_true, decide_eq_true_eq, not_or, not_not] at hlast
      exact Or.inr ⟨_, bracketed hhead hlast.1, is_ipv6_literal_iff.mp h⟩
    · exact Or.inl (is_ipv4_literal_iff.mp h)
  · rintro ⟨host, ds, hs, hshort, hhost⟩
    have hsplit : split_last_colon s.toList = some (host, ds) :=
      split_last_colon_eq_some.mpr ⟨hs, colon_notMem_digits hshort.text.digits⟩
    have hall : ds.all is_decimal = true := by
      rw [List.all_eq_true]
      intro c hc
      rw [← is_digit_ten]
      exact hshort.text.digits c hc
    have hpos : 1 ≤ ds.length := List.length_pos_iff.mpr hshort.text.ne_nil
    have hmax := hshort.text.le
    have hmin := hshort.pos
    have hempty : ∀ host : List Char, host ≠ [] →
        (decide (host = []) || decide (ds = [])) = false := by
      intro host hne
      rw [decide_eq_false hne, decide_eq_false hshort.text.ne_nil]
      rfl
    have hchars : (!(ds.all is_decimal && decide (1 ≤ ds.length) && decide (ds.length ≤ 5))) = false := by
      rw [hall, decide_eq_true hpos, decide_eq_true hshort.length]
      rfl
    have hrange : (decide (number 10 ds < 1) || decide (65535 < number 10 ds)) = false := by
      rw [decide_eq_false (by omega), decide_eq_false (by omega)]
      rfl
    rw [hsplit]
    dsimp only
    -- a host without brackets does not start with one: it starts with a digit
    rcases hhost with ⟨ip, hip⟩ | ⟨t, rfl, ht⟩
    · have hne : host ≠ [] := List.ne_nil_of_mem hip.dot_mem
      have hhead : host.head? ≠ some '[' := by
        obtain ⟨o, n, rest, ho, rfl⟩ := hip.exists_octet
        rw [List.head?_append_of_ne_nil o ho.1.ne_nil]
        intro hno
        have hdigit := ho.1.digits '[' (List.mem_of_head? hno)
        revert hdigit
        decide
      rw [hempty host hne, if_neg Bool.false_ne_true, hchars, if_neg Bool.false_ne_true, hrange,
        if_neg Bool.false_ne_true, if_neg hhead]
      exact is_ipv4_literal_iff.mpr ⟨ip, hip⟩
    · have hliteral := is_ipv6_literal_iff.mpr ht
      have hne : t ≠ [] := by
        rintro rfl
        rw [is_ipv6_literal_nil] at hliteral
        cases hliteral
      have hlength : 0 < t.length := List.length_pos_iff.mpr hne
      rw [hempty ('[' :: t ++ [']']) (List.cons_ne_nil _ _), if_neg Bool.false_ne_true, hchars,
        if_neg Bool.false_ne_true, hrange, if_neg Bool.false_ne_true,
        if_pos (show ('[' :: t ++ [']']).head? = some '[' from rfl), if_neg]
      · rw [List.cons_append, List.tail_cons, List.dropLast_concat]
        exact hliteral
      · rw [List.getLast?_append_of_ne_nil _ (List.cons_ne_nil _ _), Bool.or_eq_true,
          decide_eq_true_eq, decide_eq_true_eq, not_or]
        refine ⟨fun hno => hno rfl, ?_⟩
        rw [List.length_append, List.length_cons, List.length_singleton]
        omega

/-- **What the dialer takes.** -/
theorem parse_direct_addrs_isOk {debug : String → String} {s : String} :
    (parse_direct_addrs debug (some [s])).isOk = true ↔
      ∃ addr, SocketText s.toList addr ∧ addr.port ≠ 0 := by
  have hone : (parse_direct_addrs debug (some [s])).isOk = (parse_direct_addr debug s).isOk := by
    rw [parse_direct_addrs, List.mapM_cons, List.mapM_nil]
    cases parse_direct_addr debug s with
    | error e => rfl
    | ok addr => rfl
  simp only [hone, ← parse_socket_addr_eq_some]
  unfold parse_direct_addr
  cases parse_socket_addr s with
  | none =>
      constructor
      · intro h
        cases h
      · rintro ⟨addr, hno, -⟩
        cases hno
  | some addr =>
      dsimp only
      split
      · next hzero =>
        constructor
        · intro h
          cases h
        · rintro ⟨addr', heq, hport⟩
          rw [← Option.some.inj heq] at hport
          exact absurd hzero hport
      · next hport => exact iff_of_true rfl ⟨addr, rfl, hport⟩

/-! ## Where the sanitiser and the dialer agree -/

/-- An address without an interface index, in front of its port. -/
def HostText (host : List Char) : Prop :=
  (∃ ip, Ipv4Text host ip) ∨ ∃ t, host = '[' :: t ++ [']'] ∧ ∃ ip, Ipv6Text t ip

/-- `[fe80::1%5]:443` -/
def HasIndex (cs : List Char) : Prop :=
  ∃ t ip ds port, Ipv6Text t ip ∧ Numeral 0xffffffff 10 none true ds ∧ PortText port ∧
    number 10 port ≠ 0 ∧ cs = '[' :: t ++ '%' :: ds ++ ']' :: ':' :: port

/-- `192.168.1.5:000443` -/
def HasLongPort (cs : List Char) : Prop :=
  ∃ host port, HostText host ∧ PortText port ∧ number 10 port ≠ 0 ∧ 5 < port.length ∧
    cs = host ++ ':' :: port

/-- `[64:1.2.3.4::]:443` -/
def HasDottedFront (cs : List Char) : Prop :=
  ∃ t port, DottedFront t ∧ ShortPort port ∧ cs = '[' :: t ++ ']' :: ':' :: port

/-- What both take. -/
def Dialable (cs : List Char) : Prop :=
  ∃ host port, HostText host ∧ ShortPort port ∧ cs = host ++ ':' :: port

/-- The text after the last colon is the port. -/
theorem port_unique {host host' port port' : List Char} (hport : PortText port)
    (hport' : PortText port') (heq : host ++ ':' :: port = host' ++ ':' :: port') :
    host = host' ∧ port = port' := by
  have hsplit := split_last_colon_eq_some.mpr
    ⟨(rfl : host ++ ':' :: port = host ++ ':' :: port), colon_notMem_digits hport.digits⟩
  have hsplit' := split_last_colon_eq_some.mpr
    ⟨(rfl : host' ++ ':' :: port' = host' ++ ':' :: port'), colon_notMem_digits hport'.digits⟩
  rw [heq, hsplit', Option.some.injEq, Prod.mk.injEq] at hsplit
  exact ⟨hsplit.1.symm, hsplit.2.symm⟩

/-- An interface index is not in a literal. -/
theorem percent_notMem_literal {t : List Char} (h : (∃ ip, Ipv6Text t ip) ∨ DottedFront t) : '%' ∉ t := by
  have hliteral := is_ipv6_literal_iff.mpr h
  intro hpercent
  unfold is_ipv6_literal at hliteral
  rw [if_pos] at hliteral
  · cases hliteral
  · rw [Bool.or_eq_true, List.any_eq_true]
    exact Or.inr ⟨'%', hpercent, by decide⟩

/-- A host in brackets is not an IPv4 literal. -/
theorem not_ipv4_bracket {t rest : List Char} {ip : ℕ} : ¬ Ipv4Text ('[' :: t ++ rest) ip := by
  intro h
  obtain ⟨o, n, more, ho, heq⟩ := h.exists_octet
  cases o with
  | nil => exact ho.1.ne_nil rfl
  | cons c o =>
      rw [List.cons_append, List.cons_append, List.cons.injEq] at heq
      have hdigit := ho.1.digits c List.mem_cons_self
      rw [← heq.1] at hdigit
      revert hdigit
      decide

/-- The parser does not take an IPv4 address in front of `::`. -/
theorem not_ipv6_dottedFront {t : List Char} {ip : ℕ} (h : Ipv6Text t ip) : ¬ DottedFront t := by
  rintro ⟨ps, ns, hps, hlength, rfl⟩
  have hend : Ends [']'] := ends_cons (by decide) (by decide) (by decide)
  have hread := read_ipv6_addr_complete h hend
  have hgroups := read_groups_complete hps 8 [] (by omega) (ends_colons [']'])
  rw [List.length_nil, joined_zero, List.nil_append] at hgroups
  have hfull : ¬ ns.length = 8 := by omega
  rw [List.append_assoc] at hread
  simp only [read_ipv6_addr, List.cons_append, List.nil_append, hgroups, if_neg hfull, if_true,
    reduceCtorEq] at hread

/-- **What the sanitiser takes**: what both sides take, and a dotted group in front of a final `::`.
-/
theorem sanitised_iff {s : String} :
    is_dialable_socket_addr s = true ↔ Dialable s.toList ∨ HasDottedFront s.toList := by
  rw [is_dialable_iff]
  constructor
  · rintro ⟨host, port, hs, hport, hhost | ⟨t, rfl, ht | ht⟩⟩
    · exact Or.inl ⟨host, port, Or.inl hhost, hport, hs⟩
    · exact Or.inl ⟨_, port, Or.inr ⟨t, rfl, ht⟩, hport, hs⟩
    · refine Or.inr ⟨t, port, ht, hport, ?_⟩
      rw [hs, List.append_assoc, List.singleton_append]
  · rintro (⟨host, port, hhost | ⟨t, rfl, ht⟩, hport, hs⟩ | ⟨t, port, ht, hport, hs⟩)
    · exact ⟨host, port, hs, hport, Or.inl hhost⟩
    · exact ⟨_, port, hs, hport, Or.inr ⟨t, rfl, Or.inl ht⟩⟩
    · refine ⟨'[' :: t ++ [']'], port, ?_, hport, Or.inr ⟨t, rfl, Or.inr ht⟩⟩
      rw [hs, List.append_assoc, List.singleton_append]

/-- **What the dialer takes**: what both sides take, ports with leading zeros, and interface
indices. -/
theorem dialed_iff {debug : String → String} {s : String} :
    (parse_direct_addrs debug (some [s])).isOk = true ↔
      Dialable s.toList ∨ HasLongPort s.toList ∨ HasIndex s.toList := by
  rw [parse_direct_addrs_isOk]
  -- by the length of the port
  have hsplit {host port : List Char} (hhost : HostText host) (hport : PortText port)
      (hpos : number 10 port ≠ 0) (hs : s.toList = host ++ ':' :: port) :
      Dialable s.toList ∨ HasLongPort s.toList ∨ HasIndex s.toList := by
    by_cases hlength : port.length ≤ 5
    · exact Or.inl ⟨host, port, hhost, ⟨hport, hpos, hlength⟩, hs⟩
    · exact Or.inr (Or.inl ⟨host, port, hhost, hport, hpos, by omega, hs⟩)
  have hjoin {host port : List Char} (hhost : HostText host) (hport : PortText port)
      (hpos : number 10 port ≠ 0) (hs : s.toList = host ++ ':' :: port) :
      ∃ addr, SocketText s.toList addr ∧ addr.port ≠ 0 := by
    rcases hhost with ⟨ip, hip⟩ | ⟨t, rfl, ip, hip⟩
    · have htext := SocketText.v4 hip hport
      rw [← hs] at htext
      exact ⟨_, htext, hpos⟩
    · have htext := SocketText.v6 hip .none hport
      rw [List.append_nil] at htext
      refine ⟨.v6 ip (number 10 port) 0 0, ?_, hpos⟩
      rw [hs, List.append_assoc, List.singleton_append]
      exact htext
  constructor
  · rintro ⟨addr, htext, hport⟩
    generalize s.toList = cs at htext hsplit
    cases htext with
    | @v4 t port ip hip hds => exact hsplit (Or.inl ⟨ip, hip⟩) hds hport rfl
    | @v6 t z port ip scope_id hip hz hds =>
        cases hz with
        | none =>
            apply hsplit (Or.inr ⟨t, rfl, ip, hip⟩) hds hport
            rw [List.append_nil, List.append_assoc, List.singleton_append]
        | @index ds hindex => exact Or.inr (Or.inr ⟨t, ip, ds, port, hip, hindex, hds, hport, rfl⟩)
  · rintro (⟨host, port, hhost, hport, hs⟩ | ⟨host, port, hhost, hport, hpos, -, hs⟩ |
      ⟨t, ip, ds, port, hip, hindex, hport, hpos, hs⟩)
    · exact hjoin hhost hport.text hport.pos hs
    · exact hjoin hhost hport hpos hs
    · have htext := SocketText.v6 hip (.index hindex) hport
      rw [← hs] at htext
      exact ⟨_, htext, hpos⟩

/-- The sanitiser has no `%` among its characters. -/
theorem not_sanitised_index {s : String} (h : HasIndex s.toList) :
    ¬ is_dialable_socket_addr s = true := by
  obtain ⟨t, ip, ds, port, hip, hindex, hport, hpos, hs⟩ := h
  rw [is_dialable_iff]
  rintro ⟨host, port', hs', hport', hhost⟩
  have heq : ('[' :: t ++ '%' :: ds ++ [']']) ++ ':' :: port = host ++ ':' :: port' := by
    rw [← hs', hs, List.append_assoc _ [']'], List.singleton_append]
  obtain ⟨rfl, -⟩ := port_unique hport hport'.text heq
  rcases hhost with ⟨ip', hip'⟩ | ⟨t', ht', hliteral⟩
  · rw [List.append_assoc] at hip'
    exact not_ipv4_bracket hip'
  · rw [List.append_cancel_right_eq, List.cons_append, List.cons.injEq] at ht'
    rw [← ht'.2] at hliteral
    exact percent_notMem_literal hliteral (List.mem_append_right t List.mem_cons_self)

/-- The sanitiser reads no port of more than five digits. -/
theorem not_sanitised_longPort {s : String} (h : HasLongPort s.toList) :
    ¬ is_dialable_socket_addr s = true := by
  obtain ⟨host, port, hhost, hport, hpos, hlength, hs⟩ := h
  rw [is_dialable_iff]
  rintro ⟨host', port', hs', hport', -⟩
  obtain ⟨-, rfl⟩ := port_unique hport hport'.text (hs.symm.trans hs')
  have hle := hport'.length
  omega

/-- The parser of the standard library wants a dotted group at the end. -/
theorem not_dialed_dottedFront {debug : String → String} {s : String} (h : HasDottedFront s.toList) :
    ¬ (parse_direct_addrs debug (some [s])).isOk = true := by
  obtain ⟨t, port, ht, hport, hs⟩ := h
  rw [parse_direct_addrs_isOk]
  rintro ⟨addr, htext, -⟩
  generalize s.toList = cs at hs htext
  have hjoin (a b : List Char) : a ++ ']' :: ':' :: b = a ++ [']'] ++ ':' :: b := by
    rw [List.append_assoc, List.singleton_append]
  cases htext with
  | @v4 t' port' ip hip hport' =>
      rw [hjoin] at hs
      obtain ⟨rfl, -⟩ := port_unique hport' hport.text hs
      exact not_ipv4_bracket hip
  | @v6 t' z port' ip scope_id hip hz hport' =>
      rw [hjoin, hjoin] at hs
      obtain ⟨heq, -⟩ := port_unique hport' hport.text hs
      rw [List.append_cancel_right_eq, List.cons_append, List.cons.injEq] at heq
      obtain ⟨-, rfl⟩ := heq
      cases hz with
      | none =>
          rw [List.append_nil] at ht
          exact not_ipv6_dottedFront hip ht
      | index hindex =>
          exact percent_notMem_literal (Or.inr ht) (List.mem_append_right t' List.mem_cons_self)

/-- **The sanitiser and the dialer agree** on a text but for an interface index, a port of more
than five digits, and an IPv4 address in front of `::`. -/
theorem sanitiser_matches_dialer (debug : String → String) (s : String) :
    (is_dialable_socket_addr s = true ↔ (parse_direct_addrs debug (some [s])).isOk = true) ↔
      ¬ HasIndex s.toList ∧ ¬ HasLongPort s.toList ∧ ¬ HasDottedFront s.toList := by
  constructor
  · intro hsame
    refine ⟨fun h => ?_, fun h => ?_, fun h => ?_⟩
    · exact not_sanitised_index h (hsame.mpr (dialed_iff.mpr (Or.inr (Or.inr h))))
    · exact not_sanitised_longPort h (hsame.mpr (dialed_iff.mpr (Or.inr (Or.inl h))))
    · exact not_dialed_dottedFront h (hsame.mp (sanitised_iff.mpr (Or.inr h)))
  · rintro ⟨hindex, hport, hfront⟩
    rw [sanitised_iff, dialed_iff, or_iff_left hfront, or_iff_left]
    rintro (h | h)
    · exact hport h
    · exact hindex h

/-- One text of each kind. -/
theorem sanitiser_differs :
    ¬ (is_dialable_socket_addr "[fe80::1%5]:443" = true ↔
        (parse_direct_addrs id (some ["[fe80::1%5]:443"])).isOk = true) ∧
      ¬ (is_dialable_socket_addr "192.168.1.5:000443" = true ↔
        (parse_direct_addrs id (some ["192.168.1.5:000443"])).isOk = true) ∧
      ¬ (is_dialable_socket_addr "[64:1.2.3.4::]:443" = true ↔
        (parse_direct_addrs id (some ["[64:1.2.3.4::]:443"])).isOk = true) := by
  decide

end IrohHttp.Discovery
