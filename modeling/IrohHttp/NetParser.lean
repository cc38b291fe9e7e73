/-
Socket addresses from text: `core::net::parser` of the standard library, with which
`str::parse` makes a `SocketAddr`.

The parser works on bytes and takes only ASCII characters, so it is the same on
characters. A reading function returns what is left of the text, and a failed one leaves
the text as it was, which is `read_atomically`.

`SocketText` is the grammar: four octets, or groups of sixteen bits of which one `::` may
stand for the zeroes and the last two may be four octets. `parse_socket_addr_eq_some` says
that the parser reads exactly this, and `parse_to_string` that it reads what `Display`
writes.
-/
import IrohHttp.Digits
import IrohHttp.PeerService

set_option autoImplicit false

open Digits

namespace IrohHttp.Discovery

/-! ## The parser -/

/-- `read_given_char` -/
def read_given_char (target : Char) : List Char → Option (List Char)
  | [] => none
  | c :: cs => if c = target then some cs else none

/-- The separator goes in front of every item but the first. -/
def read_separator {α : Type} (separator : Char) (index : ℕ)
    (inner : List Char → Option (α × List Char)) (cs : List Char) : Option (α × List Char) :=
  if 0 < index then (read_given_char separator cs).bind inner else inner cs

/-- No octal numbers in an address: no zero in front. -/
def read_octet : List Char → Option (ℕ × List Char) := read_number 255 10 (some 3) false

/-- `read_number(16, Some(4), true)` of a group. -/
def read_group : List Char → Option (ℕ × List Char) := read_number 0xffff 16 (some 4) true

/-- Big endian. -/
def from_groups (base : ℕ) (groups : List ℕ) : ℕ :=
  groups.foldl (fun ip group => ip * base + group) 0

/-- The loop of `read_ipv4_addr`, with the octets so far. -/
def read_octets : ℕ → List ℕ → List Char → Option (List ℕ × List Char)
  | 0, octets, cs => some (octets, cs)
  | remaining + 1, octets, cs =>
    (read_separator '.' octets.length read_octet cs).bind fun read =>
      read_octets remaining (octets ++ [read.1]) read.2

/-- `read_ipv4_addr` -/
def read_ipv4_addr (cs : List Char) : Option (ℕ × List Char) :=
  (read_octets 4 [] cs).map fun read => (from_groups 256 read.1, read.2)

/-- `read_groups`, with the groups so far and whether they end in an IPv4 address. -/
def read_groups : ℕ → List ℕ → List Char → List ℕ × Bool × List Char
  | 0, groups, cs => (groups, false, cs)
  | remaining + 1, groups, cs =>
    -- an IPv4 address takes the place of two groups
    match if 0 < remaining then read_separator ':' groups.length read_ipv4_addr cs else none with
    | some (ip, cs) => (groups ++ [ip / 2 ^ 16, ip % 2 ^ 16], true, cs)
    | none =>
      match read_separator ':' groups.length read_group cs with
      | some (group, cs) => read_groups remaining (groups ++ [group]) cs
      | none => (groups, false, cs)

/-- `read_ipv6_addr`: eight groups, or what stands on both sides of `::`. -/
def read_ipv6_addr (cs : List Char) : Option (ℕ × List Char) :=
  let head := read_groups 8 [] cs
  if head.1.length = 8 then some (from_groups (2 ^ 16) head.1, head.2.2)
  -- no IPv4 address in front of `::`
  else if head.2.1 then none
  else
    ((read_given_char ':' head.2.2).bind (read_given_char ':')).map fun cs =>
      -- the `::` stands for one group of zeroes at least
      let tail := read_groups (8 - (head.1.length + 1)) [] cs
      (from_groups (2 ^ 16)
        (head.1 ++ List.replicate (8 - head.1.length - tail.1.length) 0 ++ tail.1), tail.2.2)

/-- `read_port` -/
def read_port (cs : List Char) : Option (ℕ × List Char) :=
  (read_given_char ':' cs).bind (read_number 0xffff 10 none true)

/-- `read_scope_id` -/
def read_scope_id (cs : List Char) : Option (ℕ × List Char) :=
  (read_given_char '%' cs).bind (read_number 0xffffffff 10 none true)

/-- `read_socket_addr_v4` -/
def read_socket_addr_v4 (cs : List Char) : Option (SocketAddr × List Char) :=
  (read_ipv4_addr cs).bind fun ip =>
    (read_port ip.2).map fun port => (.v4 ip.1 port.1, port.2)

/-- `read_socket_addr_v6`: the flow label is not written. -/
def read_socket_addr_v6 (cs : List Char) : Option (SocketAddr × List Char) :=
  (read_given_char '[' cs).bind fun cs =>
    (read_ipv6_addr cs).bind fun ip =>
      let scope := (read_scope_id ip.2).getD (0, ip.2)
      (read_given_char ']' scope.2).bind fun cs =>
        (read_port cs).map fun port => (.v6 ip.1 port.1 0 scope.1, port.2)

/-- `read_socket_addr` -/
def read_socket_addr (cs : List Char) : Option (SocketAddr × List Char) :=
  (read_socket_addr_v4 cs).or (read_socket_addr_v6 cs)

/-- `str::parse`: the whole text. -/
def parse_socket_addr (s : String) : Option SocketAddr :=
  match read_socket_addr s.toList with
  | some (addr, []) => some addr
  | _ => none

/-! ## The grammar -/

/-- The text of an octet: one to three digits, no leading zero. -/
def OctetText (o : List Char) (n : ℕ) : Prop := Numeral 255 10 (some 3) false o ∧ n = number 10 o

/-- The text of a group: one to four hexadecimal digits. -/
def GroupText (g : List Char) (n : ℕ) : Prop := Numeral 0xffff 16 (some 4) true g ∧ n = number 16 g

/-- Four octets. -/
def Ipv4Text (t : List Char) (ip : ℕ) : Prop :=
  ∃ os ns, List.Forall₂ OctetText os ns ∧ os.length = 4 ∧ t = ['.'].intercalate os ∧
    ip = from_groups 256 ns

/-- Groups between colons, the last two of which may be an IPv4 address. `dotted` tells. -/
inductive GroupsText : Bool → List (List Char) → List ℕ → Prop
  | nil : GroupsText false [] []
  | dotted {t : List Char} {ip : ℕ} : Ipv4Text t ip → GroupsText true [t] [ip / 2 ^ 16, ip % 2 ^ 16]
  | cons {dotted : Bool} {g : List Char} {n : ℕ} {ps : List (List Char)} {ns : List ℕ} :
    GroupText g n → GroupsText dotted ps ns → GroupsText dotted (g :: ps) (n :: ns)

/-- The text of an IPv6 address. -/
inductive Ipv6Text : List Char → ℕ → Prop
  | full {dotted : Bool} {ps : List (List Char)} {ns : List ℕ} :
    GroupsText dotted ps ns → ns.length = 8 → Ipv6Text ([':'].intercalate ps) (from_groups (2 ^ 16) ns)
  | compressed {dotted : Bool} {hs ps : List (List Char)} {hns ns : List ℕ} :
    GroupsText false hs hns → GroupsText dotted ps ns → hns.length + ns.length ≤ 7 →
    Ipv6Text ([':'].intercalate hs ++ ':' :: ':' :: [':'].intercalate ps)
      (from_groups (2 ^ 16) (hns ++ List.replicate (8 - hns.length - ns.length) 0 ++ ns))

/-- An interface index behind `%`, or nothing. -/
inductive ScopeText : List Char → ℕ → Prop
  | none : ScopeText [] 0
  | index {ds : List Char} : Numeral 0xffffffff 10 none true ds → ScopeText ('%' :: ds) (number 10 ds)

/-- The text of a port, leading zeros and all. -/
def PortText (ds : List Char) : Prop := Numeral 0xffff 10 none true ds

/-- The text of a socket address. -/
inductive SocketText : List Char → SocketAddr → Prop
  | v4 {t ds : List Char} {ip : ℕ} : Ipv4Text t ip → PortText ds →
    SocketText (t ++ ':' :: ds) (.v4 ip (number 10 ds))
  | v6 {t z ds : List Char} {ip scope_id : ℕ} : Ipv6Text t ip → ScopeText z scope_id → PortText ds →
    SocketText ('[' :: t ++ z ++ ']' :: ':' :: ds) (.v6 ip (number 10 ds) 0 scope_id)

/-! ## Items between separators -/

/-- What is left to read of a text of items, after the first `index` of them. -/
def joined (separator : Char) (index : ℕ) (ps : List (List Char)) : List Char :=
  if index = 0 then [separator].intercalate ps else ps.flatMap (separator :: ·)

/-- The separator stands in front of each piece but the first. -/
theorem intercalate_cons_eq_flatMap (separator : Char) (p : List Char) (ps : List (List Char)) :
    [separator].intercalate (p :: ps) = p ++ ps.flatMap (separator :: ·) := by
  induction ps generalizing p with
  | nil => rw [List.intercalate_singleton, List.flatMap_nil, List.append_nil]
  | cons q ps ih =>
      rw [List.intercalate_cons_cons, ih, List.flatMap_cons, List.append_assoc]
      rfl

@[simp] theorem joined_zero (separator : Char) (ps : List (List Char)) :
    joined separator 0 ps = [separator].intercalate ps := rfl

@[simp] theorem joined_nil (separator : Char) (index : ℕ) : joined separator index [] = [] := by
  unfold joined
  split
  · exact List.intercalate_nil
  · rfl

/-- The pieces from the index on. -/
theorem joined_cons (separator : Char) (index : ℕ) (p : List Char) (ps : List (List Char)) :
    joined separator index (p :: ps)
      = (if 0 < index then [separator] else []) ++ p ++ joined separator (index + 1) ps := by
  have hsucc : joined separator (index + 1) ps = ps.flatMap (separator :: ·) :=
    if_neg (Nat.succ_ne_zero index)
  rw [hsucc]
  cases index with
  | zero => exact intercalate_cons_eq_flatMap separator p ps
  | succ index => rfl

/-- One character is read. -/
theorem read_given_char_eq_some {target : Char} {cs rest : List Char} :
    read_given_char target cs = some rest ↔ cs = target :: rest := by
  cases cs with
  | nil => simp only [read_given_char, reduceCtorEq]
  | cons c cs =>
      rw [read_given_char, List.cons.injEq]
      split
      · next heq => simp only [Option.some.injEq, heq, true_and]
      · next hne => simp only [reduceCtorEq, hne, false_and]

/-- A piece is read behind its separator. -/
theorem read_separator_eq_some {α : Type} {separator : Char} {index : ℕ}
    {inner : List Char → Option (α × List Char)} {cs : List Char} {read : α × List Char} :
    read_separator separator index inner cs = some read ↔
      ∃ cs', cs = (if 0 < index then [separator] else []) ++ cs' ∧ inner cs' = some read := by
  unfold read_separator
  split
  · rw [Option.bind_eq_some_iff]
    simp only [read_given_char_eq_some, List.singleton_append]
  · simp only [List.nil_append, exists_eq_left']

/-! ## IPv4 -/

/-- **An octet is read** exactly from its text. -/
theorem read_octet_eq_some {cs rest : List Char} {n : ℕ} :
    read_octet cs = some (n, rest) ↔ ∃ o, OctetText o n ∧ cs = o ++ rest ∧ Stops 10 rest := by
  rw [read_octet, read_number_eq_some (by omega)]
  simp only [OctetText, and_assoc]

/-- What is read are the texts of octets. -/
theorem read_octets_sound {remaining : ℕ} {octets octets' : List ℕ} {cs rest : List Char}
    (h : read_octets remaining octets cs = some (octets', rest)) :
    ∃ os ns, List.Forall₂ OctetText os ns ∧ os.length = remaining ∧ octets' = octets ++ ns ∧
      cs = joined '.' octets.length os ++ rest ∧ (0 < remaining → Stops 10 rest) := by
  induction remaining generalizing octets cs with
  | zero =>
      rw [read_octets, Option.some.injEq, Prod.mk.injEq] at h
      obtain ⟨rfl, rfl⟩ := h
      refine ⟨[], [], .nil, rfl, (List.append_nil octets).symm, ?_, fun hno => absurd hno (by omega)⟩
      rw [joined_nil, List.nil_append]
  | succ remaining ih =>
      rw [read_octets, Option.bind_eq_some_iff] at h
      obtain ⟨⟨n, cs₁⟩, hread, h⟩ := h
      obtain ⟨cs₂, rfl, hoctet⟩ := read_separator_eq_some.mp hread
      obtain ⟨o, ho, rfl, hstop⟩ := read_octet_eq_some.mp hoctet
      obtain ⟨os, ns, hos, hlength, rfl, hcs, hrest⟩ := ih h
      dsimp only at hcs
      rw [List.length_append, List.length_singleton] at hcs
      refine ⟨o :: os, n :: ns, .cons ho hos, ?_, ?_, ?_, fun _ => ?_⟩
      · rw [List.length_cons, hlength]
      · rw [List.append_assoc, List.singleton_append]
      · rw [joined_cons, hcs]
        simp only [List.append_assoc]
      · rcases Nat.eq_zero_or_pos remaining with hzero | hpos
        · rw [hzero] at hlength
          rw [List.length_eq_zero_iff.mp hlength, joined_nil, List.nil_append] at hcs
          rw [← hcs]
          exact hstop
        · exact hrest hpos

/-- The texts of octets are read. -/
theorem read_octets_complete {os : List (List Char)} {ns : List ℕ}
    (hos : List.Forall₂ OctetText os ns) (octets : List ℕ) {rest : List Char}
    (hrest : Stops 10 rest) :
    read_octets os.length octets (joined '.' octets.length os ++ rest)
      = some (octets ++ ns, rest) := by
  induction hos generalizing octets with
  | nil =>
      rw [joined_nil, List.nil_append, List.append_nil]
      rfl
  | @cons o n os ns ho hos ih =>
      have hstop : Stops 10 (joined '.' (octets.length + 1) os ++ rest) := by
        cases os with
        | nil =>
            rw [joined_nil, List.nil_append]
            exact hrest
        | cons o os =>
            rw [joined_cons, if_pos (Nat.succ_pos _), List.append_assoc, List.append_assoc,
              List.singleton_append, stops_cons]
            decide
      have hread : read_separator '.' octets.length read_octet
          (joined '.' octets.length (o :: os) ++ rest)
          = some (n, joined '.' (octets.length + 1) os ++ rest) := by
        rw [read_separator_eq_some]
        refine ⟨o ++ (joined '.' (octets.length + 1) os ++ rest), ?_,
          read_octet_eq_some.mpr ⟨o, ho, rfl, hstop⟩⟩
        rw [joined_cons]
        simp only [List.append_assoc]
      have hrec := ih (octets ++ [n])
      rw [List.length_append, List.length_singleton] at hrec
      rw [List.length_cons, read_octets, hread, Option.bind_some, hrec, List.append_assoc,
        List.singleton_append]

/-- **An IPv4 address is read** exactly from its text. -/
theorem read_ipv4_addr_eq_some {cs rest : List Char} {ip : ℕ} :
    read_ipv4_addr cs = some (ip, rest) ↔ ∃ t, Ipv4Text t ip ∧ cs = t ++ rest ∧ Stops 10 rest := by
  rw [read_ipv4_addr, Option.map_eq_some_iff]
  constructor
  · rintro ⟨⟨ns', rest'⟩, hread, hip⟩
    rw [Prod.mk.injEq] at hip
    obtain ⟨rfl, rfl⟩ := hip
    obtain ⟨os, ns, hos, hlength, rfl, rfl, hrest⟩ := read_octets_sound hread
    exact ⟨_, ⟨os, _, hos, hlength, rfl, rfl⟩, rfl, hrest (by omega)⟩
  · rintro ⟨t, ⟨os, ns, hos, hlength, rfl, rfl⟩, rfl, hrest⟩
    have hread := read_octets_complete hos [] hrest
    rw [hlength] at hread
    exact ⟨_, hread, rfl⟩

/-- An IPv4 address begins with an octet and a dot. -/
theorem Ipv4Text.exists_octet {t : List Char} {ip : ℕ} (h : Ipv4Text t ip) :
    ∃ o n rest, OctetText o n ∧ t = o ++ '.' :: rest := by
  obtain ⟨os, ns, hos, hlength, rfl, -⟩ := h
  cases hos with
  | nil => cases hlength
  | @cons o n os ns ho hos =>
      cases hos with
      | nil => cases hlength
      | @cons o' n' os ns ho' hos =>
          refine ⟨o, n, o' ++ os.flatMap ('.' :: ·), ho, ?_⟩
          rw [intercalate_cons_eq_flatMap, List.flatMap_cons]
          rfl

/-! ## Groups -/

theorem is_digit_hex {c : Char} (h : is_digit 10 c = true) : is_digit 16 c = true := by
  rw [is_digit, Option.isSome_iff_exists] at h ⊢
  obtain ⟨n, hn⟩ := h
  refine ⟨n, ?_⟩
  unfold to_digit at hn ⊢
  rw [Option.filter_eq_some_iff] at hn ⊢
  have hlt := of_decide_eq_true hn.2
  exact ⟨hn.1, decide_eq_true (by omega)⟩

/-- Where hexadecimal digits stop decimal ones do. -/
theorem stops_decimal {rest : List Char} (h : Stops 16 rest) : Stops 10 rest := by
  intro c hc
  have hno := h c hc
  rw [Bool.eq_false_iff] at hno ⊢
  exact fun hyes => hno (is_digit_hex hyes)

/-- **A group is read** exactly from its text. -/
theorem read_group_eq_some {cs rest : List Char} {n : ℕ} :
    read_group cs = some (n, rest) ↔ ∃ g, GroupText g n ∧ cs = g ++ rest ∧ Stops 16 rest := by
  rw [read_group, read_number_eq_some (by omega)]
  simp only [GroupText, and_assoc]

/-- Neither a group nor an IPv4 address goes on here. -/
structure Ends (rest : List Char) : Prop where
  stops : Stops 16 rest
  no_dot : rest.head? ≠ some '.'
  no_group : ∀ cs, rest = ':' :: cs → Stops 16 cs

theorem numeral_append_stops {max radix : ℕ} {max_digits : Option ℕ} { allow_zero_prefix : Bool}
    {ds rest : List Char} (h : Numeral max radix max_digits allow_zero_prefix ds) :
    ¬ Stops radix (ds ++ rest) := by
  intro hstop
  cases ds with
  | nil => exact h.ne_nil rfl
  | cons c ds =>
      have hyes := h.digits c List.mem_cons_self
      rw [List.cons_append, stops_cons] at hstop
      rw [hstop] at hyes
      cases hyes

/-- No group is read where no digit is. -/
theorem read_group_stops {cs : List Char} (h : Stops 16 cs) : read_group cs = none := by
  rw [Option.eq_none_iff_forall_ne_some]
  rintro ⟨n, rest⟩ hread
  obtain ⟨g, hg, rfl, -⟩ := read_group_eq_some.mp hread
  exact numeral_append_stops hg.1 h

theorem read_ipv4_addr_stops {cs : List Char} (h : Stops 16 cs) : read_ipv4_addr cs = none := by
  rw [Option.eq_none_iff_forall_ne_some]
  rintro ⟨ip, rest⟩ hread
  obtain ⟨t, ht, rfl, -⟩ := read_ipv4_addr_eq_some.mp hread
  obtain ⟨o, n, rest', ho, rfl⟩ := ht.exists_octet
  have hstop := stops_decimal h
  rw [List.append_assoc] at hstop
  exact numeral_append_stops ho.1 hstop

/-- A group that no dot follows is not the first octet of an address. -/
theorem read_ipv4_addr_group {g rest : List Char} {n : ℕ} (hg : GroupText g n) (hrest : Stops 16 rest)
    (hdot : rest.head? ≠ some '.') : read_ipv4_addr (g ++ rest) = none := by
  rw [Option.eq_none_iff_forall_ne_some]
  rintro ⟨ip, rest'⟩ hread
  obtain ⟨t, ht, heq, -⟩ := read_ipv4_addr_eq_some.mp hread
  obtain ⟨o, n', more, ho, rfl⟩ := ht.exists_octet
  rw [List.append_assoc, List.cons_append] at heq
  have hdigits : ∀ c ∈ o, is_digit 16 c = true := fun c hc => is_digit_hex (ho.1.digits c hc)
  have hstop : Stops 16 ('.' :: (more ++ rest')) := stops_cons.mpr (by decide)
  obtain ⟨-, hmore⟩ := append_eq_append hg.1.digits hdigits hrest hstop heq
  rw [hmore] at hdot
  exact hdot rfl

/-- The groups end where neither a separator nor a digit follows. -/
theorem read_separator_ends {α : Type} {index : ℕ} {inner : List Char → Option (α × List Char)}
    (hinner : ∀ cs, Stops 16 cs → inner cs = none) {rest : List Char} (hrest : Ends rest) :
    read_separator ':' index inner rest = none := by
  rw [Option.eq_none_iff_forall_ne_some]
  intro read hread
  obtain ⟨cs, hcs, hread⟩ := read_separator_eq_some.mp hread
  split at hcs
  · rw [hinner cs (hrest.no_group cs hcs)] at hread
    cases hread
  · rw [List.nil_append] at hcs
    rw [hinner cs (hcs ▸ hrest.stops)] at hread
    cases hread

/-- What is read are the texts of groups. -/
theorem read_groups_sound {remaining : ℕ} {groups groups' : List ℕ} {dotted : Bool}
    {cs rest : List Char} (h : read_groups remaining groups cs = (groups', dotted, rest)) :
    ∃ ps ns, GroupsText dotted ps ns ∧ ns.length ≤ remaining ∧ groups' = groups ++ ns ∧
      cs = joined ':' groups.length ps ++ rest := by
  have hnil {remaining : ℕ} {groups : List ℕ} {cs : List Char}
      (h : (groups, false, cs) = (groups', dotted, rest)) :
      ∃ ps ns, GroupsText dotted ps ns ∧ ns.length ≤ remaining ∧ groups' = groups ++ ns ∧
        cs = joined ':' groups.length ps ++ rest := by
    rw [Prod.mk.injEq, Prod.mk.injEq] at h
    obtain ⟨rfl, rfl, rfl⟩ := h
    refine ⟨[], [], .nil, Nat.zero_le _, (List.append_nil groups).symm, ?_⟩
    rw [joined_nil, List.nil_append]
  induction remaining generalizing groups cs with
  | zero => exact hnil h
  | succ remaining ih =>
      rw [read_groups] at h
      split at h
      · next ip cs' hread =>
        split at hread
        case isFalse => cases hread
        next hpos =>
        obtain ⟨cs₂, rfl, hipv4⟩ := read_separator_eq_some.mp hread
        obtain ⟨t, ht, rfl, -⟩ := read_ipv4_addr_eq_some.mp hipv4
        rw [Prod.mk.injEq, Prod.mk.injEq] at h
        obtain ⟨rfl, rfl, rfl⟩ := h
        refine ⟨[t], [ip / 2 ^ 16, ip % 2 ^ 16], .dotted ht, ?_, rfl, ?_⟩
        · show 2 ≤ remaining + 1
          omega
        · rw [joined_cons, joined_nil, List.append_nil, List.append_assoc]
      · split at h
        · next group cs' hread =>
          obtain ⟨cs₂, rfl, hgroup⟩ := read_separator_eq_some.mp hread
          obtain ⟨g, hg, rfl, -⟩ := read_group_eq_some.mp hgroup
          obtain ⟨ps, ns, hps, hle, rfl, hcs⟩ := ih h
          rw [List.length_append, List.length_singleton] at hcs
          refine ⟨g :: ps, group :: ns, .cons hg hps, ?_, ?_, ?_⟩
          · rw [List.length_cons]
            omega
          · rw [List.append_assoc, List.singleton_append]
          · rw [joined_cons, hcs]
            simp only [List.append_assoc]
        · exact hnil h

/-- The texts of groups are read. -/
theorem read_groups_complete {dotted : Bool} {ps : List (List Char)} {ns : List ℕ}
    (h : GroupsText dotted ps ns) (remaining : ℕ) (groups : List ℕ) {rest : List Char}
    (hle : ns.length ≤ remaining) (hrest : Ends rest) :
    read_groups remaining groups (joined ':' groups.length ps ++ rest)
      = (groups ++ ns, dotted, rest) := by
  induction h generalizing remaining groups with
  | nil =>
      rw [joined_nil, List.nil_append, List.append_nil]
      cases remaining with
      | zero => rfl
      | succ remaining =>
          rw [read_groups, read_separator_ends (fun cs => read_ipv4_addr_stops) hrest, ite_self,
            read_separator_ends (fun cs => read_group_stops) hrest]
  | @dotted t ip ht =>
      obtain ⟨remaining, rfl⟩ : ∃ r, remaining = r + 1 := ⟨remaining - 1, by
        rw [List.length_cons] at hle
        omega⟩
      have hpos : 0 < remaining := by
        simp only [List.length_cons, List.length_nil] at hle
        omega
      have hread : read_separator ':' groups.length read_ipv4_addr
          (joined ':' groups.length [t] ++ rest) = some (ip, rest) := by
        rw [read_separator_eq_some]
        refine ⟨t ++ rest, ?_,
          read_ipv4_addr_eq_some.mpr ⟨t, ht, rfl, stops_decimal hrest.stops⟩⟩
        rw [joined_cons, joined_nil, List.append_nil, List.append_assoc]
      rw [read_groups, if_pos hpos, hread]
  | @cons dotted g n ps ns hg hps ih =>
      rw [List.length_cons] at hle
      obtain ⟨remaining, rfl⟩ : ∃ r, remaining = r + 1 := ⟨remaining - 1, by omega⟩
      -- what follows the group is a colon or the end
      have hnext : Stops 16 (joined ':' (groups.length + 1) ps ++ rest) ∧
          (joined ':' (groups.length + 1) ps ++ rest).head? ≠ some '.' := by
        cases ps with
        | nil =>
            rw [joined_nil, List.nil_append]
            exact ⟨hrest.stops, hrest.no_dot⟩
        | cons p ps =>
            rw [joined_cons, if_pos (Nat.succ_pos _), List.append_assoc, List.append_assoc,
              List.singleton_append, stops_cons, List.head?_cons]
            decide
      have htext : joined ':' groups.length (g :: ps) ++ rest
          = (if 0 < groups.length then [':'] else []) ++
            (g ++ (joined ':' (groups.length + 1) ps ++ rest)) := by
        rw [joined_cons]
        simp only [List.append_assoc]
      have hipv4 : read_separator ':' groups.length read_ipv4_addr
          (joined ':' groups.length (g :: ps) ++ rest) = none := by
        rw [Option.eq_none_iff_forall_ne_some]
        intro read hread
        obtain ⟨cs, hcs, hread⟩ := read_separator_eq_some.mp hread
        rw [htext, List.append_cancel_left_eq] at hcs
        rw [← hcs, read_ipv4_addr_group hg hnext.1 hnext.2] at hread
        cases hread
      have hgroup : read_separator ':' groups.length read_group
          (joined ':' groups.length (g :: ps) ++ rest)
          = some (n, joined ':' (groups.length + 1) ps ++ rest) :=
        read_separator_eq_some.mpr ⟨_, htext, read_group_eq_some.mpr ⟨g, hg, rfl, hnext.1⟩⟩
      have hrec := ih remaining (groups ++ [n]) (Nat.le_of_succ_le_succ hle)
      rw [List.length_append, List.length_singleton, List.append_assoc, List.singleton_append] at hrec
      rw [read_groups, hipv4, ite_self, hgroup]
      exact hrec

/-! ## IPv6 -/

/-- **What is read is an IPv6 address.** -/
theorem read_ipv6_addr_sound {cs rest : List Char} {ip : ℕ}
    (h : read_ipv6_addr cs = some (ip, rest)) : ∃ t, Ipv6Text t ip ∧ cs = t ++ rest := by
  obtain ⟨head, dotted, cs₁, hhead⟩ : ∃ head dotted cs₁, read_groups 8 [] cs = (head, dotted, cs₁) :=
    ⟨_, _, _, rfl⟩
  obtain ⟨hs, _, hhs, hle, rfl, rfl⟩ := read_groups_sound hhead
  simp only [read_ipv6_addr, hhead] at h
  split at h
  · next hfull =>
    rw [Option.some.injEq, Prod.mk.injEq] at h
    obtain ⟨rfl, rfl⟩ := h
    exact ⟨_, .full hhs hfull, rfl⟩
  next hfull =>
  split at h
  · cases h
  next hdotted =>
  rw [Bool.not_eq_true] at hdotted
  subst hdotted
  rw [Option.map_eq_some_iff] at h
  obtain ⟨cs₂, hcolons, h⟩ := h
  rw [Option.bind_eq_some_iff] at hcolons
  obtain ⟨cs₃, hfirst, hsecond⟩ := hcolons
  rw [read_given_char_eq_some] at hfirst hsecond
  subst hfirst hsecond
  obtain ⟨tail, dotted, cs₄, htail⟩ : ∃ tail dotted cs₄,
      read_groups (8 - (head.length + 1)) [] cs₂ = (tail, dotted, cs₄) := ⟨_, _, _, rfl⟩
  rw [htail] at h
  dsimp only at h
  rw [Prod.mk.injEq] at h
  obtain ⟨rfl, rfl⟩ := h
  obtain ⟨ps, _, hps, htaille, rfl, rfl⟩ := read_groups_sound htail
  refine ⟨_, .compressed hhs hps (by omega), ?_⟩
  simp only [List.length_nil, joined_zero, List.append_assoc, List.cons_append]

theorem ends_colons (rest : List Char) : Ends (':' :: ':' :: rest) := by
  refine ⟨stops_cons.mpr (by decide), ?_, ?_⟩
  · rw [List.head?_cons]
    decide
  · intro cs hcs
    rw [List.cons.injEq] at hcs
    rw [← hcs.2]
    exact stops_cons.mpr (by decide)

/-- **An IPv6 address is read** where nothing of it follows. -/
theorem read_ipv6_addr_complete {t rest : List Char} {ip : ℕ} (h : Ipv6Text t ip)
    (hrest : Ends rest) : read_ipv6_addr (t ++ rest) = some (ip, rest) := by
  cases h with
  | @full dotted ps ns hps hlength =>
      have hread := read_groups_complete hps 8 [] (Nat.le_of_eq hlength) hrest
      rw [List.length_nil, joined_zero, List.nil_append] at hread
      simp only [read_ipv6_addr, hread, hlength, if_true]
  | @compressed dotted hs ps hns ns hhs hps hle =>
      have hhead := read_groups_complete hhs 8 [] (by omega)
        (ends_colons ([':'].intercalate ps ++ rest))
      have htail := read_groups_complete hps (8 - (hns.length + 1)) [] (by omega) hrest
      rw [List.length_nil, joined_zero, List.nil_append] at hhead htail
      have hfull : ¬ hns.length = 8 := by omega
      simp only [read_ipv6_addr, List.append_assoc, List.cons_append, hhead, if_neg hfull,
        Bool.false_eq_true, if_false, read_given_char, if_true, Option.bind_some, Option.map_some,
        htail]

/-! ## Socket addresses -/

/-- A port is read exactly from its text. -/
theorem read_port_eq_some {cs rest : List Char} {port : ℕ} :
    read_port cs = some (port, rest) ↔
      ∃ ds, PortText ds ∧ port = number 10 ds ∧ cs = ':' :: ds ++ rest ∧ Stops 10 rest := by
  rw [read_port, Option.bind_eq_some_iff]
  simp only [read_given_char_eq_some, read_number_eq_some (show 0 < 10 by omega), PortText]
  constructor
  · rintro ⟨cs', rfl, ds, hds, rfl, rfl, hrest⟩
    exact ⟨ds, hds, rfl, rfl, hrest⟩
  · rintro ⟨ds, hds, rfl, rfl, hrest⟩
    exact ⟨ds ++ rest, rfl, ds, hds, rfl, rfl, hrest⟩

/-- An interface index is read exactly from its text. -/
theorem read_scope_id_eq_some {cs rest : List Char} {scope_id : ℕ} :
    read_scope_id cs = some (scope_id, rest) ↔ ∃ ds, Numeral 0xffffffff 10 none true ds ∧
      scope_id = number 10 ds ∧ cs = '%' :: ds ++ rest ∧ Stops 10 rest := by
  rw [read_scope_id, Option.bind_eq_some_iff]
  simp only [read_given_char_eq_some, read_number_eq_some (show 0 < 10 by omega)]
  constructor
  · rintro ⟨cs', rfl, ds, hds, rfl, rfl, hrest⟩
    exact ⟨ds, hds, rfl, rfl, hrest⟩
  · rintro ⟨ds, hds, rfl, rfl, hrest⟩
    exact ⟨ds ++ rest, rfl, ds, hds, rfl, rfl, hrest⟩

/-- An IPv4 socket address is read exactly from its text. -/
theorem read_socket_addr_v4_eq_some {cs rest : List Char} {addr : SocketAddr} :
    read_socket_addr_v4 cs = some (addr, rest) ↔ ∃ t ip ds, Ipv4Text t ip ∧ PortText ds ∧
      addr = .v4 ip (number 10 ds) ∧ cs = t ++ ':' :: ds ++ rest ∧ Stops 10 rest := by
  simp only [read_socket_addr_v4, Option.bind_eq_some_iff, Option.map_eq_some_iff, Prod.exists,
    read_ipv4_addr_eq_some, read_port_eq_some, Prod.mk.injEq]
  constructor
  · rintro ⟨ip, cs', ⟨t, ht, rfl, -⟩, port, rest', ⟨ds, hds, rfl, rfl, hrest⟩, rfl, rfl⟩
    exact ⟨t, ip, ds, ht, hds, rfl, by rw [List.append_assoc], hrest⟩
  · rintro ⟨t, ip, ds, ht, hds, rfl, rfl, hrest⟩
    refine ⟨ip, ':' :: ds ++ rest, ⟨t, ht, by rw [List.append_assoc], ?_⟩, number 10 ds, rest,
      ⟨ds, hds, rfl, rfl, hrest⟩, rfl, rfl⟩
    exact stops_cons.mpr (by decide)

/-- What is read is an IPv6 socket address. -/
theorem read_socket_addr_v6_sound {cs rest : List Char} {addr : SocketAddr}
    (h : read_socket_addr_v6 cs = some (addr, rest)) : ∃ t ip z scope_id ds, Ipv6Text t ip ∧
      ScopeText z scope_id ∧ PortText ds ∧ addr = .v6 ip (number 10 ds) 0 scope_id ∧
      cs = '[' :: t ++ z ++ ']' :: ':' :: ds ++ rest := by
  simp only [read_socket_addr_v6, Option.bind_eq_some_iff, Option.map_eq_some_iff, Prod.exists,
    read_given_char_eq_some, read_port_eq_some, Prod.mk.injEq] at h
  obtain ⟨cs₁, rfl, ip, cs₂, hip, cs₃, hclose, port, rest', ⟨ds, hds, rfl, rfl, -⟩, rfl, rfl⟩ := h
  obtain ⟨t, ht, rfl⟩ := read_ipv6_addr_sound hip
  cases hscope : read_scope_id cs₂ with
  | none =>
      rw [hscope, Option.getD_none] at hclose
      refine ⟨t, ip, [], 0, ds, ht, .none, hds, rfl, ?_⟩
      rw [show cs₂ = _ from hclose]
      simp only [List.append_assoc, List.cons_append, List.nil_append]
  | some scope =>
      obtain ⟨scope_id, cs₄⟩ := scope
      rw [hscope, Option.getD_some] at hclose
      obtain ⟨index, hindex, rfl, rfl, -⟩ := read_scope_id_eq_some.mp hscope
      refine ⟨t, ip, '%' :: index, number 10 index, ds, ht, .index hindex, hds, rfl, ?_⟩
      rw [show cs₄ = _ from hclose]
      simp only [List.append_assoc, List.cons_append]

theorem ends_cons {c : Char} {rest : List Char} (hdigit : is_digit 16 c = false) (hdot : c ≠ '.')
    (hcolon : c ≠ ':') : Ends (c :: rest) := by
  refine ⟨stops_cons.mpr hdigit, ?_, ?_⟩
  · rw [List.head?_cons, ne_eq, Option.some.injEq]
    exact hdot
  · intro cs hcs
    rw [List.cons.injEq] at hcs
    exact absurd hcs.1 hcolon

/-- An IPv6 socket address is read. -/
theorem read_socket_addr_v6_complete {t z ds rest : List Char} {ip scope_id : ℕ}
    (ht : Ipv6Text t ip) (hz : ScopeText z scope_id) (hds : PortText ds) (hrest : Stops 10 rest) :
    read_socket_addr_v6 ('[' :: t ++ z ++ ']' :: ':' :: ds ++ rest)
      = some (.v6 ip (number 10 ds) 0 scope_id, rest) := by
  have hport : read_port (':' :: ds ++ rest) = some (number 10 ds, rest) :=
    read_port_eq_some.mpr ⟨ds, hds, rfl, rfl, hrest⟩
  rw [List.cons_append] at hport
  have hclose : Ends (']' :: ':' :: ds ++ rest) := ends_cons (by decide) (by decide) (by decide)
  cases hz with
  | none =>
      have hip := read_ipv6_addr_complete ht hclose
      have hscope : read_scope_id (']' :: ':' :: ds ++ rest) = none := rfl
      simp only [List.cons_append, List.append_assoc, List.append_nil] at hip hscope ⊢
      simp only [read_socket_addr_v6, read_given_char, if_true, Option.bind_some, hip, hscope,
        Option.getD_none, hport, Option.map_some]
  | @index index hindex =>
      have hindexed : Ends ('%' :: (index ++ (']' :: ':' :: ds ++ rest))) :=
        ends_cons (by decide) (by decide) (by decide)
      have hip := read_ipv6_addr_complete ht hindexed
      have hscope : read_scope_id ('%' :: index ++ (']' :: ':' :: ds ++ rest))
          = some (number 10 index, ']' :: ':' :: ds ++ rest) :=
        read_scope_id_eq_some.mpr ⟨index, hindex, rfl, rfl, stops_cons.mpr (by decide)⟩
      simp only [List.cons_append, List.append_assoc] at hip hscope ⊢
      simp only [read_socket_addr_v6, read_given_char, if_true, Option.bind_some, hip, hscope,
        Option.getD_some, hport, Option.map_some]

/-- **The parser reads the grammar**, and nothing else. -/
theorem parse_socket_addr_eq_some {s : String} {addr : SocketAddr} :
    parse_socket_addr s = some addr ↔ SocketText s.toList addr := by
  have hparse : parse_socket_addr s = some addr ↔ read_socket_addr s.toList = some (addr, []) := by
    unfold parse_socket_addr
    split
    · next addr' hread =>
      rw [hread, Option.some.injEq, Option.some.injEq, Prod.mk.injEq, and_iff_left rfl]
    · next hno =>
      constructor
      · intro h
        cases h
      · intro h
        exact absurd h (hno addr)
  rw [hparse, read_socket_addr, Option.or_eq_some_iff]
  constructor
  · rintro (h | ⟨-, h⟩)
    · obtain ⟨t, ip, ds, ht, hds, rfl, hs, -⟩ := read_socket_addr_v4_eq_some.mp h
      rw [hs, List.append_nil]
      exact .v4 ht hds
    · obtain ⟨t, ip, z, scope_id, ds, ht, hz, hds, rfl, hs⟩ := read_socket_addr_v6_sound h
      rw [hs, List.append_nil]
      exact .v6 ht hz hds
  · intro h
    generalize s.toList = cs at h
    cases h with
    | @v4 t ds ip ht hds =>
        refine Or.inl (read_socket_addr_v4_eq_some.mpr
          ⟨t, ip, ds, ht, hds, rfl, by rw [List.append_nil], stops_nil 10⟩)
    | @v6 t z ds ip scope_id ht hz hds =>
        have hread := read_socket_addr_v6_complete ht hz hds (stops_nil 10)
        rw [List.append_nil] at hread
        refine Or.inr ⟨?_, hread⟩
        -- no digit in front
        have hipv4 : read_ipv4_addr ('[' :: t ++ z ++ ']' :: ':' :: ds) = none :=
          read_ipv4_addr_stops (stops_cons.mpr (by decide))
        rw [read_socket_addr_v4, hipv4, Option.bind_none]

/-! ## What `Display` writes -/

/-- The ranges of the fields. -/
def SocketAddr.InRange : SocketAddr → Prop
  | .v4 ip port => ip < 2 ^ 32 ∧ port < 2 ^ 16
  | .v6 ip port flowinfo scope_id =>
    ip < 2 ^ 128 ∧ port < 2 ^ 16 ∧ flowinfo < 2 ^ 32 ∧ scope_id < 2 ^ 32

/-- A text carries no flow information. -/
def SocketAddr.without_flowinfo : SocketAddr → SocketAddr
  | .v4 ip port => .v4 ip port
  | .v6 ip port _ scope_id => .v6 ip port 0 scope_id

/-- A number in range is written as a numeral. -/
theorem numeral_toDigits {max radix n : ℕ} {max_digits : Option ℕ} { allow_zero_prefix : Bool}
    (hradix : 1 < radix) (hle : radix ≤ 16) (hn : n ≤ max)
    (hlength : ∀ k, max_digits = some k → (Nat.toDigits radix n).length ≤ k) :
    Numeral max radix max_digits allow_zero_prefix (Nat.toDigits radix n) where
  digits := is_digit_of_mem_toDigits hradix hle n
  ne_nil := Nat.toDigits_ne_nil
  length := hlength
  zero := by
    intro _ hlt
    apply head_toDigits_ne_zero hradix
    by_contra hzero
    rw [Nat.eq_zero_of_not_pos hzero, Nat.toDigits_zero, List.length_singleton] at hlt
    omega
  le := by
    rw [number_toDigits hradix hle]
    exact hn

theorem octet_toDigits {n : ℕ} (hn : n < 2 ^ 8) : OctetText (Nat.toDigits 10 n) n := by
  refine ⟨numeral_toDigits (by omega) (by omega) (by omega) ?_,
    (number_toDigits (by omega) (by omega) n).symm⟩
  intro k hk
  rw [Option.some.injEq] at hk
  rw [← hk, Nat.length_toDigits_le_iff (by omega) (by omega)]
  omega

theorem group_toDigits {n : ℕ} (hn : n < 2 ^ 16) : GroupText (Nat.toDigits 16 n) n := by
  refine ⟨numeral_toDigits (by omega) (by omega) (by omega) ?_,
    (number_toDigits (by omega) (by omega) n).symm⟩
  intro k hk
  rw [Option.some.injEq] at hk
  rw [← hk, Nat.length_toDigits_le_iff (by omega) (by omega)]
  exact hn

theorem toList_toString (n : ℕ) : (toString n).toList = Nat.toDigits 10 n := by
  rw [Nat.toString_eq_repr, Nat.repr_eq_ofList_toDigits, String.toList_ofList]

/-- **The text that Rust writes** of an IPv4 address is one of its texts. -/
theorem ipv4Text_to_string (ip : ℕ) : Ipv4Text (ipv4_to_string ip).toList (ip % 2 ^ 32) := by
  refine ⟨[24, 16, 8, 0].map fun shift => Nat.toDigits 10 (ip / 2 ^ shift % 2 ^ 8),
    [24, 16, 8, 0].map fun shift => ip / 2 ^ shift % 2 ^ 8, ?_, rfl, ?_, ?_⟩
  · rw [List.forall₂_map_left_iff, List.forall₂_map_right_iff, List.forall₂_same]
    intro shift _
    exact octet_toDigits (Nat.mod_lt _ (by omega))
  · rw [ipv4_to_string, String.toList_intercalate, List.map_map]
    simp only [Function.comp_def, toList_toString]
    rfl
  · simp only [from_groups, List.map_cons, List.map_nil, List.foldl_cons, List.foldl_nil]
    omega

theorem toList_fmt_subslice (chunk : List ℕ) :
    (fmt_subslice chunk).toList = [':'].intercalate (chunk.map (Nat.toDigits 16)) := by
  rw [fmt_subslice, String.toList_intercalate, List.map_map]
  simp only [Function.comp_def, hex, String.toList_ofList]
  rfl

/-- Groups in digits are the texts of groups. -/
theorem groupsText_toDigits {chunk : List ℕ} (h : ∀ n ∈ chunk, n < 2 ^ 16) :
    GroupsText false (chunk.map (Nat.toDigits 16)) chunk := by
  induction chunk with
  | nil => exact .nil
  | cons n chunk ih =>
      exact .cons (group_toDigits (h n List.mem_cons_self))
        (ih fun m hm => h m (List.mem_cons_of_mem n hm))

theorem segments_lt (ip : ℕ) : ∀ n ∈ segments ip, n < 2 ^ 16 := by
  intro n hn
  obtain ⟨shift, -, rfl⟩ := List.mem_map.mp hn
  exact Nat.mod_lt _ (by omega)

/-- The segments are the address again. -/
theorem from_groups_segments {ip : ℕ} (hip : ip < 2 ^ 128) :
    from_groups (2 ^ 16) (segments ip) = ip := by
  simp only [from_groups, segments, List.map_cons, List.map_nil, List.foldl_cons, List.foldl_nil]
  omega

/-- A run of zeroes, with what is in front of it and behind it. -/
def Zeroes (segments : List ℕ) (span : Span) (after : List ℕ) : Prop :=
  ∃ before, segments = before ++ List.replicate span.len 0 ++ after ∧
    (0 < span.len → before.length = span.start)

/-- The current run, one zero longer. -/
theorem Zeroes.grow {pre : List ℕ} {span : Span} (h : Zeroes pre span []) :
    Zeroes (pre ++ [0])
      { start := if span.len = 0 then pre.length else span.start, len := span.len + 1 } [] := by
  obtain ⟨before, hpre, hstart⟩ := h
  rw [List.append_nil] at hpre
  refine ⟨before, ?_, fun _ => ?_⟩
  · rw [List.append_nil, List.replicate_succ', ← List.append_assoc, ← hpre]
  · dsimp only
    split
    · next hnone => rw [hpre, hnone, List.replicate_zero, List.append_nil]
    · next hsome => exact hstart (Nat.pos_of_ne_zero hsome)

/-- The loop keeps two runs of zeros in sight, the longest and the current one. -/
theorem zeroes_longest {all : List ℕ} (segments : List ℕ) {pre : List ℕ}
    (hall : all = pre ++ segments) {spans : Span × Span}
    (hlongest : ∃ after, Zeroes pre spans.1 after)
    (hcurrent : Zeroes pre spans.2 []) :
    ∃ after, Zeroes all ((segments.zipIdx pre.length).foldl (fun (spans : Span × Span) segment =>
      if segment.1 = 0 then
        let current : Span :=
          { start := if spans.2.len = 0 then segment.2 else spans.2.start, len := spans.2.len + 1 }
        (if spans.1.len < current.len then current else spans.1, current)
      else (spans.1, {})) spans).1 after := by
  induction segments generalizing pre spans with
  | nil =>
      rw [List.append_nil] at hall
      rw [hall]
      exact hlongest
  | cons n segments ih =>
      have hlonger : ∃ after, Zeroes (pre ++ [n]) spans.1 after := by
        obtain ⟨after, before, hpre, hstart⟩ := hlongest
        refine ⟨after ++ [n], before, ?_, hstart⟩
        nth_rewrite 1 [hpre]
        simp only [List.append_assoc]
      have hlength : (pre ++ [n]).length = pre.length + 1 := by
        rw [List.length_append, List.length_singleton]
      have hrest : all = pre ++ [n] ++ segments := by
        rw [hall, List.append_assoc, List.singleton_append]
      rw [List.zipIdx_cons, List.foldl_cons, ← hlength]
      by_cases hzero : n = 0
      · subst hzero
        rw [if_pos rfl]
        apply ih hrest
        · dsimp only
          split
          · exact ⟨[], hcurrent.grow⟩
          · exact hlonger
        · exact hcurrent.grow
      · rw [if_neg hzero]
        have hlongest' : ∃ after, Zeroes (pre ++ [n]) (spans.1, ({} : Span)).1 after := hlonger
        have hcurrent' : Zeroes (pre ++ [n]) (spans.1, ({} : Span)).2 [] := by
          refine ⟨pre ++ [n], ?_, fun hno => absurd hno (Nat.lt_irrefl 0)⟩
          rw [List.replicate_zero, List.append_nil, List.append_nil]
        exact ih hrest hlongest' hcurrent'

/-- What it finds is a run of zeros. -/
theorem longest_zeroes_zeroes (segments : List ℕ) :
    ∃ after, Zeroes segments (longest_zeroes segments) after := by
  have hnil : Zeroes [] {} [] := ⟨[], rfl, fun hno => absurd hno (Nat.lt_irrefl 0)⟩
  have hspans : Zeroes [] (({}, {}) : Span × Span).2 [] := hnil
  exact zeroes_longest segments rfl ⟨[], hnil⟩ hspans

/-- **The text that Rust writes** of an IPv6 address is one of its texts. -/
theorem ipv6Text_to_string {ip : ℕ} (hip : ip < 2 ^ 128) :
    Ipv6Text (ipv6_to_string ip).toList ip := by
  unfold ipv6_to_string
  split
  · next hmapped =>
    -- one group and an IPv4 address behind `::`
    have hps : GroupsText true [Nat.toDigits 16 0xffff, (ipv4_to_string ip).toList]
        [0xffff, ip % 2 ^ 32 / 2 ^ 16, ip % 2 ^ 32 % 2 ^ 16] :=
      .cons (group_toDigits (by omega)) (.dotted (ipv4Text_to_string ip))
    have htext := Ipv6Text.compressed .nil hps (by simp only [List.length_cons, List.length_nil]; omega)
    have hvalue : from_groups (2 ^ 16) ([] ++ List.replicate 5 0 ++
        [0xffff, ip % 2 ^ 32 / 2 ^ 16, ip % 2 ^ 32 % 2 ^ 16]) = ip := by
      simp only [from_groups, List.replicate_succ, List.replicate_zero, List.nil_append,
        List.cons_append, List.foldl_cons, List.foldl_nil]
      omega
    have hffff : Nat.toDigits 16 0xffff = ['f', 'f', 'f', 'f'] := by decide
    rw [List.intercalate_nil, List.intercalate_cons_cons, List.intercalate_singleton, hffff] at htext
    rw [String.toList_append]
    have hshow := hvalue ▸ htext
    exact hshow
  · dsimp only
    split
    · next hlen =>
      obtain ⟨after, before, hsegments, hstart⟩ := longest_zeroes_zeroes (segments ip)
      generalize longest_zeroes (segments ip) = span at *
      have hbefore := hstart (by omega)
      have hvalue := from_groups_segments hip
      have hlt := segments_lt ip
      have h8 : (segments ip).length = 8 := rfl
      rw [hsegments] at hvalue hlt h8
      simp only [List.length_append, List.length_replicate] at h8
      have htake : (segments ip).take span.start = before := by
        rw [hsegments, ← hbefore, List.append_assoc, List.take_left]
      have hdrop : (segments ip).drop (span.start + span.len) = after := by
        have hlength : before.length + span.len = (before ++ List.replicate span.len 0).length := by
          rw [List.length_append, List.length_replicate]
        rw [hsegments, ← hbefore, hlength, List.drop_left]
      have hhs := groupsText_toDigits fun n hn =>
        hlt n (List.mem_append_left _ (List.mem_append_left _ hn))
      have hps := groupsText_toDigits fun n hn => hlt n (List.mem_append_right _ hn)
      have htext := Ipv6Text.compressed hhs hps (by omega)
      have hcount : 8 - before.length - after.length = span.len := by omega
      rw [hcount, hvalue] at htext
      rw [htake, hdrop, String.toList_append, String.toList_append, toList_fmt_subslice,
        toList_fmt_subslice, List.append_assoc]
      exact htext
    · rw [toList_fmt_subslice]
      have htext := Ipv6Text.full (groupsText_toDigits (segments_lt ip)) rfl
      rw [from_groups_segments hip] at htext
      exact htext

theorem port_toDigits {port : ℕ} (h : port < 2 ^ 16) : PortText (Nat.toDigits 10 port) :=
  numeral_toDigits (by omega) (by omega) (by omega) fun k hno => (by cases hno)

/-- **A socket address reads back as itself**, but for the flow information. -/
theorem parse_to_string {a : SocketAddr} (h : a.InRange) :
    parse_socket_addr a.to_string = some a.without_flowinfo := by
  rw [parse_socket_addr_eq_some]
  cases a with
  | v4 ip port =>
      obtain ⟨hip, hport⟩ := h
      have htext := SocketText.v4 (ipv4Text_to_string ip) (port_toDigits hport)
      rw [number_toDigits (by omega) (by omega), Nat.mod_eq_of_lt hip] at htext
      simp only [SocketAddr.to_string, SocketAddr.without_flowinfo, String.toList_append,
        toList_toString, List.append_assoc]
      exact htext
  | v6 ip port flowinfo scope_id =>
      obtain ⟨hip, hport, -, hscope⟩ := h
      have hip6 := ipv6Text_to_string hip
      simp only [SocketAddr.to_string, SocketAddr.without_flowinfo]
      split
      · next hzero =>
        have htext := SocketText.v6 hip6 .none (port_toDigits hport)
        rw [number_toDigits (by omega) (by omega), List.append_nil] at htext
        rw [hzero]
        simp only [String.toList_append, toList_toString, List.append_assoc]
        exact htext
      · have hindex : Numeral 0xffffffff 10 none true (Nat.toDigits 10 scope_id) :=
          numeral_toDigits (by omega) (by omega) (by omega) fun k hno => (by cases hno)
        have htext := SocketText.v6 hip6 (.index hindex) (port_toDigits hport)
        rw [number_toDigits (by omega) (by omega), number_toDigits (by omega) (by omega)] at htext
        simp only [String.toList_append, toList_toString, List.append_assoc]
        simp only [List.append_assoc, List.cons_append] at htext
        exact htext

/-! ## The characters of a text -/

/-- The characters of a socket address. -/
def is_socket_char (c : Char) : Bool :=
  is_digit 16 c || c == '.' || c == ':' || c == '[' || c == ']' || c == '%'

section

variable {c : Char}

/-- A numeral has only digits. -/
theorem Numeral.notMem {max radix : ℕ} {max_digits : Option ℕ} { allow_zero_prefix : Bool}
    {ds : List Char} (h : Numeral max radix max_digits allow_zero_prefix ds)
    (hc : is_digit radix c = false) : c ∉ ds := by
  intro hmem
  rw [h.digits c hmem] at hc
  exact Bool.false_ne_true hc.symm

/-- An IPv4 address has only digits and dots. -/
theorem Ipv4Text.notMem {t : List Char} {ip : ℕ} (h : Ipv4Text t ip) (hdigit : is_digit 10 c = false)
    (hdot : c ≠ '.') : c ∉ t := by
  obtain ⟨os, ns, hos, -, rfl, -⟩ := h
  apply notMem_intercalate
  · rw [List.mem_singleton]
    exact hdot
  · induction hos with
    | nil => exact fun o ho => absurd ho List.not_mem_nil
    | cons hoctet hos ih =>
        intro o ho
        rcases List.mem_cons.mp ho with rfl | ho
        · exact Numeral.notMem hoctet.1 hdigit
        · exact ih o ho

/-- Groups have only digits, and dots at the end. -/
theorem GroupsText.notMem {dotted : Bool} {ps : List (List Char)} {ns : List ℕ}
    (h : GroupsText dotted ps ns) (hhex : is_digit 16 c = false) (hdigit : is_digit 10 c = false)
    (hdot : c ≠ '.') : ∀ p ∈ ps, c ∉ p := by
  induction h with
  | nil => exact fun p hp => absurd hp List.not_mem_nil
  | dotted hip =>
      intro p hp
      rw [List.mem_singleton.mp hp]
      exact hip.notMem hdigit hdot
  | cons hgroup hps ih =>
      intro p hp
      rcases List.mem_cons.mp hp with rfl | hp
      · exact Numeral.notMem hgroup.1 hhex
      · exact ih p hp

/-- An IPv6 address has only digits, dots and colons. -/
theorem Ipv6Text.notMem {t : List Char} {ip : ℕ} (h : Ipv6Text t ip) (hhex : is_digit 16 c = false)
    (hdigit : is_digit 10 c = false) (hdot : c ≠ '.') (hcolon : c ≠ ':') : c ∉ t := by
  have hsep : c ∉ [':'] := by
    rw [List.mem_singleton]
    exact hcolon
  cases h with
  | full hps hlength => exact notMem_intercalate hsep (hps.notMem hhex hdigit hdot)
  | compressed hhs hps hlength =>
      rw [List.mem_append, List.mem_cons, List.mem_cons, not_or, not_or, not_or]
      exact ⟨notMem_intercalate hsep (hhs.notMem hhex hdigit hdot), hcolon, hcolon,
        notMem_intercalate hsep (hps.notMem hhex hdigit hdot)⟩

/-- Nothing else is in a socket address as text. -/
theorem SocketText.notMem {t : List Char} {a : SocketAddr} (h : SocketText t a)
    (hc : is_socket_char c = false) : c ∉ t := by
  simp only [is_socket_char, Bool.or_eq_false_iff, beq_eq_false_iff_ne] at hc
  obtain ⟨⟨⟨⟨⟨hhex, hdot⟩, hcolon⟩, hopen⟩, hclose⟩, hpercent⟩ := hc
  have hdigit : is_digit 10 c = false := by
    rw [← Bool.not_eq_true]
    intro hno
    rw [is_digit_hex hno] at hhex
    exact Bool.false_ne_true hhex.symm
  cases h with
  | v4 hip hport =>
      rw [List.mem_append, List.mem_cons, not_or, not_or]
      exact ⟨hip.notMem hdigit hdot, hcolon, Numeral.notMem hport hdigit⟩
  | @v6 t z ds ip scope_id hip hscope hport =>
      have hz : c ∉ z := by
        cases hscope with
        | none => exact List.not_mem_nil
        | index hindex =>
            rw [List.mem_cons, not_or]
            exact ⟨hpercent, Numeral.notMem hindex hdigit⟩
      rw [List.mem_append, List.mem_append, List.mem_cons, List.mem_cons, List.mem_cons, not_or,
        not_or, not_or, not_or, not_or]
      exact ⟨⟨⟨hopen, hip.notMem hhex hdigit hdot hcolon⟩, hz⟩, hclose, hcolon,
        Numeral.notMem hport hdigit⟩

end

/-! ## The ranges of what is read -/

theorem foldl_groups_lt {base : ℕ} {groups : List ℕ} (h : ∀ n ∈ groups, n < base) (init : ℕ) :
    groups.foldl (fun ip group => ip * base + group) init < (init + 1) * base ^ groups.length := by
  induction groups generalizing init with
  | nil =>
      rw [List.foldl_nil, List.length_nil, pow_zero, mul_one]
      exact Nat.lt_succ_self init
  | cons n groups ih =>
      have hn := h n List.mem_cons_self
      have hrest := ih (fun m hm => h m (List.mem_cons_of_mem n hm)) (init * base + n)
      have hle : init * base + n + 1 ≤ (init + 1) * base := by
        rw [Nat.succ_mul]
        omega
      calc (n :: groups).foldl (fun ip group => ip * base + group) init
          < (init * base + n + 1) * base ^ groups.length := hrest
        _ ≤ (init + 1) * base * base ^ groups.length := Nat.mul_le_mul_right _ hle
        _ = (init + 1) * base ^ (n :: groups).length := by
          rw [List.length_cons, pow_succ', Nat.mul_assoc]

/-- Groups in range are a number in range. -/
theorem from_groups_lt {base : ℕ} {groups : List ℕ} (h : ∀ n ∈ groups, n < base) :
    from_groups base groups < base ^ groups.length := by
  have hlt := foldl_groups_lt h 0
  rw [Nat.zero_add, Nat.one_mul] at hlt
  exact hlt

theorem Ipv4Text.lt {t : List Char} {ip : ℕ} (h : Ipv4Text t ip) : ip < 2 ^ 32 := by
  obtain ⟨os, ns, hos, hlength, -, rfl⟩ := h
  have hns : ∀ n ∈ ns, n < 256 := by
    clear hlength
    induction hos with
    | nil => exact fun n hn => absurd hn List.not_mem_nil
    | cons hoctet hos ih =>
        intro n hn
        rcases List.mem_cons.mp hn with rfl | hn
        · have hle := hoctet.1.le
          have heq := hoctet.2
          omega
        · exact ih n hn
  have hlt := from_groups_lt hns
  rw [← hos.length_eq, hlength] at hlt
  norm_num at hlt ⊢
  exact hlt

theorem GroupsText.lt {dotted : Bool} {ps : List (List Char)} {ns : List ℕ}
    (h : GroupsText dotted ps ns) : ∀ n ∈ ns, n < 2 ^ 16 := by
  induction h with
  | nil => exact fun n hn => absurd hn List.not_mem_nil
  | dotted hip =>
      have hlt := hip.lt
      intro n hn
      rw [List.mem_cons, List.mem_singleton] at hn
      omega
  | cons hgroup hps ih =>
      intro n hn
      rcases List.mem_cons.mp hn with rfl | hn
      · have hle := hgroup.1.le
        have heq := hgroup.2
        omega
      · exact ih n hn

/-- An IPv6 address has 128 bits. -/
theorem Ipv6Text.lt {t : List Char} {ip : ℕ} (h : Ipv6Text t ip) : ip < 2 ^ 128 := by
  cases h with
  | full hps hlength =>
      have hlt := from_groups_lt hps.lt
      rw [hlength] at hlt
      norm_num at hlt ⊢
      exact hlt
  | @compressed dotted hs ps hns ns hhs hps hlength =>
      have hgroups : ∀ n ∈ hns ++ List.replicate (8 - hns.length - ns.length) 0 ++ ns, n < 2 ^ 16 := by
        intro n hn
        rw [List.mem_append, List.mem_append] at hn
        rcases hn with (hn | hn) | hn
        · exact hhs.lt n hn
        · rw [List.eq_of_mem_replicate hn]
          omega
        · exact hps.lt n hn
      have hlt := from_groups_lt hgroups
      have height : (hns ++ List.replicate (8 - hns.length - ns.length) 0 ++ ns).length = 8 := by
        rw [List.length_append, List.length_append, List.length_replicate]
        omega
      rw [height] at hlt
      norm_num at hlt ⊢
      exact hlt

/-- What is read is in range, and without flow information. -/
theorem SocketText.inRange {t : List Char} {a : SocketAddr} (h : SocketText t a) :
    a.InRange ∧ a.without_flowinfo = a := by
  cases h with
  | v4 hip hport =>
      have hle := hport.le
      exact ⟨⟨hip.lt, by omega⟩, rfl⟩
  | v6 hip hscope hport =>
      have hle := hport.le
      refine ⟨⟨hip.lt, by omega, by omega, ?_⟩, rfl⟩
      cases hscope with
      | none => omega
      | index hindex =>
          have hindex_le := hindex.le
          omega

end IrohHttp.Discovery
