/-
The UTF-8 bytes of a string, character by character.
-/
import Mathlib.Data.Char
import Mathlib.Data.List.Basic

set_option autoImplicit false

namespace Utf8

theorem toList_toUTF8 (s : String) :
    s.toUTF8.data.toList = s.toList.flatMap String.utf8EncodeChar := by
  have hbytes : s.toUTF8 = s.toList.utf8Encode := by
    rw [← String.toByteArray_ofList, String.ofList_toList]
    rfl
  rw [hbytes, List.utf8Encode, List.data_toByteArray]

theorem toList_toUTF8_append (s t : String) :
    (s ++ t).toUTF8.data.toList = s.toUTF8.data.toList ++ t.toUTF8.data.toList := by
  rw [toList_toUTF8, toList_toUTF8, toList_toUTF8, String.toList_append, List.flatMap_append]

theorem encode_ascii {c : Char} (h : c.toNat < 128) :
    String.utf8EncodeChar c = [UInt8.ofNat c.toNat] := by
  have hval : c.val.toNat ≤ 0x7f := by
    have hlt : c.val.toNat < 128 := h
    omega
  rw [String.utf8EncodeChar]
  exact if_pos hval

theorem zero_eq_ofNat {n : ℕ} : 0 = UInt8.ofNat n ↔ n % 256 = 0 := by
  rw [← UInt8.toNat_inj, UInt8.toNat_ofNat']
  exact eq_comm

/-- Only the character 0 has the byte 0. -/
theorem zero_mem_encode {c : Char} : 0 ∈ String.utf8EncodeChar c ↔ c.toNat = 0 := by
  have hval : c.val.toNat = c.toNat := rfl
  have hlt : c.toNat < 0x110000 := by
    rcases c.valid with h | h
    · omega
    · omega
  -- every byte of a longer code has a bit of its own set
  simp only [String.utf8EncodeChar, hval]
  split_ifs with hone htwo hthree
  · rw [List.mem_singleton, zero_eq_ofNat]
    omega
  · simp only [List.mem_cons, List.not_mem_nil, zero_eq_ofNat, or_false]
    omega
  · simp only [List.mem_cons, List.not_mem_nil, zero_eq_ofNat, or_false]
    omega
  · simp only [List.mem_cons, List.not_mem_nil, zero_eq_ofNat, or_false]
    omega

theorem zero_mem_toUTF8 {s : String} : 0 ∈ s.toUTF8.data.toList ↔ '\x00' ∈ s.toList := by
  rw [toList_toUTF8, List.mem_flatMap]
  constructor
  · rintro ⟨c, hc, hzero⟩
    have heq : c = '\x00' := Char.toNat_inj.mp (zero_mem_encode.mp hzero)
    exact heq ▸ hc
  · exact fun h => ⟨'\x00', h, zero_mem_encode.mpr rfl⟩

theorem toList_toUTF8_ascii {s : String} (h : ∀ c ∈ s.toList, c.toNat < 128) :
    s.toUTF8.data.toList = s.toList.map fun c => UInt8.ofNat c.toNat := by
  have hchars : ∀ cs : List Char, (∀ c ∈ cs, c.toNat < 128) →
      cs.flatMap String.utf8EncodeChar = cs.map fun c => UInt8.ofNat c.toNat := by
    intro cs hcs
    induction cs with
    | nil => rfl
    | cons c cs ih =>
        rw [List.flatMap_cons, List.map_cons, encode_ascii (hcs c List.mem_cons_self),
          ih fun d hd => hcs d (List.mem_cons_of_mem c hd), List.singleton_append]
  rw [toList_toUTF8, hchars s.toList h]

end Utf8
