import ColumnVault.Proofs.Bytes.Slice
import ColumnVault.Text.Utf8

/-! Reading back the bytes of a text, and where a text cannot begin. -/

namespace ColumnVault.Text.Utf8

open Bytes

theorem fromUTF8?_toUTF8 (s : String) : String.fromUTF8? s.toUTF8 = some s := by
  rw [String.toUTF8_eq_toByteArray, String.fromUTF8?, dif_pos s.isValidUTF8]
  rfl

theorem toUTF8_of_fromUTF8? {bytes : ByteArray} {s : String}
    (h : String.fromUTF8? bytes = some s) : s.toUTF8 = bytes := by
  rw [String.fromUTF8?] at h
  split_ifs at h
  cases h
  rfl

/-- Strict reading accepts exactly the bytes of texts. -/
theorem decode_eq_ok_iff {bytes : ByteArray} {s : String} :
    decode bytes = .ok s ↔ bytes = s.toUTF8 := by
  constructor
  · intro h
    rw [decode] at h
    split at h
    · next t ht =>
      cases h
      exact (toUTF8_of_fromUTF8? ht).symm
    · cases h
  · rintro rfl
    rw [decode, fromUTF8?_toUTF8]

theorem decode_toUTF8 (s : String) : decode s.toUTF8 = .ok s :=
  decode_eq_ok_iff.2 rfl

theorem decodeLossy_toUTF8 (s : String) : decodeLossy s.toUTF8 = s := by
  rw [decodeLossy, fromUTF8?_toUTF8]

theorem toUTF8_injective {s t : String} (h : s.toUTF8 = t.toUTF8) : s = t :=
  String.toByteArray_inj.1 h

theorem size_toUTF8 (s : String) : s.toUTF8.size = s.utf8ByteSize := rfl

/-- No text begins with a continuation byte, such as the second byte of the marks of frames. -/
theorem byteAt_zero_ne_continuation {s : String} (h : 0 < s.utf8ByteSize) :
    byteAt s.toUTF8 0 ≠ 0xb5 := by
  intro hb
  have hfirst : (byteAt s.toUTF8 0).IsUTF8FirstByte := by
    rw [byteAt_of_lt (b := s.toUTF8) h]
    exact s.isValidUTF8.isUTF8FirstByte_getElem_zero h
  rw [hb] at hfirst
  revert hfirst
  decide

/-- The bytes of a text, character by character. -/
theorem toList_toUTF8 (s : String) :
    s.toUTF8.data.toList = s.toList.flatMap String.utf8EncodeChar := by
  rw [String.toUTF8_eq_toByteArray, ← String.utf8Encode_toList, List.utf8Encode, List.data_toByteArray]

theorem toList_toUTF8_append (s t : String) :
    (s ++ t).toUTF8.data.toList = s.toUTF8.data.toList ++ t.toUTF8.data.toList := by
  rw [toList_toUTF8, String.toList_append, List.flatMap_append, ← toList_toUTF8, ← toList_toUTF8]

/-- A byte below 128 stands for the character of its number. -/
theorem eq_of_mem_utf8EncodeChar {b : UInt8} (hb : b.toNat < 128) {c : Char}
    (h : b ∈ String.utf8EncodeChar c) : c.toNat = b.toNat := by
  -- the bytes of the other characters all have their highest bit set
  have hhigh {v m k : Nat} (hm : 0 < m) (hk : 128 ≤ k) (hmk : m + k ≤ 256)
      (hv : b = UInt8.ofNat (v % m + k)) : False := by
    have hlt := Nat.mod_lt v hm
    have hsize : v % m + k < UInt8.size := by rw [UInt8.size]; omega
    rw [hv, UInt8.toNat_ofNat_of_lt' hsize] at hb
    omega
  rw [String.utf8EncodeChar] at h
  split_ifs at h with h₁ h₂ h₃ <;> simp only [List.mem_cons, List.not_mem_nil, or_false] at h
  · have hsize : c.val.toNat < UInt8.size := by rw [UInt8.size]; omega
    rw [h, UInt8.toNat_ofNat_of_lt' hsize]
    rfl
  · rcases h with h | h <;> exact (hhigh (by decide) (by decide) (by decide) h).elim
  · rcases h with h | h | h <;> exact (hhigh (by decide) (by decide) (by decide) h).elim
  · rcases h with h | h | h | h <;> exact (hhigh (by decide) (by decide) (by decide) h).elim

/-- A byte below 128 is among the bytes of a text only if its character is in the text. -/
theorem ofNat_mem_of_mem_toUTF8 {b : UInt8} (hb : b.toNat < 128) {s : String}
    (h : b ∈ s.toUTF8.data.toList) : Char.ofNat b.toNat ∈ s.toList := by
  rw [toList_toUTF8, List.mem_flatMap] at h
  obtain ⟨c, hc, hmem⟩ := h
  rw [← eq_of_mem_utf8EncodeChar hb hmem, Char.ofNat_toNat]
  exact hc

end ColumnVault.Text.Utf8
