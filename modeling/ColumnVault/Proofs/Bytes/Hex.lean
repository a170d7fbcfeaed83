import ColumnVault.Bytes.Hex
import ColumnVault.Proofs.Sequencing
import ColumnVault.Proofs.Text.Blank
import ColumnVault.Proofs.Text.Utf8

/-! Bytes read back from their hexadecimal form. It is made of the sixteen small digits only, none of
which is blank. -/

namespace ColumnVault

namespace Hex

/-! ### Digits -/

def digits : String := "0123456789abcdef"

/-- The byte of a digit. -/
def digitByte (n : UInt8) : UInt8 :=
  if n < 10 then 48 + n else 87 + n

theorem digit_read {n : UInt8} (h : n < 16) : String.utf8EncodeChar (digit n) = [digitByte n] ∧
    digitValue? (digitByte n) = some n ∧ digit n ∈ digits.toList := by
  have hall : ∀ k < 16, String.utf8EncodeChar (digit (UInt8.ofNat k)) = [digitByte (UInt8.ofNat k)] ∧
      digitValue? (digitByte (UInt8.ofNat k)) = some (UInt8.ofNat k) ∧
      digit (UInt8.ofNat k) ∈ digits.toList := by decide
  have hn := hall n.toNat h
  rwa [UInt8.ofNat_toNat] at hn

theorem readDigit_digitByte {n : UInt8} (h : n < 16) (index : Nat) :
    readDigit (digitByte n) index = .ok n := by
  rw [readDigit, (digit_read h).2.1]

theorem high_lt (b : UInt8) : b >>> 4 < 16 := by
  have hb := b.toNat_lt
  rw [UInt8.lt_iff_toNat_lt, UInt8.toNat_shiftRight]
  simp only [UInt8.reduceToNat, Nat.reduceMod, Nat.shiftRight_eq_div_pow]
  omega

theorem low_lt (b : UInt8) : b &&& 0xf < 16 := by
  rw [UInt8.lt_iff_toNat_lt, UInt8.toNat_and]
  exact Nat.lt_succ_of_le Nat.and_le_right

theorem halves (b : UInt8) : (b >>> 4) <<< 4 ||| b &&& 0xf = b := by
  have hall : ∀ n < 256, (UInt8.ofNat n >>> 4) <<< 4 ||| UInt8.ofNat n &&& 0xf = UInt8.ofNat n := by
    decide +kernel
  have hb := hall b.toNat b.toNat_lt
  rwa [UInt8.ofNat_toNat] at hb

/-! ### Pairs -/

/-- The bytes of the two digits of a byte. -/
def pair (b : UInt8) : List UInt8 :=
  [digitByte (b >>> 4), digitByte (b &&& 0xf)]

theorem flatMap_encodeByte (b : UInt8) : (encodeByte b).flatMap String.utf8EncodeChar = pair b := by
  rw [encodeByte, List.flatMap_cons, List.flatMap_singleton, (digit_read (high_lt b)).1,
    (digit_read (low_lt b)).1]
  rfl

theorem toList_toUTF8_encode (bytes : ByteArray) :
    (encode bytes).toUTF8.data.toList = bytes.data.toList.flatMap pair := by
  rw [Text.Utf8.toList_toUTF8, encode, String.toList_ofList, List.flatMap_assoc]
  simp only [flatMap_encodeByte]

theorem length_flatMap_pair (l : List UInt8) : (l.flatMap pair).length = 2 * l.length := by
  induction l with
  | nil => rfl
  | cons b rest ih =>
    rw [List.flatMap_cons, List.length_append, ih, List.length_cons, pair, List.length_cons,
      List.length_singleton]
    omega

theorem readPairs_flatMap_pair (index : Nat) (l : List UInt8) :
    readPairs index (l.flatMap pair) = .ok l := by
  induction l generalizing index with
  | nil => rfl
  | cons b rest ih =>
    rw [List.flatMap_cons, pair, List.cons_append, List.cons_append, List.nil_append, readPairs,
      readDigit_digitByte (high_lt b), readDigit_digitByte (low_lt b), ok_bind, ok_bind, ih, ok_bind,
      halves]
    rfl

theorem decode_encode (bytes : ByteArray) : decode (encode bytes) = .ok bytes := by
  have hlist := toList_toUTF8_encode bytes
  have hsize : (encode bytes).utf8ByteSize = 2 * bytes.data.toList.length := by
    rw [← length_flatMap_pair, ← hlist]
    rfl
  rw [decode, hlist, readPairs_flatMap_pair, if_neg (by omega), ok_bind, pure_eq_ok,
    Bytes.toByteArray_toList]

/-! ### Texts -/

/-- A text of small hexadecimal digits. -/
def IsHex (s : String) : Prop :=
  ∀ c ∈ s.toList, c ∈ digits.toList

theorem isHex_encode (bytes : ByteArray) : IsHex (encode bytes) := by
  intro c hc
  rw [encode, String.toList_ofList, List.mem_flatMap] at hc
  obtain ⟨b, -, hc⟩ := hc
  rcases List.mem_cons.1 hc with rfl | hc
  · exact (digit_read (high_lt b)).2.2
  · rw [List.mem_singleton.1 hc]
    exact (digit_read (low_lt b)).2.2

theorem IsHex.trim {s : String} (h : IsHex s) : Text.trim s = s := by
  have hblank : digits.toList.any Text.isBlank = false := by decide
  exact Text.trim_eq_self fun c hc => eq_false_of_ne_true (List.any_eq_false.1 hblank c (h c hc))

end Hex

end ColumnVault
