import ColumnVault.Bytes.Word
import Mathlib.Tactic.Common

/-! Single bytes and slices of byte strings that are put together from parts. -/

namespace ColumnVault.Bytes

theorem byteAt_of_lt {b : ByteArray} {i : Nat} (h : i < b.size) : byteAt b i = b[i] := by
  simp [byteAt, h]

theorem byteAt_of_ge {b : ByteArray} {i : Nat} (h : b.size ≤ i) : byteAt b i = 0 :=
  dif_neg (by omega)

theorem byteAt_append_left {a b : ByteArray} {i : Nat} (h : i < a.size) :
    byteAt (a ++ b) i = byteAt a i := by
  have h' : i < (a ++ b).size := by rw [ByteArray.size_append]; omega
  rw [byteAt_of_lt h', byteAt_of_lt h, ByteArray.getElem_append_left h]

theorem byteAt_append_right {a b : ByteArray} {i : Nat} (h : a.size ≤ i) :
    byteAt (a ++ b) i = byteAt b (i - a.size) := by
  by_cases hi : i < (a ++ b).size
  · have hb : i - a.size < b.size := by rw [ByteArray.size_append] at hi; omega
    rw [byteAt_of_lt hi, byteAt_of_lt hb, ByteArray.getElem_append_right h]
  · have hb : b.size ≤ i - a.size := by rw [ByteArray.size_append] at hi; omega
    rw [byteAt_of_ge (by omega), byteAt_of_ge hb]

/-- Byte strings of one size that agree byte by byte are equal. -/
theorem ext_byteAt {a b : ByteArray} (hs : a.size = b.size)
    (h : ∀ i < a.size, byteAt a i = byteAt b i) : a = b := by
  apply ByteArray.ext_getElem hs
  intro i ha hb
  have := h i ha
  rwa [byteAt_of_lt ha, byteAt_of_lt hb] at this

/-- The byte string of the bytes of a byte string. -/
theorem toByteArray_toList (b : ByteArray) : b.data.toList.toByteArray = b :=
  ByteArray.ext List.data_toByteArray

/-- One byte as a byte string. -/
theorem push_empty_eq (x : UInt8) : ByteArray.empty.push x = [x].toByteArray := rfl

@[simp] theorem byteAt_singleton (x : UInt8) : byteAt [x].toByteArray 0 = x := rfl

theorem byteAt_toByteArray {l : List UInt8} {i : Nat} (h : i < l.length) :
    byteAt l.toByteArray i = l[i] := by
  have h' : i < l.toByteArray.size := by simpa using h
  rw [byteAt_of_lt h', List.getElem_toByteArray]

/-- A byte that is there is a slice of its own. -/
theorem extract_succ {b : ByteArray} {i : Nat} (h : i < b.size) :
    b.extract i (i + 1) = [byteAt b i].toByteArray := by
  rw [ByteArray.extract_add_one (by omega), byteAt_of_lt h]

theorem byteAt_extract {b : ByteArray} {i j k : Nat} (h : k < (b.extract i j).size) :
    byteAt (b.extract i j) k = byteAt b (i + k) := by
  have hb : i + k < b.size := by rw [ByteArray.size_extract] at h; omega
  rw [byteAt_of_lt h, byteAt_of_lt hb, ByteArray.getElem_extract]

/-- Byte strings of one size that agree in every place but the first. -/
structure SameBehindFirst (a b : ByteArray) : Prop where
  size : b.size = a.size
  bytes : ∀ i, 0 < i → byteAt b i = byteAt a i

theorem SameBehindFirst.extract_eq {a b : ByteArray} (h : SameBehindFirst a b) {i : Nat} (hi : 0 < i)
    (j : Nat) : b.extract i j = a.extract i j := by
  have hsize : (b.extract i j).size = (a.extract i j).size := by
    rw [ByteArray.size_extract, ByteArray.size_extract, h.size]
  refine ext_byteAt hsize fun k hk => ?_
  rw [byteAt_extract hk, byteAt_extract (hsize ▸ hk), h.bytes (i + k) (by omega)]

@[simp] theorem size_pushWord32LE (b : ByteArray) (w : UInt32) :
    (pushWord32LE b w).size = b.size + 4 := by
  simp [pushWord32LE]

@[simp] theorem size_pushMany (b : ByteArray) (x : UInt8) (n : Nat) :
    (pushMany b x n).size = b.size + n := by
  induction n generalizing b with
  | zero => rfl
  | succ n ih => rw [pushMany, ih, ByteArray.size_push]; omega

end ColumnVault.Bytes
