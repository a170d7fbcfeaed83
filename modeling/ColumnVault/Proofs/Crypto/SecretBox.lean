import ColumnVault.Crypto.SecretBox
import ColumnVault.Proofs.Bytes.Slice

/-! Opening what was sealed. The key stream does not depend on the data, so combining with it twice
changes nothing; the tag is recomputed from the encrypted bytes alone. -/

namespace ColumnVault.Crypto

open Bytes

namespace Salsa20

/-- Byte `j` of the key stream. -/
def streamByte (key nonce : ByteArray) (j : Nat) : UInt8 :=
  byteAt (block key nonce (UInt64.ofNat (j / 64))) (j % 64)

/-- A block carried from byte to byte is the one that the next byte of the stream lies in, unless that
byte begins a new block. -/
theorem combine_eq (key nonce : ByteArray) (skip : Nat) (data : ByteArray) :
    ∀ (n i : Nat) (stream out : ByteArray),
      ((skip + i) % 64 ≠ 0 → stream = block key nonce (UInt64.ofNat ((skip + i) / 64))) →
      combine key nonce skip data n i stream out =
        out ++ ((List.range' i n).map fun j =>
          byteAt data j ^^^ streamByte key nonce (skip + j)).toByteArray
  | 0, i, stream, out, _ => by simp [combine]
  | n + 1, i, stream, out, hs => by
    -- whichever way the block was come by, it is the one for this byte
    have hb : (if (skip + i) % 64 = 0 then block key nonce (UInt64.ofNat ((skip + i) / 64))
        else stream) = block key nonce (UInt64.ofNat ((skip + i) / 64)) := by
      split_ifs with h
      · rfl
      · exact hs h
    have hnext : (skip + (i + 1)) % 64 ≠ 0 → block key nonce (UInt64.ofNat ((skip + i) / 64)) =
        block key nonce (UInt64.ofNat ((skip + (i + 1)) / 64)) := by
      intro h
      rw [show (skip + (i + 1)) / 64 = (skip + i) / 64 by omega]
    simp only [combine, hb]
    rw [combine_eq key nonce skip data n (i + 1) _ _ hnext, List.range'_succ, List.map_cons,
      ← ByteArray.append_toByteArray_singleton, ByteArray.append_assoc, ← List.toByteArray_append]
    rfl

theorem xorStream_eq (key nonce : ByteArray) (skip : Nat) (data : ByteArray) :
    xorStream key nonce skip data = ((List.range data.size).map fun i =>
      byteAt data i ^^^ streamByte key nonce (skip + i)).toByteArray := by
  rw [xorStream, combine_eq key nonce skip data data.size 0 (block key nonce (UInt64.ofNat (skip / 64)))
    _ (fun _ => rfl), List.range_eq_range']
  exact ByteArray.empty_append

@[simp] theorem size_xorStream (key nonce : ByteArray) (skip : Nat) (data : ByteArray) :
    (xorStream key nonce skip data).size = data.size := by
  simp [xorStream_eq]

theorem byteAt_xorStream (key nonce : ByteArray) (skip : Nat) {data : ByteArray} {i : Nat}
    (h : i < data.size) : byteAt (xorStream key nonce skip data) i =
      byteAt data i ^^^ streamByte key nonce (skip + i) := by
  rw [xorStream_eq, byteAt_toByteArray (by simpa using h)]
  simp

/-- The cipher is its own inverse. -/
@[simp] theorem xorStream_xorStream (key nonce : ByteArray) (skip : Nat) (data : ByteArray) :
    xorStream key nonce skip (xorStream key nonce skip data) = data := by
  apply ext_byteAt (by simp)
  intro i hi
  have h : i < data.size := by simpa using hi
  rw [byteAt_xorStream _ _ _ (by simpa using h), byteAt_xorStream _ _ _ h, UInt8.xor_assoc,
    UInt8.xor_self, UInt8.xor_zero]

end Salsa20

@[simp] theorem Poly1305.size_tag (key message : ByteArray) : (Poly1305.tag key message).size = 16 := by
  simp only [Poly1305.tag, size_pushWord32LE]
  rfl

namespace SecretBox

@[simp] theorem Session.size_apply (s : Session) (data : ByteArray) :
    (s.apply data).size = data.size :=
  Salsa20.size_xorStream _ _ _ _

@[simp] theorem Session.apply_apply (s : Session) (data : ByteArray) : s.apply (s.apply data) = data :=
  Salsa20.xorStream_xorStream _ _ _ _

theorem size_encrypt (key nonce message : ByteArray) :
    (encrypt key nonce message).size = tagSize + message.size := by
  simp [encrypt, ByteArray.size_append, tagSize]

/-- What was sealed opens under the same key and nonce. -/
@[simp] theorem decrypt?_encrypt (key nonce message : ByteArray) :
    decrypt? key nonce (encrypt key nonce message) = some message := by
  have hsize : ¬(encrypt key nonce message).size < tagSize := by rw [size_encrypt]; omega
  rw [decrypt?, if_neg hsize]
  set s := Session.start key nonce with hs
  have htag : (Poly1305.tag s.tagKey (s.apply message)).size = tagSize := Poly1305.size_tag _ _
  have hbody : (encrypt key nonce message).extract tagSize (encrypt key nonce message).size =
      s.apply message := by
    rw [size_encrypt, encrypt]
    exact ByteArray.extract_append_eq_right htag.symm (by rw [htag, Session.size_apply])
  have hfront : (encrypt key nonce message).extract 0 tagSize =
      Poly1305.tag s.tagKey (s.apply message) :=
    ByteArray.extract_append_eq_left htag.symm
  simp only [hbody, hfront, if_true, Session.apply_apply]

end SecretBox

end ColumnVault.Crypto
