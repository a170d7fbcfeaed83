import ColumnVault.Envelope.BoundPayload
import ColumnVault.Proofs.Sequencing
import ColumnVault.Proofs.Text.Utf8

/-! The two formats as grammars. Writing succeeds for exactly the well-formed values, and reading
accepts exactly what writing gives. -/

namespace ColumnVault

open Bytes

namespace Bytes

/-- The middle of three parts. -/
theorem extract_middle {a b c : ByteArray} {i j : Nat} (hi : i = a.size) (hj : j = a.size + b.size) :
    (a ++ b ++ c).extract i j = b := by
  subst hi hj
  have h := ByteArray.extract_append_size_add (a := a) (b := b ++ c) (i := 0) (j := b.size)
  rw [ByteArray.append_assoc]
  exact h.trans (ByteArray.extract_append_eq_left rfl)

/-- What is behind the first part. -/
theorem extract_rest {a b : ByteArray} {i j : Nat} (hi : i = a.size) (hj : j = (a ++ b).size) :
    (a ++ b).extract i j = b :=
  ByteArray.extract_append_eq_right hi (hj.trans ByteArray.size_append)

/-- A small length survives being written in one byte. -/
theorem toNat_lengthByte {n : Nat} (h : n ≤ KeyId.maxSize) : (UInt8.ofNat n).toNat = n := by
  have : KeyId.maxSize = 255 := rfl
  rw [UInt8.toNat_ofNat']
  omega

theorem lengthByte_toNat (b : UInt8) : UInt8.ofNat b.toNat = b :=
  UInt8.ofNat_toNat

end Bytes

namespace Envelope

/-- The written form: a flag byte, the length of the key id, the key id, the nonce, the ciphertext. -/
def bytes (e : Envelope) : ByteArray :=
  [e.flag, UInt8.ofNat e.keyId.utf8ByteSize].toByteArray ++ e.keyId.toUTF8 ++ e.nonce.val ++
    e.ciphertext

/-- The envelopes that have a written form. -/
structure WellFormed (e : Envelope) : Prop where
  keyId : KeyId.Valid e.keyId
  ciphertext : 0 < e.ciphertext.size

theorem size_bytes (e : Envelope) :
    e.bytes.size = 2 + e.keyId.utf8ByteSize + nonceSize + e.ciphertext.size := by
  simp only [bytes, ByteArray.size_append, List.size_toByteArray, e.nonce.property,
    Text.Utf8.size_toUTF8]
  rfl

theorem encode_eq_ok_iff {e : Envelope} {data : ByteArray} :
    e.encode = .ok data ↔ e.WellFormed ∧ data = e.bytes := by
  have hbytes : ByteArray.empty.push e.flag ++ lengthPrefixed e.keyId ++ e.nonce.val ++ e.ciphertext =
      e.bytes := by
    simp only [bytes, lengthPrefixed, push_empty_eq, ← ByteArray.append_assoc]
    rw [← List.toByteArray_append]
    rfl
  rw [encode, hbytes]
  cases hid : KeyId.check e.keyId with
  | error fault =>
    have hbad : ¬e.WellFormed := fun h => by
      rw [KeyId.check_eq_ok_iff.2 h.keyId] at hid
      cases hid
    simp [hbad]
  | ok =>
    have hvalid := KeyId.check_eq_ok_iff.1 hid
    by_cases hc : e.ciphertext.size = 0
    · have hbad : ¬e.WellFormed := fun h => by have := h.ciphertext; omega
      simp [hbad, hc]
    · have hgood : e.WellFormed := ⟨hvalid, by omega⟩
      simp [hgood, hc, eq_comm]

theorem encode_bytes {e : Envelope} (h : e.WellFormed) : e.encode = .ok e.bytes :=
  encode_eq_ok_iff.2 ⟨h, rfl⟩

theorem minEnvelopeSize_le {e : Envelope} (h : e.WellFormed) : minEnvelopeSize ≤ e.bytes.size := by
  have := h.keyId.1
  have := h.ciphertext
  rw [size_bytes, minEnvelopeSize]
  omega

theorem byteAt_flag (e : Envelope) : byteAt e.bytes 0 = e.flag := by
  simp only [bytes]
  rw [ByteArray.append_assoc, ByteArray.append_assoc, byteAt_append_left (by simp),
    byteAt_toByteArray (by simp)]
  rfl

theorem byteAt_length (e : Envelope) : byteAt e.bytes 1 = UInt8.ofNat e.keyId.utf8ByteSize := by
  simp only [bytes]
  rw [ByteArray.append_assoc, ByteArray.append_assoc, byteAt_append_left (by simp),
    byteAt_toByteArray (by simp)]
  rfl

theorem extract_keyId (e : Envelope) :
    e.bytes.extract 2 (2 + e.keyId.utf8ByteSize) = e.keyId.toUTF8 := by
  rw [bytes, ByteArray.append_assoc]
  exact extract_middle (by simp) (by simp)

theorem extract_nonce (e : Envelope) :
    e.bytes.extract (2 + e.keyId.utf8ByteSize) (2 + e.keyId.utf8ByteSize + nonceSize) =
      e.nonce.val := by
  rw [bytes]
  exact extract_middle (by simp [ByteArray.size_append])
    (by simp [ByteArray.size_append, e.nonce.property])

theorem extract_ciphertext (e : Envelope) :
    e.bytes.extract (2 + e.keyId.utf8ByteSize + nonceSize) e.bytes.size = e.ciphertext := by
  rw [bytes]
  exact extract_rest (by simp [ByteArray.size_append, e.nonce.property]) rfl

/-- What is found in the written form of an envelope. -/
theorem split_bytes {e : Envelope} (h : e.WellFormed) :
    ∃ hn, split e.bytes = .ok ⟨e.keyId, 2 + e.keyId.utf8ByteSize, hn⟩ := by
  have hlen : (byteAt e.bytes 1).toNat = e.keyId.utf8ByteSize := by
    rw [byteAt_length, toNat_lengthByte h.keyId.2]
  have hpos := h.keyId.1
  have hc := h.ciphertext
  have hsize := size_bytes e
  have hmin := minEnvelopeSize_le h
  refine ⟨by omega, ?_⟩
  simp only [split, hlen]
  rw [if_neg (by omega), if_neg (by omega), dif_neg (by omega)]
  split
  · next fault hf =>
    rw [extract_keyId, Text.Utf8.decode_toUTF8] at hf
    cases hf
  · next id hid =>
    rw [extract_keyId, Text.Utf8.decode_toUTF8] at hid
    cases hid
    rfl

/-- The written form that bytes with a legible header have. -/
theorem bytes_of_split {data : ByteArray} {s : Split data} (h : split data = .ok s) :
    ∃ nonce : Nonce, ∃ c : ByteArray, nonce.val = data.extract s.rest (s.rest + nonceSize) ∧
      c = data.extract (s.rest + nonceSize) data.size ∧
      (⟨byteAt data 0, s.keyId, nonce, c⟩ : Envelope).WellFormed ∧
      data = (⟨byteAt data 0, s.keyId, nonce, c⟩ : Envelope).bytes := by
  simp only [split] at h
  split_ifs at h with hmin hzero hlen
  set n := (byteAt data 1).toNat with hn
  split at h
  · cases h
  next id hid =>
  cases h
  have hid := Text.Utf8.decode_eq_ok_iff.1 hid
  have hid_size : id.utf8ByteSize = n := by
    rw [← Text.Utf8.size_toUTF8, ← hid, ByteArray.size_extract]
    omega
  have hbyte := (byteAt data 1).toNat_lt
  have hnonce : (data.extract (2 + n) (2 + n + nonceSize)).size = nonceSize := by
    rw [ByteArray.size_extract]
    omega
  have hhead : data.extract 0 2 = [byteAt data 0, UInt8.ofNat id.utf8ByteSize].toByteArray := by
    rw [hid_size, hn, lengthByte_toNat, ByteArray.extract_eq_extract_append_extract 1 (by omega)
      (by omega), extract_succ (by omega), extract_succ (by omega), ← List.toByteArray_append]
    rfl
  refine ⟨⟨_, hnonce⟩, _, rfl, rfl, ⟨⟨?_, ?_⟩, ?_⟩, ?_⟩
  · show 0 < id.utf8ByteSize
    omega
  · show id.utf8ByteSize ≤ 255
    omega
  · show 0 < (data.extract (2 + n + nonceSize) data.size).size
    rw [ByteArray.size_extract]
    omega
  · -- the parts lie one behind the other from the first byte to the last
    calc data = data.extract 0 data.size := ByteArray.extract_zero_size.symm
      _ = data.extract 0 2 ++ data.extract 2 (2 + n) ++ data.extract (2 + n) (2 + n + nonceSize) ++
          data.extract (2 + n + nonceSize) data.size := by
        rw [← ByteArray.extract_eq_extract_append_extract 2 (by omega) (by omega),
          ← ByteArray.extract_eq_extract_append_extract (2 + n) (by omega) (by omega),
          ← ByteArray.extract_eq_extract_append_extract (2 + n + nonceSize) (by omega) (by omega)]
      _ = _ := by rw [hhead, hid]; rfl

/-- Reading accepts exactly the written forms of well-formed envelopes. -/
theorem decode_eq_ok_iff {data : ByteArray} {e : Envelope} :
    decode data = .ok e ↔ e.WellFormed ∧ data = e.bytes := by
  constructor
  · intro h
    rw [decode] at h
    cases hs : split data with
    | error fault => simp [hs] at h
    | ok s =>
      obtain ⟨nonce, c, hnonce, hc, hwell, hdata⟩ := bytes_of_split hs
      have he : e = ⟨byteAt data 0, s.keyId, nonce, c⟩ := by
        simp only [hs, ok_bind, pure_eq_ok, Except.ok.injEq] at h
        subst hc
        rw [← h]
        congr
        exact hnonce.symm
      rw [he]
      exact ⟨hwell, hdata⟩
  · rintro ⟨h, rfl⟩
    obtain ⟨hn, hs⟩ := split_bytes h
    rw [decode]
    simp only [hs, ok_bind, pure_eq_ok, byteAt_flag, extract_nonce, extract_ciphertext]

theorem decode_bytes {e : Envelope} (h : e.WellFormed) : decode e.bytes = .ok e :=
  decode_eq_ok_iff.2 ⟨h, rfl⟩

theorem bytes_injective {e e' : Envelope} (h : e.WellFormed) (h' : e'.WellFormed)
    (he : e.bytes = e'.bytes) : e = e' := by
  have hd := decode_bytes h
  rw [he, decode_bytes h'] at hd
  exact (Except.ok.inj hd).symm

theorem peekKeyId_bytes {e : Envelope} (h : e.WellFormed) : peekKeyId e.bytes = .ok e.keyId := by
  obtain ⟨hn, hs⟩ := split_bytes h
  simp [peekKeyId, hs]

end Envelope

namespace BoundPayload

/-- The written form: the length of the key id, the key id, and then the payload. -/
def bytes (b : BoundPayload) : ByteArray :=
  [UInt8.ofNat b.keyId.size].toByteArray ++ b.keyId ++ b.payload

/-- The bytes that are encrypted for a value under a key. -/
def bound (id : String) (value : ByteArray) : ByteArray :=
  bytes ⟨id.toUTF8, value⟩

/-- The size of the key id fits its byte, and is not zero. -/
def WellFormed (b : BoundPayload) : Prop :=
  0 < b.keyId.size ∧ b.keyId.size ≤ KeyId.maxSize

theorem encode_eq_ok_iff {id : String} {value data : ByteArray} :
    encode id value = .ok data ↔ KeyId.Valid id ∧ data = bound id value := by
  rw [encode]
  cases hid : KeyId.check id with
  | error fault =>
    have hbad : ¬KeyId.Valid id := fun h => by
      rw [KeyId.check_eq_ok_iff.2 h] at hid
      cases hid
    simp [hbad]
  | ok =>
    have hvalid := KeyId.check_eq_ok_iff.1 hid
    simp only [hvalid, true_and, Except.ok.injEq]
    exact eq_comm

theorem wellFormed_of_valid {id : String} (h : KeyId.Valid id) (value : ByteArray) :
    WellFormed ⟨id.toUTF8, value⟩ :=
  h

theorem size_bytes (b : BoundPayload) : b.bytes.size = 1 + b.keyId.size + b.payload.size := by
  simp [bytes, ByteArray.size_append]

theorem byteAt_length (b : BoundPayload) : byteAt b.bytes 0 = UInt8.ofNat b.keyId.size := by
  rw [bytes, ByteArray.append_assoc, byteAt_append_left (by simp), byteAt_singleton]

theorem decode_bytes {b : BoundPayload} (h : b.WellFormed) : decode b.bytes = .ok b := by
  have hlen : (byteAt b.bytes 0).toNat = b.keyId.size := by
    rw [byteAt_length, toNat_lengthByte h.2]
  have hpos := h.1
  have hsize := size_bytes b
  have hid : b.bytes.extract 1 (1 + b.keyId.size) = b.keyId := extract_middle (by simp) (by simp)
  have hrest : b.bytes.extract (1 + b.keyId.size) b.bytes.size = b.payload :=
    extract_rest (by simp [ByteArray.size_append]) rfl
  simp only [decode, hlen, hid, hrest]
  rw [if_neg (by rw [minPayloadSize]; omega), if_neg (by omega), if_neg (by omega)]

/-- Reading accepts exactly the written forms. -/
theorem decode_eq_ok_iff {data : ByteArray} {b : BoundPayload} :
    decode data = .ok b ↔ b.WellFormed ∧ data = b.bytes := by
  constructor
  · intro h
    simp only [decode] at h
    split_ifs at h with hmin hzero hlen
    set n := (byteAt data 0).toNat with hn
    have hmin : 2 ≤ data.size := by rw [minPayloadSize] at hmin; omega
    have hbyte := (byteAt data 0).toNat_lt
    have hid : (data.extract 1 (1 + n)).size = n := by rw [ByteArray.size_extract]; omega
    cases h
    refine ⟨⟨?_, ?_⟩, ?_⟩
    · show 0 < (data.extract 1 (1 + n)).size
      omega
    · show (data.extract 1 (1 + n)).size ≤ 255
      omega
    · calc data = data.extract 0 data.size := ByteArray.extract_zero_size.symm
        _ = data.extract 0 1 ++ data.extract 1 (1 + n) ++ data.extract (1 + n) data.size := by
          rw [← ByteArray.extract_eq_extract_append_extract 1 (by omega) (by omega),
            ← ByteArray.extract_eq_extract_append_extract (1 + n) (by omega) (by omega)]
        _ = _ := by rw [bytes, hid, hn, lengthByte_toNat, extract_succ (by omega)]
  · rintro ⟨h, rfl⟩
    exact decode_bytes h

/-- No payload can imitate another key id. -/
theorem bound_injective {id id' : String} {value value' : ByteArray} (h : KeyId.Valid id)
    (h' : KeyId.Valid id') (he : bound id value = bound id' value') : id = id' ∧ value = value' := by
  have hb := decode_bytes (wellFormed_of_valid h value)
  have hb' := decode_bytes (wellFormed_of_valid h' value')
  rw [bound, bound] at he
  rw [he, hb'] at hb
  simp only [Except.ok.injEq, BoundPayload.mk.injEq] at hb
  exact ⟨(Text.Utf8.toUTF8_injective hb.1).symm, hb.2.symm⟩

end BoundPayload

end ColumnVault
