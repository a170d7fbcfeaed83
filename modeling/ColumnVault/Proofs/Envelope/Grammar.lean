import ColumnVault.Proofs.Envelope.Codec

/-! The grammar of envelopes, said without the functions that write and read them. Both ways between
envelopes and bytes are open exactly on the grammar, and each undoes the other. All that does not fit the
grammar is refused for a fault of its header, by the whole reader and by the one that stops at the key id. -/

namespace ColumnVault

open Bytes

/-- A fault in what stands around a ciphertext, not in what it holds. -/
inductive FormatFault.OfEnvelope : FormatFault → Prop
  | tooShort (size : Nat) : OfEnvelope (.tooShort size)
  | noKeyId : OfEnvelope .noKeyId
  | truncated : OfEnvelope .truncated
  | keyIdNotUtf8 (fault : Text.Utf8.Fault) : OfEnvelope (.keyIdNotUtf8 fault)

namespace Envelope

/-- Bytes are a flag byte, a length byte that is not zero, a key id of that many bytes, a nonce, and at
least one byte of ciphertext. -/
structure Layout (data : ByteArray) (e : Envelope) (length : UInt8) : Prop where
  parts : data = [e.flag, length].toByteArray ++ e.keyId.toUTF8 ++ e.nonce.val ++ e.ciphertext
  length_pos : 1 ≤ length.toNat
  keyId : e.keyId.toUTF8.size = length.toNat
  ciphertext : 1 ≤ e.ciphertext.size

/-- The grammar leaves no choice: the length byte is that of the key id. -/
theorem exists_layout_iff {data : ByteArray} {e : Envelope} :
    (∃ length, Layout data e length) ↔ e.WellFormed ∧ data = e.bytes := by
  constructor
  · rintro ⟨length, h⟩
    have hlength : UInt8.ofNat e.keyId.utf8ByteSize = length := by
      rw [← Text.Utf8.size_toUTF8, h.keyId, lengthByte_toNat]
    have hbyte := length.toNat_lt
    have hsize := h.keyId
    have hpos := h.length_pos
    rw [Text.Utf8.size_toUTF8] at hsize
    refine ⟨⟨⟨by omega, ?_⟩, h.ciphertext⟩, ?_⟩
    · show e.keyId.utf8ByteSize ≤ 255
      omega
    · rw [bytes, hlength]
      exact h.parts
  · rintro ⟨hwell, hdata⟩
    have hlength := toNat_lengthByte hwell.keyId.2
    refine ⟨UInt8.ofNat e.keyId.utf8ByteSize, hdata, ?_, hlength.symm, hwell.ciphertext⟩
    rw [hlength]
    exact hwell.keyId.1

/-! ### Reading the header alone -/

/-- The key id is told by the size of the bytes, their second byte, and the bytes behind it. -/
theorem peekKeyId_eq (data : ByteArray) :
    peekKeyId data =
      let n := (byteAt data 1).toNat
      if data.size < minEnvelopeSize then .error (.invalidFormat (.tooShort data.size))
      else if n = 0 then .error (.invalidFormat .noKeyId)
      else if data.size < 2 + (n + nonceSize + 1) then .error (.invalidFormat .truncated)
      else
        match Text.Utf8.decode (data.extract 2 (2 + n)) with
        | .error fault => .error (.invalidFormat (.keyIdNotUtf8 fault))
        | .ok id => .ok id := by
  simp only [peekKeyId, split]
  split_ifs
  · rfl
  · rfl
  · rfl
  · cases Text.Utf8.decode (data.extract 2 (2 + (byteAt data 1).toNat)) <;> rfl

theorem ofEnvelope_of_peekKeyId {data : ByteArray} {err : Error} (h : peekKeyId data = .error err) :
    ∃ fault : FormatFault, fault.OfEnvelope ∧ err = .invalidFormat fault := by
  rw [peekKeyId_eq] at h
  dsimp only at h
  split_ifs at h
  · cases h
    exact ⟨_, .tooShort _, rfl⟩
  · cases h
    exact ⟨_, .noKeyId, rfl⟩
  · cases h
    exact ⟨_, .truncated, rfl⟩
  · split at h
    · cases h
      exact ⟨_, .keyIdNotUtf8 _, rfl⟩
    · cases h

/-- The whole reader fails where the header does, and for the same fault. -/
theorem decode_eq_error_iff {data : ByteArray} {err : Error} :
    decode data = .error err ↔ peekKeyId data = .error err := by
  rw [decode, peekKeyId]
  cases split data <;> simp

/-! ### Both ways -/

/-- Reading accepts exactly the grammar, and writing is its inverse: an envelope is written as the bytes
from which it is read, and the header alone tells its key id. Under any flag there are such bytes for every
key id of 1 to 255 bytes and every ciphertext that is not empty, and for nothing else. What is not of the
grammar is refused by both readers for one fault of its header. -/
theorem codec_onto_grammar (data : ByteArray) (e : Envelope) :
    (decode data = .ok e ↔ ∃ length, Layout data e length) ∧
      (e.encode = .ok data ↔ decode data = .ok e) ∧
      (decode data = .ok e → peekKeyId data = .ok e.keyId) ∧
      ((∃ data, e.encode = .ok data) ↔
        (1 ≤ e.keyId.toUTF8.size ∧ e.keyId.toUTF8.size ≤ 255) ∧ 1 ≤ e.ciphertext.size) ∧
      ((¬∃ e length, Layout data e length) → ∃ fault : FormatFault, fault.OfEnvelope ∧
        decode data = .error (.invalidFormat fault) ∧
        peekKeyId data = .error (.invalidFormat fault)) := by
  have hread (e : Envelope) : decode data = .ok e ↔ ∃ length, Layout data e length :=
    decode_eq_ok_iff.trans exists_layout_iff.symm
  refine ⟨hread e, encode_eq_ok_iff.trans decode_eq_ok_iff.symm, fun h => ?_, ⟨?_, ?_⟩, fun hnone => ?_⟩
  · obtain ⟨hwell, rfl⟩ := decode_eq_ok_iff.1 h
    exact peekKeyId_bytes hwell
  · rintro ⟨data, h⟩
    have hwell := (encode_eq_ok_iff.1 h).1
    exact ⟨hwell.keyId, hwell.ciphertext⟩
  · rintro ⟨hid, hciphertext⟩
    exact ⟨e.bytes, encode_bytes ⟨hid, hciphertext⟩⟩
  · cases hdata : decode data with
    | ok e => exact absurd ⟨e, (hread e).1 hdata⟩ hnone
    | error err =>
      have hpeek := decode_eq_error_iff.1 hdata
      obtain ⟨fault, hfault, rfl⟩ := ofEnvelope_of_peekKeyId hpeek
      exact ⟨fault, hfault, rfl, hpeek⟩

end Envelope

end ColumnVault
