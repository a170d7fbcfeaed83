import ColumnVault.Proofs.Envelope.Codec

/-! The layout of a bound payload, said without the functions that write and read it. Reading accepts
exactly the layout, cuts the bytes in place without ever cutting behind their end, and refuses all else for
a fault of the format. A payload cannot pass for one that is bound to another key id. -/

namespace ColumnVault

namespace Bytes

/-- The bytes before a place and those from it on. There is no cut behind the end. -/
def splitOff? (data : ByteArray) (place : Nat) : Option (ByteArray × ByteArray) :=
  if place ≤ data.size then some (data.extract 0 place, data.extract place data.size) else none

/-- The bytes behind the first, if there is a first. -/
def removeFirst? (data : ByteArray) : Option ByteArray :=
  if 0 < data.size then some (data.extract 1 data.size) else none

end Bytes

open Bytes

/-- A fault in what a ciphertext opens to. -/
inductive FormatFault.OfPayload : FormatFault → Prop
  | tooShort (size : Nat) : OfPayload (.payloadTooShort size)
  | noKeyId : OfPayload .payloadNoKeyId
  | truncated : OfPayload .payloadTruncated

namespace BoundPayload

/-- Bytes are a length byte that is not zero, a key id of that many bytes, and a payload. -/
structure Layout (data : ByteArray) (b : BoundPayload) (length : UInt8) : Prop where
  parts : data = [length].toByteArray ++ b.keyId ++ b.payload
  length_pos : 1 ≤ length.toNat
  keyId : b.keyId.size = length.toNat

/-- The layout leaves no choice: the length byte is that of the key id. -/
theorem exists_layout_iff {data : ByteArray} {b : BoundPayload} :
    (∃ length, Layout data b length) ↔ b.WellFormed ∧ data = b.bytes := by
  constructor
  · rintro ⟨length, h⟩
    have hlength : UInt8.ofNat b.keyId.size = length := by rw [h.keyId, lengthByte_toNat]
    have hbyte := length.toNat_lt
    have hsize := h.keyId
    have hpos := h.length_pos
    refine ⟨⟨by omega, ?_⟩, ?_⟩
    · show b.keyId.size ≤ 255
      omega
    · rw [bytes, hlength]
      exact h.parts
  · rintro ⟨hwell, hdata⟩
    have hlength := toNat_lengthByte hwell.2
    refine ⟨UInt8.ofNat b.keyId.size, hdata, ?_, hlength.symm⟩
    rw [hlength]
    exact hwell.1

theorem ofPayload_of_decode {data : ByteArray} {err : Error} (h : decode data = .error err) :
    ∃ fault : FormatFault, fault.OfPayload ∧ err = .invalidFormat fault := by
  rw [decode] at h
  dsimp only at h
  split_ifs at h <;> cases h
  · exact ⟨_, .tooShort _, rfl⟩
  · exact ⟨_, .noKeyId, rfl⟩
  · exact ⟨_, .truncated, rfl⟩

theorem encode_of_not_valid {id : String} (h : ¬KeyId.Valid id) (payload : ByteArray) :
    ∃ fault, encode id payload = .error (.invalidKeyId fault) := by
  cases hid : KeyId.check id with
  | ok => exact absurd (KeyId.check_eq_ok_iff.1 hid) h
  | error fault => exact ⟨fault, by rw [encode, hid]⟩

/-! ### Cutting in place -/

/-- The payload is split off behind the key id, and then the length byte is taken away. -/
def cut? (data : ByteArray) : Option BoundPayload := do
  let (front, payload) ← splitOff? data (1 + (byteAt data 0).toNat)
  let keyId ← removeFirst? front
  return ⟨keyId, payload⟩

/-- Reading with cuts in place; nothing comes of it where a cut is out of range. -/
def decodeInPlace (data : ByteArray) : Option (Except Error BoundPayload) :=
  if data.size < minPayloadSize then some (.error (.invalidFormat (.payloadTooShort data.size)))
  else if (byteAt data 0).toNat = 0 then some (.error (.invalidFormat .payloadNoKeyId))
  else if data.size < 1 + (byteAt data 0).toNat then some (.error (.invalidFormat .payloadTruncated))
  else (cut? data).map .ok

theorem cut?_eq {data : ByteArray} (h : 1 + (byteAt data 0).toNat ≤ data.size) :
    cut? data = some ⟨data.extract 1 (1 + (byteAt data 0).toNat),
      data.extract (1 + (byteAt data 0).toNat) data.size⟩ := by
  have hfront : (data.extract 0 (1 + (byteAt data 0).toNat)).size = 1 + (byteAt data 0).toNat := by
    rw [ByteArray.size_extract]
    omega
  have hfirst : removeFirst? (data.extract 0 (1 + (byteAt data 0).toNat)) =
      some (data.extract 1 (1 + (byteAt data 0).toNat)) := by
    rw [removeFirst?, if_pos (by omega), hfront, ByteArray.extract_extract, Nat.zero_add, Nat.zero_add,
      Nat.min_self]
  rw [cut?, splitOff?, if_pos h, Option.bind_eq_bind, Option.bind_some]
  dsimp only
  rw [hfirst]
  rfl

/-- No cut is out of range, and the cuts give what reading gives. -/
theorem decodeInPlace_eq (data : ByteArray) : decodeInPlace data = some (decode data) := by
  rw [decodeInPlace, decode]
  dsimp only
  split_ifs with hmin hzero hlength
  · rfl
  · rfl
  · rfl
  · rw [cut?_eq (Nat.not_lt.1 hlength)]
    rfl

/-! ### Both ways -/

/-- A key id of 1 to 255 bytes is bound to any payload, and reading gives both back; no other id is bound to
anything. Reading accepts exactly the layout, of which bytes have one reading at most, and refuses all
else for a fault of the format; done in place, it makes no cut out of range. Bytes that are written
for two pairs are written for one. -/
theorem binding_exact (id : String) (payload data : ByteArray) :
    (1 ≤ id.toUTF8.size ∧ id.toUTF8.size ≤ 255 → ∃ written, encode id payload = .ok written ∧
        written = [UInt8.ofNat id.toUTF8.size].toByteArray ++ id.toUTF8 ++ payload ∧
        decode written = .ok ⟨id.toUTF8, payload⟩) ∧
      (¬(1 ≤ id.toUTF8.size ∧ id.toUTF8.size ≤ 255) →
        ∃ fault, encode id payload = .error (.invalidKeyId fault)) ∧
      (∀ b, decode data = .ok b ↔ ∃ length, Layout data b length) ∧
      (∀ b b' length length', Layout data b length → Layout data b' length' →
        b = b' ∧ length = length') ∧
      ((¬∃ b length, Layout data b length) → ∃ fault : FormatFault, fault.OfPayload ∧
        decode data = .error (.invalidFormat fault)) ∧
      decodeInPlace data = some (decode data) ∧
      ∀ id' payload', encode id payload = .ok data → encode id' payload' = .ok data →
        id = id' ∧ payload = payload' := by
  have hread (b : BoundPayload) : decode data = .ok b ↔ ∃ length, Layout data b length :=
    decode_eq_ok_iff.trans exists_layout_iff.symm
  refine ⟨fun hid => ?_, fun hid => encode_of_not_valid hid payload, hread, fun b b' n n' h h' => ?_,
    fun hnone => ?_, decodeInPlace_eq data, fun id' payload' h h' => ?_⟩
  · exact ⟨bound id payload, encode_eq_ok_iff.2 ⟨hid, rfl⟩, rfl, decode_bytes (wellFormed_of_valid hid _)⟩
  · have hb := (hread b).2 ⟨n, h⟩
    have hb' := (hread b').2 ⟨n', h'⟩
    cases hb.symm.trans hb'
    exact ⟨rfl, UInt8.toNat_inj.1 (h.keyId.symm.trans h'.keyId)⟩
  · cases hdata : decode data with
    | ok b => exact absurd ⟨b, (hread b).1 hdata⟩ hnone
    | error err =>
      obtain ⟨fault, hfault, rfl⟩ := ofPayload_of_decode hdata
      exact ⟨fault, hfault, rfl⟩
  · obtain ⟨hid, rfl⟩ := encode_eq_ok_iff.1 h
    obtain ⟨hid', hsame⟩ := encode_eq_ok_iff.1 h'
    exact bound_injective hid hid' hsame

/-- The ids and payloads `a`, `bc` and `ab`, `c` come to the same text, but not to the same bytes. -/
theorem binding_exact_same_text : (1 ≤ "a".toUTF8.size ∧ "a".toUTF8.size ≤ 255) ∧
    ∃ written, encode "a" "bc".toUTF8 = .ok written ∧ decode written = .ok ⟨"a".toUTF8, "bc".toUTF8⟩ ∧
      encode "ab" "c".toUTF8 ≠ .ok written := by
  have hid : 1 ≤ "a".toUTF8.size ∧ "a".toUTF8.size ≤ 255 := by decide
  obtain ⟨written, hwritten, -, hread⟩ := (binding_exact "a" "bc".toUTF8 .empty).1 hid
  refine ⟨hid, written, hwritten, hread, fun hother => ?_⟩
  obtain ⟨-, -, -, -, -, -, hinjective⟩ := binding_exact "a" "bc".toUTF8 written
  exact absurd (hinjective "ab" _ hwritten hother).1 (by decide)

end BoundPayload

end ColumnVault
