import ColumnVault.Proofs.Crypto.SecretBox
import ColumnVault.Proofs.Envelope.Codec
import ColumnVault.Proofs.Packing.RoundTrip
import ColumnVault.Proofs.Vault.Opening
import ColumnVault.Vault.Seal

/-! Which bytes decrypt, and to what. A value comes only from an envelope that names an active key,
whose ciphertext opens under that key, and in which the value is bound to that very key. -/

namespace ColumnVault.Vault

open Crypto Packing

/-- The value in what a ciphertext opened to, under the flag and the key id of its envelope. -/
def valueIn (flag : UInt8) (id : String) (packed : ByteArray) : Except Error ByteArray := do
  let content ← Algorithm.ofFlag flag >>= fun a => unpack a packed
  let bound ← BoundPayload.decode content
  if bound.keyId ≠ id.toUTF8 then
    throw (.keyIdMismatch id (Text.Utf8.decodeLossy bound.keyId))
  return bound.payload

/-- A value is found exactly if it is bound to the key id. -/
theorem valueIn_eq_ok_iff {flag : UInt8} {id : String} {packed value : ByteArray}
    (hid : KeyId.Valid id) :
    valueIn flag id packed = .ok value ↔ Holds flag packed (BoundPayload.bound id value) := by
  rw [valueIn, bind_eq_ok_iff]
  simp only [unpack_eq_ok_iff]
  constructor
  · rintro ⟨content, hholds, h⟩
    obtain ⟨bound, hbound, hvalue⟩ := bind_eq_ok h
    obtain ⟨-, rfl⟩ := BoundPayload.decode_eq_ok_iff.1 hbound
    by_cases hkey : bound.keyId = id.toUTF8
    · simp only [hkey, ne_eq, not_true_eq_false, if_false, pure_eq_ok, Except.ok.injEq] at hvalue
      rwa [BoundPayload.bound, ← hkey, ← hvalue]
    · rw [if_pos hkey] at hvalue
      cases hvalue
  · intro hholds
    refine ⟨_, hholds, ?_⟩
    have hdecode := BoundPayload.decode_bytes (BoundPayload.wellFormed_of_valid hid value)
    rw [BoundPayload.bound, hdecode, ok_bind, if_neg (not_not.2 rfl), pure_eq_ok]

/-- Decrypting a legible envelope: find its key, open its ciphertext, and take the value out. -/
def openEnvelope (ring : KeyRing) (e : Envelope) : Except Error ByteArray := do
  let keys ← ring.get e.keyId
  match SecretBox.decrypt? keys.encryption e.nonce.val e.ciphertext with
  | none => throw .decryptionFailed
  | some packed => valueIn e.flag e.keyId packed

/-- What decrypting does once the envelope is legible and names the key that is expected. -/
theorem openEnvelope_eq (ring : KeyRing) (e : Envelope) :
    (do
      let keys ← ring.get e.keyId
      match SecretBox.decrypt? keys.encryption e.nonce.val e.ciphertext with
      | none => throw .decryptionFailed
      | some packed =>
        let algorithm ← Algorithm.ofFlag e.flag
        let bound ← BoundPayload.decode (← unpack algorithm packed)
        if bound.keyId ≠ e.keyId.toUTF8 then
          throw (.keyIdMismatch e.keyId (Text.Utf8.decodeLossy bound.keyId))
        return bound.payload) = openEnvelope ring e := by
  rw [openEnvelope]
  congr 1
  funext keys
  congr 1
  funext packed
  rw [valueIn]
  cases Algorithm.ofFlag e.flag with
  | error fault => rfl
  | ok algorithm => rfl

theorem decryptUnder_none (ring : KeyRing) (data : ByteArray) :
    decryptUnder ring data none = Envelope.decode data >>= openEnvelope ring := by
  rw [decryptUnder]
  congr 1
  funext e
  exact openEnvelope_eq ring e

/-- A caller who names a key gets nothing from an envelope that names another. -/
theorem decryptUnder_some (ring : KeyRing) (data : ByteArray) (id : String) :
    decryptUnder ring data (some id) = Envelope.decode data >>= fun e =>
      if id ≠ e.keyId then .error (.keyIdMismatch e.keyId id) else openEnvelope ring e := by
  rw [decryptUnder]
  congr 1
  funext e
  by_cases h : id = e.keyId
  · rw [if_neg (not_not.2 h), ← openEnvelope_eq ring e]
    exact if_neg (not_not.2 h)
  · rw [if_pos h]
    exact if_pos h

theorem openEnvelope_eq_ok_iff {ring : KeyRing} {e : Envelope} {value : ByteArray}
    (hid : KeyId.Valid e.keyId) :
    openEnvelope ring e = .ok value ↔ ∃ keys packed, ring.get e.keyId = .ok keys ∧
      SecretBox.decrypt? keys.encryption e.nonce.val e.ciphertext = some packed ∧
      Holds e.flag packed (BoundPayload.bound e.keyId value) := by
  rw [openEnvelope, bind_eq_ok_iff]
  constructor
  · rintro ⟨keys, hkeys, h⟩
    split at h
    · cases h
    · next packed hpacked => exact ⟨keys, packed, hkeys, hpacked, (valueIn_eq_ok_iff hid).1 h⟩
  · rintro ⟨keys, packed, hkeys, hpacked, hholds⟩
    refine ⟨keys, hkeys, ?_⟩
    rw [hpacked]
    exact (valueIn_eq_ok_iff hid).2 hholds

/-- Bytes decrypt exactly if they are the written form of an envelope that opens and that names the key
the caller expects, if any. -/
theorem decryptUnder_eq_ok_iff {ring : KeyRing} {data value : ByteArray} {expected : Option String} :
    decryptUnder ring data expected = .ok value ↔ ∃ e : Envelope, e.WellFormed ∧ data = e.bytes ∧
      (∀ id ∈ expected, id = e.keyId) ∧ openEnvelope ring e = .ok value := by
  cases expected with
  | none => simp [decryptUnder_none, bind_eq_ok_iff, Envelope.decode_eq_ok_iff, and_assoc]
  | some id =>
    rw [decryptUnder_some, bind_eq_ok_iff]
    constructor
    · rintro ⟨e, he, h⟩
      obtain ⟨hwell, hdata⟩ := Envelope.decode_eq_ok_iff.1 he
      by_cases hid : id = e.keyId
      · rw [if_neg (not_not.2 hid)] at h
        exact ⟨e, hwell, hdata, by simpa using hid, h⟩
      · rw [if_pos hid] at h
        cases h
    · rintro ⟨e, hwell, hdata, hid, h⟩
      have hid : id = e.keyId := hid id rfl
      refine ⟨e, Envelope.decode_eq_ok_iff.2 ⟨hwell, hdata⟩, ?_⟩
      rw [if_neg (not_not.2 hid)]
      exact h

theorem decryptUnder_bytes {ring : KeyRing} {e : Envelope} (he : e.WellFormed) :
    decryptUnder ring e.bytes none = openEnvelope ring e := by
  rw [decryptUnder_none, Envelope.decode_bytes he, ok_bind]

/-- Whichever key the caller expects, the value is that of the envelope. -/
theorem openEnvelope_of_decryptUnder {ring : KeyRing} {e : Envelope} (he : e.WellFormed)
    {expected : Option String} {value : ByteArray}
    (h : decryptUnder ring e.bytes expected = .ok value) : openEnvelope ring e = .ok value := by
  obtain ⟨e', he', hbytes, -, hopen⟩ := decryptUnder_eq_ok_iff.1 h
  rwa [Envelope.bytes_injective he he' hbytes]

/-- Decrypting with or without a key that the caller names. -/
def decryptExpecting (v : Vault) (expected : Option String) (data : Option ByteArray) :
    Outcome (Option ByteArray) :=
  match expected with
  | none => v.decrypt data
  | some id => v.decryptWithKey id data

section Open
variable {source : KeySource} {v : Vault} {ring : KeyRing}

theorem Opened.decryptExpecting_some (h : v.Opened source ring) (expected : Option String)
    (data : ByteArray) : v.decryptExpecting expected (some data) =
      Outcome.ofExcept ((decryptUnder ring data expected).map some) := by
  cases expected with
  | none =>
    rw [decryptExpecting, Vault.decrypt, h.ring_eq]
    cases hd : decryptUnder ring data none <;> simp [hd, Except.map]
  | some id =>
    rw [decryptExpecting, Vault.decryptWithKey, h.ring_eq]
    cases hd : decryptUnder ring data (some id) <;> simp [hd, Except.map]

theorem Opened.decrypt_some (h : v.Opened source ring) (data : ByteArray) :
    v.decrypt (some data) = .ofExcept ((decryptUnder ring data none).map some) :=
  h.decryptExpecting_some none data

theorem Opened.decryptWithKey_some (h : v.Opened source ring) (id : String) (data : ByteArray) :
    v.decryptWithKey id (some data) = .ofExcept ((decryptUnder ring data (some id)).map some) :=
  h.decryptExpecting_some (some id) data

theorem Opened.decryptExpecting_eq_value_iff (h : v.Opened source ring) {expected : Option String}
    {data value : ByteArray} : v.decryptExpecting expected (some data) = .value (some value) ↔
      decryptUnder ring data expected = .ok value := by
  rw [h.decryptExpecting_some, Outcome.ofExcept_eq_value_iff]
  cases decryptUnder ring data expected <;> simp [Except.map]

theorem Opened.decrypt_eq_value_iff (h : v.Opened source ring) {data value : ByteArray} :
    v.decrypt (some data) = .value (some value) ↔ decryptUnder ring data none = .ok value := by
  rw [← h.decryptExpecting_eq_value_iff]
  rfl

theorem Opened.decryptWithKey_eq_value_iff (h : v.Opened source ring) {id : String}
    {data value : ByteArray} : v.decryptWithKey id (some data) = .value (some value) ↔
      decryptUnder ring data (some id) = .ok value := by
  rw [← h.decryptExpecting_eq_value_iff]
  rfl

end Open

/-- An envelope of a value that is bound to an active key: a flag byte, a length byte, the key id, the
nonce, and a ciphertext that opens under the key to bytes which hold the value behind that same id. -/
structure WellBound (source : KeySource) (v : Vault) (expected : Option String)
    (data value : ByteArray) (flag length : UInt8) (id : String) (nonce ciphertext packed : ByteArray) :
    Prop where
  data_eq : data = [flag, length].toByteArray ++ id.toUTF8 ++ nonce ++ ciphertext
  length_pos : 1 ≤ length.toNat
  id_size : id.toUTF8.size = length.toNat
  active : id ∈ v.activeIds
  expected : ∀ i ∈ expected, i = id
  nonce_size : nonce.size = 24
  ciphertext_pos : 0 < ciphertext.size
  opens : ∃ master, source.masterKey id = .ok master ∧
    SecretBox.decrypt? (Subkeys.ofMaster master).encryption nonce ciphertext = some packed
  holds : flag = 0 ∧ packed = BoundPayload.bound id value ∨
    flag = 1 ∧ Zstd.IsFrame packed (BoundPayload.bound id value) ∧
      (BoundPayload.bound id value).size ≤ 64 * 1024 * 1024

/-- A vault gives a value for exactly the envelopes in which it is bound to an active key, and no flag
but the first two ever leads to one. -/
theorem decryptExpecting_eq_value_iff_wellBound {source : KeySource} {v : Vault}
    (h : v.OpenOn source) (expected : Option String) (data value : ByteArray) :
    (v.decryptExpecting expected (some data) = .value (some value) ↔
      ∃ flag length id nonce ciphertext packed,
        WellBound source v expected data value flag length id nonce ciphertext packed) ∧
    (v.decryptExpecting expected (some data) = .value (some value) →
      Bytes.byteAt data 0 = 0 ∨ Bytes.byteAt data 0 = 1) := by
  obtain ⟨ring, h⟩ := h.opened
  rw [h.decryptExpecting_eq_value_iff, decryptUnder_eq_ok_iff]
  refine ⟨⟨?_, ?_⟩, ?_⟩
  · rintro ⟨e, hwell, hdata, hexpected, hopen⟩
    obtain ⟨keys, packed, hkeys, hpacked, hholds⟩ := (openEnvelope_eq_ok_iff hwell.keyId).1 hopen
    obtain ⟨hactive, master, hmaster, -, rfl⟩ := h.get_eq_ok_iff.1 hkeys
    have hlength := Bytes.toNat_lengthByte hwell.keyId.2
    refine ⟨e.flag, UInt8.ofNat e.keyId.utf8ByteSize, e.keyId, e.nonce.val, e.ciphertext, packed, ?_⟩
    exact {
      data_eq := hdata
      length_pos := by rw [hlength]; exact hwell.keyId.1
      id_size := hlength.symm
      active := hactive
      expected := hexpected
      nonce_size := e.nonce.property
      ciphertext_pos := hwell.ciphertext
      opens := ⟨master, hmaster, hpacked⟩
      holds := hholds }
  · rintro ⟨flag, length, id, nonce, ciphertext, packed, hb⟩
    obtain ⟨master, hmaster, hpacked⟩ := hb.opens
    obtain ⟨master', hmaster', hsize, hkeys⟩ := h.exists_master hb.active
    rw [hmaster] at hmaster'
    cases hmaster'
    have hlength : UInt8.ofNat id.utf8ByteSize = length := by
      rw [← Text.Utf8.size_toUTF8, hb.id_size, Bytes.lengthByte_toNat]
    have hvalid := h.valid hb.active
    refine ⟨⟨flag, id, ⟨nonce, hb.nonce_size⟩, ciphertext⟩, ⟨hvalid, hb.ciphertext_pos⟩, ?_,
      hb.expected, ?_⟩
    · rw [Envelope.bytes, hlength]
      exact hb.data_eq
    · exact (openEnvelope_eq_ok_iff hvalid).2 ⟨_, packed, hkeys, hpacked, hb.holds⟩
  · rintro ⟨e, hwell, rfl, -, hopen⟩
    obtain ⟨keys, packed, -, -, hholds⟩ := (openEnvelope_eq_ok_iff hwell.keyId).1 hopen
    rw [Envelope.byteAt_flag]
    exact hholds.imp And.left And.left

/-- The frame that `zstd` makes of the text under the older of the two ids. -/
def Twins.frame : ByteArray :=
  [0x28, 0xb5, 0x2f, 0xfd, 32, 28, 93, 0, 0, 40, 3, 111, 108, 100, 97, 1, 0, 53, 208, 2].toByteArray

/-- Two envelopes under the older of two ids, in a vault whose default is the newer one: one holds its
payload as it is, and the other as a frame. -/
theorem decryptExpecting_older_id :
    let v := Twins.vault "new" .initial
    let envelope (flag : UInt8) (packed : ByteArray) : ByteArray :=
      [flag, 3].toByteArray ++ "old".toUTF8 ++ Bytes.replicate 24 9 ++
        SecretBox.encrypt (Subkeys.ofMaster Twins.master).encryption (Bytes.replicate 24 9) packed
    v.OpenOn (Twins.source "new") ∧
      v.decryptExpecting (some "old") (some (envelope 0 (BoundPayload.bound "old" "alice".toUTF8))) =
        .value (some "alice".toUTF8) ∧
      v.decryptExpecting (some "old") (some (envelope 1 Twins.frame)) =
        .value (some Twins.text.toUTF8) := by
  intro v envelope
  have hopen : v.OpenOn (Twins.source "new") := Twins.openOn (by decide) .initial
  have hbound {flag : UInt8} {packed value : ByteArray}
      (hholds : Packing.Holds flag packed (BoundPayload.bound "old" value)) :
      WellBound (Twins.source "new") v (some "old") (envelope flag packed) value flag 3 "old"
        (Bytes.replicate 24 9) (SecretBox.encrypt (Subkeys.ofMaster Twins.master).encryption
          (Bytes.replicate 24 9) packed) packed := {
    data_eq := rfl
    length_pos := by decide
    id_size := by decide
    active := by decide
    expected := by simp
    nonce_size := by decide
    ciphertext_pos := by rw [SecretBox.size_encrypt, SecretBox.tagSize]; omega
    opens := ⟨Twins.master, Twins.masterKey_eq (by decide), SecretBox.decrypt?_encrypt _ _ _⟩
    holds := hholds }
  have hframe : Zstd.decode 28 Twins.frame = .ok (BoundPayload.bound "old" Twins.text.toUTF8) := by
    decide +kernel
  refine ⟨hopen, ?_, ?_⟩
  · exact (decryptExpecting_eq_value_iff_wellBound hopen _ _ _).1.2
      ⟨_, _, _, _, _, _, hbound (.inl ⟨rfl, rfl⟩)⟩
  · exact (decryptExpecting_eq_value_iff_wellBound hopen _ _ _).1.2
      ⟨_, _, _, _, _, _, hbound (.inr ⟨rfl, ⟨_, hframe⟩, by decide⟩)⟩

end ColumnVault.Vault
