import ColumnVault.Proofs.Vault.Acceptance
import ColumnVault.Vault.Rotation

/-! What encrypting writes. Every operation that makes an envelope makes it the same way: the value is
bound to the id of its key, packed, and encrypted under a nonce that was drawn for it. -/

namespace ColumnVault.Vault

open Crypto Packing

/-! ### Indexes -/

section Indexes
variable {source : KeySource} {v : Vault} {ring : KeyRing} {keys : Subkeys}

theorem Opened.blindIndex_eq (h : v.Opened source ring)
    (hkeys : ring.get v.defaultId = .ok keys) (value : Option ByteArray) :
    v.blindIndex value = .value (value.map keys.blindIndex) := by
  rw [blindIndex, h.ring_eq, Outcome.value_bind, hkeys]
  rfl

theorem Opened.blindIndexWithKey_eq (h : v.Opened source ring) {id : String}
    (hkeys : ring.get id = .ok keys) (value : Option ByteArray) :
    v.blindIndexWithKey id value = .value (value.map keys.blindIndex) := by
  rw [blindIndexWithKey, h.ring_eq, Outcome.value_bind]
  cases value with
  | none => rfl
  | some value =>
    dsimp only
    rw [hkeys]
    rfl

theorem Opened.rotateIndex_eq (h : v.Opened source ring)
    (hkeys : ring.get v.defaultId = .ok keys) (value : Option ByteArray) :
    v.rotateIndex value = .value (value.map keys.blindIndex) :=
  h.blindIndex_eq hkeys value

theorem Opened.blindIndexText_some (h : v.Opened source ring)
    (hkeys : ring.get v.defaultId = .ok keys) (text : String) (normalizer : Normalizer) :
    v.blindIndexText (some text) normalizer =
      normalizer.apply text >>= fun normal => .value (some (keys.blindIndex normal.toUTF8)) := by
  rw [blindIndexText, h.ring_eq, Outcome.value_bind, hkeys]
  rfl

end Indexes

/-! ### Encrypting -/

section Encrypting
variable [Zstd.Encoder]

/-- The envelope of a value under the keys of an id and a nonce. -/
def written (policy : Policy) (keys : Subkeys) (id : String) (value : ByteArray) (nonce : Nonce) :
    Envelope :=
  ⟨(pack policy (BoundPayload.bound id value)).2.flag, id, nonce,
    SecretBox.encrypt keys.encryption nonce.val (pack policy (BoundPayload.bound id value)).1⟩

theorem written_wellFormed (policy : Policy) (keys : Subkeys) {id : String} (hid : KeyId.Valid id)
    (value : ByteArray) (nonce : Nonce) : (written policy keys id value nonce).WellFormed := by
  refine ⟨hid, ?_⟩
  rw [written, SecretBox.size_encrypt, SecretBox.tagSize]
  omega

/-- A written envelope opens wherever its id stands for the same encryption key. -/
theorem openEnvelope_written {ring : KeyRing} (policy : Policy) {keys keys' : Subkeys} {id : String}
    (hid : KeyId.Valid id) (hkeys : ring.get id = .ok keys')
    (hsame : keys'.encryption = keys.encryption) (value : ByteArray) (nonce : Nonce) :
    openEnvelope ring (written policy keys id value nonce) = .ok value := by
  refine (openEnvelope_eq_ok_iff hid).2 ⟨keys', _, hkeys, ?_, pack_holds policy _⟩
  rw [hsame]
  exact SecretBox.decrypt?_encrypt _ _ _

/-- With a key for the id, encrypting draws a nonce and writes the envelope under it. -/
theorem encryptUnder_eq {ring : KeyRing} (policy : Policy) {keys : Subkeys} {id : String}
    (hid : KeyId.Valid id) (hkeys : ring.get id = .ok keys) (value : ByteArray) :
    encryptUnder ring policy id value = Drawing.bytes nonceSize >>= fun nonce =>
      pure (written policy keys id value nonce).bytes := by
  have hbound : BoundPayload.encode id value = .ok (BoundPayload.bound id value) :=
    BoundPayload.encode_eq_ok_iff.2 ⟨hid, rfl⟩
  rw [encryptUnder, hkeys, hbound]
  simp only [Outcome.lift_eq, Outcome.ofExcept_ok, Drawing.lift_value_bind]
  congr 1
  funext nonce
  have hwritten := Envelope.encode_bytes (written_wellFormed policy keys hid value nonce)
  rw [written] at hwritten ⊢
  rw [hwritten, Outcome.ofExcept_ok, Drawing.lift_value]

theorem encryptUnder_run {ring : KeyRing} (policy : Policy) {keys : Subkeys} {id : String}
    (hid : KeyId.Valid id) (hkeys : ring.get id = .ok keys) (value : ByteArray) {e : Entropy}
    (he : nonceSize ≤ e.pool.size) :
    (encryptUnder ring policy id value).run e =
      (.value (written policy keys id value (e.next nonceSize he)).bytes, e.rest nonceSize) := by
  rw [encryptUnder_eq policy hid hkeys, Drawing.run_bind_value (Drawing.run_bytes_of_le he),
    Drawing.run_pure]

/-- Whatever encrypting gives is the written form of an envelope under a key of the ring. -/
theorem exists_written_of_encryptUnder {ring : KeyRing} {policy : Policy} {id : String}
    {value data : ByteArray} {e e' : Entropy}
    (h : (encryptUnder ring policy id value).run e = (.value data, e')) :
    ∃ keys nonce, ring.get id = .ok keys ∧ KeyId.Valid id ∧
      data = (written policy keys id value nonce).bytes := by
  rw [encryptUnder] at h
  obtain ⟨keys, _, hkeys, h⟩ := Drawing.run_bind_eq_value h
  obtain ⟨bound, _, hbound, h⟩ := Drawing.run_bind_eq_value h
  obtain ⟨nonce, _, -, h⟩ := Drawing.run_bind_eq_value h
  have hkeys := Drawing.lift_eq_value hkeys
  have hbound := Drawing.lift_eq_value hbound
  have hdata := Drawing.lift_eq_value h
  rw [Outcome.lift_eq, Outcome.ofExcept_eq_value_iff] at hkeys hbound hdata
  obtain ⟨hid, rfl⟩ := BoundPayload.encode_eq_ok_iff.1 hbound
  exact ⟨keys, nonce, hkeys, hid, (Envelope.encode_eq_ok_iff.1 hdata).2⟩

section Operations
variable {source : KeySource} {v : Vault} {ring : KeyRing}

theorem Opened.encrypt_some (h : v.Opened source ring) (value : ByteArray) :
    v.encrypt (some value) = encryptUnder ring v.policy v.defaultId value >>= fun data =>
      pure (some data) := by
  rw [Vault.encrypt, h.ring_eq]
  rfl

theorem Opened.encryptWithKey_some (h : v.Opened source ring) (id : String) (value : ByteArray) :
    v.encryptWithKey id (some value) = encryptUnder ring v.policy id value >>= fun data =>
      pure (some data) := by
  rw [Vault.encryptWithKey, h.ring_eq]
  rfl

theorem Opened.sealValue_some (h : v.Opened source ring) {keys : Subkeys}
    (hkeys : ring.get v.defaultId = .ok keys) (value : ByteArray) :
    v.sealValue (some value) = encryptUnder ring v.policy v.defaultId value >>= fun data =>
      pure ⟨some data, some (keys.blindIndex value), v.defaultId⟩ := by
  rw [Vault.sealValue, h.ring_eq, Drawing.lift_value_bind, hkeys]
  simp only [Outcome.lift_eq, Outcome.ofExcept_ok, Drawing.lift_value_bind, onValue,
    Drawing.seq_assoc, Drawing.pure_seq, Option.map_some]

theorem Opened.sealText_some (h : v.Opened source ring) {keys : Subkeys}
    (hkeys : ring.get v.defaultId = .ok keys) {normalizer : Normalizer} {text normal : String}
    (hnormal : normalizer.apply text = .value normal) :
    v.sealText (some text) normalizer =
      encryptUnder ring v.policy v.defaultId text.toUTF8 >>= fun data =>
        pure ⟨some data, some (keys.blindIndex normal.toUTF8), v.defaultId⟩ := by
  rw [sealText, Option.map_some, h.sealValue_some hkeys, h.blindIndexText_some hkeys, hnormal,
    Outcome.value_bind]
  simp only [Drawing.seq_assoc, Drawing.pure_seq, Drawing.lift_value_bind]

theorem Opened.rotate_some (h : v.Opened source ring) (envelope : ByteArray) :
    v.rotate (some envelope) =
      (liftM (Outcome.ofExcept (decryptUnder ring envelope none)) : Drawing ByteArray) >>= fun value =>
        encryptUnder ring v.policy v.defaultId value >>= fun data => pure (some data) := by
  rw [Vault.rotate, h.ring_eq, Drawing.lift_value_bind, onValue, Drawing.seq_assoc]
  rfl

/-- Moving is decrypting and then encrypting, also where there is no envelope. -/
theorem Opened.rotate_eq_seq (h : v.Opened source ring) (data : Option ByteArray) :
    v.rotate data = (liftM (v.decrypt data) : Drawing (Option ByteArray)) >>= v.encrypt := by
  cases data with
  | none =>
    have hencrypt : v.encrypt none = pure none := by
      rw [Vault.encrypt, h.ring_eq]
      rfl
    rw [Vault.rotate, Vault.decrypt, h.ring_eq]
    exact hencrypt.symm
  | some data =>
    rw [h.rotate_some, h.decrypt_some]
    cases decryptUnder ring data none with
    | error err => rfl
    | ok value => exact (h.encrypt_some value).symm

variable {keys : Subkeys} {e : Entropy}

theorem Opened.encryptWithKey_run (h : v.Opened source ring) {id : String}
    (hkeys : ring.get id = .ok keys) (value : ByteArray) (he : nonceSize ≤ e.pool.size) :
    (v.encryptWithKey id (some value)).run e =
      (.value (some (written v.policy keys id value (e.next nonceSize he)).bytes),
        e.rest nonceSize) := by
  have hid : KeyId.Valid id := h.valid (h.get_eq_ok_iff.1 hkeys).1
  rw [h.encryptWithKey_some, Drawing.run_bind_value (encryptUnder_run _ hid hkeys value he),
    Drawing.run_pure]

theorem Opened.encrypt_run (h : v.Opened source ring) (hkeys : ring.get v.defaultId = .ok keys)
    (value : ByteArray) (he : nonceSize ≤ e.pool.size) :
    (v.encrypt (some value)).run e =
      (.value (some (written v.policy keys v.defaultId value (e.next nonceSize he)).bytes),
        e.rest nonceSize) := by
  have hid := h.valid h.default_mem
  rw [h.encrypt_some, Drawing.run_bind_value (encryptUnder_run _ hid hkeys value he),
    Drawing.run_pure]

theorem Opened.sealValue_run (h : v.Opened source ring) (hkeys : ring.get v.defaultId = .ok keys)
    (value : ByteArray) (he : nonceSize ≤ e.pool.size) :
    (v.sealValue (some value)).run e =
      (.value ⟨some (written v.policy keys v.defaultId value (e.next nonceSize he)).bytes,
        some (keys.blindIndex value), v.defaultId⟩, e.rest nonceSize) := by
  have hid := h.valid h.default_mem
  rw [h.sealValue_some hkeys, Drawing.run_bind_value (encryptUnder_run _ hid hkeys value he),
    Drawing.run_pure]

theorem Opened.sealText_run (h : v.Opened source ring) (hkeys : ring.get v.defaultId = .ok keys)
    {normalizer : Normalizer} {text normal : String} (hnormal : normalizer.apply text = .value normal)
    (he : nonceSize ≤ e.pool.size) :
    (v.sealText (some text) normalizer).run e =
      (.value ⟨some (written v.policy keys v.defaultId text.toUTF8 (e.next nonceSize he)).bytes,
        some (keys.blindIndex normal.toUTF8), v.defaultId⟩, e.rest nonceSize) := by
  have hid := h.valid h.default_mem
  rw [h.sealText_some hkeys hnormal, Drawing.run_bind_value (encryptUnder_run _ hid hkeys _ he),
    Drawing.run_pure]

theorem Opened.rotate_run (h : v.Opened source ring) (hkeys : ring.get v.defaultId = .ok keys)
    {envelope value : ByteArray} (hvalue : v.decrypt (some envelope) = .value (some value))
    (he : nonceSize ≤ e.pool.size) :
    (v.rotate (some envelope)).run e =
      (.value (some (written v.policy keys v.defaultId value (e.next nonceSize he)).bytes),
        e.rest nonceSize) := by
  rw [h.rotate_eq_seq, hvalue, Drawing.lift_value_bind]
  exact h.encrypt_run hkeys value he

end Operations

/-! ### The envelopes of a vault -/

/-- An envelope that one of the operations wrote under a key, of any value and from any source of
random bytes. -/
inductive Wrote (v : Vault) : String → ByteArray → Prop
  | encrypt {value data : ByteArray} {e e' : Entropy}
      (run : (v.encrypt (some value)).run e = (.value (some data), e')) : Wrote v v.defaultId data
  | encryptWithKey {id : String} {value data : ByteArray} {e e' : Entropy}
      (run : (v.encryptWithKey id (some value)).run e = (.value (some data), e')) : Wrote v id data
  | sealValue {value data : ByteArray} {row : SealedValue} {e e' : Entropy}
      (run : (v.sealValue (some value)).run e = (.value row, e'))
      (ciphertext : row.ciphertext = some data) : Wrote v v.defaultId data
  | sealText {text : String} {normalizer : Normalizer} {data : ByteArray} {row : SealedValue}
      {e e' : Entropy} (run : (v.sealText (some text) normalizer).run e = (.value row, e'))
      (ciphertext : row.ciphertext = some data) : Wrote v v.defaultId data
  | rotate {envelope data : ByteArray} {e e' : Entropy}
      (run : (v.rotate (some envelope)).run e = (.value (some data), e')) : Wrote v v.defaultId data

/-- Bytes are the written form of an envelope of some value, under the keys of an id. -/
def IsWritten (ring : KeyRing) (policy : Policy) (id : String) (data : ByteArray) : Prop :=
  ∃ keys value nonce, ring.get id = .ok keys ∧ KeyId.Valid id ∧
    data = (written policy keys id value nonce).bytes

variable {source : KeySource} {v : Vault} {ring : KeyRing}

theorem IsWritten.of_encryptUnder {policy : Policy} {id : String} {value data : ByteArray}
    {e e' : Entropy} (h : (encryptUnder ring policy id value).run e = (.value data, e')) :
    IsWritten ring policy id data := by
  obtain ⟨keys, nonce, hwritten⟩ := exists_written_of_encryptUnder h
  exact ⟨keys, value, nonce, hwritten⟩

theorem IsWritten.of_some {policy : Policy} {id : String} {value data : ByteArray} {e e' : Entropy}
    (h : (encryptUnder ring policy id value >>= fun data => pure (some data)).run e =
      (.value (some data), e')) : IsWritten ring policy id data := by
  obtain ⟨data', _, hdata, h⟩ := Drawing.run_bind_eq_value h
  cases h
  exact of_encryptUnder hdata

theorem Opened.isWritten_of_sealValue (h : v.Opened source ring) {value data : ByteArray}
    {row : SealedValue} {e e' : Entropy} (run : (v.sealValue (some value)).run e = (.value row, e'))
    (hrow : row.ciphertext = some data) : IsWritten ring v.policy v.defaultId data := by
  obtain ⟨keys, hkeys⟩ := h.exists_get h.default_mem
  rw [h.sealValue_some hkeys] at run
  obtain ⟨data', _, hdata, run⟩ := Drawing.run_bind_eq_value run
  cases run
  cases hrow
  exact .of_encryptUnder hdata

/-- Whichever operation it was, it wrote the envelope of some value under a key of the ring. -/
theorem Opened.isWritten (h : v.Opened source ring) {id : String} {data : ByteArray}
    (hw : v.Wrote id data) : IsWritten ring v.policy id data := by
  cases hw with
  | encrypt run =>
    rw [h.encrypt_some] at run
    exact .of_some run
  | encryptWithKey run =>
    rw [h.encryptWithKey_some] at run
    exact .of_some run
  | sealValue run hrow => exact h.isWritten_of_sealValue run hrow
  | sealText run hrow =>
    rw [Vault.sealText] at run
    obtain ⟨row, _, hseal, run⟩ := Drawing.run_bind_eq_value run
    obtain ⟨index, _, -, run⟩ := Drawing.run_bind_eq_value run
    cases run
    exact h.isWritten_of_sealValue hseal hrow
  | rotate run =>
    rw [h.rotate_some] at run
    obtain ⟨value, _, -, run⟩ := Drawing.run_bind_eq_value run
    exact .of_some run

end Encrypting

/-! ### Values that are packed -/

namespace Twins

theorem pack_text : ∀ id ∈ ["old", "new"],
    (pack packing (BoundPayload.bound id text.toUTF8)).2 = .zstd := by decide +kernel

/-- The flag of an envelope of the text tells that it is packed. -/
theorem flag_text {id : String} (hid : id ∈ ["old", "new"]) (keys : Subkeys) (nonce : Nonce) :
    Bytes.byteAt (written packing keys id text.toUTF8 nonce).bytes 0 = 1 := by
  rw [Envelope.byteAt_flag, written, pack_text id hid]
  rfl

end Twins

end ColumnVault.Vault
