import ColumnVault.Proofs.Envelope.Grammar
import ColumnVault.Proofs.Vault.Written

/-! The two shapes of an operation. A call with the default key comes to what the call that names this key
comes to. An envelope is decrypted for a caller who names its key as it is for one who names none; naming
another key is an error of its own, which is found behind the faults of the header and before the key is
looked for. -/

namespace ColumnVault

theorem Envelope.peekKeyId_eq_map (data : ByteArray) :
    peekKeyId data = (decode data).map keyId := by
  rw [peekKeyId, decode]
  cases split data <;> rfl

namespace Vault

/-- A caller who names a key adds one check, right behind the header. -/
theorem decryptUnder_named (ring : KeyRing) (data : ByteArray) (id : String) :
    decryptUnder ring data (some id) = Envelope.peekKeyId data >>= fun named =>
      if named = id then decryptUnder ring data none else .error (.keyIdMismatch named id) := by
  rw [decryptUnder_some, decryptUnder_none, Envelope.peekKeyId_eq_map]
  cases Envelope.decode data with
  | error err => rfl
  | ok e =>
    show (if id ≠ e.keyId then _ else _) = if e.keyId = id then _ else _
    rw [ite_not]
    simp only [eq_comm]
    rfl

section Open
variable {source : KeySource} {v : Vault} {ring : KeyRing}

theorem Opened.encrypt_eq_encryptWithKey [Zstd.Encoder] (h : v.Opened source ring)
    (value : Option ByteArray) : v.encrypt value = v.encryptWithKey v.defaultId value := by
  rw [Vault.encrypt, Vault.encryptWithKey, h.ring_eq, h.ring_eq]

theorem Opened.blindIndex_eq_blindIndexWithKey (h : v.Opened source ring) (value : Option ByteArray) :
    v.blindIndex value = v.blindIndexWithKey v.defaultId value := by
  obtain ⟨keys, hkeys⟩ := h.exists_get h.default_mem
  rw [h.blindIndex_eq hkeys, h.blindIndexWithKey_eq hkeys]

theorem Opened.decryptWithKey_named (h : v.Opened source ring) (id : String) (data : ByteArray) :
    v.decryptWithKey id (some data) = .ofExcept (Envelope.peekKeyId data) >>= fun named =>
      if named = id then v.decrypt (some data) else .failure (.keyIdMismatch named id) := by
  rw [h.decryptWithKey_some, h.decrypt_some, decryptUnder_named]
  cases Envelope.peekKeyId data with
  | error err => rfl
  | ok named =>
    rw [ok_bind, Outcome.ofExcept_ok, Outcome.value_bind]
    split_ifs <;> rfl

end Open

/-- Encrypting and indexing are the same with the default key and with its id. Decrypting for a caller who
names a key is decrypting, if the header is legible and names this key, and otherwise the mismatch is told,
whether or not either id is active; an illegible header has one fault for both. So a caller who names a key
gets no value that one who names none would not get. -/
theorem shapes_agree [Zstd.Encoder] {source : KeySource} {v : Vault} (hv : v.OpenOn source) :
    (∀ value e, (v.encrypt value).run e = (v.encryptWithKey v.defaultId value).run e) ∧
    (∀ value, v.blindIndex value = v.blindIndexWithKey v.defaultId value) ∧
    ∀ id data,
      (Envelope.peekKeyId data = .ok id →
        v.decryptWithKey id (some data) = v.decrypt (some data)) ∧
      (∀ named, Envelope.peekKeyId data = .ok named → named ≠ id →
        v.decryptWithKey id (some data) = .failure (.keyIdMismatch named id)) ∧
      (∀ err, Envelope.peekKeyId data = .error err →
        (∃ fault : FormatFault, fault.OfEnvelope ∧ err = .invalidFormat fault) ∧
        v.decryptWithKey id (some data) = .failure err ∧ v.decrypt (some data) = .failure err) ∧
      ∀ value, v.decryptWithKey id (some data) = .value (some value) →
        v.decrypt (some data) = .value (some value) := by
  obtain ⟨ring, h⟩ := hv.opened
  refine ⟨fun value e => by rw [h.encrypt_eq_encryptWithKey], h.blindIndex_eq_blindIndexWithKey,
    fun id data => ?_⟩
  rw [h.decryptWithKey_named]
  refine ⟨fun hid => ?_, fun named hnamed hne => ?_, fun err herr => ⟨?_, ?_, ?_⟩, fun value hvalue => ?_⟩
  · rw [hid, Outcome.ofExcept_ok, Outcome.value_bind, if_pos rfl]
  · rw [hnamed, Outcome.ofExcept_ok, Outcome.value_bind, if_neg hne]
  · exact Envelope.ofEnvelope_of_peekKeyId herr
  · rw [herr]
    rfl
  · rw [h.decrypt_some, decryptUnder_none, Envelope.decode_eq_error_iff.2 herr]
    rfl
  · obtain ⟨named, -, hvalue⟩ := Outcome.bind_eq_value_iff.1 hvalue
    split_ifs at hvalue
    exact hvalue

/-- Neither the id in the header nor the id that the caller names is active: the mismatch is told before
the missing key. Bytes that are too short are told to be so, whoever asks. -/
theorem shapes_agree_twins :
    let v := Twins.vault "new" .initial
    let data := (⟨0, "gone", ⟨Bytes.replicate 24 9, by decide⟩, "c".toUTF8⟩ : Envelope).bytes
    v.OpenOn (Twins.source "new") ∧ "gone" ∉ v.activeIds ∧ "lost" ∉ v.activeIds ∧
      v.decryptWithKey "lost" (some data) = .failure (.keyIdMismatch "gone" "lost") ∧
      v.decryptWithKey "gone" (some data) = v.decrypt (some data) ∧
      v.decryptWithKey "new" (some "a".toUTF8) = .failure (.invalidFormat (.tooShort 1)) ∧
      v.blindIndex (some "a".toUTF8) = v.blindIndexWithKey "new" (some "a".toUTF8) := by
  intro v data
  have hv : v.OpenOn (Twins.source "new") := Twins.openOn (by decide) .initial
  obtain ⟨-, hindex, hdecrypt⟩ := shapes_agree hv
  have hpeek : Envelope.peekKeyId data = .ok "gone" :=
    Envelope.peekKeyId_bytes ⟨by decide, by decide⟩
  have hshort : Envelope.peekKeyId "a".toUTF8 = .error (.invalidFormat (.tooShort 1)) := rfl
  refine ⟨hv, by decide, by decide, ?_, ?_, ?_, hindex _⟩
  · exact (hdecrypt "lost" data).2.1 "gone" hpeek (by decide)
  · exact (hdecrypt "gone" data).1 hpeek
  · exact ((hdecrypt "new" "a".toUTF8).2.2.1 _ hshort).2.1

end Vault

end ColumnVault
