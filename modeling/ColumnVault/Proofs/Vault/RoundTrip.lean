import ColumnVault.Proofs.Vault.Written

/-! The round trip. What one vault encrypts under a key, every vault that has this key decrypts, however
each of them packs its values. -/

namespace ColumnVault.Vault

/-- A vault gets the value back from an envelope, whether or not the caller names the key. -/
def ReadsBack (v : Vault) (id : String) (value envelope : ByteArray) : Prop :=
  v.decrypt (some envelope) = .value (some value) ∧
    v.decryptWithKey id (some envelope) = .value (some value)

section Encrypting
variable [Zstd.Encoder]

/-- An envelope that was written under some policy is read by every vault that has its keys. -/
theorem Opened.readsBack_written {source : KeySource} {v : Vault} {ring : KeyRing}
    (h : v.Opened source ring) {keys : Subkeys} {id : String}
    (hkeys : ring.get id = .ok keys) (policy : Policy) (value : ByteArray) (nonce : Nonce) :
    v.ReadsBack id value (written policy keys id value nonce).bytes := by
  have hid : KeyId.Valid id := h.valid (h.get_eq_ok_iff.1 hkeys).1
  have hwell := written_wellFormed policy keys hid value nonce
  have hopen := openEnvelope_written policy hid hkeys rfl value nonce
  constructor
  · rw [h.decrypt_eq_value_iff]
    exact decryptUnder_eq_ok_iff.2 ⟨_, hwell, rfl, by simp, hopen⟩
  · rw [h.decryptWithKey_eq_value_iff]
    exact decryptUnder_eq_ok_iff.2 ⟨_, hwell, rfl, by simp [written], hopen⟩

/-- Whatever a vault encrypts under a key, by whichever operation and under whichever policy, is read
back by every vault that has the same master key for its id, under whichever policy. -/
theorem readsBack_of_same_master {sourceA sourceB : KeySource} {A B : Vault} {id : String}
    (hA : A.OpenOn sourceA) (hB : B.OpenOn sourceB) (hidA : id ∈ A.activeIds)
    (hidB : id ∈ B.activeIds) (hmaster : sourceA.masterKey id = sourceB.masterKey id)
    (value : ByteArray) {e : Entropy} (he : 24 ≤ e.pool.size) :
    (∃ data, ((A.encryptWithKey id (some value)).run e).1 = .value (some data) ∧
      B.ReadsBack id value data) ∧
    (id = A.defaultId →
      (∃ data, ((A.encrypt (some value)).run e).1 = .value (some data) ∧
        B.ReadsBack id value data) ∧
      (∃ row data, ((A.sealValue (some value)).run e).1 = .value row ∧
        row.ciphertext = some data ∧ B.ReadsBack id value data) ∧
      (∀ text normalizer normal, normalizer.apply text = .value normal →
        ∃ row data, ((A.sealText (some text) normalizer).run e).1 = .value row ∧
          row.ciphertext = some data ∧ B.ReadsBack id text.toUTF8 data) ∧
      ∀ envelope, A.decrypt (some envelope) = .value (some value) →
        ∃ data, ((A.rotate (some envelope)).run e).1 = .value (some data) ∧
          B.ReadsBack id value data) := by
  obtain ⟨ringA, hA⟩ := hA.opened
  obtain ⟨ringB, hB⟩ := hB.opened
  obtain ⟨keys, hkeys⟩ := hA.exists_get hidA
  have hkeysB : ringB.get id = .ok keys := by
    rw [← hA.get_eq_get hB hidA hidB hmaster]
    exact hkeys
  have hread (value : ByteArray) := hB.readsBack_written hkeysB A.policy value (e.next 24 he)
  refine ⟨⟨_, congrArg Prod.fst (hA.encryptWithKey_run hkeys value he), hread value⟩, ?_⟩
  rintro rfl
  refine ⟨?_, ?_, ?_, ?_⟩
  · exact ⟨_, congrArg Prod.fst (hA.encrypt_run hkeys value he), hread value⟩
  · exact ⟨_, _, congrArg Prod.fst (hA.sealValue_run hkeys value he), rfl, hread value⟩
  · intro text normalizer normal hnormal
    exact ⟨_, _, congrArg Prod.fst (hA.sealText_run hkeys hnormal he), rfl, hread text.toUTF8⟩
  · intro envelope hvalue
    exact ⟨_, congrArg Prod.fst (hA.rotate_run hkeys hvalue he), hread value⟩

end Encrypting

/-- The writer packs and has the older id as its default, the reader does neither. What the writer packs is
read back, and so is what is too small to be packed. -/
theorem readsBack_between_twins :
    let A := Twins.vault "old" Twins.packing
    let B := Twins.vault "new" Policy.initial.withoutPacking
    A.OpenOn (Twins.source "old") ∧ B.OpenOn (Twins.source "new") ∧
      (∃ data, ((A.encryptWithKey "old" (some Twins.text.toUTF8)).run
          ⟨Bytes.replicate 24 9, ""⟩).1 = .value (some data) ∧ Bytes.byteAt data 0 = 1 ∧
        B.ReadsBack "old" Twins.text.toUTF8 data) ∧
      ∃ row data, ((A.sealText (some " Alice") .email).run ⟨Bytes.replicate 24 9, ""⟩).1 = .value row ∧
        row.ciphertext = some data ∧ B.ReadsBack "old" " Alice".toUTF8 data := by
  intro A B
  have hA : A.OpenOn (Twins.source "old") := Twins.openOn (by decide) Twins.packing
  have hB : B.OpenOn (Twins.source "new") := Twins.openOn (by decide) _
  have hmaster : (Twins.source "old").masterKey "old" = (Twins.source "new").masterKey "old" := by
    rw [Twins.masterKey_eq (by decide), Twins.masterKey_eq (by decide)]
  have hidA : "old" ∈ A.activeIds := by decide
  have hidB : "old" ∈ B.activeIds := by decide
  have he : 24 ≤ (Entropy.mk (Bytes.replicate 24 9) "").pool.size := by decide
  obtain ⟨⟨data, hdata, hread⟩, hdefault⟩ :=
    readsBack_of_same_master hA hB hidA hidB hmaster Twins.text.toUTF8 he
  obtain ⟨-, -, htext, -⟩ := hdefault rfl
  obtain ⟨ring, hopened⟩ := hA.opened
  obtain ⟨keys, hkeys⟩ := hopened.exists_get hidA
  have hflag : Bytes.byteAt data 0 = 1 := by
    rw [hopened.encryptWithKey_run hkeys Twins.text.toUTF8 he] at hdata
    cases hdata
    exact Twins.flag_text hidA keys _
  exact ⟨hA, hB, ⟨data, hdata, hflag, hread⟩, htext _ .email _ rfl⟩

end ColumnVault.Vault
