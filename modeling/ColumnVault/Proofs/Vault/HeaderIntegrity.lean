import ColumnVault.Proofs.Vault.Written
import ColumnVault.Proofs.Zstd.Marks

/-! The header is outside what the cipher protects, and still no other header leads to a value where
the ciphertext opens. The key id is bound inside; the flag is fixed because a payload as it is never
begins like a frame. -/

namespace ColumnVault

open Bytes

namespace Packing

theorem byteAt_one_bound {id : String} (hid : KeyId.Valid id) (value : ByteArray) :
    byteAt (BoundPayload.bound id value) 1 = byteAt id.toUTF8 0 := by
  have hpos : 0 < id.toUTF8.size := hid.1
  rw [BoundPayload.bound, BoundPayload.bytes, ByteArray.append_assoc,
    byteAt_append_right (by simp), byteAt_append_left (by simpa using hpos)]
  simp

/-- The payload of a key id is not a frame with content: a frame has there a byte that no text
begins with. -/
theorem not_isFrame_bound {id : String} (hid : KeyId.Valid id) {value content : ByteArray}
    (hcontent : content ≠ ByteArray.empty) :
    ¬Zstd.IsFrame (BoundPayload.bound id value) content := by
  intro hframe
  rcases hframe.empty_or_mark with hempty | hmark
  · exact hcontent hempty
  · rw [byteAt_one_bound hid] at hmark
    exact Text.Utf8.byteAt_zero_ne_continuation hid.1 hmark

theorem bound_ne_empty (id : String) (value : ByteArray) :
    BoundPayload.bound id value ≠ ByteArray.empty := by
  intro h
  have hsize := congrArg ByteArray.size h
  rw [BoundPayload.bound, BoundPayload.size_bytes, ByteArray.size_empty] at hsize
  omega

/-- Bytes hold a value under one flag and one key id at most. -/
theorem Holds.unique {flag flag' : UInt8} {packed : ByteArray} {id id' : String}
    {value value' : ByteArray} (hid : KeyId.Valid id) (hid' : KeyId.Valid id')
    (h : Holds flag packed (BoundPayload.bound id value))
    (h' : Holds flag' packed (BoundPayload.bound id' value')) :
    flag = flag' ∧ id = id' ∧ value = value' := by
  rcases h with ⟨rfl, hplain⟩ | ⟨rfl, hframe, -⟩ <;>
    rcases h' with ⟨rfl, hplain'⟩ | ⟨rfl, hframe', -⟩
  · rw [hplain] at hplain'
    exact ⟨rfl, BoundPayload.bound_injective hid hid' hplain'⟩
  · rw [hplain] at hframe'
    exact absurd hframe' (not_isFrame_bound hid (bound_ne_empty id' value'))
  · rw [hplain'] at hframe
    exact absurd hframe (not_isFrame_bound hid' (bound_ne_empty id value))
  · exact ⟨rfl, BoundPayload.bound_injective hid hid' (hframe.unique hframe')⟩

end Packing

namespace Vault

open Crypto Packing

theorem valueIn_mismatch {flag : UInt8} {id id' : String} {packed value : ByteArray}
    (hid : KeyId.Valid id) (hne : id' ≠ id)
    (h : Holds flag packed (BoundPayload.bound id value)) :
    valueIn flag id' packed = .error (.keyIdMismatch id' id) := by
  have hkeyId : id.toUTF8 ≠ id'.toUTF8 := fun he => hne (Text.Utf8.toUTF8_injective he).symm
  have hdecode := BoundPayload.decode_bytes (BoundPayload.wellFormed_of_valid hid value)
  rw [valueIn, unpack_eq_ok_iff.2 h, ok_bind, BoundPayload.bound, hdecode, ok_bind, if_pos hkeyId,
    Text.Utf8.decodeLossy_toUTF8]
  rfl

/-- Under a key that opens the ciphertext, a written envelope gives its value behind its own header
only. -/
theorem openEnvelope_behind [Zstd.Encoder] {ring : KeyRing} (policy : Policy) {keys keys' : Subkeys}
    {id id' : String} (hid : KeyId.Valid id) (hid' : KeyId.Valid id')
    (hkeys : ring.get id' = .ok keys') (hsame : keys'.encryption = keys.encryption)
    (value : ByteArray) (nonce : Nonce) (flag' : UInt8) :
    let e := written policy keys id value nonce
    (∀ value', openEnvelope ring { e with flag := flag', keyId := id' } = .ok value' →
      flag' = e.flag ∧ id' = e.keyId) ∧
    (flag' = e.flag → id' ≠ id →
      openEnvelope ring { e with flag := flag', keyId := id' } = .error (.keyIdMismatch id' id)) := by
  intro e
  have hholds : Holds e.flag (pack policy (BoundPayload.bound id value)).1
    (BoundPayload.bound id value) := pack_holds policy _
  have hopens : SecretBox.decrypt? keys'.encryption e.nonce.val e.ciphertext =
      some (pack policy (BoundPayload.bound id value)).1 := by
    rw [hsame]
    exact SecretBox.decrypt?_encrypt _ _ _
  constructor
  · intro value' h
    obtain ⟨keys₁, packed, hkeys₁, hpacked, hholds'⟩ :=
      (openEnvelope_eq_ok_iff (e := { e with flag := flag', keyId := id' }) hid').1 h
    cases hkeys.symm.trans hkeys₁
    cases hopens.symm.trans hpacked
    obtain ⟨hflag, hids, -⟩ := hholds.unique hid hid' hholds'
    exact ⟨hflag.symm, hids.symm⟩
  · rintro rfl hne
    rw [openEnvelope, hkeys, ok_bind]
    dsimp only
    rw [hopens]
    exact valueIn_mismatch hid hne hholds

theorem Opened.exists_failure {source : KeySource} {v : Vault} {ring : KeyRing}
    (h : v.Opened source ring) {expected : Option String} {data : ByteArray}
    (hnone : ∀ value, decryptUnder ring data expected ≠ .ok value) :
    ∃ err, v.decryptExpecting expected (some data) = .failure err := by
  rw [h.decryptExpecting_some]
  cases hd : decryptUnder ring data expected with
  | error err => exact ⟨err, rfl⟩
  | ok value => exact absurd hd (hnone value)

/-- Two ids stand for one encryption key, each in its own source. -/
def SameEncryptionKey (source : KeySource) (id : String) (source' : KeySource) (id' : String) :
    Prop :=
  ∃ master master', source.masterKey id = .ok master ∧ source'.masterKey id' = .ok master' ∧
    (Subkeys.ofMaster master').encryption = (Subkeys.ofMaster master).encryption

/-- An envelope that a vault wrote gives no value behind any other header, not even where the key id in
that header stands for the same encryption key; and if only the key id is another, it is told from the
one inside. -/
theorem rewritten_header_rejected [Zstd.Encoder] {source : KeySource} {v : Vault} {id : String}
    {data : ByteArray} (hv : v.OpenOn source) (hw : v.Wrote id data) :
    ∃ e : Envelope, e.keyId = id ∧ data = e.bytes ∧
      ∀ (source' : KeySource) (v' : Vault) (flag' : UInt8) (id' : String), v'.OpenOn source' →
        id' ∈ v'.activeIds → SameEncryptionKey source id source' id' → (flag', id') ≠ (e.flag, id) →
        let rewritten := { e with flag := flag', keyId := id' }.bytes
        (∀ expected, ∃ err, v'.decryptExpecting expected (some rewritten) = .failure err) ∧
        (flag' = e.flag → v'.decrypt (some rewritten) = .failure (.keyIdMismatch id' id)) := by
  obtain ⟨ring, hv⟩ := hv.opened
  obtain ⟨keys, value, nonce, hkeys, hid, rfl⟩ := hv.isWritten hw
  refine ⟨_, rfl, rfl, ?_⟩
  intro source' v' flag' id' hv' hid' hsame hheader
  obtain ⟨ring', hv'⟩ := hv'.opened
  obtain ⟨master, master', hmaster, hmaster', hsame⟩ := hsame
  obtain ⟨-, _, hmaster₁, -, rfl⟩ := hv.get_eq_ok_iff.1 hkeys
  obtain ⟨_, hmaster₂, -, hkeys'⟩ := hv'.exists_master hid'
  cases hmaster.symm.trans hmaster₁
  cases hmaster'.symm.trans hmaster₂
  obtain ⟨hnone, hmismatch⟩ :=
    openEnvelope_behind v.policy hid (hv'.valid hid') hkeys' hsame value nonce flag'
  have hwell : ({ written v.policy (.ofMaster master) id value nonce with
      flag := flag', keyId := id' } : Envelope).WellFormed :=
    ⟨hv'.valid hid', (written_wellFormed v.policy _ hid value nonce).ciphertext⟩
  constructor
  · intro expected
    refine hv'.exists_failure fun value' hvalue' => hheader ?_
    obtain ⟨hflag, hids⟩ := hnone value' (openEnvelope_of_decryptUnder hwell hvalue')
    rw [hflag, hids]
    rfl
  · intro hflag
    have hne : id' ≠ id := fun he => hheader (by rw [hflag, he])
    refine (hv'.decryptExpecting_some none _).trans ?_
    rw [decryptUnder_bytes hwell, hmismatch hflag hne]
    rfl

/-- A packed envelope under the older of two ids, behind the newer one and behind any other flag. -/
theorem rewritten_header_rejected_twins :
    let v := Twins.vault "old" Twins.packing
    v.OpenOn (Twins.source "old") ∧
      SameEncryptionKey (Twins.source "old") "old" (Twins.source "old") "new" ∧
      ∃ data, v.Wrote "old" data ∧
        ∃ e : Envelope, e.keyId = "old" ∧ e.flag = 1 ∧ data = e.bytes ∧
          v.decrypt (some { e with keyId := "new" }.bytes) = .failure (.keyIdMismatch "new" "old") ∧
          ∀ flag, flag ≠ 1 → ∃ err, v.decrypt (some { e with flag := flag }.bytes) = .failure err := by
  intro v
  have hv : v.OpenOn (Twins.source "old") := Twins.openOn (by decide) Twins.packing
  have hsame (id : String) (hid : id ∈ ["old", "new"]) :
      SameEncryptionKey (Twins.source "old") "old" (Twins.source "old") id :=
    ⟨_, _, Twins.masterKey_eq (by decide), Twins.masterKey_eq hid, rfl⟩
  obtain ⟨ring, hopened⟩ := hv.opened
  have hactive : "old" ∈ v.activeIds := by decide
  obtain ⟨keys, hkeys⟩ := hopened.exists_get hactive
  have hw := Wrote.encryptWithKey (hopened.encryptWithKey_run hkeys Twins.text.toUTF8
    (e := ⟨Bytes.replicate 24 9, ""⟩) (by decide))
  obtain ⟨e, hid, hdata, h⟩ := rewritten_header_rejected hv hw
  have hflag : e.flag = 1 := by
    rw [← Envelope.byteAt_flag e, ← hdata]
    exact Twins.flag_text hactive keys _
  refine ⟨hv, hsame "new" (by decide), _, hw, e, hid, hflag, hdata, ?_, ?_⟩
  · exact (h _ _ e.flag "new" hv (by decide) (hsame "new" (by decide)) (by simp)).2 rfl
  · intro flag hother
    rw [← hflag] at hother
    have hothers := h _ _ flag "old" hv (by decide) (hsame "old" (by decide)) (by simp [hother])
    rw [← hid] at hothers
    exact hothers.1 none

end Vault

end ColumnVault
