import ColumnVault.Proofs.Envelope.Grammar
import ColumnVault.Proofs.Vault.RoundTrip
import Mathlib.Logic.Relation

/-! Moving an envelope to the default key. It is decrypting and then encrypting, with the errors of the one
and the draw of the other, and what comes out names the default key and keeps its value however often it is
moved again. Whether an envelope has to be moved is read off its header alone; for what decrypts, that is
whether it would be lost with the other keys. -/

namespace ColumnVault

/-- A source with one key of another source, which is then the default key. -/
def KeySource.only (source : KeySource) (id : String) : KeySource :=
  ⟨[id], id, source.masterKey⟩

namespace Vault

/-- The first envelope can be moved, with some source of random bytes, and becomes the second. -/
def Moves [Zstd.Encoder] (v : Vault) (data data' : ByteArray) : Prop :=
  ∃ e, ((v.rotate (some data)).run e).1 = .value (some data')

/-- An envelope names the default key, needs no move, and has the value of another envelope. -/
structure AtDefault (v : Vault) (data data' : ByteArray) : Prop where
  names_default : Envelope.peekKeyId data' = .ok v.defaultId
  needs_no_move : v.needsRotation (some data') = .value false
  same_value : v.decrypt (some data') = v.decrypt (some data)

/-- A vault that has one key of a source, and no other. -/
structure HasOnly (source : KeySource) (id : String) (source' : KeySource) (v' : Vault) : Prop where
  openOn : v'.OpenOn source'
  activeIds : v'.activeIds = [id]
  master : source'.masterKey id = source.masterKey id

section Open
variable {source source' : KeySource} {v v' : Vault} {ring ring' : KeyRing} {data data' value : ByteArray}

/-! ### Moving once, and again -/

/-- Moving fails as decrypting does, with nothing drawn, and is otherwise encrypting the value. -/
theorem Opened.rotate_cases [Zstd.Encoder] (h : v.Opened source ring) (data : ByteArray) :
    (∃ err, v.decrypt (some data) = .failure err ∧
        ∀ e, (v.rotate (some data)).run e = (.failure err, e)) ∨
      ∃ value, v.decrypt (some data) = .value (some value) ∧
        (∀ e, (v.rotate (some data)).run e = (v.encrypt (some value)).run e) ∧
        ∀ e, 24 ≤ e.pool.size → ∃ data', ((v.rotate (some data)).run e).1 = .value (some data') := by
  have hrotate := h.rotate_eq_seq (some data)
  rw [h.decrypt_some] at hrotate ⊢
  cases hdecrypt : decryptUnder ring data none with
  | error err =>
    rw [hdecrypt] at hrotate
    exact .inl ⟨err, rfl, fun e => by rw [hrotate]; rfl⟩
  | ok value =>
    rw [hdecrypt] at hrotate
    have heq : v.rotate (some data) = v.encrypt (some value) := hrotate
    obtain ⟨keys, hkeys⟩ := h.exists_get h.default_mem
    refine .inr ⟨value, rfl, fun e => by rw [heq], fun e he => ?_⟩
    rw [heq]
    exact ⟨_, congrArg Prod.fst (h.encrypt_run hkeys value he)⟩

/-- A moved envelope is the written form of the value under the default key. -/
theorem Opened.written_of_moves [Zstd.Encoder] (h : v.Opened source ring) (hmove : v.Moves data data') :
    ∃ value keys nonce, decryptUnder ring data none = .ok value ∧ ring.get v.defaultId = .ok keys ∧
      data' = (written v.policy keys v.defaultId value nonce).bytes := by
  obtain ⟨e, hrun⟩ := hmove
  rw [h.rotate_some] at hrun
  obtain ⟨value, _, hvalue, hrun⟩ := Drawing.run_bind_eq_value (Prod.ext hrun rfl)
  obtain ⟨data₁, _, hdata, hrun⟩ := Drawing.run_bind_eq_value hrun
  cases hrun
  obtain ⟨keys, nonce, hkeys, -, hwritten⟩ := exists_written_of_encryptUnder hdata
  exact ⟨value, keys, nonce, Outcome.ofExcept_eq_value_iff.1 (Drawing.lift_eq_value hvalue), hkeys,
    hwritten⟩

theorem Opened.needsRotation_some (h : v.Opened source ring) (data : ByteArray) :
    v.needsRotation (some data) = .value (match Envelope.peekKeyId data with
      | .ok id => decide (id ≠ v.defaultId)
      | .error _ => false) := by
  rw [needsRotation, h.ring_eq, Outcome.value_bind]
  cases Envelope.peekKeyId data <;> rfl

theorem Opened.needsRotation_bytes (h : v.Opened source ring) {e : Envelope} (he : e.WellFormed) :
    v.needsRotation (some e.bytes) = .value (decide (e.keyId ≠ v.defaultId)) := by
  rw [h.needsRotation_some, Envelope.peekKeyId_bytes he]

theorem Opened.atDefault_of_moves [Zstd.Encoder] (h : v.Opened source ring) (hmove : v.Moves data data') :
    v.AtDefault data data' := by
  obtain ⟨value, keys, nonce, hvalue, hkeys, rfl⟩ := h.written_of_moves hmove
  have hwell := written_wellFormed v.policy keys (h.valid h.default_mem) value nonce
  refine ⟨Envelope.peekKeyId_bytes hwell, ?_, ?_⟩
  · rw [h.needsRotation_bytes hwell, written]
    simp
  · rw [(h.readsBack_written hkeys v.policy value nonce).1]
    exact (h.decrypt_eq_value_iff.2 hvalue).symm

/-- However often an envelope is moved. The induction is on the moves: each keeps the value of the one
before. -/
theorem Opened.atDefault_of_transGen [Zstd.Encoder] (h : v.Opened source ring)
    (hmoves : Relation.TransGen v.Moves data data') : v.AtDefault data data' := by
  induction hmoves with
  | single hmove => exact h.atDefault_of_moves hmove
  | tail _ hmove ih =>
    have hlast := h.atDefault_of_moves hmove
    exact ⟨hlast.names_default, hlast.needs_no_move, hlast.same_value.trans ih.same_value⟩

/-! ### With the default key alone -/

theorem openEnvelope_congr {e : Envelope} (hget : ring.get e.keyId = ring'.get e.keyId) :
    openEnvelope ring e = openEnvelope ring' e := by
  rw [openEnvelope, openEnvelope, hget]

/-- There is such a vault for every open one, whatever its policy. -/
theorem Opened.exists_hasOnly (h : v.Opened source ring) (policy : Policy) :
    ∃ v', HasOnly source v.defaultId (source.only v.defaultId) v' ∧ v'.policy = policy := by
  obtain ⟨master, hmaster, hsize, -⟩ := h.exists_master h.default_mem
  have hnodup : (source.only v.defaultId).activeIds.Nodup := List.pairwise_singleton _ v.defaultId
  have hkeys : ∀ id ∈ (source.only v.defaultId).activeIds, KeyId.Valid id ∧
      ∃ master, source.masterKey id = .ok master ∧ master.size = keySize := by
    intro id hid
    cases List.mem_singleton.1 hid
    exact ⟨h.valid h.default_mem, master, hmaster, hsize⟩
  obtain ⟨ring', hv'⟩ := new_eq_ok hnodup List.mem_cons_self hkeys policy
  exact ⟨_, ⟨⟨policy, hv'⟩, rfl, rfl⟩, rfl⟩

/-- What decrypts is decrypted by the default key alone if it names that key; otherwise its key is not
found. -/
theorem Opened.decrypt_of_hasOnly (h : v.Opened source ring)
    (hvalue : v.decrypt (some data) = .value (some value))
    (honly : HasOnly source v.defaultId source' v') :
    v.needsRotation (some data) = .value false ∧ v'.decrypt (some data) = .value (some value) ∨
      v.needsRotation (some data) = .value true ∧
        ∃ id, v'.decrypt (some data) = .failure (.keyNotFound id) := by
  obtain ⟨ring', h'⟩ := honly.openOn.opened
  obtain ⟨e, hwell, rfl, -, hopen⟩ := decryptUnder_eq_ok_iff.1 (h.decrypt_eq_value_iff.1 hvalue)
  rw [h.needsRotation_bytes hwell]
  by_cases hid : e.keyId = v.defaultId
  · have hactive : v.defaultId ∈ v'.activeIds := by rw [honly.activeIds]; exact List.mem_cons_self
    have hget : ring.get e.keyId = ring'.get e.keyId := by
      rw [hid]
      exact h.get_eq_get h' h.default_mem hactive honly.master.symm
    refine .inl ⟨by simp [hid], ?_⟩
    rw [h'.decrypt_eq_value_iff, decryptUnder_bytes hwell, ← openEnvelope_congr hget]
    exact hopen
  · have hmissing : e.keyId ∉ v'.activeIds := by rwa [honly.activeIds, List.mem_singleton]
    refine .inr ⟨by simp [hid], e.keyId, ?_⟩
    rw [h'.decrypt_some, decryptUnder_bytes hwell, openEnvelope, h'.get_of_notMem hmissing]
    rfl

end Open

/-- Moving an envelope fails exactly as decrypting it does; otherwise it comes to what encrypting the value
comes to, from every source of random bytes. A moved envelope, however often it was moved, names the default
key, needs no further move and has the value of the first. An envelope that decrypts needs no move exactly
if it still decrypts, to the same value, where the default key is the only one; and any bytes at all need
one exactly if their header is legible and names another key. -/
theorem rotate_decrypts_then_encrypts [Zstd.Encoder] {source : KeySource} {v : Vault}
    (hv : v.OpenOn source) (data : ByteArray) :
    ((∃ err, v.decrypt (some data) = .failure err ∧
        ∀ e, (v.rotate (some data)).run e = (.failure err, e)) ∨
      ∃ value, v.decrypt (some data) = .value (some value) ∧
        (∀ e, (v.rotate (some data)).run e = (v.encrypt (some value)).run e) ∧
        ∀ e, 24 ≤ e.pool.size → ∃ data', ((v.rotate (some data)).run e).1 = .value (some data')) ∧
    (∀ data', Relation.TransGen v.Moves data data' → v.AtDefault data data') ∧
    (∀ value, v.decrypt (some data) = .value (some value) →
      (∀ policy, ∃ v', HasOnly source v.defaultId (source.only v.defaultId) v' ∧ v'.policy = policy) ∧
      ∀ source' v', HasOnly source v.defaultId source' v' →
        (v.needsRotation (some data) = .value false ↔
          v'.decrypt (some data) = .value (some value)) ∧
        (v.needsRotation (some data) = .value false ↔
          ∃ value', v'.decrypt (some data) = .value (some value'))) ∧
    (∃ needed, v.needsRotation (some data) = .value needed) ∧
    (v.needsRotation (some data) = .value true ↔
      ∃ id, Envelope.peekKeyId data = .ok id ∧ id ≠ v.defaultId) := by
  obtain ⟨ring, h⟩ := hv.opened
  refine ⟨h.rotate_cases data, fun _ => h.atDefault_of_transGen,
    fun value hvalue => ⟨h.exists_hasOnly, ?_⟩, ⟨_, h.needsRotation_some data⟩, ?_⟩
  · intro source' v' honly
    rcases h.decrypt_of_hasOnly hvalue honly with ⟨hneeds, hvalue'⟩ | ⟨hneeds, id, hmissing⟩
    · rw [hneeds, hvalue']
      simp
    · rw [hneeds, hmissing]
      simp
  · rw [h.needsRotation_some]
    cases Envelope.peekKeyId data <;> simp

/-- A packed envelope under the older of two ids is lost where only the newer one is left, and is not once
it was moved, packed again. -/
theorem rotate_decrypts_then_encrypts_twins :
    let v := Twins.vault "new" Twins.packing
    v.OpenOn (Twins.source "new") ∧
      HasOnly (Twins.source "new") "new" Twins.remaining Twins.remainingVault ∧
      ∃ data data', Bytes.byteAt data 0 = 1 ∧ v.decrypt (some data) = .value (some Twins.text.toUTF8) ∧
        v.needsRotation (some data) = .value true ∧
        Twins.remainingVault.decrypt (some data) ≠ .value (some Twins.text.toUTF8) ∧
        v.Moves data data' ∧ Bytes.byteAt data' 0 = 1 ∧ v.AtDefault data data' ∧
        Twins.remainingVault.decrypt (some data') = .value (some Twins.text.toUTF8) := by
  intro v
  have hv : v.OpenOn (Twins.source "new") := Twins.openOn (by decide) Twins.packing
  have honly : HasOnly (Twins.source "new") "new" Twins.remaining Twins.remainingVault :=
    ⟨Twins.openOn_remaining, rfl, (Twins.masterKey_eq (by decide)).symm⟩
  obtain ⟨ring, h⟩ := hv.opened
  have hactive : "old" ∈ v.activeIds := by decide
  obtain ⟨keys, hkeys⟩ := h.exists_get hactive
  obtain ⟨keys', hkeys'⟩ := h.exists_get h.default_mem
  set data := (written Twins.packing keys "old" Twins.text.toUTF8 ⟨Bytes.replicate 24 9, by decide⟩).bytes
  have hvalue : v.decrypt (some data) = .value (some Twins.text.toUTF8) :=
    (h.readsBack_written hkeys _ _ _).1
  obtain ⟨-, hmoves, hlost, -, hneeds⟩ := rotate_decrypts_then_encrypts hv data
  have hneeds : v.needsRotation (some data) = .value true :=
    hneeds.2 ⟨"old", Envelope.peekKeyId_bytes (written_wellFormed _ _ (h.valid hactive) _ _), by decide⟩
  have hrotate := h.rotate_run hkeys' hvalue (e := ⟨Bytes.replicate 24 1, ""⟩) (by decide)
  set data' := (written v.policy keys' v.defaultId Twins.text.toUTF8 _).bytes
  have hdata' : v.Moves data data' := ⟨_, congrArg Prod.fst hrotate⟩
  have hat := hmoves data' (.single hdata')
  refine ⟨hv, honly, data, data', Twins.flag_text hactive keys _, hvalue, hneeds, fun hkept => ?_,
    hdata', Twins.flag_text h.default_mem keys' _, hat, ?_⟩
  · cases hneeds.symm.trans (((hlost _ hvalue).2 _ _ honly).1.2 hkept)
  · have hvalue' := hat.same_value.trans hvalue
    obtain ⟨-, -, hkept, -⟩ := rotate_decrypts_then_encrypts hv data'
    exact ((hkept _ hvalue').2 _ _ honly).1.1 hat.needs_no_move

end Vault

end ColumnVault
