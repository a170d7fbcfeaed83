import ColumnVault.Proofs.Cli.Arguments
import ColumnVault.Proofs.Cli.Calls
import ColumnVault.Proofs.Vault.RoundTrip

/-! The round trip through the command line. What one call encrypts and prints, another call decrypts and
prints, on any directory that has the key, whatever the settings of either. -/

namespace ColumnVault.Cli

open Vault

section Encrypting
variable [Zstd.Encoder] {args : List ByteArray} {t : FileTree} {s : Settings} {d : KeyDirectory} {id : String}
  {id? : Option String} {key plain : ByteArray} {value envelope : String} {hex : Bool} {e : Entropy}

/-- Every call that decrypts an envelope on a directory with the key of its id, which the call may name,
prints the value: as hexadecimal digits if it is asked to, and else as the text that it is. -/
def PrintsBack (id : String) (key plain : ByteArray) (envelope : String) : Prop :=
  ∀ {args t s d hex id?}, CallsOn args t (.decrypt envelope hex id?) s d → d.masterKey id = .ok key →
    (∀ other ∈ id?, other = id) → ∀ e,
      (hex = true → run args t e = (.done (Hex.encode plain ++ "\n"), t)) ∧
      ∀ text : String, hex = false → plain = text.toUTF8 → run args t e = (.done (text ++ "\n"), t)

/-- A text is the hexadecimal form of an envelope of a value, written under some policy with a key. -/
def Carries (id : String) (key plain : ByteArray) (envelope : String) : Prop :=
  ∃ policy nonce, envelope = Hex.encode (written policy (.ofMaster key) id plain nonce).bytes

theorem Carries.isHex (h : Carries id key plain envelope) : Hex.IsHex envelope := by
  obtain ⟨policy, nonce, rfl⟩ := h
  exact Hex.isHex_encode _

/-- The bytes of the envelope are read back by every vault with the key. -/
theorem Carries.exists_readsBack (h : Carries id key plain envelope) (label : String) :
    ∃ data, hexArgument label envelope = .ok data ∧
      ∀ {s t d v ring}, OpensOn s t d v ring → d.masterKey id = .ok key → v.ReadsBack id plain data := by
  obtain ⟨policy, nonce, rfl⟩ := h
  refine ⟨_, hexArgument_encode label _, fun hv hkey => ?_⟩
  exact hv.opened.readsBack_written (hv.get_of_masterKey hkey) policy plain nonce

theorem Carries.printsBack (h : Carries id key plain envelope) : PrintsBack id key plain envelope := by
  intro args t s d hex id? hcall hkey hid e
  obtain ⟨data, hdata, hreads⟩ := h.exists_readsBack "envelope"
  obtain ⟨v, ring, hv⟩ := exists_opensOn hcall.reads
  have hdecrypt : v.decryptExpecting id? (some data) = .value (some plain) := by
    cases id? with
    | none => exact (hreads hv hkey).1
    | some other =>
      cases hid other rfl
      exact (hreads hv hkey).2
  have hprinted : s.decrypt envelope hex id? t = shown hex plain := by
    rw [decrypt_eq, hdata, ok_bind, hv.opens, ok_bind, hdecrypt]
    rfl
  rw [hcall.run_eq, Command.run, hprinted]
  constructor
  · rintro rfl
    rfl
  · rintro text rfl rfl
    rw [shown, if_neg Bool.false_ne_true, Text.Utf8.decode_toUTF8]
    rfl

/-- Encrypting prints the envelope that is written under the policy of the call. -/
theorem run_encrypt (hcall : CallsOn args t (.encrypt value hex id?) s d)
    (hplain : plainOf value hex = .ok plain) (hkey : d.masterKey (id?.getD d.current) = .ok key)
    (he : nonceSize ≤ e.pool.size) :
    run args t e = (.done (Hex.encode (written s.policy (.ofMaster key) (id?.getD d.current) plain
      (e.next nonceSize he)).bytes ++ "\n"), t) := by
  obtain ⟨v, ring, hv⟩ := exists_opensOn hcall.reads
  have hkeys := hv.get_of_masterKey hkey
  rw [← hv.defaultId] at hkeys ⊢
  rw [hcall.run_eq, Command.run, encrypt_eq, hplain, ok_bind, hv.opens, ok_bind,
    encryptCall_run hv.opened hkeys plain he, hv.policy]
  rfl

/-- Moving an envelope prints one of the same value, under the key that is current where it is moved. -/
theorem rotate_carries (hcarries : Carries id key plain envelope)
    (hcall : CallsOn args t (.rotate envelope) s d) (hkey : d.masterKey id = .ok key)
    (he : nonceSize ≤ e.pool.size) :
    ∃ key' rotated, d.masterKey d.current = .ok key' ∧
      run args t e = (.done (rotated ++ "\n"), t) ∧ Carries d.current key' plain rotated := by
  obtain ⟨data, hdata, hreads⟩ := hcarries.exists_readsBack "envelope"
  obtain ⟨v, ring, hv⟩ := exists_opensOn hcall.reads
  have hvalue := (hreads hv hkey).1
  obtain ⟨-, key', hkey', -⟩ := hv.kept.exists_masterKey List.mem_cons_self
  have hkeys := hv.get_of_masterKey hkey'
  rw [← hv.defaultId] at hkeys hkey' ⊢
  refine ⟨key', _, hkey', ?_, v.policy, e.next nonceSize he, rfl⟩
  rw [hcall.run_eq, Command.run, rotate_eq, hdata, ok_bind, hv.opens, ok_bind, call,
    hv.opened.rotate_run hkeys hvalue he]
  rfl

/-- A call that encrypts a value, under a key that it names or under the current one, prints an envelope in
small hexadecimal digits. Every call that decrypts the envelope, with or without the id of its key and on
any directory that has the key under this id, prints the value; and plain arguments for such a call are
understood. What a call prints that moves the envelope is read back likewise by whoever has the key that
was current there. The settings of all these calls need not agree. -/
theorem decrypt_prints_encrypted (hcall : CallsOn args t (.encrypt value hex id?) s d)
    (hplain : plainOf value hex = .ok plain) (hid : ∀ id ∈ id?, ∃ key, d.masterKey id = .ok key)
    (he : 24 ≤ e.pool.size) :
    ∃ key envelope, d.masterKey (id?.getD d.current) = .ok key ∧
      run args t e = (.done (envelope ++ "\n"), t) ∧ Hex.IsHex envelope ∧
      PrintsBack (id?.getD d.current) key plain envelope ∧
      (∀ hex' other?, Call.ofArguments ((decryptArguments hex' other? envelope).map String.toUTF8) =
        .run ⟨none, none, none, false⟩ (.decrypt envelope hex' other?)) ∧
      Call.ofArguments (["rotate", envelope].map String.toUTF8) =
        .run ⟨none, none, none, false⟩ (.rotate envelope) ∧
      ∀ {args' t' s' d'} {e' : Entropy}, CallsOn args' t' (.rotate envelope) s' d' →
        d'.masterKey (id?.getD d.current) = .ok key → 24 ≤ e'.pool.size →
        ∃ key' rotated, d'.masterKey d'.current = .ok key' ∧
          run args' t' e' = (.done (rotated ++ "\n"), t') ∧ Hex.IsHex rotated ∧
          PrintsBack d'.current key' plain rotated := by
  have hkey : ∃ key, d.masterKey (id?.getD d.current) = .ok key := by
    cases id? with
    | none =>
      obtain ⟨v, ring, hv⟩ := exists_opensOn hcall.reads
      exact hv.kept.mem_activeIds_iff.1 List.mem_cons_self
    | some id => exact hid id rfl
  obtain ⟨key, hkey⟩ := hkey
  have hprints := run_encrypt hcall hplain hkey he
  have hcarries : Carries (id?.getD d.current) key plain _ := ⟨s.policy, e.next nonceSize he, rfl⟩
  have hhex := hcarries.isHex
  refine ⟨key, _, hkey, hprints, hhex, hcarries.printsBack, ofArguments_decrypt hhex,
    ofArguments_rotate hhex, fun hcall' hkey' he' => ?_⟩
  obtain ⟨key', rotated, hcurrent, hprints', hcarries'⟩ := rotate_carries hcarries hcall' hkey' he'
  exact ⟨key', rotated, hcurrent, hprints', hcarries'.isHex, hcarries'.printsBack⟩

end Encrypting

/-- What is packed under the older key is decrypted, moved to the current key, and decrypted again as
hexadecimal digits. -/
theorem decrypt_prints_encrypted_packed :
    let args := ["--compression-threshold", "16", "encrypt", "--key-id", "old", Twins.text].map String.toUTF8
    let decrypting := fun envelope => ["decrypt", envelope].map String.toUTF8
    let rotating := fun envelope => ["rotate", envelope].map String.toUTF8
    let decryptingHex := fun envelope => ["decrypt", "--hex", envelope].map String.toUTF8
    CallsOn args KeyDirectory.twoKeyFiles (.encrypt Twins.text false (some "old"))
        ⟨initialKeyDir, Twins.packing⟩ twoKeys ∧
      plainOf Twins.text false = .ok Twins.text.toUTF8 ∧
      (∀ id ∈ some "old", ∃ key, twoKeys.masterKey id = .ok key) ∧
      ∃ data rotated, Bytes.byteAt data 0 = 1 ∧
        run args KeyDirectory.twoKeyFiles ⟨Bytes.replicate 24 9, ""⟩ =
          (.done (Hex.encode data ++ "\n"), KeyDirectory.twoKeyFiles) ∧
        run (decrypting (Hex.encode data)) KeyDirectory.twoKeyFiles ⟨ByteArray.empty, ""⟩ =
          (.done (Twins.text ++ "\n"), KeyDirectory.twoKeyFiles) ∧
        run (rotating (Hex.encode data)) KeyDirectory.twoKeyFiles ⟨Bytes.replicate 24 8, ""⟩ =
          (.done (rotated ++ "\n"), KeyDirectory.twoKeyFiles) ∧
        run (decryptingHex rotated) KeyDirectory.twoKeyFiles ⟨ByteArray.empty, ""⟩ =
          (.done (Hex.encode Twins.text.toUTF8 ++ "\n"), KeyDirectory.twoKeyFiles) := by
  intro args decrypting rotating decryptingHex
  have hasks : Call.ofArguments args =
      .run ⟨none, none, some 16, false⟩ (.encrypt Twins.text false (some "old")) := rfl
  have hcall : CallsOn args KeyDirectory.twoKeyFiles (.encrypt Twins.text false (some "old"))
      ⟨initialKeyDir, Twins.packing⟩ twoKeys := ⟨⟨_, hasks, rfl⟩, load_twoKeys⟩
  have hid : ∀ id ∈ some "old", ∃ key, twoKeys.masterKey id = .ok key := by
    rintro _ ⟨⟩
    exact ⟨Bytes.replicate 32 1, rfl⟩
  have he : 24 ≤ (Entropy.mk (Bytes.replicate 24 9) "").pool.size := by decide
  have he' : 24 ≤ (Entropy.mk (Bytes.replicate 24 8) "").pool.size := by decide
  obtain ⟨key, envelope, hkey, hencrypt, hhex, hback, hdecrypt, hrotate, hmoves⟩ :=
    decrypt_prints_encrypted hcall rfl hid he
  obtain ⟨key', rotated, hkey', hrotated, hhex', hback'⟩ :=
    hmoves (callsOn_initial hrotate load_twoKeys) hkey he'
  have hsame := hencrypt.symm.trans (run_encrypt hcall rfl hkey he)
  set data := (written Twins.packing (.ofMaster key) "old" Twins.text.toUTF8 _).bytes
  have henvelope : envelope = Hex.encode data :=
    (String.append_left_inj _).1 (Ending.done.inj (congrArg Prod.fst hsame))
  subst henvelope
  refine ⟨hcall, rfl, hid, data, rotated, Twins.flag_text (by decide) _ _, hencrypt, ?_, hrotated, ?_⟩
  · exact (hback (callsOn_initial (hdecrypt false none) load_twoKeys) hkey nofun _).2 Twins.text rfl rfl
  · have hasks' := ofArguments_decrypt hhex' true none
    exact (hback' (callsOn_initial hasks' load_twoKeys) hkey' nofun _).1 rfl

end ColumnVault.Cli
