import ColumnVault.Proofs.Envelope.Binding
import ColumnVault.Proofs.Envelope.Grammar
import ColumnVault.Proofs.Vault.Acceptance

/-! Decrypting in two parts. The first reads the header, finds the key and checks the tag, and makes no use
of the flag; only what passes it is unpacked and read by the second. So two envelopes that differ in their
flag alone fail alike or are both genuine, and a fault found in what a ciphertext holds is told of genuine
envelopes only. -/

namespace ColumnVault

open Bytes Crypto

/-! ### Another flag -/

namespace Envelope

/-- The written form without its flag. -/
def bytesBehindFlag (e : Envelope) : ByteArray :=
  [UInt8.ofNat e.keyId.utf8ByteSize].toByteArray ++ e.keyId.toUTF8 ++ e.nonce.val ++ e.ciphertext

theorem bytes_eq_flag (e : Envelope) : e.bytes = [e.flag].toByteArray ++ e.bytesBehindFlag := by
  simp only [bytes, bytesBehindFlag, ← ByteArray.append_assoc, ← List.toByteArray_append]
  rfl

theorem same_withFlag (e : Envelope) (flag : UInt8) :
    SameBehindFirst e.bytes { e with flag := flag }.bytes := by
  refine ⟨by rw [size_bytes, size_bytes], fun i hi => ?_⟩
  rw [bytes_eq_flag, bytes_eq_flag, byteAt_append_right hi, byteAt_append_right hi]
  rfl

/-- What differs from an envelope in the first byte alone is the envelope with another flag. -/
theorem eq_bytes_of_same {e : Envelope} {data : ByteArray} (h : SameBehindFirst e.bytes data) :
    data = { e with flag := byteAt data 0 }.bytes := by
  have hflag := e.same_withFlag (byteAt data 0)
  refine ext_byteAt (h.size.trans hflag.size.symm) fun i _ => ?_
  by_cases hi : i = 0
  · rw [hi, byteAt_flag]
  · rw [h.bytes i (by omega), hflag.bytes i (by omega)]

theorem peekKeyId_of_same {data data' : ByteArray} (h : SameBehindFirst data data') :
    peekKeyId data' = peekKeyId data := by
  rw [peekKeyId_eq, peekKeyId_eq, h.size, h.bytes 1 (by omega)]
  dsimp only
  rw [h.extract_eq (by omega)]

theorem decode_of_same {data data' : ByteArray} (h : SameBehindFirst data data') :
    decode data' = (decode data).map fun e => { e with flag := byteAt data' 0 } := by
  cases hdata : decode data with
  | error err =>
    rw [decode_eq_error_iff, ← peekKeyId_of_same h] at hdata
    exact decode_eq_error_iff.2 hdata
  | ok e =>
    obtain ⟨hwell, rfl⟩ := decode_eq_ok_iff.1 hdata
    exact decode_eq_ok_iff.2 ⟨⟨hwell.keyId, hwell.ciphertext⟩, eq_bytes_of_same h⟩

end Envelope

namespace Vault

/-! ### Before the flag is read -/

/-- What the ciphertext of an envelope opens to under the key that it names. -/
def openCiphertext (ring : KeyRing) (e : Envelope) : Except Error ByteArray := do
  let keys ← ring.get e.keyId
  match SecretBox.decrypt? keys.encryption e.nonce.val e.ciphertext with
  | none => throw .decryptionFailed
  | some packed => return packed

/-- An envelope has to name the key that is expected, if any. -/
def checkNamed (expected : Option String) (e : Envelope) : Except Error Unit :=
  match expected with
  | some id => if id ≠ e.keyId then .error (.keyIdMismatch e.keyId id) else .ok ()
  | none => .ok ()

/-- The envelope that some bytes are, and what its ciphertext opens to. -/
def authenticate (ring : KeyRing) (expected : Option String) (data : ByteArray) :
    Except Error (Envelope × ByteArray) := do
  let e ← Envelope.decode data
  checkNamed expected e
  return (e, ← openCiphertext ring e)

theorem openCiphertext_eq_ok_iff {ring : KeyRing} {e : Envelope} {packed : ByteArray} :
    openCiphertext ring e = .ok packed ↔ ∃ keys, ring.get e.keyId = .ok keys ∧
      SecretBox.decrypt? keys.encryption e.nonce.val e.ciphertext = some packed := by
  rw [openCiphertext, bind_eq_ok_iff]
  refine exists_congr fun keys => and_congr_right fun _ => ?_
  cases SecretBox.decrypt? keys.encryption e.nonce.val e.ciphertext <;> simp

theorem checkNamed_eq_ok_iff {expected : Option String} {e : Envelope} :
    checkNamed expected e = .ok () ↔ ∀ id ∈ expected, id = e.keyId := by
  cases expected with
  | none => simp [checkNamed]
  | some id => simp [checkNamed]

theorem authenticate_eq_ok_iff {ring : KeyRing} {expected : Option String} {data packed : ByteArray}
    {e : Envelope} : authenticate ring expected data = .ok (e, packed) ↔
      Envelope.decode data = .ok e ∧ (∀ id ∈ expected, id = e.keyId) ∧
        openCiphertext ring e = .ok packed := by
  rw [← checkNamed_eq_ok_iff, authenticate]
  constructor
  · intro h
    obtain ⟨_, hdecode, h⟩ := bind_eq_ok h
    obtain ⟨⟨⟩, hnamed, h⟩ := bind_eq_ok h
    obtain ⟨_, hopen, h⟩ := bind_eq_ok h
    cases h
    exact ⟨hdecode, hnamed, hopen⟩
  · rintro ⟨hdecode, hnamed, hopen⟩
    rw [hdecode, ok_bind, hnamed, ok_bind, hopen]
    rfl

/-- Decrypting takes the value out of what has passed. -/
theorem decryptUnder_eq_authenticate (ring : KeyRing) (data : ByteArray) (expected : Option String) :
    decryptUnder ring data expected =
      authenticate ring expected data >>= fun p => valueIn p.1.flag p.1.keyId p.2 := by
  have hopen (e : Envelope) : openEnvelope ring e =
      (openCiphertext ring e >>= fun packed => .ok (e, packed)) >>= fun p =>
        valueIn p.1.flag p.1.keyId p.2 := by
    rw [openEnvelope, openCiphertext]
    cases ring.get e.keyId with
    | error err => rfl
    | ok keys =>
      rw [ok_bind, ok_bind]
      cases SecretBox.decrypt? keys.encryption e.nonce.val e.ciphertext <;> rfl
  cases expected with
  | none =>
    rw [decryptUnder_none, authenticate]
    cases Envelope.decode data with
    | error err => rfl
    | ok e => exact hopen e
  | some id =>
    rw [decryptUnder_some, authenticate]
    cases Envelope.decode data with
    | error err => rfl
    | ok e =>
      rw [ok_bind, ok_bind, checkNamed]
      split_ifs
      · rfl
      · exact hopen e

/-- The flag goes through unread. -/
theorem authenticate_of_same (ring : KeyRing) (expected : Option String) {data data' : ByteArray}
    (h : SameBehindFirst data data') :
    authenticate ring expected data' = (authenticate ring expected data).map fun p =>
      ({ p.1 with flag := byteAt data' 0 }, p.2) := by
  rw [authenticate, authenticate, Envelope.decode_of_same h]
  cases Envelope.decode data with
  | error err => rfl
  | ok e =>
    have hnamed : checkNamed expected { e with flag := byteAt data' 0 } = checkNamed expected e := rfl
    have hopen : openCiphertext ring { e with flag := byteAt data' 0 } = openCiphertext ring e := rfl
    rw [Except.map, ok_bind, ok_bind, hnamed, hopen]
    cases checkNamed expected e with
    | error err => rfl
    | ok _ => cases openCiphertext ring e <;> rfl

/-! ### Faults on either side -/

/-- What is told of an envelope that is not genuine, or of one that names another key than the caller
expects or no active one. -/
inductive HeaderFault (expected : Option String) : Error → Prop
  | format {fault : FormatFault} (h : fault.OfEnvelope) : HeaderFault expected (.invalidFormat fault)
  | otherKey {id named : String} (h : id ∈ expected) (ne : id ≠ named) :
    HeaderFault expected (.keyIdMismatch named id)
  | unknownKey (id : String) : HeaderFault expected (.keyNotFound id)
  | tag : HeaderFault expected .decryptionFailed

/-- What is told of what a ciphertext opens to. The key id inside can only be another one where the
envelope names the key that is expected. -/
inductive ContentFault (expected : Option String) : Error → Prop
  | algorithm (flag : UInt8) : ContentFault expected (.unsupportedAlgorithm flag)
  | unpacking (fault : UnpackFault) : ContentFault expected (.decompressionFailed fault)
  | format {fault : FormatFault} (h : fault.OfPayload) : ContentFault expected (.invalidFormat fault)
  | otherKey {named bound : String} (h : ∀ id ∈ expected, id = named) :
    ContentFault expected (.keyIdMismatch named bound)

theorem HeaderFault.not_contentFault {expected : Option String} {err : Error}
    (h : HeaderFault expected err) : ¬ContentFault expected err := by
  intro h'
  cases h with
  | format hfault =>
    cases h' with
    | format hfault' => cases hfault <;> cases hfault'
  | otherKey hid hne =>
    cases h' with
    | otherKey hnamed => exact hne (hnamed _ hid)
  | unknownKey id => cases h'
  | tag => cases h'

theorem headerFault_of_openCiphertext {ring : KeyRing} {e : Envelope} {err : Error}
    (h : openCiphertext ring e = .error err) (expected : Option String) :
    HeaderFault expected err := by
  rcases bind_eq_error h with hkeys | ⟨keys, -, hopen⟩
  · rw [KeyRing.get_eq_error hkeys]
    exact .unknownKey _
  · split at hopen <;> cases hopen
    exact .tag

theorem headerFault_of_authenticate {ring : KeyRing} {expected : Option String} {data : ByteArray}
    {err : Error} (h : authenticate ring expected data = .error err) : HeaderFault expected err := by
  rcases bind_eq_error h with hdecode | ⟨e, -, h⟩
  · obtain ⟨fault, hfault, rfl⟩ :=
      Envelope.ofEnvelope_of_peekKeyId (Envelope.decode_eq_error_iff.1 hdecode)
    exact .format hfault
  rcases bind_eq_error h with hnamed | ⟨_, -, h⟩
  · cases expected with
    | none => cases hnamed
    | some id =>
      rw [checkNamed] at hnamed
      split_ifs at hnamed with hne
      cases hnamed
      exact .otherKey rfl hne
  rcases bind_eq_error h with hopen | ⟨_, -, h⟩
  · exact headerFault_of_openCiphertext hopen expected
  · cases h

theorem contentFault_of_unpack {algorithm : Algorithm} {packed : ByteArray} {err : Error}
    (h : Packing.unpack algorithm packed = .error err) (expected : Option String) :
    ContentFault expected err := by
  cases algorithm with
  | none => cases h
  | zstd =>
    rw [Packing.unpack] at h
    split at h <;> cases h
    exact .unpacking _
  | reserved =>
    cases h
    exact .algorithm _

theorem contentFault_of_valueIn {flag : UInt8} {id : String} {packed : ByteArray} {err : Error}
    (h : valueIn flag id packed = .error err) {expected : Option String}
    (hid : ∀ i ∈ expected, i = id) : ContentFault expected err := by
  rcases bind_eq_error h with hcontent | ⟨content, -, h⟩
  · rcases bind_eq_error hcontent with hflag | ⟨algorithm, -, hunpack⟩
    · rw [Algorithm.ofFlag] at hflag
      split_ifs at hflag
      cases hflag
      exact .algorithm _
    · exact contentFault_of_unpack hunpack expected
  rcases bind_eq_error h with hbound | ⟨bound, -, h⟩
  · obtain ⟨fault, hfault, rfl⟩ := BoundPayload.ofPayload_of_decode hbound
    exact .format hfault
  · split_ifs at h <;> cases h
    exact .otherKey hid

theorem fault_of_decryptUnder {ring : KeyRing} {data : ByteArray} {expected : Option String} {err : Error}
    (h : decryptUnder ring data expected = .error err) :
    HeaderFault expected err ∨ ContentFault expected err := by
  rw [decryptUnder_eq_authenticate] at h
  rcases bind_eq_error h with hauth | ⟨⟨e, packed⟩, hauth, hvalue⟩
  · exact .inl (headerFault_of_authenticate hauth)
  · exact .inr (contentFault_of_valueIn hvalue (authenticate_eq_ok_iff.1 hauth).2.1)

/-! ### At a vault -/

/-- Bytes are a genuine envelope: it names an active key, and the one that is expected, if any, and its
ciphertext opens under that key. -/
structure Authentic (source : KeySource) (v : Vault) (expected : Option String) (data : ByteArray)
    (e : Envelope) (packed : ByteArray) : Prop where
  wellFormed : e.WellFormed
  data_eq : data = e.bytes
  expected : ∀ id ∈ expected, id = e.keyId
  active : e.keyId ∈ v.activeIds
  opens : ∃ master, source.masterKey e.keyId = .ok master ∧
    SecretBox.decrypt? (Subkeys.ofMaster master).encryption e.nonce.val e.ciphertext = some packed

/-- Decrypting with some way to read what a ciphertext opens to, which is given the flag and the key id of
the envelope. -/
def decryptReading (v : Vault) (read : UInt8 → String → ByteArray → Except Error ByteArray)
    (expected : Option String) (data : ByteArray) : Outcome (Option ByteArray) := do
  let ring ← v.ring (if expected.isSome then .namedKey else .defaultKey)
  let (e, packed) ← authenticate ring expected data
  return some (← read e.flag e.keyId packed)

section Open
variable {source : KeySource} {v : Vault} {ring : KeyRing} {expected : Option String}
  {data packed : ByteArray}

theorem Opened.decryptReading_eq (h : v.Opened source ring)
    (read : UInt8 → String → ByteArray → Except Error ByteArray) (expected : Option String)
    (data : ByteArray) : v.decryptReading read expected data = .ofExcept
      ((authenticate ring expected data >>= fun p => read p.1.flag p.1.keyId p.2).map some) := by
  rw [decryptReading, h.ring_eq, Outcome.value_bind]
  cases authenticate ring expected data with
  | error err => rfl
  | ok p =>
    obtain ⟨e, packed⟩ := p
    rw [ok_bind, Outcome.lift_eq, Outcome.ofExcept_ok, Outcome.value_bind]
    dsimp only
    cases read e.flag e.keyId packed <;> rfl

theorem Opened.decryptExpecting_eq (h : v.Opened source ring) (expected : Option String)
    (data : ByteArray) :
    v.decryptExpecting expected (some data) = v.decryptReading valueIn expected data := by
  rw [h.decryptExpecting_some, decryptUnder_eq_authenticate, h.decryptReading_eq]

theorem Opened.authentic_iff (h : v.Opened source ring) {e : Envelope} :
    Authentic source v expected data e packed ↔ authenticate ring expected data = .ok (e, packed) := by
  rw [authenticate_eq_ok_iff, Envelope.decode_eq_ok_iff, openCiphertext_eq_ok_iff]
  constructor
  · intro ha
    obtain ⟨master, hmaster, hopens⟩ := ha.opens
    obtain ⟨_, hmaster', -, hkeys⟩ := h.exists_master ha.active
    cases hmaster.symm.trans hmaster'
    exact ⟨⟨ha.wellFormed, ha.data_eq⟩, ha.expected, _, hkeys, hopens⟩
  · rintro ⟨⟨hwell, hdata⟩, hexpected, keys, hkeys, hopens⟩
    obtain ⟨hactive, master, hmaster, -, rfl⟩ := h.get_eq_ok_iff.1 hkeys
    exact ⟨hwell, hdata, hexpected, hactive, master, hmaster, hopens⟩

end Open

/-- Two byte strings that differ in the flag alone fail with one fault of their header, or both are
genuine. A fault of the header is told of exactly those that are not genuine, and a fault of the content
of exactly those that are: for the others it makes no difference how a content would be read. -/
theorem flag_read_behind_tag {source : KeySource} {v : Vault} (h : v.OpenOn source)
    (expected : Option String) {data data' : ByteArray} (hflag : SameBehindFirst data data') :
    ((∃ err, HeaderFault expected err ∧ v.decryptExpecting expected (some data) = .failure err ∧
        v.decryptExpecting expected (some data') = .failure err) ∨
      ∃ e packed, Authentic source v expected data e packed ∧
        Authentic source v expected data' { e with flag := byteAt data' 0 } packed) ∧
    (∀ err, v.decryptExpecting expected (some data) = .failure err →
      (HeaderFault expected err ↔ ¬∃ e packed, Authentic source v expected data e packed) ∧
      (ContentFault expected err ↔ ∃ e packed, Authentic source v expected data e packed)) ∧
    ((¬∃ e packed, Authentic source v expected data e packed) →
      ∀ read, v.decryptReading read expected data = v.decryptExpecting expected (some data)) := by
  obtain ⟨ring, h⟩ := h.opened
  have hread := h.decryptExpecting_eq expected
  simp only [h.authentic_iff, hread, h.decryptReading_eq, authenticate_of_same ring expected hflag]
  cases hauth : authenticate ring expected data with
  | error err =>
    have hfault := headerFault_of_authenticate hauth
    refine ⟨.inl ⟨err, hfault, rfl, rfl⟩, fun err' herr => ?_, fun _ _ => rfl⟩
    cases herr
    simp [hfault, hfault.not_contentFault]
  | ok p =>
    obtain ⟨e, packed⟩ := p
    refine ⟨.inr ⟨e, packed, rfl, rfl⟩, fun err herr => ?_, fun hnone => absurd ⟨e, packed, rfl⟩ hnone⟩
    have hvalue : valueIn e.flag e.keyId packed = .error err := by
      rw [ok_bind] at herr
      cases hv : valueIn e.flag e.keyId packed <;> rw [hv] at herr <;> cases herr
      rfl
    have hfault := contentFault_of_valueIn hvalue (authenticate_eq_ok_iff.1 hauth).2.1
    have hnot : ¬HeaderFault expected err := fun hheader => hheader.not_contentFault hfault
    simp [hfault, hnot]

/-- Under a flag without a meaning, a genuine envelope is as genuine as under its own. -/
theorem flag_read_behind_tag_twins :
    let v := Twins.vault "new" .initial
    let e : Envelope := ⟨0, "old", ⟨Bytes.replicate 24 9, rfl⟩,
      SecretBox.encrypt (Subkeys.ofMaster Twins.master).encryption (Bytes.replicate 24 9)
        (BoundPayload.bound "old" "alice".toUTF8)⟩
    let other := { e with flag := 0x7f }
    v.OpenOn (Twins.source "new") ∧ SameBehindFirst e.bytes other.bytes ∧
      ∃ e' packed, Authentic (Twins.source "new") v none e.bytes e' packed ∧
        Authentic (Twins.source "new") v none other.bytes { e' with flag := 0x7f } packed := by
  intro v e other
  have hv : v.OpenOn (Twins.source "new") := Twins.openOn (by decide) .initial
  have hsame : SameBehindFirst e.bytes other.bytes := e.same_withFlag 0x7f
  refine ⟨hv, hsame, ?_⟩
  obtain ⟨⟨err, -, hfails, -⟩ | ⟨e', packed, he, hother⟩, -⟩ := flag_read_behind_tag hv none hsame
  · obtain ⟨ring, h⟩ := hv.opened
    have hactive : "old" ∈ v.activeIds := by decide
    obtain ⟨master, hmaster, -, hkeys⟩ := h.exists_master hactive
    cases (Twins.masterKey_eq (by decide)).symm.trans hmaster
    have hwell : e.WellFormed := by
      refine ⟨h.valid hactive, ?_⟩
      rw [SecretBox.size_encrypt, SecretBox.tagSize]
      omega
    have hopens : openEnvelope ring e = .ok "alice".toUTF8 :=
      (openEnvelope_eq_ok_iff hwell.keyId).2
        ⟨_, _, hkeys, SecretBox.decrypt?_encrypt _ _ _, .inl ⟨rfl, rfl⟩⟩
    have hvalue : v.decrypt (some e.bytes) = .value (some "alice".toUTF8) := by
      rw [h.decrypt_eq_value_iff, decryptUnder_bytes hwell, hopens]
    have hfails : v.decrypt (some e.bytes) = .failure err := hfails
    rw [hvalue] at hfails
    cases hfails
  · rw [Envelope.byteAt_flag] at hother
    exact ⟨e', packed, he, hother⟩

end Vault

end ColumnVault
