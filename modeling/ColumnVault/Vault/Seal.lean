import ColumnVault.Crypto.SecretBox
import ColumnVault.Envelope.BoundPayload
import ColumnVault.Vault.Digest

/-! Encryption and decryption of values. A missing value stays missing. -/

namespace ColumnVault

/-- A value made ready for its columns. -/
structure SealedValue where
  ciphertext : Option ByteArray
  blindIndex : Option ByteArray
  /-- The key it was sealed under. -/
  keyId : String
  deriving DecidableEq

namespace Vault

/-- Runs an operation on a value that may be missing. -/
def onValue {α β : Type} (value : Option α) (f : α → Drawing β) : Drawing (Option β) :=
  match value with
  | none => pure none
  | some a => do return some (← f a)

variable [Zstd.Encoder]

/-- The envelope for a value: the value is bound to the id of its key, packed and encrypted under a
fresh nonce, which is drawn last. -/
def encryptUnder (ring : KeyRing) (policy : Policy) (id : String) (value : ByteArray) :
    Drawing ByteArray := do
  let keys ← (ring.get id : Outcome Subkeys)
  let bound ← (BoundPayload.encode id value : Outcome ByteArray)
  let (payload, algorithm) := Packing.pack policy bound
  let nonce ← Drawing.bytes nonceSize
  let ciphertext := Crypto.SecretBox.encrypt keys.encryption nonce.val payload
  (Envelope.encode ⟨algorithm.flag, id, nonce, ciphertext⟩ : Outcome ByteArray)

/-- The value in an envelope. Nothing in the envelope is trusted before its ciphertext has opened
under the key that it names; then the id bound inside must be that of the key. -/
def decryptUnder (ring : KeyRing) (data : ByteArray) (expected : Option String) :
    Except Error ByteArray := do
  let envelope ← Envelope.decode data
  match expected with
  | some id =>
    if id ≠ envelope.keyId then throw (.keyIdMismatch envelope.keyId id)
  | none => pure ()
  let keys ← ring.get envelope.keyId
  match Crypto.SecretBox.decrypt? keys.encryption envelope.nonce.val envelope.ciphertext with
  | none => throw .decryptionFailed
  | some packed =>
    let algorithm ← Algorithm.ofFlag envelope.flag
    let bound ← BoundPayload.decode (← Packing.unpack algorithm packed)
    if bound.keyId ≠ envelope.keyId.toUTF8 then
      throw (.keyIdMismatch envelope.keyId (Text.Utf8.decodeLossy bound.keyId))
    return bound.payload

/-- Encrypts under the default key. -/
def encrypt (v : Vault) (value : Option ByteArray) : Drawing (Option ByteArray) := do
  let ring ← v.ring .defaultKey
  onValue value (encryptUnder ring v.policy v.defaultId)

/-- Encrypts under a named key. -/
def encryptWithKey (v : Vault) (id : String) (value : Option ByteArray) :
    Drawing (Option ByteArray) := do
  let ring ← v.ring .namedKey
  onValue value (encryptUnder ring v.policy id)

/-- Decrypts under the active key that the envelope names. -/
def decrypt (v : Vault) (envelope : Option ByteArray) : Outcome (Option ByteArray) := do
  let ring ← v.ring .defaultKey
  match envelope with
  | none => return none
  | some e => return some (← decryptUnder ring e none)

/-- Decrypts an envelope that must name the given key. -/
def decryptWithKey (v : Vault) (id : String) (envelope : Option ByteArray) :
    Outcome (Option ByteArray) := do
  let ring ← v.ring .namedKey
  match envelope with
  | none => return none
  | some e => return some (← decryptUnder ring e (some id))

/-- Encrypts and indexes a value under the default key. -/
def sealValue (v : Vault) (value : Option ByteArray) : Drawing SealedValue := do
  let ring ← v.ring .defaultKey
  let keys ← (ring.get v.defaultId : Outcome Subkeys)
  let ciphertext ← onValue value (encryptUnder ring v.policy v.defaultId)
  return ⟨ciphertext, value.map keys.blindIndex, v.defaultId⟩

/-- Seals a text as it is, under the index of its normal form. -/
def sealText (v : Vault) (text : Option String) (normalizer : Normalizer) :
    Drawing SealedValue := do
  let sealed ← v.sealValue (text.map String.toUTF8)
  let index ← v.blindIndexText text normalizer
  return { sealed with blindIndex := index }

end Vault

end ColumnVault
