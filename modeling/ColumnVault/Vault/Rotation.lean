import ColumnVault.Vault.Seal

/-! Moving stored values to the default key, one at a time. Until all are moved, the keys they were
written under stay active. -/

namespace ColumnVault.Vault

variable [Zstd.Encoder]

/-- Encrypts the value in an envelope again, under the default key. -/
def rotate (v : Vault) (envelope : Option ByteArray) : Drawing (Option ByteArray) := do
  let ring ← v.ring .defaultKey
  onValue envelope fun e => do
    let value ← (decryptUnder ring e none : Outcome ByteArray)
    encryptUnder ring v.policy v.defaultId value

/-- The index of a moved value. -/
def rotateIndex (v : Vault) (value : Option ByteArray) : Outcome (Option ByteArray) := do
  let ring ← v.ring .defaultKey
  match ring.get v.defaultId with
  | .ok keys => return value.map keys.blindIndex
  | .error _ => return none

/-- Whether an envelope names another key than the default key. -/
def needsRotation (v : Vault) (envelope : Option ByteArray) : Outcome Bool := do
  let _ ← v.ring .defaultKey
  match envelope with
  | none => return false
  | some e =>
    match Envelope.peekKeyId e with
    | .ok id => return id ≠ v.defaultId
    | .error _ => return false

end ColumnVault.Vault
