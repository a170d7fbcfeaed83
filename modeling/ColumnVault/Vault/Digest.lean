import ColumnVault.Search.Normalizer
import ColumnVault.Vault.Basic

/-! Blind indexes: keyed digests of values, by which equal values are found without decryption.
A missing value has no index. -/

namespace ColumnVault.Vault

/-- The index under the default key. -/
def blindIndex (v : Vault) (value : Option ByteArray) : Outcome (Option ByteArray) := do
  let ring ← v.ring .defaultKey
  match ring.get v.defaultId with
  | .ok keys => return value.map keys.blindIndex
  | .error _ => return none

/-- The index of the normal form of a text under the default key. -/
def blindIndexText (v : Vault) (text : Option String) (normalizer : Normalizer) :
    Outcome (Option ByteArray) := do
  let ring ← v.ring .defaultKey
  match ring.get v.defaultId, text with
  | .ok keys, some s => return some (keys.blindIndex (← normalizer.apply s).toUTF8)
  | _, _ => return none

/-- The index under a named key. -/
def blindIndexWithKey (v : Vault) (id : String) (value : Option ByteArray) :
    Outcome (Option ByteArray) := do
  let ring ← v.ring .namedKey
  match value with
  | none => return none
  | some value => return some ((← ring.get id).blindIndex value)

/-- The indexes of a value under some keys of a ring. -/
def indexesUnder (ring : KeyRing) (value : ByteArray) :
    List String → Except Error (List (String × ByteArray))
  | [] => .ok []
  | id :: rest => do
    let keys ← ring.get id
    let more ← indexesUnder ring value rest
    return (id, keys.blindIndex value) :: more

/-- The indexes under all active keys. -/
def blindIndexAll (v : Vault) (value : Option ByteArray) :
    Outcome (Option (List (String × ByteArray))) := do
  let ring ← v.ring .namedKey
  match value with
  | none => return none
  | some value => return some (← indexesUnder ring value v.activeIds)

end ColumnVault.Vault
