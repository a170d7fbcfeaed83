import ColumnVault.Crypto.Hmac
import ColumnVault.Error

/-! The two keys that every master key gives: one encrypts values, one indexes them. -/

namespace ColumnVault

structure Subkeys where
  encryption : ByteArray
  index : ByteArray
  deriving DecidableEq

namespace Subkeys

/-- What the derivation of the encryption key is bound to. -/
def encryptionPurpose : String := "sealdb-v1-encryption"

/-- What the derivation of the index key is bound to. -/
def indexPurpose : String := "sealdb-v1-blind-index"

/-- The keys derived from a master key, which has to have its full size. -/
def derive (master : ByteArray) : Except Error Subkeys :=
  if master.size = keySize then
    .ok ⟨Crypto.Hkdf.derive master encryptionPurpose.toUTF8,
      Crypto.Hkdf.derive master indexPurpose.toUTF8⟩
  else .error (.invalidKeySize keySize master.size)

/-- Zeros in place of the keys. -/
def scrub (k : Subkeys) : Subkeys :=
  ⟨Bytes.replicate k.encryption.size 0, Bytes.replicate k.index.size 0⟩

/-- What may be shown of the keys: nothing. -/
def redacted (_ : Subkeys) : String :=
  "DerivedKeySet \x7b encryption_key: \"[REDACTED]\", hmac_key: \"[REDACTED]\" \x7d"

/-- The blind index of a value: its digest under the index key. -/
def blindIndex (k : Subkeys) (value : ByteArray) : ByteArray :=
  Crypto.Hmac.sha256 k.index value

end Subkeys

end ColumnVault
