import ColumnVault.Crypto.Sha256

/-! Keyed digests over SHA-256, and the derivation of keys from them. -/

namespace ColumnVault.Crypto

namespace Hmac

/-- A key as one block of the hash: longer keys are hashed first. -/
def blockKey (key : ByteArray) : ByteArray :=
  let k := if key.size > 64 then Sha256.digest key else key
  Bytes.pushMany k 0 (64 - k.size)

/-- The block with every byte combined with `mask`. -/
def masked (key : ByteArray) (mask : UInt8) : ByteArray :=
  (key.data.toList.map (· ^^^ mask)).toByteArray

/-- The digest of a message under a key. -/
def sha256 (key message : ByteArray) : ByteArray :=
  let k := blockKey key
  Sha256.digest (masked k 0x5c ++ Sha256.digest (masked k 0x36 ++ message))

end Hmac

namespace Hkdf

/-- One 32-byte key for the purpose that `info` names, from key material and without salt. -/
def derive (material info : ByteArray) : ByteArray :=
  Hmac.sha256 (Hmac.sha256 (Bytes.replicate 32 0) material) (info.push 1)

end Hkdf

end ColumnVault.Crypto
