import ColumnVault.Error

/-! The outer format of an encrypted value: a flag byte, a length byte, the key id, the nonce, and
the ciphertext with its tag. -/

namespace ColumnVault

abbrev Nonce := { bytes : ByteArray // bytes.size = nonceSize }

structure Envelope where
  flag : UInt8
  keyId : String
  nonce : Nonce
  ciphertext : ByteArray
  deriving DecidableEq

namespace Envelope

/-- The key id behind its length byte. -/
def lengthPrefixed (id : String) : ByteArray :=
  ByteArray.empty.push (UInt8.ofNat id.utf8ByteSize) ++ id.toUTF8

def encode (e : Envelope) : Except Error ByteArray := do
  match KeyId.check e.keyId with
  | .error fault => throw (.invalidKeyId fault)
  | .ok () => pure ()
  if e.ciphertext.size = 0 then throw (.invalidFormat .emptyCiphertext)
  return ByteArray.empty.push e.flag ++ lengthPrefixed e.keyId ++ e.nonce.val ++ e.ciphertext

/-- The parts of an envelope behind its first two bytes. -/
structure Split (data : ByteArray) where
  keyId : String
  /-- Where the nonce starts. -/
  rest : Nat
  hasNonce : rest + nonceSize < data.size

/-- Finds the key id of an envelope and what follows it. -/
def split (data : ByteArray) : Except Error (Split data) :=
  if data.size < minEnvelopeSize then .error (.invalidFormat (.tooShort data.size))
  else
    let n := (Bytes.byteAt data 1).toNat
    if n = 0 then .error (.invalidFormat .noKeyId)
    else if h : data.size < 2 + (n + nonceSize + 1) then .error (.invalidFormat .truncated)
    else
      match Text.Utf8.decode (data.extract 2 (2 + n)) with
      | .error fault => .error (.invalidFormat (.keyIdNotUtf8 fault))
      | .ok id => .ok ⟨id, 2 + n, by omega⟩

/-- Reads an envelope. Its flag is not looked at before the ciphertext is known to be genuine. -/
def decode (data : ByteArray) : Except Error Envelope := do
  let s ← split data
  return {
    flag := Bytes.byteAt data 0
    keyId := s.keyId
    nonce := ⟨data.extract s.rest (s.rest + nonceSize), by
      have := s.hasNonce
      simp
      omega⟩
    ciphertext := data.extract (s.rest + nonceSize) data.size }

/-- The key id that an envelope names, without a look at its ciphertext. -/
def peekKeyId (data : ByteArray) : Except Error String := do
  return (← split data).keyId

end Envelope

end ColumnVault
