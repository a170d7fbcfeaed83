import ColumnVault.Envelope.Basic

/-! The inner format: what is encrypted is a payload bound to the id of its key, so that a forged
outer id can be told from the true one. -/

namespace ColumnVault

structure BoundPayload where
  keyId : ByteArray
  payload : ByteArray
  deriving DecidableEq

namespace BoundPayload

def encode (id : String) (payload : ByteArray) : Except Error ByteArray :=
  match KeyId.check id with
  | .error fault => .error (.invalidKeyId fault)
  | .ok () => .ok (Envelope.lengthPrefixed id ++ payload)

def decode (data : ByteArray) : Except Error BoundPayload :=
  if data.size < minPayloadSize then .error (.invalidFormat (.payloadTooShort data.size))
  else
    let n := (Bytes.byteAt data 0).toNat
    if n = 0 then .error (.invalidFormat .payloadNoKeyId)
    else if data.size < 1 + n then .error (.invalidFormat .payloadTruncated)
    else .ok ⟨data.extract 1 (1 + n), data.extract (1 + n) data.size⟩

end BoundPayload

end ColumnVault
