import ColumnVault.Key.Id
import ColumnVault.Text.Quoted
import ColumnVault.Text.Utf8
import ColumnVault.Zstd.Frame

/-! Everything that can go wrong, by cause, and the one place where each cause gets its wording. -/

namespace ColumnVault

/-- Why a file operation failed. -/
inductive FileFault where
  | notFound
  | exists
  | notDirectory
  | isDirectory
  | nameTooLong
  | notEmpty
  | nameHasNul
  | contentNotUtf8
  | other (text : String)
  deriving DecidableEq, Repr

def FileFault.message : FileFault → String
  | .notFound => "No such file or directory (os error 2)"
  | .exists => "File exists (os error 17)"
  | .notDirectory => "Not a directory (os error 20)"
  | .isDirectory => "Is a directory (os error 21)"
  | .nameTooLong => "File name too long (os error 36)"
  | .notEmpty => "Directory not empty (os error 39)"
  | .nameHasNul => "file name contained an unexpected NUL byte"
  | .contentNotUtf8 => "stream did not contain valid UTF-8"
  | .other text => text

/-- Why a stored master key, or its id, is refused. -/
inductive MasterKeyFault where
  | badId (fault : KeyId.Fault)
  | idNotFileName (id : String)
  | fileNameNotUtf8 (path : String)
  | wrongFileSize (path : String) (size : Nat)
  | other (text : String)
  deriving DecidableEq, Repr

/-- The size of a master key and of each key derived from it. -/
def keySize : Nat := 32

def MasterKeyFault.message : MasterKeyFault → String
  | .badId fault => s!"invalid key id: {fault.message}"
  | .idNotFileName id => s!"key id is not a file name: {id}"
  | .fileNameNotUtf8 path => s!"key file name is not UTF-8: {path}"
  | .wrongFileSize path size => s!"{path} must be exactly {keySize} bytes, got {size}"
  | .other text => text

/-- Why a key, or a place for keys, cannot be made. -/
inductive CreationFault where
  | noDirectory (dir : String)
  | alreadyInitialized (dir : String)
  | keyExists (id : String)
  | entropy (text : String)
  | other (text : String)
  deriving DecidableEq, Repr

def CreationFault.message : CreationFault → String
  | .noDirectory dir => s!"Key directory does not exist: {dir}"
  | .alreadyInitialized dir => s!"Key directory already initialized: {dir}"
  | .keyExists id => s!"Key already exists: {id}"
  | .entropy text => s!"entropy source failure: {text}"
  | .other text => text

/-- What a source of master keys reports. -/
inductive KeySourceError where
  | keyNotFound (id : String)
  | noDefaultKey
  | invalidKey (fault : MasterKeyFault)
  | creationFailed (fault : CreationFault)
  | file (fault : FileFault)
  deriving DecidableEq, Repr

def KeySourceError.message : KeySourceError → String
  | .keyNotFound id => s!"master key not found: {id}"
  | .noDefaultKey => "no default key configured"
  | .invalidKey fault => s!"invalid key: {fault.message}"
  | .creationFailed fault => s!"key creation failed: {fault.message}"
  | .file fault => s!"I/O error: {fault.message}"

/-- The messages of the errors behind this one, the nearest first. -/
def KeySourceError.causes : KeySourceError → List String
  | .file fault => [fault.message]
  | _ => []

/-- Why bytes are not an envelope, or not a payload bound to a key. -/
inductive FormatFault where
  | tooShort (size : Nat)
  | noKeyId
  | truncated
  | keyIdNotUtf8 (fault : Text.Utf8.Fault)
  | emptyCiphertext
  | payloadTooShort (size : Nat)
  | payloadNoKeyId
  | payloadTruncated
  | other (text : String)
  deriving DecidableEq, Repr

/-- The size of a nonce. -/
def nonceSize : Nat := 24

/-- The smallest envelope: flag, length, a one-byte key id, nonce, one byte of ciphertext. -/
def minEnvelopeSize : Nat := 1 + 1 + 1 + nonceSize + 1

/-- The smallest bound payload: length and a one-byte key id. -/
def minPayloadSize : Nat := 2

def FormatFault.message : FormatFault → String
  | .tooShort size => s!"envelope too short: {size} bytes (min: {minEnvelopeSize})"
  | .noKeyId => "zero-length key id"
  | .truncated => "envelope truncated"
  | .keyIdNotUtf8 fault => s!"key id is not UTF-8: {fault.message}"
  | .emptyCiphertext => "empty ciphertext"
  | .payloadTooShort size => s!"inner payload too short: {size} bytes (min: {minPayloadSize})"
  | .payloadNoKeyId => "zero-length inner key id"
  | .payloadTruncated => "inner key id truncated"
  | .other text => text

/-- Why packed bytes cannot be unpacked. -/
inductive UnpackFault where
  | frame (fault : Zstd.ReadFault)
  | other (text : String)
  deriving DecidableEq, Repr

def UnpackFault.message : UnpackFault → String
  | .frame (.codec fault) => s!"zstd: {fault.message}"
  | .frame .truncated => "zstd: truncated frame"
  | .frame .trailing => "zstd: trailing bytes after frame"
  | .frame (.tooLarge limit) => s!"decompressed size exceeds {limit} bytes"
  | .other text => text

/-- What the operations of a vault report. -/
inductive Error where
  | invalidKeySize (expected actual : Nat)
  | keyDerivation
  | invalidKeyId (fault : KeyId.Fault)
  | noKeysConfigured
  | defaultKeyNotFound (id : String)
  | keyNotFound (id : String)
  | keyIdMismatch (envelope expected : String)
  | decryptionFailed
  | encryptionFailed (text : String)
  | invalidFormat (fault : FormatFault)
  | unsupportedAlgorithm (flag : UInt8)
  | decompressionFailed (fault : UnpackFault)
  | closed
  | invalidColumn (name : String)
  | invalidOffset (offset keyCount max : Nat)
  | keySource (error : KeySourceError)
  deriving DecidableEq, Repr

/-- A byte as two hexadecimal digits behind a mark. -/
def hexByte (b : UInt8) : String :=
  String.ofList ('0' :: 'x' :: [b >>> 4, b &&& 0xf].map fun d => Nat.digitChar d.toNat)

def Error.message : Error → String
  | .invalidKeySize expected actual => s!"invalid key size: expected {expected} bytes, got {actual}"
  | .keyDerivation => "key derivation failed"
  | .invalidKeyId fault => s!"invalid key id: {fault.message}"
  | .noKeysConfigured => "no keys configured"
  | .defaultKeyNotFound id => s!"default key not found: {id}"
  | .keyNotFound id => s!"key not found: {id}"
  | .keyIdMismatch envelope expected =>
    s!"key id mismatch: envelope names {envelope}, expected {expected}"
  | .decryptionFailed => "decryption failed: ciphertext may be corrupted or tampered"
  | .encryptionFailed text => s!"encryption failed: {text}"
  | .invalidFormat fault => s!"invalid format: {fault.message}"
  | .unsupportedAlgorithm flag => s!"unsupported compression algorithm: {hexByte flag}"
  | .decompressionFailed fault => s!"decompression failed: {fault.message}"
  | .closed => "vault is closed"
  | .invalidColumn name => s!"invalid column identifier: {Text.Quoted.text name}"
  | .invalidOffset offset keyCount max =>
    s!"invalid parameter offset {offset} for {keyCount} keys (max parameter: {max})"
  | .keySource error => s!"key registry error: {error.message}"

/-- The messages of the errors behind this one, the nearest first. -/
def Error.causes : Error → List String
  | .keySource error => error.message :: error.causes
  | _ => []

end ColumnVault
