/-! Why bytes are not a Zstandard frame. -/

namespace ColumnVault.Zstd

inductive Fault where
  | unknownFrame
  | unsupportedVersion
  | unsupportedParameter
  | windowTooLarge
  | dictionaryMismatch
  | corrupted
  | checksumMismatch
  deriving DecidableEq, Repr

def Fault.message : Fault → String
  | .unknownFrame => "Unknown frame descriptor"
  | .unsupportedVersion => "Version not supported"
  | .unsupportedParameter => "Unsupported frame parameter"
  | .windowTooLarge => "Frame requires too much memory for decoding"
  | .dictionaryMismatch => "Dictionary mismatch"
  | .corrupted => "Data corruption detected"
  | .checksumMismatch => "Restored data doesn't match checksum"

end ColumnVault.Zstd
