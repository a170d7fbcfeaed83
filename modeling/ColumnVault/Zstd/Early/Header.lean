import ColumnVault.Zstd.Bits
import ColumnVault.Zstd.Early.Format

/-! The start of a frame in an early format. -/

namespace ColumnVault.Zstd.Early

open Bytes

/-- The largest block. -/
def maxBlock : Nat := 1 <<< 17

/-- The largest window that a decoder makes room for. -/
def maxWindow : Nat := 1 <<< 27

structure Header where
  /-- How many bytes the header takes, its mark included. -/
  length : Nat
  /-- How much of a block can wait for its rest. -/
  waiting : Nat
  /-- The size of the buffer that the content is decoded into. -/
  buffer : Nat
  /-- The buffer starts over when there is not as much room left as this. -/
  room : Nat
  checksum : Bool

/-- The header of a frame with a window of a size, where the buffer has room for a block behind the
window. -/
def Header.ofWindow (length window : Nat) (checksum : Bool) : Header :=
  let block := min window maxBlock
  ⟨length, block, window + block + 16, block, checksum⟩

/-- The header of the formats four and five: a window, which is all of the buffer. -/
def readWindow (bytes : ByteArray) : Except Fault Header :=
  let w := (byteAt bytes 4).toNat
  if w ≥ 16 then .error .unsupportedParameter
  else .ok ⟨5, maxBlock, 1 <<< (w + 11), maxBlock, false⟩

/-- The header of the format six: a window, and the size of the content in up to eight bytes. None if
the bytes end within it. -/
def readSix (bytes : ByteArray) : Except Fault (Option Header) :=
  let w := (byteAt bytes 4).toNat
  let length := 5 + [0, 1, 2, 8].getD (w / 64) 0
  if bytes.size < length then .ok none
  else if w / 32 % 2 = 1 then .error .unsupportedParameter
  else .ok (some (.ofWindow length (1 <<< (w % 16 + 12)) false))

/-- The header of the format seven: flags, and then a window, a dictionary and the size of the content,
each of which may be missing. A size without a window is the window. None if the bytes end within
it. -/
def readSeven (bytes : ByteArray) : Except Fault (Option Header) :=
  let flags := (byteAt bytes 4).toNat
  let direct := flags / 32 % 2 = 1
  let dictionaryAt := if direct then 5 else 6
  let dictionaryLength := [0, 1, 2, 4].getD (flags % 4) 0
  let sizeAt := dictionaryAt + dictionaryLength
  let sizeLength := if flags / 64 = 0 ∧ direct then 1 else [0, 2, 4, 8].getD (flags / 64) 0
  let length := sizeAt + sizeLength
  if bytes.size < length then .ok none
  else
    let size := numberLE bytes sizeAt sizeLength + (if sizeLength = 2 then 256 else 0)
    let w := (byteAt bytes 5).toNat
    let base := 1 <<< (w / 8 + 10)
    let window := if direct then size % UInt32.size else base + base / 8 * (w % 8)
    if flags / 8 % 2 = 1 ∨ window > maxWindow then .error .unsupportedParameter
    else if numberLE bytes dictionaryAt dictionaryLength ≠ 0 then .error .dictionaryMismatch
    else .ok (some (.ofWindow length (max window 1024) (flags / 4 % 2 = 1)))

/-- The header of a frame; none if the bytes end within it. -/
def Format.readHeader (f : Format) (bytes : ByteArray) : Except Fault (Option Header) :=
  match f with
  | .four | .five => (readWindow bytes).map some
  | .six => readSix bytes
  | .seven => readSeven bytes

end ColumnVault.Zstd.Early
