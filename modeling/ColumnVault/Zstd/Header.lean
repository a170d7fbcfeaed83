import ColumnVault.Zstd.Bits
import ColumnVault.Zstd.Early.Format

/-! The start of a frame: its mark, and the parameters of its content. -/

namespace ColumnVault.Zstd

open Bytes

/-- The mark of a frame, read as a word with the low byte first. -/
def magic : UInt32 := 0xfd2fb528

/-- The mark of a frame without content, whose low four bits are free. -/
def skippableMagic : UInt32 := 0x184d2a50

def isSkippableMagic (w : UInt32) : Bool :=
  w &&& 0xfffffff0 = skippableMagic

/-- The largest window a decoder makes room for. -/
def maxWindow : Nat := 1 <<< 27 + 1

/-- The largest size of a block in any frame. -/
def maxBlock : Nat := 1 <<< 17

structure Header where
  /-- How many bytes the header takes, its mark included. -/
  length : Nat
  window : Nat
  contentSize : Option Nat
  checksum : Bool
  dictionary : Nat

/-- No block of the frame may be larger, before or after decoding. -/
def Header.blockLimit (h : Header) : Nat :=
  min h.window maxBlock

/-- What the bytes begin with. -/
inductive Start where
  /-- They end within a beginning that could go on to either kind. -/
  | cut
  | skippable (size : Nat)
  | early (format : Early.Format)
  | frame (header : Header)

/-- Whether fewer than five bytes could go on to a frame: each byte there is agrees with a mark. -/
def couldBeMagic (bytes : ByteArray) : Bool :=
  let agrees := fun (mark : UInt32) (i : Nat) =>
    i ≥ bytes.size || byteAt bytes i = (mark >>> UInt32.ofNat (8 * i)).toUInt8
  let low := bytes.size = 0 || byteAt bytes 0 &&& 0xf0 = 0x50
  [0, 1, 2, 3].all (agrees magic) || low && [1, 2, 3].all (agrees skippableMagic)

/-- Reads the header behind the mark of a frame. -/
def readHeader (bytes : ByteArray) : Except Fault Start :=
  let flags := (byteAt bytes 4).toNat
  let single := flags / 32 % 2 = 1
  let dictionaryLength := [0, 1, 2, 4].getD (flags % 4) 0
  let sizeLength := if flags / 64 = 0 ∧ single then 1 else [0, 2, 4, 8].getD (flags / 64) 0
  let dictionaryAt := if single then 5 else 6
  let sizeAt := dictionaryAt + dictionaryLength
  let length := sizeAt + sizeLength
  if bytes.size < length then .ok .cut
  else if flags / 8 % 2 = 1 then .error .unsupportedParameter
  else
    let w := (byteAt bytes 5).toNat
    let base := 1 <<< (w / 8 + 10)
    if ¬ single ∧ w / 8 + 10 > 31 then .error .windowTooLarge
    else
      let size := numberLE bytes sizeAt sizeLength + (if sizeLength = 2 then 256 else 0)
      .ok (.frame {
        length
        window := if single then size else base + base / 8 * (w % 8)
        contentSize := if sizeLength = 0 ∨ size + 1 = UInt64.size then none else some size
        checksum := flags / 4 % 2 = 1
        dictionary := numberLE bytes dictionaryAt dictionaryLength })

/-- What the bytes begin with, if they begin like a frame at all. -/
def readStart (bytes : ByteArray) : Except Fault Start :=
  if bytes.size < 5 then
    if couldBeMagic bytes then .ok .cut else .error .unknownFrame
  else
    let mark := word32LE bytes 0
    if mark = magic then readHeader bytes
    else if isSkippableMagic mark then
      if bytes.size < 8 then .ok .cut else .ok (.skippable (word32LE bytes 4).toNat)
    else
      match Early.Format.ofMark? mark with
      | some format => .ok (.early format)
      | none => .error .unknownFrame

end ColumnVault.Zstd
