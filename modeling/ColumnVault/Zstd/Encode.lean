import ColumnVault.Zstd.Encode.Blocks
import ColumnVault.Zstd.Frame

/-! Encoding data as one frame that tells the size of its content. -/

namespace ColumnVault.Zstd

open Bytes

/-- The header of a frame for content of a size that is known. The window is left out if all of the
content is within it. -/
def frameHeader (t : Tuning) (size : Nat) : ByteArray :=
  let single : Bool := size ≤ t.window
  let (sizeKind, sizeLength, offset) :=
    if size < 256 then (0, if single then 1 else 0, 0)
    else if size < 65536 + 256 then (1, 2, 256)
    else if size + 1 < UInt32.size then (2, 4, 0)
    else (3, 8, 0)
  let out := pushWord32LE (ByteArray.emptyWithCapacity 64) magic
  let out := out.push (UInt8.ofNat (sizeKind * 64 + if single then 32 else 0))
  let out := if single then out else out.push (UInt8.ofNat ((t.windowLog - 10) * 8))
  Literals.pushNumber out (size - offset) sizeLength

/-- The frame of some data. -/
def frameOf (data : ByteArray) : ByteArray :=
  let t := Tuning.of data.size
  pushBlocks t data (data.size + 1) 0 0 (EncoderMemory.initial t) (frameHeader t data.size)

/-- What encodes data: one compressor serves all of a process. It may give no frame for some data, and a
frame that it gives is one whole frame of the data, whatever the size. -/
class Encoder where
  encode? : ByteArray → Option ByteArray
  isFrame_of_encode? {data frame : ByteArray} : encode? data = some frame → IsFrame frame data

/-- `frameOf`, where that is a frame of the data. -/
def checkedFrame? (data : ByteArray) : Option ByteArray :=
  let frame := frameOf data
  match decode data.size frame with
  | .ok content => if content = data then some frame else none
  | .error _ => none

theorem isFrame_of_checkedFrame? {data frame : ByteArray} (h : checkedFrame? data = some frame) :
    IsFrame frame data := by
  simp only [checkedFrame?] at h
  split at h
  · next content hdecode =>
    split at h
    · next hcontent =>
      rw [hcontent] at hdecode
      cases h
      exact ⟨data.size, hdecode⟩
    · cases h
  · cases h

instance : Encoder := ⟨checkedFrame?, isFrame_of_checkedFrame?⟩

end ColumnVault.Zstd
