import ColumnVault.Zstd.Early.Frame
import ColumnVault.Zstd.Header
import ColumnVault.Zstd.Sequences

/-! Decoding one whole frame under a limit on the size of its content. A small frame of known size
that is complete is decoded in one go, straight into the first chunk; there the blocks need not
respect the window. -/

namespace ColumnVault.Zstd

open Bytes

inductive BlockKind where
  | raw | repeated | compressed | reserved
  deriving DecidableEq

structure BlockHeader where
  last : Bool
  kind : BlockKind
  size : Nat

/-- How many bytes follow the header. -/
def BlockHeader.bodySize (h : BlockHeader) : Nat :=
  if h.kind = .repeated then 1 else h.size

/-- Reads the three bytes of a block header. -/
def readBlockHeader (bytes : ByteArray) (pos : Nat) : BlockHeader :=
  let w := numberLE bytes pos 3
  ⟨w % 2 = 1, [.raw, .repeated, .compressed].getD (w / 2 % 4) .reserved, w / 8⟩

/-- Whether the blocks from `pos` on, and the checksum after them, are all there. -/
def isComplete (bytes : ByteArray) (checksum : Bool) : (fuel : Nat) → (pos : Nat) → Bool
  | 0, _ => false
  | fuel + 1, pos =>
    if bytes.size < pos + 3 then false
    else
      let h := readBlockHeader bytes pos
      let next := pos + 3 + h.bodySize
      if h.kind = .reserved ∨ bytes.size < next then false
      else if h.last then next + (if checksum then 4 else 0) ≤ bytes.size
      else isComplete bytes checksum fuel next

/-- The limits that hold while a frame is decoded. -/
structure Room where
  /-- Whether the frame is decoded in one go. -/
  atOnce : Bool
  /-- The largest block. -/
  block : Nat
  /-- The largest content that the buffer of the decoder takes, if it never starts over. -/
  buffer : Option Nat

/-- The content may not grow over this size while a block is decoded after `size` bytes. -/
def Room.limit (r : Room) (size : Nat) : Nat :=
  let most := if r.atOnce then chunkSize else size + r.block
  match r.buffer with
  | some n => min n most
  | none => most

def Room.of (h : Header) (bytes : ByteArray) : Room :=
  let block := h.blockLimit
  match h.contentSize with
  | none => ⟨false, block, none⟩
  | some n =>
    if n ≤ chunkSize ∧ isComplete bytes h.checksum bytes.size h.length then ⟨true, block, none⟩
    else if n ≤ max h.window 1024 + 2 * block + 64 then ⟨false, block, some n⟩
    else ⟨false, block, none⟩

/-- Decodes the body of a block behind the content so far. -/
def decodeBody (bytes : ByteArray) (pos : Nat) (h : BlockHeader) (room : Room) (memory : Memory)
    (out : ByteArray) : Except Fault (ByteArray × Memory) :=
  let limit := room.limit out.size
  match h.kind with
  | .raw =>
    if out.size + h.size > limit then .error .corrupted
    else .ok (out ++ bytes.extract pos (pos + h.size), memory)
  | .repeated =>
    if out.size + h.size > limit then .error .corrupted
    else .ok (pushMany out (byteAt bytes pos) h.size, memory)
  | .compressed =>
    if h.size > room.block then .error .corrupted
    else decodeBlock bytes pos (pos + h.size) room.block limit memory out
  | .reserved => .error .corrupted

/-- Decodes the blocks from `pos` on, and checks the sum after the last; also tells where the frame
ends. -/
def decodeBlocks (bytes : ByteArray) (header : Header) (room : Room) :
    (fuel : Nat) → (pos : Nat) → (memory : Memory) → (meter : Meter) → (out : ByteArray) →
    Except ReadFault (ByteArray × Nat)
  | 0, _, _, _, _ => .error .truncated
  | fuel + 1, pos, memory, meter, out => do
    if bytes.size < pos + 3 then
      let _ ← meter.finish
      throw .truncated
    let h := readBlockHeader bytes pos
    let size := h.bodySize
    if h.kind = .reserved ∨ (¬ room.atOnce ∧ size > room.block) then throw (.codec .corrupted)
    let next := pos + 3 + size
    if bytes.size < next then
      let part := if h.kind = .raw then bytes.size - (pos + 3) else 0
      if out.size + part > room.limit out.size then throw (.codec .corrupted)
      let meter ← meter.write part
      let _ ← meter.finish
      throw .truncated
    let before := out.size
    let (out, memory) ←
      if size = 0 ∧ ¬ room.atOnce then pure (out, memory)
      else liftCodec (decodeBody bytes (pos + 3) h room memory out)
    if ¬ h.last then
      let meter ← meter.write (out.size - before)
      decodeBlocks bytes header room fuel next memory meter out
    else
      if (size ≠ 0 ∨ room.atOnce) ∧ header.contentSize.any (· ≠ out.size) then
        throw (.codec .corrupted)
      let meter ← meter.write (out.size - before)
      if header.checksum then
        if bytes.size < next + 4 then
          let _ ← meter.finish
          throw .truncated
        if (Xxh64.hash out).toUInt32 ≠ word32LE bytes next then
          throw (.codec .checksumMismatch)
        let _ ← meter.finish
        return (out, next + 4)
      else
        let _ ← meter.finish
        return (out, next)

/-- The content of the frame that the bytes begin with, and where it ends. -/
def readFrame (limit : Nat) (bytes : ByteArray) : Except ReadFault (ByteArray × Nat) := do
  match ← liftCodec (readStart bytes) with
  | .cut => throw .truncated
  | .skippable size =>
    if bytes.size < 8 + size then throw .truncated
    return (ByteArray.empty, 8 + size)
  | .early format => Early.readFrame format limit bytes
  | .frame header =>
    if header.dictionary ≠ 0 then throw (.codec .dictionaryMismatch)
    let room := Room.of header bytes
    if ¬ room.atOnce ∧ header.window > maxWindow then throw (.codec .windowTooLarge)
    decodeBlocks bytes header room (bytes.size + 1) header.length Memory.initial
      (Meter.start limit) ByteArray.empty

/-- The content of the one frame that the bytes are, at most `limit` bytes. -/
def decode (limit : Nat) (bytes : ByteArray) : Except ReadFault ByteArray := do
  let (out, next) ← readFrame limit bytes
  if next ≠ bytes.size then throw .trailing
  return out

/-- The bytes are one whole frame with a content, in the present format or an early one. A frame that is
skipped has no content. -/
def IsFrame (bytes content : ByteArray) : Prop :=
  ∃ limit, decode limit bytes = .ok content

end ColumnVault.Zstd
