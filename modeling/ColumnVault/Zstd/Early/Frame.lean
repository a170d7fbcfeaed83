import ColumnVault.Zstd.Early.Header
import ColumnVault.Zstd.Early.Literals
import ColumnVault.Zstd.Early.Sequences
import ColumnVault.Zstd.Meter
import ColumnVault.Zstd.Xxh64

/-! Frames of the early formats: blocks up to one that ends the frame. A block without bytes ends it,
too, and then nothing is checked. -/

namespace ColumnVault.Zstd.Early

open Bytes

inductive BlockKind where
  | compressed | raw | repeated | last
  deriving DecidableEq

structure BlockHeader where
  kind : BlockKind
  size : Nat
  /-- What the last block says of the content. -/
  checksum : Nat

/-- Reads the three bytes of a block header. -/
def readBlockHeader (bytes : ByteArray) (pos : Nat) : BlockHeader :=
  let w := (word32BE bytes pos >>> 8).toNat
  ⟨[.compressed, .raw, .repeated].getD (w / 0x400000) .last, w % 0x80000, w % 0x400000⟩

/-- How many bytes follow the header. -/
def BlockHeader.bodySize (h : BlockHeader) : Nat :=
  match h.kind with
  | .repeated => 1
  | .last => 0
  | _ => h.size

/-- Decodes the compressed block in the bytes from `start` to `stop`. -/
def decodeBlock (f : Format) (bytes : ByteArray) (start stop : Nat) (memory : Memory) (b : Buffer) :
    Except Fault (Buffer × Memory) := do
  let most := if f = .four then maxBlock else maxBlock - 1
  if stop - start > most then throw .corrupted
  let (literals, code, next) ← readLiterals f bytes start stop memory.code
  let memory := { memory with code }
  if f.hasSideLengths then return (← runSideSequences f bytes next stop literals b, memory)
  else runSequences f bytes next stop memory literals b

/-- Decodes the body of a block. A block of one repeated byte is not understood. -/
def decodeBody (f : Format) (bytes : ByteArray) (pos : Nat) (h : BlockHeader) (memory : Memory)
    (b : Buffer) : Except Fault (Buffer × Memory) :=
  match h.kind with
  | .raw => do return (← b.append bytes pos h.size, memory)
  | .repeated => .error .corrupted
  | .compressed => decodeBlock f bytes pos (pos + h.size) memory b
  | .last => .ok (b, memory)

/-- The sum of some content that the last block of a frame tells. -/
def checksum (content : ByteArray) : Nat :=
  (Xxh64.hash content >>> 11 &&& 0x3fffff).toNat

/-- Decodes the blocks from `pos` on; also tells where the frame ends. -/
def decodeBlocks (f : Format) (bytes : ByteArray) (header : Header) :
    (fuel : Nat) → (pos : Nat) → (memory : Memory) → (buffer : Buffer) → (meter : Meter) →
    (out : ByteArray) → Except ReadFault (ByteArray × Nat)
  | 0, _, _, _, _, _ => .error .truncated
  | fuel + 1, pos, memory, buffer, meter, out => do
    if bytes.size < pos + 3 then
      let _ ← meter.finish
      throw .truncated
    let h := readBlockHeader bytes pos
    let size := h.bodySize
    let body := pos + 3
    if size = 0 then
      if h.kind = .last ∧ header.checksum ∧ h.checksum ≠ checksum out then
        throw (.codec .checksumMismatch)
      let _ ← meter.finish
      return (out, body)
    else if bytes.size < body + size then
      if body < bytes.size ∧ header.waiting < size then throw (.codec .corrupted)
      let _ ← meter.finish
      throw .truncated
    else
      let (after, memory) ← liftCodec (decodeBody f bytes body h memory buffer)
      if after.pos = buffer.pos then
        decodeBlocks f bytes header fuel (body + size) memory after meter out
      else
        let meter ← meter.write (after.pos - buffer.pos)
        let out := out ++ after.cells.extract buffer.pos after.pos
        decodeBlocks f bytes header fuel (body + size) memory (after.turnOver header.room) meter out

/-- The content of the frame that the bytes begin with, and where it ends. -/
def readFrame (f : Format) (limit : Nat) (bytes : ByteArray) :
    Except ReadFault (ByteArray × Nat) := do
  match ← liftCodec (f.readHeader bytes) with
  | none => throw .truncated
  | some header =>
    decodeBlocks f bytes header (bytes.size + 1) header.length Memory.initial
      (Buffer.empty header.buffer) (Meter.start limit) ByteArray.empty

end ColumnVault.Zstd.Early
