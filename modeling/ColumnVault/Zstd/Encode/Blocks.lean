import ColumnVault.Zstd.Encode.Matches
import ColumnVault.Zstd.Header

/-! Where blocks end, and the form of each. A full block ends early where the bytes that follow are
distributed in another way, which is judged by samples. -/

namespace ColumnVault.Zstd

open Bytes

/-- The size of the pieces whose samples are compared. -/
def pieceSize : Nat := 8 * 1024

/-- A sample is one of so many bytes. -/
def sampleRate : Nat := 43

/-- Sampled bytes: how often each value occurs, and their number. -/
structure Sample where
  counts : Array Nat
  total : Nat

def sampleFrom (data : ByteArray) (i : Nat) : (n : Nat) → (counts : Array Nat) → Array Nat
  | 0, counts => counts
  | n + 1, counts =>
    sampleFrom data (i + sampleRate) n (counts.modify (byteAt data i).toNat (· + 1))

/-- The sample of the piece from `start` on. -/
def Sample.of (data : ByteArray) (start : Nat) : Sample :=
  ⟨sampleFrom data start ((pieceSize - 2) / sampleRate + 1) (Array.replicate 256 0),
    (pieceSize - 1) / sampleRate⟩

def Sample.add (a b : Sample) : Sample :=
  ⟨Array.zipWith (· + ·) a.counts b.counts, a.total + b.total⟩

/-- Whether two samples differ by at least `(14 + allowance) / 16` of what they could. -/
def Sample.differs (a b : Sample) (allowance : Nat) : Bool :=
  let distance := (a.counts.toList.zip b.counts.toList).foldl (fun sum (m, n) =>
    sum + ((m * b.total : Int) - n * a.total).natAbs) 0
  distance ≥ a.total * b.total * (14 + allowance) / 16

/-- The size of the block at `start`, of which `n` pieces are left to be compared with those before.
The allowance gets smaller with each piece. -/
def splitSize (data : ByteArray) (start : Nat) : (n : Nat) → (size : Nat) → (before : Sample) →
    (allowance : Nat) → Nat
  | 0, size, _, _ => size
  | n + 1, size, before, allowance =>
    let piece := Sample.of data (start + size)
    if before.differs piece allowance then size
    else splitSize data start n (size + pieceSize) (before.add piece) (allowance - 1)

/-- The size of the block at `start`. Only full blocks are split, once three bytes are saved. -/
def blockSize (data : ByteArray) (start : Nat) (saved : Int) : Nat :=
  if data.size - start < maxBlock then data.size - start
  else if saved < 3 then maxBlock
  else splitSize data start (maxBlock / pieceSize - 1) pieceSize (Sample.of data start) 3

def pushBlockHeader (out : ByteArray) (last : Bool) (kind size : Nat) : ByteArray :=
  Literals.pushNumber out ((if last then 1 else 0) + kind * 2 + size * 8) 3

/-- What one block leaves to the next. -/
structure EncoderMemory where
  trail : Trail
  code : Option Huffman.Code

def EncoderMemory.initial (t : Tuning) : EncoderMemory :=
  ⟨⟨Seen.empty t, Recent.initial.one, Recent.initial.two⟩, none⟩

/-- Whether the bytes from `start` on, `n` of them, are all equal. -/
def isRun (data : ByteArray) (start n : Nat) : Bool :=
  common data start (start + 1) (n - 1) 0 = n - 1

/-- Encodes the body of the block from `start` to `stop`; none if it is not to be packed. -/
def packBlock? (t : Tuning) (data : ByteArray) (start stop : Nat) (memory : EncoderMemory) :
    Option (ByteArray × Option Huffman.Code) × Trail :=
  let size := stop - start
  let ⟨trail, code⟩ := memory
  if size < 7 then (none, trail)
  else
    let (sequences, literals, trail) := findMatches t data start stop trail
    let doubtful := sequences.isEmpty || literals.size / sequences.size ≥ 20
    let (out, code) := Literals.write literals doubtful code ByteArray.empty
    let packed := (writeSequences? sequences out).filter fun body =>
      body.size < size - Literals.leastGain size
    (packed.map (·, code), trail)

/-- Appends the block from `start` to `stop`. A block that is not packed leaves the distances and the
code as they were before. -/
def pushBlock (t : Tuning) (data : ByteArray) (start stop : Nat) (memory : EncoderMemory)
    (out : ByteArray) : ByteArray × EncoderMemory :=
  let size := stop - start
  let last : Bool := stop = data.size
  let (one, two, code) := (memory.trail.one, memory.trail.two, memory.code)
  match packBlock? t data start stop memory with
  | (some (body, newCode), trail) =>
    if start ≠ 0 ∧ body.size < 25 ∧ isRun data start size then
      ((pushBlockHeader out last 1 size).push (byteAt data start), ⟨{ trail with one, two }, code⟩)
    else (pushBlockHeader out last 2 body.size ++ body, ⟨trail, newCode⟩)
  | (none, trail) =>
    if start ≠ 0 ∧ size ≥ 7 ∧ isRun data start size then
      ((pushBlockHeader out last 1 size).push (byteAt data start), ⟨{ trail with one, two }, code⟩)
    else
      (pushBlockHeader out last 0 size ++ data.extract start stop, ⟨{ trail with one, two }, code⟩)

/-- Appends the blocks from `start` on. -/
def pushBlocks (t : Tuning) (data : ByteArray) : (fuel : Nat) → (start : Nat) → (saved : Int) →
    EncoderMemory → (out : ByteArray) → ByteArray
  | 0, _, _, _, out => out
  | fuel + 1, start, saved, memory, out =>
    let size := blockSize data start saved
    let before := out.size
    let (out, memory) := pushBlock t data start (start + size) memory out
    let next := start + size
    if next < data.size then
      pushBlocks t data fuel next (saved + size - (out.size - before : Nat)) memory out
    else out

end ColumnVault.Zstd
