import ColumnVault.Zstd.Early.Counts
import ColumnVault.Zstd.Early.Format
import ColumnVault.Zstd.Huffman.Choice
import ColumnVault.Zstd.Huffman.Lane

/-! Prefix codes in the early formats: how their weights are described, and content that is packed
with them. -/

namespace ColumnVault.Zstd.Early

open Bytes

/-- Reads the next state of a distribution from the stream. -/
@[inline] def nextState (t : Fse.Table) (state : Nat) (bits : WordBits) : Nat × WordBits :=
  let cell := t.cell state
  (cell.base + (bits.look cell.bits).toNat, bits.skip cell.bits)

/-- Reads the first state of a distribution from the stream. -/
def firstState (t : Fse.Table) (bytes : ByteArray) (bits : WordBits) : Nat × WordBits :=
  ((bits.look t.log).toNat, (bits.skip t.log).refill bytes)

/-- Decodes weights from two alternating states until the stream is overrun, and adds the one that the
other state stands for. -/
def weightsToOverrun (t : Fse.Table) (bytes : ByteArray) : (fuel : Nat) → (bits : WordBits) →
    (now other : Nat) → (weights : Array Nat) → Except Fault (Array Nat)
  | 0, _, _, _, _ => .error .corrupted
  | fuel + 1, bits, now, other, weights =>
    if weights.size > 253 then .error .corrupted
    else
      let weights := weights.push (t.cell now).symbol
      let (next, bits) := nextState t now bits
      let bits := bits.refill bytes
      if bits.used > 64 then .ok (weights.push (t.cell other).symbol)
      else weightsToOverrun t bytes fuel bits other next weights

/-- Decodes weights from two alternating states until the stream is at its end and both states are
zero. -/
def weightsToEnd (t : Fse.Table) (bytes : ByteArray) : (fuel : Nat) → (bits : WordBits) →
    (now other : Nat) → (weights : Array Nat) → Except Fault (Array Nat)
  | 0, _, _, _, _ => .error .corrupted
  | fuel + 1, bits, now, other, weights =>
    if bits.used > 64 then .error .corrupted
    else if bits.isFinished ∧ now = 0 then
      if other = 0 then .ok weights else .error .corrupted
    else if weights.size = 255 then .error .corrupted
    else
      let (next, bits) := nextState t now bits
      weightsToEnd t bytes fuel (bits.refill bytes) other next (weights.push (t.cell now).symbol)

/-- The largest log of a distribution of weights. -/
def maxWeightLog : Nat := 12

/-- The weights of a description compressed into the bytes from `start` to `stop`. -/
def compressedWeights (f : Format) (bytes : ByteArray) (start stop : Nat) :
    Except Fault (Array Nat) := do
  let (counts, next) ← readCounts bytes start stop 255 maxWeightLog
  let table := Fse.Table.ofCounts counts
  let bits ← WordBits.open? bytes next stop
  let (one, bits) := firstState table bytes bits
  let (two, bits) := firstState table bytes bits
  match f with
  | .four | .five => weightsToEnd table bytes 257 bits one two #[]
  | .six | .seven => weightsToOverrun table bytes 257 bits one two #[]

/-- How many weights stand for equal code words, by the first byte of their description. -/
def equalWeights : List Nat := [1, 2, 3, 4, 7, 8, 15, 16, 31, 32, 63, 64, 127, 128]

/-- The code described at `start`, and where its description ends. -/
def readCode (f : Format) (longest : Nat) (bytes : ByteArray) (start stop : Nat) :
    Except Fault (Huffman.Table × Nat) := do
  if stop ≤ start then throw .corrupted
  let head := (byteAt bytes start).toNat
  if head ≥ 242 then
    return (← Huffman.Table.ofWeights longest (Array.replicate (equalWeights.getD (head - 242) 0) 1),
      start + 1)
  else if head ≥ 128 then
    let n := head - 127
    let next := start + 1 + (n + 1) / 2
    if next > stop then throw .corrupted
    return (← Huffman.Table.ofWeights longest (Huffman.plainWeights bytes (start + 1) n), next)
  else
    let next := start + 1 + head
    if next > stop then throw .corrupted
    return (← Huffman.Table.ofWeights longest (← compressedWeights f bytes (start + 1) next), next)

/-- The number of bits within which two code words are taken together. -/
def pairWindow : Nat := 12

/-- Decodes `n` bytes from one stream behind its code. In the format five it has to be shorter than
that. -/
def unpackOne (f : Format) (bytes : ByteArray) (start stop n : Nat) :
    Except Fault (ByteArray × Huffman.Table) := do
  let longest := if f = .seven then 13 else 12
  let (code, next) ← readCode f longest bytes start stop
  if f = .five ∧ next + n ≤ stop then throw .corrupted
  return (← Huffman.decodeStream code bytes next stop n ByteArray.empty, code)

/-- Decodes `n` bytes from four streams behind their code. -/
def unpackFour (f : Format) (bytes : ByteArray) (start stop n : Nat) :
    Except Fault (ByteArray × Huffman.Table) := do
  let estimates := Huffman.earlyEstimates (if f = .seven then 3 else 4)
  let inPairs := estimates.choosePairs n (stop - start)
  let longest := if f = .seven ∧ ¬ inPairs then 13 else 12
  let (code, next) ← readCode f longest bytes start stop
  let code := { code with pairs := if inPairs then some pairWindow else none }
  return (← Huffman.decodeFour code bytes next stop n false ByteArray.empty, code)

end ColumnVault.Zstd.Early
