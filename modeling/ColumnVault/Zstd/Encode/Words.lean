import ColumnVault.Zstd.Encode.CodeLengths
import ColumnVault.Zstd.Encode.States

/-! Prefix codes: their words, their descriptions, and streams of literals written with them. -/

namespace ColumnVault.Zstd.Huffman

open Bytes

/-- The code word of each byte value: its bits and their number, which is zero for values that the
code does not have. -/
structure Code where
  lengths : Array Nat
  words : Array Nat
  /-- The length of the longest word. -/
  log : Nat
  deriving Inhabited

/-- How often each byte value occurs, up to the largest that does. -/
def countBytes (data : ByteArray) : Array Nat :=
  Fse.trimmed (data.foldl (fun counts b => counts.modify b.toNat (· + 1)) (Array.replicate 256 0))

/-- The first word of each length: those of the longest words are the lowest numbers. -/
def firstWords (lengths : Array Nat) (log : Nat) : Array Nat :=
  let used := Fse.tally (log + 2) lengths
  ((List.range log).foldl (fun (acc : Array Nat × Nat) i =>
    let n := log - i
    (acc.1.set! n acc.2, (acc.2 + used.getD n 0) >>> 1)) (Array.replicate (log + 1) 0, 0)).1

/-- The code with the given word lengths, which are at most `log`. Words of one length are given out
in the order of the values. -/
def Code.ofLengths (lengths : Array Nat) : Code :=
  let log := lengths.foldl max 0
  let words := (lengths.foldl (fun (acc : Array Nat × Array Nat) n =>
    (acc.1.push (acc.2.getD n 0), acc.2.modify n (· + 1))) (#[], firstWords lengths log)).1
  ⟨lengths, words, log⟩

/-- The length in bytes of data with the given counts, without the rest of the last byte. -/
def Code.estimate (c : Code) (counts : Array Nat) : Nat :=
  ((counts.toList.zip c.lengths.toList).foldl (fun sum (n, l) => sum + n * l) 0) / 8

/-- Whether the code has a word for each value that occurs. -/
def Code.covers (c : Code) (counts : Array Nat) : Bool :=
  counts.size ≤ c.lengths.size &&
    (counts.toList.zip c.lengths.toList).all fun (n, l) => n = 0 || l ≠ 0

/-- Weights, which are those of all values but the last, packed by a distribution of their own. None
if that is of no use, and a fault if it cannot be done. -/
def packWeights (weights : Array Nat) : Except Unit (Option ByteArray) :=
  let n := weights.size
  let counts := Fse.trimmed (Fse.tally 13 weights)
  let most := counts.foldl max 0
  if n ≤ 2 ∨ most = n ∨ most = 1 then .ok none
  else
    match Fse.Counts.scale? (Fse.suitableLog 6 n (counts.size - 1) 2) n 1 counts with
    | none => .error ()
    | some d => .ok (some ((Fse.Encoder.ofCounts d).writeTwo weights.toList (d.write ByteArray.empty)))

/-- Weights as digits of four bits. -/
def plainWeightBytes : List Nat → ByteArray → ByteArray
  | a :: b :: rest, out => plainWeightBytes rest (out.push (UInt8.ofNat (a * 16 + b)))
  | [a], out => out.push (UInt8.ofNat (a * 16))
  | [], out => out

/-- Describes a code by the weights of all values but the last. None if it has too many for plain
weights and they cannot be packed. -/
def Code.describe? (c : Code) : Option ByteArray :=
  let weights := c.lengths.pop.map fun n => if n = 0 then 0 else c.log + 1 - n
  let n := weights.size
  let plain :=
    if n > 128 then none
    else some (plainWeightBytes weights.toList ⟨#[UInt8.ofNat (127 + n)]⟩)
  match packWeights weights with
  | .error () => none
  | .ok none => plain
  | .ok (some packed) =>
    if 1 < packed.size ∧ packed.size < n / 2 then some (⟨#[UInt8.ofNat packed.size]⟩ ++ packed)
    else plain

/-- Writes the words of `n` bytes that end before `stop`, from the last on. -/
def Code.writeBack (c : Code) (data : ByteArray) : (n stop : Nat) → Sink → Sink
  | 0, _, s => s
  | n + 1, stop, s =>
    let b := (byteAt data (stop - 1)).toNat
    c.writeBack data n (stop - 1) (s.add (c.words.getD b 0) (c.lengths.getD b 0))

/-- The stream of the bytes from `start` to `stop`. -/
def Code.stream (c : Code) (data : ByteArray) (start stop : Nat) : ByteArray :=
  (c.writeBack data (stop - start) stop (Sink.start (ByteArray.emptyWithCapacity 64))).close

def pushWord16LE (out : ByteArray) (n : Nat) : ByteArray :=
  (out.push (UInt8.ofNat n)).push (UInt8.ofNat (n / 256))

/-- Four streams of equal parts, behind the lengths of the first three. None if a length does not fit. -/
def Code.fourStreams? (c : Code) (data : ByteArray) : Option ByteArray :=
  let n := data.size
  let part := (n + 3) / 4
  let one := c.stream data 0 part
  let two := c.stream data part (2 * part)
  let three := c.stream data (2 * part) (3 * part)
  let four := c.stream data (3 * part) n
  if n < 12 ∨ [one, two, three, four].any (·.size > 65535) then none
  else
    some ([one, two, three].foldl (fun out s => pushWord16LE out s.size) ByteArray.empty ++
      one ++ two ++ three ++ four)

end ColumnVault.Zstd.Huffman
