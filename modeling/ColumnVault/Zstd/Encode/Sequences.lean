import ColumnVault.Zstd.Encode.Literals
import ColumnVault.Zstd.Sequences

/-! Sequences written as codes and extra bits. For each kind of number the usual distribution is
taken, or one made for the block. -/

namespace ColumnVault.Zstd

open Bytes

/-- Copies `literals` bytes and then `length` earlier ones; `value` tells how far back they are, or
which recent distance is used again. -/
structure Sequence where
  literals : Nat
  value : Nat
  length : Nat
  deriving Inhabited

/-- The code of a number: that of the last base which is not larger. -/
def Field.code (f : Field) (value : Nat) : Nat :=
  go f.extras f.extras.size
where
  go (extras : Array Extra) : Nat → Nat
    | 0 => 0
    | n + 1 => if (extras.getD n default).base ≤ value then n else go extras n

/-- The code of a literal length. -/
def literalCode (n : Nat) : Nat :=
  if n < 16 then n else if n < 64 then literalLengths.code n else highBit n + 19

/-- The code of a match length, which is at least three. -/
def matchCode (n : Nat) : Nat :=
  if n < 35 then n - 3 else if n < 131 then matchLengths.code n else highBit (n - 3) + 36

/-- How the codes of one kind are written: the mode, what describes it, and the encoder. -/
structure Coding where
  mode : Nat
  description : ByteArray
  encoder : Fse.Encoder

/-- The largest number of codes with one value for which the usual distribution is preferred. -/
def Field.usualFor (f : Field) (codes most : Nat) : Bool :=
  codes < 1 <<< f.usual.log || most < codes >>> (f.usual.log - 1)

/-- Chooses how to write some codes, of which there is at least one. None if no distribution can be
made for them. -/
def Field.coding? (f : Field) (codes : Array Nat) : Option Coding :=
  let n := codes.size
  let counts := Fse.trimmed (Fse.tally f.extras.size codes)
  let most := counts.foldl max 0
  let hasUsual := counts.size ≤ f.usual.counts.size
  let usual : Coding := ⟨0, ByteArray.empty, Fse.Encoder.ofCounts f.usual⟩
  if most = n then
    if hasUsual ∧ n ≤ 2 then some usual
    else
      let symbol := counts.size - 1
      some ⟨1, ⟨#[UInt8.ofNat symbol]⟩, Fse.Encoder.single symbol⟩
  else if hasUsual ∧ f.usualFor n most then some usual
  else
    let last := codes.back?.getD 0
    let log := Fse.suitableLog f.maxLog n (counts.size - 1) 2
    let (counts, n) :=
      if counts.getD last 0 > 1 then (counts.modify last (· - 1), n - 1) else (counts, n)
    (Fse.Counts.scale? log n (if n ≥ 2048 then -1 else 1) counts).map fun d =>
      ⟨2, d.write ByteArray.empty, Fse.Encoder.ofCounts d⟩

/-- The states of the three encoders. -/
structure States where
  literals : Nat
  offset : Nat
  length : Nat

/-- Writes sequences, given from the last but one to the first. -/
def writeStates (ll of ml : Fse.Encoder) : List Sequence → Sink → States → Sink
  | [], s, t =>
    ll.finish (of.finish (ml.finish s t.length) t.offset) t.literals
  | q :: rest, s, t =>
    let llCode := literalCode q.literals
    let ofCode := highBit q.value
    let mlCode := matchCode q.length
    let (s, offset) := of.put ofCode s t.offset
    let (s, length) := ml.put mlCode s t.length
    let (s, literals) := ll.put llCode s t.literals
    let s := s.add q.literals (literalLengths.extras.getD llCode default).bits
    let s := s.add (q.length - 3) (matchLengths.extras.getD mlCode default).bits
    let s := s.add q.value ofCode
    writeStates ll of ml rest s ⟨literals, offset, length⟩

/-- The stream of some sequences. -/
def sequenceStream (ll of ml : Fse.Encoder) (sequences : Array Sequence) : ByteArray :=
  match sequences.toList.reverse with
  | [] => ByteArray.empty
  | q :: rest =>
    let llCode := literalCode q.literals
    let ofCode := highBit q.value
    let mlCode := matchCode q.length
    let s := (Sink.start ByteArray.empty).add q.literals
      (literalLengths.extras.getD llCode default).bits
    let s := s.add (q.length - 3) (matchLengths.extras.getD mlCode default).bits
    let s := s.add q.value ofCode
    (writeStates ll of ml rest s ⟨ll.first llCode, of.first ofCode, ml.first mlCode⟩).close

def pushCount (out : ByteArray) (n : Nat) : ByteArray :=
  if n < 128 then out.push (UInt8.ofNat n)
  else if n < 0x7f00 then (out.push (UInt8.ofNat (n / 256 + 128))).push (UInt8.ofNat n)
  else Huffman.pushWord16LE (out.push 255) (n - 0x7f00)

/-- Appends the sequences of a block. None if that cannot be done, or not in a form that every decoder
reads. -/
def writeSequences? (sequences : Array Sequence) (out : ByteArray) : Option ByteArray :=
  let out := pushCount out sequences.size
  if sequences.isEmpty then some out
  else do
    let ll ← literalLengths.coding? (sequences.map fun q => literalCode q.literals)
    let of ← offsets.coding? (sequences.map fun q => highBit q.value)
    let ml ← matchLengths.coding? (sequences.map fun q => matchCode q.length)
    let stream := sequenceStream ll.encoder of.encoder ml.encoder sequences
    let lastMade := ([ml, of, ll].find? (·.mode = 2)).map (·.description.size)
    if lastMade.any (· + stream.size < 4) then none
    else
      let modes := UInt8.ofNat (ll.mode * 64 + of.mode * 16 + ml.mode * 4)
      some (out.push modes ++ ll.description ++ of.description ++ ml.description ++ stream)

end ColumnVault.Zstd
