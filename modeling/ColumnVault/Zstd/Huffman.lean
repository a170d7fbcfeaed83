import ColumnVault.Zstd.Fse

/-! Prefix codes for literals. A code is described by a weight for each byte value: the higher the
weight, the shorter the code word. -/

namespace ColumnVault.Zstd.Huffman

open Bytes

/-- The longest code word that is usual. -/
def maxLog : Nat := 12

/-- A decoder: for each value of the next `log` bits the byte they begin with and the length of its
code word. -/
structure Table where
  log : Nat
  symbols : ByteArray
  lengths : ByteArray
  /-- Within how many bits two code words are taken together; none if they are taken one by one. -/
  pairs : Option Nat
  deriving Inhabited

/-- Decodes weights from two alternating states until the stream has no bits left for the next. -/
def weightsFrom (t : Fse.Table) : (fuel : Nat) → (bits : BackBits) → (now other : Nat) →
    (weights : Array Nat) → Except Fault (Array Nat)
  | 0, _, _, _, _ => .error .corrupted
  | fuel + 1, bits, now, other, weights =>
    if weights.size > 253 then .error .corrupted
    else
      let cell := t.cell now
      let weights := weights.push cell.symbol
      if bits.left < cell.bits then .ok (weights.push (t.cell other).symbol)
      else
        let next := cell.base + bits.peek cell.bits
        weightsFrom t fuel { bits with left := bits.left - cell.bits } other next weights

/-- The weights of a description compressed into the bytes from `start` to `stop`. -/
def compressedWeights (bytes : ByteArray) (start stop : Nat) : Except Fault (Array Nat) := do
  let (counts, next) ← Fse.Counts.read bytes start stop 255 6
  let table := Fse.Table.ofCounts counts
  let bits ← BackBits.open? bytes next stop
  let (one, bits) ← bits.read table.log
  let (two, bits) ← bits.read table.log
  weightsFrom table 256 bits one two #[]

/-- Weights written as `n` digits of four bits. -/
def plainWeights (bytes : ByteArray) (start n : Nat) : Array Nat :=
  Array.ofFn fun i : Fin n =>
    let b := byteAt bytes (start + i.val / 2)
    (if i.val % 2 = 0 then b >>> 4 else b &&& 0xf).toNat

/-- The share of the code space that a weight takes. -/
@[inline] def share (weight : Nat) : Nat :=
  1 <<< weight >>> 1

/-- Fills the cells of the code words of one weight. -/
def fillWeight (weights : Array Nat) (log weight : Nat) (t : ByteArray × ByteArray) :
    ByteArray × ByteArray :=
  weights.toList.zipIdx.foldl (fun (symbols, lengths) (w, s) =>
    if w = weight then
      (pushMany symbols (UInt8.ofNat s) (share w),
        pushMany lengths (UInt8.ofNat (log + 1 - w)) (share w))
    else (symbols, lengths)) t

/-- The decoder for some weights and the last one, which is not written: it fills the code space up
to a power of two. No code word may be longer than `longest`. -/
def Table.ofWeights (longest : Nat) (weights : Array Nat) : Except Fault Table :=
  let total := weights.foldl (fun n w => n + share w) 0
  if weights.any (· > longest) ∨ total = 0 then .error .corrupted
  else
    let log := highBit total + 1
    let rest := (1 <<< log) - total
    let last := highBit rest + 1
    let weights := weights.push last
    let ones := weights.toList.count 1
    if log > longest ∨ 1 <<< highBit rest ≠ rest ∨ ones < 2 ∨ ones % 2 = 1 ∨ weights.size > 256 then
      .error .corrupted
    else
      let (symbols, lengths) := (List.range (log + 1)).foldl
        (fun t w => if w = 0 then t else fillWeight weights log w t)
        (ByteArray.emptyWithCapacity (1 <<< log), ByteArray.emptyWithCapacity (1 <<< log))
      .ok ⟨log, symbols, lengths, none⟩

/-- The decoder described at `start`, and where its description ends. -/
def Table.read (bytes : ByteArray) (start stop : Nat) : Except Fault (Table × Nat) := do
  if stop ≤ start then throw .corrupted
  let head := (byteAt bytes start).toNat
  if head ≥ 128 then
    let n := head - 127
    let next := start + 1 + (n + 1) / 2
    if next > stop then throw .corrupted
    return (← Table.ofWeights maxLog (plainWeights bytes (start + 1) n), next)
  else
    let next := start + 1 + head
    if next > stop then throw .corrupted
    return (← Table.ofWeights maxLog (← compressedWeights bytes (start + 1) next), next)

end ColumnVault.Zstd.Huffman
