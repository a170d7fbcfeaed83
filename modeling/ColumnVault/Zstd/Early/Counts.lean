import ColumnVault.Zstd.Fse

/-! Distributions as the early formats describe them. The bits are the same as today, but they are
read through a word of four bytes that stays within the description; near its end runs of symbols
that do not occur leave fewer bits of the word than there are. -/

namespace ColumnVault.Zstd.Early

open Bytes

/-- Reading a description through the bits of `word` that are left. It stands at byte `pos`, of which
`used` bits are read. -/
structure WordScan where
  pos : Nat
  used : Nat
  word : UInt32
  remaining : Nat
  threshold : Nat
  width : Nat
  counts : Array Int

/-- The word at byte `pos`, without its first `used` bits. -/
def wordAt (bytes : ByteArray) (pos used : Nat) : UInt32 :=
  word32LE bytes pos >>> UInt32.ofNat used

/-- Whether the word may move on to the byte that is read next. -/
def mayMove (stop pos used : Nat) : Bool :=
  pos + 7 ≤ stop || pos + used / 8 + 4 ≤ stop

/-- Reads the pieces of sixteen bits that stand for twenty-four symbols each. -/
def skipLongRuns (bytes : ByteArray) (stop : Nat) :
    (fuel : Nat) → (pos used : Nat) → (word : UInt32) → (zeros : Nat) → Nat × Nat × UInt32 × Nat
  | 0, pos, used, word, zeros => (pos, used, word, zeros)
  | fuel + 1, pos, used, word, zeros =>
    if word &&& 0xffff ≠ 0xffff then (pos, used, word, zeros)
    else if pos + 5 < stop then
      skipLongRuns bytes stop fuel (pos + 2) used (wordAt bytes (pos + 2) used) (zeros + 24)
    else skipLongRuns bytes stop fuel pos (used + 16) (word >>> 16) (zeros + 24)

/-- Reads the pieces of two bits that stand for three symbols each. -/
def skipShortRuns : (fuel : Nat) → (used : Nat) → (word : UInt32) → (zeros : Nat) →
    Nat × UInt32 × Nat
  | 0, used, word, zeros => (used, word, zeros)
  | fuel + 1, used, word, zeros =>
    if word &&& 3 = 3 then skipShortRuns fuel (used + 2) (word >>> 2) (zeros + 3)
    else (used, word, zeros)

/-- Reads how many more symbols do not occur. -/
def scanRun (bytes : ByteArray) (stop : Nat) (s : WordScan) : WordScan :=
  let (pos, used, word, zeros) := skipLongRuns bytes stop (bytes.size + 4) s.pos s.used s.word 0
  let (used, word, zeros) := skipShortRuns 16 used word zeros
  let zeros := zeros + (word &&& 3).toNat
  let used := used + 2
  let counts := Fse.pushZeros s.counts zeros
  if mayMove stop pos used then
    let pos := pos + used / 8
    let used := used % 8
    { s with pos, used, word := wordAt bytes pos used, counts }
  else { s with pos, used, word := word >>> 2, counts }

/-- Reads the counts of up to `fuel` symbols; none if there are too many. -/
def scanCounts (bytes : ByteArray) (stop maxSymbol : Nat) : (fuel : Nat) → WordScan → Option WordScan
  | 0, s => some s
  | fuel + 1, s =>
    if s.remaining ≤ 1 ∨ s.counts.size > maxSymbol then some s
    else
      let s := if s.counts.back? = some 0 then scanRun bytes stop s else s
      if s.counts.size > maxSymbol then none
      else
        let most := 2 * s.threshold - 1 - s.remaining
        let low := s.word.toNat &&& (s.threshold - 1)
        let (used, value) :=
          if low < most then (s.used + (s.width - 1), low)
          else
            let full := s.word.toNat &&& (2 * s.threshold - 1)
            (s.used + s.width, if full ≥ s.threshold then full - most else full)
        let count : Int := (value : Int) - 1
        let remaining := s.remaining - count.natAbs
        let width := min s.width (highBit remaining + 1)
        let (pos, used) :=
          if mayMove stop s.pos used then (s.pos + used / 8, used % 8)
          else (stop - 4, 8 * s.pos + used - 8 * (stop - 4))
        scanCounts bytes stop maxSymbol fuel {
          pos, used, remaining, width
          word := wordAt bytes pos used
          threshold := 1 <<< (width - 1)
          counts := s.counts.push count }

/-- The distribution described at `start`, and where its description ends. -/
def readCounts (bytes : ByteArray) (start stop maxSymbol maxLog : Nat) :
    Except Fault (Fse.Counts × Nat) :=
  let log := bitsAt bytes start 0 4 + 5
  if stop < start + 4 ∨ log > maxLog then .error .corrupted
  else
    match scanCounts bytes stop maxSymbol (maxSymbol + 1)
      ⟨start, 4, wordAt bytes start 4, (1 <<< log) + 1, 1 <<< log, log + 1, #[]⟩ with
    | none => .error .corrupted
    | some s =>
      let next := s.pos + (s.used + 7) / 8
      if s.remaining ≠ 1 ∨ next > stop then .error .corrupted else .ok (⟨log, s.counts⟩, next)

end ColumnVault.Zstd.Early
