import ColumnVault.Zstd.Bits

/-! Finite state entropy: distributions of symbols over a power of two, their descriptions, and the
tables that decode them. -/

namespace ColumnVault.Zstd.Fse

open Bytes

/-- How often each symbol stands in a table of `2 ^ log` cells. A count of -1 stands for a symbol
rarer than one cell, which has a single cell at the end of the table. -/
structure Counts where
  log : Nat
  counts : Array Int

/-- Reading a description, where `pos` bits are read. -/
structure Scan where
  pos : Nat
  remaining : Nat
  threshold : Nat
  width : Nat
  counts : Array Int

/-- Reads the two-bit pieces that tell how many more symbols do not occur. -/
def scanZeros (bytes : ByteArray) (start stop : Nat) : (fuel : Nat) → (pos zeros : Nat) → Nat × Nat
  | 0, pos, zeros => (pos, zeros)
  | fuel + 1, pos, zeros =>
    let piece := bitsAt bytes start pos 2
    if piece = 3 ∧ start + pos / 8 < stop then scanZeros bytes start stop fuel (pos + 2) (zeros + 3)
    else (pos + 2, zeros + piece)

def pushZeros (counts : Array Int) : Nat → Array Int
  | 0 => counts
  | n + 1 => pushZeros (counts.push 0) n

/-- Reads the counts of up to `fuel` symbols. -/
def scanCounts (bytes : ByteArray) (start stop maxSymbol : Nat) : (fuel : Nat) → Scan → Scan
  | 0, s => s
  | fuel + 1, s =>
    let (pos, counts) :=
      if s.counts.back? = some 0 then
        let (pos, zeros) := scanZeros bytes start stop (maxSymbol + 1) s.pos 0
        (pos, pushZeros s.counts zeros)
      else (s.pos, s.counts)
    if counts.size > maxSymbol then { s with pos, counts }
    else
      let most := 2 * s.threshold - 1 - s.remaining
      let low := bitsAt bytes start pos (s.width - 1)
      let (pos, value) :=
        if low < most then (pos + (s.width - 1), low)
        else
          let full := bitsAt bytes start pos s.width
          (pos + s.width, if full ≥ s.threshold then full - most else full)
      let count : Int := (value : Int) - 1
      let remaining := s.remaining - count.natAbs
      let counts := counts.push count
      if remaining ≤ 1 then { s with pos, remaining, counts }
      else
        let (width, threshold) :=
          if remaining < s.threshold then
            let width := highBit remaining + 1
            (width, 1 <<< (width - 1))
          else (s.width, s.threshold)
        scanCounts bytes start stop maxSymbol fuel ⟨pos, remaining, threshold, width, counts⟩

/-- The distribution described at `start`, and where its description ends. -/
def Counts.read (bytes : ByteArray) (start stop maxSymbol maxLog : Nat) :
    Except Fault (Counts × Nat) :=
  let log := bitsAt bytes start 0 4 + 5
  if log > maxLog then .error .corrupted
  else
    let s := scanCounts bytes start stop maxSymbol (maxSymbol + 1)
      ⟨4, (1 <<< log) + 1, 1 <<< log, log + 1, #[]⟩
    let next := start + (s.pos + 7) / 8
    if s.remaining ≠ 1 ∨ s.counts.size > maxSymbol + 1 ∨ next > stop then .error .corrupted
    else .ok (⟨log, s.counts⟩, next)

/-- One state of a decoder: the symbol it stands for, and the next state, which is `base` and the
next `bits` bits of the stream. -/
structure Cell where
  symbol : Nat
  bits : Nat
  base : Nat
  deriving Inhabited

structure Table where
  log : Nat
  cells : Array Cell
  deriving Inhabited

/-- The next cell for a symbol, jumping over those kept for rare symbols. -/
def nextPlace (mask step high : Nat) : (fuel : Nat) → Nat → Nat
  | 0, p => p
  | fuel + 1, p =>
    let p := (p + step) &&& mask
    if p > high then nextPlace mask step high fuel p else p

/-- Puts `n` cells of a symbol into the table. -/
def place (mask step high symbol : Nat) : (n : Nat) → (cells : Array Nat) → (p : Nat) →
    Array Nat × Nat
  | 0, cells, p => (cells, p)
  | n + 1, cells, p =>
    place mask step high symbol n (cells.set! p symbol) (nextPlace mask step high (mask + 1) p)

/-- The symbol of each cell: rare ones at the end, the others spread over the rest. -/
def spread (c : Counts) : Array Nat :=
  let size := 1 <<< c.log
  let indexed := c.counts.toList.zipIdx
  let rare := indexed.filterMap fun (n, s) => if n = -1 then some s else none
  let cells := (rare.zipIdx).foldl (fun cells (s, i) => cells.set! (size - 1 - i) s)
    (Array.replicate size 0)
  let high := size - 1 - rare.length
  let step := size / 2 + size / 8 + 3
  (indexed.foldl (fun (cells, p) (n, s) => place (size - 1) step high s n.toNat cells p)
    (cells, 0)).1

/-- The decoder of a distribution. -/
def Table.ofCounts (c : Counts) : Table :=
  let size := 1 <<< c.log
  let first := c.counts.map fun n => if n = -1 then 1 else n.toNat
  let step := fun (acc : Array Cell × Array Nat) (symbol : Nat) =>
    let (cells, next) := acc
    let x := next.getD symbol 0
    let bits := c.log - highBit x
    (cells.push ⟨symbol, bits, (x <<< bits) - size⟩, next.set! symbol (x + 1))
  ⟨c.log, ((spread c).foldl step (Array.emptyWithCapacity size, first)).1⟩

/-- The decoder for a single symbol, which takes no bits. -/
def Table.single (symbol : Nat) : Table :=
  ⟨0, #[⟨symbol, 0, 0⟩]⟩

@[inline] def Table.cell (t : Table) (state : Nat) : Cell :=
  t.cells.getD state ⟨0, 0, 0⟩

end ColumnVault.Zstd.Fse
