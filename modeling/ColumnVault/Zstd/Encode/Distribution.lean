import ColumnVault.Zstd.Encode.Sink
import ColumnVault.Zstd.Fse

/-! Distributions for counted symbols: the counts are scaled to a power of two, so that no symbol that
occurs is left out, and the result is described in the form that `Counts.read` reads. -/

namespace ColumnVault.Zstd.Fse

/-- How often each symbol below `size` occurs. -/
def tally (size : Nat) (symbols : Array Nat) : Array Nat :=
  symbols.foldl (fun counts s => counts.modify s (· + 1)) (Array.replicate size 0)

/-- The symbol of each count that is not zero, up to the last one. -/
def trimmed (counts : Array Nat) : Array Nat :=
  counts.popWhile (· = 0)

/-- The log of the least table that can hold `total` symbols up to `last` without loss. -/
def leastLog (total last : Nat) : Nat :=
  min (highBit total + 1) (highBit last + 2)

/-- The log of a table for `total` symbols up to `last`. It is smaller than `most` where this leaves
at least `2 ^ spare` symbols for each cell. -/
def suitableLog (most total last spare : Nat) : Nat :=
  let bits := highBit (total - 1)
  let log := if bits < spare then most else min most (bits - spare)
  min (max (max log (leastLog total last)) 5) 12

/-- The part over the whole cells, in steps of 2^-20, from which a share of so many cells is rounded
up. -/
def roundUpFrom : Array Nat :=
  #[0, 473195, 504333, 520860, 550000, 700000, 750000, 830000]

/-- The cells due to `n` of `total` symbols in a table of `2 ^ log` cells. -/
def due (log total n : Nat) : Nat :=
  let scale := 62 - log
  let exact := n * (1 <<< 62 / total)
  let whole := exact >>> scale
  if whole < 8 ∧ exact - whole <<< scale > roundUpFrom.getD whole 0 <<< (scale - 20) then whole + 1
  else whole

def cellsUsed (cells : Array Int) : Nat :=
  cells.foldl (fun n c => n + c.natAbs) 0

/-- Where the first of the largest values stands. -/
def indexOfLargest (values : Array Nat) : Nat :=
  ((values.toList.zipIdx).foldl (fun (best : Nat × Nat) (v, i) =>
    if v > best.1 then (v, i) else best) (0, 0)).2

/-- Hands out `n` more cells, one by one and in turn, to the symbols that have some. -/
def handOut (cells : Array Int) : (fuel n s : Nat) → Array Int
  | 0, _, _ => cells
  | fuel + 1, n, s =>
    if n = 0 then cells
    else
      let next := (s + 1) % cells.size
      if cells.getD s 0 > 0 then handOut (cells.modify s (· + 1)) fuel (n - 1) next
      else handOut cells fuel n next

/-- Shares out `room` cells in proportion to the counts of the symbols that have none yet. -/
def shareOut (log total room : Nat) (counts : Array Nat) (cells : Array (Option Int)) :
    Option (Array Int) :=
  let scale := 62 - log
  let middle := 1 <<< (scale - 1) - 1
  let unit := (1 <<< scale * room + middle) / total
  let step := fun (acc : Array Int × Nat) (n, cell) =>
    match cell with
    | some c => some (acc.1.push c, acc.2)
    | none =>
      let stop := acc.2 + n * unit
      let share := stop >>> scale - acc.2 >>> scale
      if share = 0 then none else some (acc.1.push (share : Int), stop)
  ((counts.toList.zip cells.toList).foldlM step (#[], middle)).map (·.1)

/-- Scales counts when plain rounding would take too much from the most frequent symbol: rare
symbols get one cell first, and the others share what is left. -/
def scaleRest? (log total : Nat) (rare : Int) (counts : Array Nat) : Option (Array Int) :=
  let low := total >>> log
  let one := (total * 3) >>> (log + 1)
  let settled := fun (one : Nat) (n : Nat) =>
    if n = 0 then some 0 else if n ≤ low then some rare else if n ≤ one then some (1 : Int) else none
  let open_ := fun (one : Nat) =>
    counts.foldl (fun sum n => if (settled one n).isNone then sum + n else sum) 0
  let room := fun (one : Nat) =>
    1 <<< log - (counts.toList.countP fun n => n ≠ 0 ∧ (settled one n).isSome)
  if room one = 0 then none
  else
    let one := if open_ one / room one > one then open_ one * 3 / (room one * 2) else one
    let cells := counts.map (settled one)
    let given := cells.map (·.getD 0)
    if given.all (· ≠ 0) then
      some (given.modify (indexOfLargest counts) (· + (room one : Int)))
    else if open_ one = 0 then some (handOut given (given.size * (room one + 1)) (room one) 0)
    else shareOut log (open_ one) (room one) counts cells

/-- A distribution over `2 ^ log` cells for counts that sum up to `total`, of which no single one is
all. Very rare symbols get one cell each, marked by `rare`. -/
def Counts.scale? (log total : Nat) (rare : Int) (counts : Array Nat) : Option Counts :=
  let low := total >>> log
  let cells := counts.map fun n =>
    if n = 0 then 0 else if n ≤ low then rare else (due log total n : Int)
  let largest := indexOfLargest (counts.map fun n => if n ≤ low then 0 else due log total n)
  let left : Int := (1 <<< log : Nat) - cellsUsed cells
  let scaled :=
    if -left ≥ cells.getD largest 0 / 2 then scaleRest? log total rare counts
    else some (cells.modify largest (· + left))
  scaled.map (⟨log, ·⟩)

/-- Writes how many more symbols do not occur, in pieces of two bits. -/
def writeZeros (s : Sink) : Nat → Sink
  | n + 3 => writeZeros (s.add 3 2) n
  | n => s.add n 2

/-- Writes the cells of symbols, until `remaining` tells that none are left. `zero` tells that the
last one was zero, after which zeros are written as their number. -/
def writeCells (s : Sink) : (cells : List Int) → (remaining threshold width : Nat) →
    (zero : Bool) → (skipped : Nat) → Sink
  | [], _, _, _, _, _ => s
  | c :: rest, remaining, threshold, width, zero, skipped =>
    if remaining ≤ 1 then s
    else if zero ∧ c = 0 then writeCells s rest remaining threshold width true (skipped + 1)
    else
      let s := if zero then writeZeros s skipped else s
      let most := 2 * threshold - 1 - remaining
      let value := (c + 1).toNat
      let value := if value ≥ threshold then value + most else value
      let s := s.add value (if value < most then width - 1 else width)
      let remaining := remaining - c.natAbs
      let narrowed := highBit remaining
      let (threshold, width) :=
        if remaining < threshold then (1 <<< narrowed, narrowed + 1) else (threshold, width)
      writeCells s rest remaining threshold width (c = 0) 0

/-- Appends the description of a distribution. -/
def Counts.write (c : Counts) (out : ByteArray) : ByteArray :=
  let s := (Sink.start out).add (c.log - 5) 4
  (writeCells s c.counts.toList ((1 <<< c.log) + 1) (1 <<< c.log) (c.log + 1) false 0).pad

end ColumnVault.Zstd.Fse
