import ColumnVault.Zstd.Bits
import ColumnVault.Zstd.Early.Format

/-! The buffer that content is decoded into. When too little room is left it starts over, and what it
holds from the run before can still be copied until new content covers it.

Most copies are made in pieces of eight bytes. The last piece may go over the end of the copy; what is
behind the end is covered by the next content, but until then it hides what was there before. -/

namespace ColumnVault.Zstd.Early

open Bytes

/-- Literals of a block: `size` bytes from byte `start` of the source on. At least eight more bytes
may be read behind them. -/
structure Literals where
  source : ByteArray
  start : Nat
  size : Nat

/-- One step of a block: it copies some literals, and then `length` bytes that stand `distance` bytes
back. -/
structure Sequence where
  literals : Nat
  length : Nat
  distance : Nat

/-- `pos` bytes of the present run are decoded; the run before had `previous` bytes. -/
structure Buffer where
  cells : ByteArray
  capacity : Nat
  pos : Nat
  previous : Nat

namespace Buffer

def empty (capacity : Nat) : Buffer :=
  ⟨ByteArray.empty, capacity, 0, 0⟩

/-- Puts a byte into a cell, which is there or is the next. -/
@[inline] def store (cells : ByteArray) (i : Nat) (b : UInt8) : ByteArray :=
  if h : i < cells.size then cells.set i b h else cells.push b

/-- Copies `n` bytes of a source from byte `i` on into the cells from `at_` on. -/
def copyFrom (source : ByteArray) : (n i : Nat) → (cells : ByteArray) → (at_ : Nat) → ByteArray
  | 0, _, cells, _ => cells
  | n + 1, i, cells, at_ =>
    copyFrom source n (i + 1) (store cells at_ (byteAt source i)) (at_ + 1)

/-- Copies `n` cells from `i` on into those from `at_` on, which the copy may run into. -/
def copyForward : (n i : Nat) → (cells : ByteArray) → (at_ : Nat) → ByteArray
  | 0, _, cells, _ => cells
  | n + 1, i, cells, at_ => copyForward n (i + 1) (store cells at_ (byteAt cells i)) (at_ + 1)

/-- The next multiple of eight, and at least eight. -/
def pieces (n : Nat) : Nat :=
  max 8 ((n + 7) / 8 * 8)

/-- Appends `n` bytes of a source from byte `i` on. -/
def append (b : Buffer) (source : ByteArray) (i n : Nat) : Except Fault Buffer :=
  if b.pos + n > b.capacity then .error .corrupted
  else .ok { b with cells := copyFrom source n i b.cells b.pos, pos := b.pos + n }

/-- Where a copy of `n` bytes within the present run ends, that is made in pieces: first one of eight
bytes, and then more. Near the end of the buffer the last bytes are copied one by one. -/
def piecesEnd (capacity minMatch at_ n : Nat) : Nat :=
  let first := at_ + 8
  let stop := at_ + n
  if stop + (16 - minMatch) ≤ capacity then first + pieces (n - 8)
  else if first + 8 < capacity then max stop (first + pieces (capacity - 8 - first))
  else max stop first

/-- Copies `n` bytes of the present run from `i` on. -/
def copyRun (cells : ByteArray) (capacity minMatch i at_ n : Nat) : ByteArray :=
  copyForward (piecesEnd capacity minMatch at_ n - at_) i cells at_

/-- Copies `length` bytes to `at_`, of which the first stand `back` bytes before the end of the run
before, and the others at the front of the present one. -/
def copyAcross (b : Buffer) (minMatch back at_ length : Nat) : ByteArray :=
  let i := b.previous - back
  if length ≤ back then
    copyFrom (b.cells.extract i (i + length)) length 0 b.cells at_
  else
    let cells := copyFrom (b.cells.extract i b.previous) back 0 b.cells at_
    let next := at_ + back
    let rest := length - back
    if next + 8 > b.capacity ∨ rest < minMatch then copyForward rest 0 cells next
    else copyRun cells b.capacity minMatch 0 next rest

/-- Carries out a sequence that begins with literal `used`. -/
def apply (b : Buffer) (minMatch : Nat) (l : Literals) (used : Nat) (s : Sequence) :
    Except Fault Buffer :=
  let at_ := b.pos + s.literals
  let stop := at_ + s.length
  if at_ + 8 > b.capacity ∨ stop > b.capacity ∨ used + s.literals > l.size ∨
      s.distance > at_ + b.previous then
    .error .corrupted
  else
    let cells := copyFrom l.source (pieces s.literals) (l.start + used) b.cells b.pos
    let cells :=
      if s.distance ≤ at_ then copyRun cells b.capacity minMatch (at_ - s.distance) at_ s.length
      else copyAcross { b with cells } minMatch (s.distance - at_) at_ s.length
    .ok { b with cells, pos := stop }

/-- Appends the literals from `used` on. -/
def appendRest (b : Buffer) (l : Literals) (used : Nat) : Except Fault Buffer :=
  b.append l.source (l.start + used) (l.size - used)

/-- Starts over if less than `room` bytes are free. -/
def turnOver (b : Buffer) (room : Nat) : Buffer :=
  if b.pos + room > b.capacity then { b with pos := 0, previous := b.pos } else b

end Buffer

end ColumnVault.Zstd.Early
