import ColumnVault.Zstd.Early.Buffer
import ColumnVault.Zstd.Early.Code
import ColumnVault.Zstd.Sequences

/-! Sequences of the formats four and five. Lengths and distances are symbols themselves; lengths that
are too long for a symbol go on in bytes beside the coded stream. -/

namespace ColumnVault.Zstd.Early

open Bytes

/-- The bytes from `pos` to `stop` that long lengths go on in. -/
structure SideBytes where
  pos : Nat
  stop : Nat

namespace SideBytes

/-- A length that goes on in the side bytes: one byte is added to it, or replaces it by a longer
number behind it. The last byte is never left. -/
def extend (f : Format) (bytes : ByteArray) (s : SideBytes) (length : Nat) (overEnd : Bool) :
    Nat × SideBytes :=
  let readable : Bool := overEnd || s.pos < s.stop
  let add := if readable then (byteAt bytes s.pos).toNat else 0
  let pos := if readable then s.pos + 1 else s.pos
  let (length, pos) :=
    if add < 255 then (length + add, pos)
    else
      match f with
      | .four =>
        if pos + 3 ≤ s.stop then (numberLE bytes pos 3, pos + 3) else (length, pos)
      | _ =>
        if pos + 2 ≤ s.stop then
          let n := numberLE bytes pos 2
          if n % 2 = 1 ∧ pos + 2 < s.stop then (numberLE bytes pos 3 / 2, pos + 3)
          else (n / 2, pos + 2)
        else (length, pos)
  (length, { s with pos := if pos ≥ s.stop then s.stop - 1 else pos })

end SideBytes

/-- The symbol that a literal length goes on from. -/
def maxLiteralLength : Nat := 63

/-- The symbol that a match length goes on from. -/
def maxMatchLength : Nat := 127

/-- The largest symbol of a distance. -/
def maxDistanceCode : Nat := 31

/-- The smallest distance for a symbol, which is followed by one bit less than the symbol says. -/
def distanceBase (code : Nat) : Nat :=
  if code = 0 ∨ code ≥ 27 then 1 else 1 <<< (code - 1)

/-- Decoding sequences: the stream with its states, the side bytes, and the last distance and the one
before it that was different. -/
structure SideDecoder where
  bits : WordBits
  ll : Nat
  of : Nat
  ml : Nat
  side : SideBytes
  last : Nat
  before : Nat

/-- Decodes one sequence. In the format four the states are read each before what belongs to its
symbol, in the format five the match length comes last. -/
def SideDecoder.next (f : Format) (t : SequenceTables) (bytes : ByteArray) (d : SideDecoder) :
    Sequence × SideDecoder :=
  let first := f = .four
  let literals := (t.literals.cell d.ll).symbol
  let (ll, bits) := if first then nextState t.literals d.ll d.bits else (d.ll, d.bits)
  let repeated := if literals = 0 then d.before else d.last
  let (literals, side) :=
    if literals = maxLiteralLength then d.side.extend f bytes literals (f = .five)
    else (literals, d.side)
  let code := (t.offsets.cell d.of).symbol
  let (of, bits) := if first then nextState t.offsets d.of bits else (d.of, bits)
  let more := (bits.look (code - 1)).toNat
  let bits := bits.skip (code - 1)
  let distance := if code = 0 then repeated else distanceBase code + more
  let before := if code ≠ 0 ∨ literals = 0 then d.last else d.before
  let (of, bits) := if first then (of, bits) else nextState t.offsets of bits
  let (ll, bits) := if first then (ll, bits) else nextState t.literals ll bits
  let length := (t.matches_.cell d.ml).symbol
  let (ml, bits) := nextState t.matches_ d.ml bits
  let (length, side) :=
    if length = maxMatchLength then side.extend f bytes length false else (length, side)
  (⟨literals, length + f.minMatch, distance⟩, ⟨bits, ll, of, ml, side, distance, before⟩)

/-- Carries out `n` sequences, of which the first begins with literal `used`. -/
def SideDecoder.run (f : Format) (t : SequenceTables) (bytes : ByteArray) (l : Literals) :
    (n : Nat) → (d : SideDecoder) → (used : Nat) → (b : Buffer) →
    Except Fault (SideDecoder × Nat × Buffer)
  | 0, d, used, b => .ok ({ d with bits := d.bits.refill bytes }, used, b)
  | n + 1, d, used, b => do
    let bits := d.bits.refill bytes
    if bits.used > 64 then throw .corrupted
    let (s, d) := { d with bits }.next f t bytes
    let b ← b.apply f.minMatch l used s
    SideDecoder.run f t bytes l n d (used + s.literals) b

/-- How a table is given. -/
inductive TableKind where
  | described
  | uniform
  | single
  | refused

def TableKind.of (f : Format) (mode : Nat) : TableKind :=
  match f, mode with
  | .four, 0 | .four, 3 => .described
  | .four, 1 => .uniform
  | .four, _ => .single
  | _, 0 => .uniform
  | _, 1 => .single
  | _, 3 => .described
  | _, _ => .refused

/-- The decoder of `2 ^ log` symbols that are all as frequent. -/
def uniformTable (log : Nat) : Fse.Table :=
  ⟨log, (Array.range (1 <<< log)).map fun symbol => ⟨symbol, log, 0⟩⟩

/-- A decoder, and where its description ends. A single symbol of a field has to leave `left` bytes
behind it. -/
def sideTable (kind : TableKind) (uniformLog maxSymbol maxLog mask left : Nat) (bytes : ByteArray)
    (start stop : Nat) : Except Fault (Fse.Table × Nat) :=
  match kind with
  | .uniform => .ok (uniformTable uniformLog, start)
  | .single =>
    if start + left > stop then .error .corrupted
    else .ok (Fse.Table.single ((byteAt bytes start).toNat &&& mask), start + 1)
  | .described => do
    let (counts, next) ← readCounts bytes start stop maxSymbol maxLog
    return (Fse.Table.ofCounts counts, next)
  | .refused => .error .corrupted

/-- The number of sequences announced at `start`, and where the announcement ends. -/
def readSideCount (f : Format) (bytes : ByteArray) (start stop : Nat) : Except Fault (Nat × Nat) :=
  if f = .four then
    if stop < start + 5 then .error .corrupted else .ok (numberLE bytes start 2, start + 2)
  else if stop ≤ start then .error .corrupted
  else
    let b := (byteAt bytes start).toNat
    if b < 128 then .ok (b, start + 1)
    else if stop ≤ start + 1 then .error .corrupted
    else .ok ((b - 128) * 256 + (byteAt bytes (start + 1)).toNat, start + 2)

/-- Carries out the sequences in the bytes from `start` to `stop`, and appends the literals left
over. -/
def runSideSequences (f : Format) (bytes : ByteArray) (start stop : Nat) (l : Literals) (b : Buffer) :
    Except Fault Buffer := do
  let (count, next) ← readSideCount f bytes start stop
  if f = .five ∧ count = 0 ∧ next = start + 1 then b.appendRest l 0
  else
    if stop ≤ next then throw .corrupted
    let head := (byteAt bytes next).toNat
    let (sideLength, sideStart) :=
      if head / 2 % 2 = 1 then
        ((byteAt bytes (next + 1)).toNat * 256 + (byteAt bytes (next + 2)).toNat, next + 3)
      else (head % 2 * 256 + (byteAt bytes (next + 1)).toNat, next + 2)
    let next := sideStart + sideLength
    if sideStart > stop ∨ next + 3 > stop then throw .corrupted
    let side : SideBytes := ⟨sideStart, next⟩
    let kind := fun (i : Nat) => TableKind.of f (head / i % 4)
    let (ll, next) ← sideTable (kind 64) 6 maxLiteralLength 10 255 1 bytes next stop
    let (of, next) ← sideTable (kind 16) 5 maxDistanceCode 9 maxDistanceCode 2 bytes next stop
    let (ml, next) ← sideTable (kind 4) 7 maxMatchLength 10 255 2 bytes next stop
    if f = .five ∧ count = 0 then b.appendRest l 0
    else
      let bits ← WordBits.open? bytes next stop
      let (a, bits) := firstState ll bytes bits
      let (c, bits) := firstState of bytes bits
      let (e, bits) := firstState ml bytes bits
      let distance := if f = .four then 4 else 1
      let (d, used, b) ← SideDecoder.run f ⟨ll, of, ml⟩ bytes l count
        ⟨bits, a, c, e, side, distance, distance⟩ 0 b
      if f = .four ∧ ¬ d.bits.isFinished then throw .corrupted
      b.appendRest l used

end ColumnVault.Zstd.Early
