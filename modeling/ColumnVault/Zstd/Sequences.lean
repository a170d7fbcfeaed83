import ColumnVault.Zstd.Literals

/-! The second part of a compressed block: sequences, each of which copies some literals and then
some bytes that were decoded before. -/

namespace ColumnVault.Zstd

open Bytes

/-- The values a code stands for: `base` and the number in the next `bits` bits. -/
structure Extra where
  base : Nat
  bits : Nat
  deriving Inhabited

/-- A kind of number in a sequence: what its codes stand for, the distribution used where none is
given, and the largest log of a given one. -/
structure Field where
  extras : Array Extra
  usual : Fse.Counts
  maxLog : Nat

def Field.maxCode (f : Field) : Nat :=
  f.extras.size - 1

/-- The extras of codes with the given numbers of bits, each of which follows the one before. -/
def extrasFrom (base : Nat) (bits : List Nat) : Array Extra :=
  (bits.foldl (fun (acc : Array Extra × Nat) n => (acc.1.push ⟨acc.2, n⟩, acc.2 + 1 <<< n))
    (#[], base)).1

/-- How many literals a sequence copies. -/
def literalLengths : Field where
  extras := extrasFrom 0 (List.replicate 16 0 ++
    [1, 1, 1, 1, 2, 2, 3, 3, 4, 6, 7, 8, 9, 10, 11, 12, 13, 14, 15, 16])
  usual := ⟨6, #[4, 3, 2, 2, 2, 2, 2, 2, 2, 2, 2, 2, 2, 1, 1, 1, 2, 2, 2, 2, 2, 2, 2, 2, 2, 3, 2, 1,
    1, 1, 1, 1, -1, -1, -1, -1]⟩
  maxLog := 9

/-- How many earlier bytes a sequence copies. -/
def matchLengths : Field where
  extras := extrasFrom 3 (List.replicate 32 0 ++
    [1, 1, 1, 1, 2, 2, 3, 3, 4, 4, 5, 7, 8, 9, 10, 11, 12, 13, 14, 15, 16])
  usual := ⟨6, #[1, 4, 3, 2, 2, 2, 2, 2, 2, 1, 1, 1, 1, 1, 1, 1, 1, 1, 1, 1, 1, 1, 1, 1, 1, 1, 1, 1,
    1, 1, 1, 1, 1, 1, 1, 1, 1, 1, 1, 1, 1, 1, 1, 1, 1, 1, -1, -1, -1, -1, -1, -1, -1]⟩
  maxLog := 9

/-- How far back the earlier bytes are, or which recent distance is used again. -/
def offsets : Field where
  extras := (Array.range 32).map fun code => ⟨1 <<< code, code⟩
  usual := ⟨5, #[1, 1, 1, 1, 1, 1, 2, 2, 2, 1, 1, 1, 1, 1, 1, 1, 1, 1, 1, 1, 1, 1, 1, 1, -1, -1, -1,
    -1, -1]⟩
  maxLog := 8

/-- The decoders of the three kinds of number. -/
structure SequenceTables where
  literals : Fse.Table
  offsets : Fse.Table
  matches_ : Fse.Table
  deriving Inhabited

/-- The decoder that one two-bit mode asks for, and where its description ends. -/
def Field.table (f : Field) (mode : Nat) (bytes : ByteArray) (start stop : Nat)
    (last : Option Fse.Table) : Except Fault (Fse.Table × Nat) :=
  if mode = 0 then .ok (Fse.Table.ofCounts f.usual, start)
  else if mode = 1 then
    let code := (byteAt bytes start).toNat
    if stop ≤ start ∨ code > f.maxCode then .error .corrupted
    else .ok (Fse.Table.single code, start + 1)
  else if mode = 2 then do
    let (counts, next) ← Fse.Counts.read bytes start stop f.maxCode f.maxLog
    return (Fse.Table.ofCounts counts, next)
  else match last with
    | some t => .ok (t, start)
    | none => .error .corrupted

/-- The number of sequences announced at `start`, and where the announcement ends. -/
def readCount (bytes : ByteArray) (start stop : Nat) : Except Fault (Nat × Nat) :=
  if stop ≤ start then .error .corrupted
  else
    let b := (byteAt bytes start).toNat
    if b < 128 then .ok (b, start + 1)
    else if b < 255 then
      if stop < start + 2 then .error .corrupted
      else .ok ((b - 128) * 256 + (byteAt bytes (start + 1)).toNat, start + 2)
    else if stop < start + 3 then .error .corrupted
    else .ok ((byteAt bytes (start + 1)).toNat + (byteAt bytes (start + 2)).toNat * 256 + 0x7f00,
      start + 3)

/-- The three distances used last, the latest first. -/
structure Recent where
  one : Nat
  two : Nat
  three : Nat

def Recent.initial : Recent := ⟨1, 4, 8⟩

/-- The distance for an offset value, and the recent distances after it. Values up to three name a
recent distance; behind no literals they name the one after it. -/
@[inline] def Recent.resolve (r : Recent) (value literals : Nat) : Nat × Recent :=
  if value > 3 then (value - 3, ⟨value - 3, r.one, r.two⟩)
  else
    let i := if literals = 0 then value + 1 else value
    if i = 1 then (r.one, r)
    else if i = 2 then (r.two, ⟨r.two, r.one, r.three⟩)
    else if i = 3 then (r.three, ⟨r.three, r.one, r.two⟩)
    else (r.one - 1, ⟨r.one - 1, r.one, r.two⟩)

/-- Appends `n` bytes of the output itself from `i` on, which the copy may run into. -/
def copyWithin (out : ByteArray) (i : Nat) : Nat → ByteArray
  | 0 => out
  | n + 1 => copyWithin (out.push (byteAt out i)) (i + 1) n

/-- Carries out `n` sequences. The three states are those of literal lengths, offsets and match
lengths; `used` literals are copied already, and the output may not grow over `limit` bytes. At the
end the stream must be used up; the literals left over come last. -/
def runSequences (t : SequenceTables) (literals : ByteArray) (limit : Nat) :
    (n : Nat) → (bits : BackBits) → (ll of ml : Nat) → (recent : Recent) → (used : Nat) →
    (out : ByteArray) → Except Fault (ByteArray × Recent)
  | 0, bits, _, _, _, recent, used, out =>
    if bits.left ≠ 0 ∨ out.size + (literals.size - used) > limit then .error .corrupted
    else .ok (out ++ literals.extract used literals.size, recent)
  | n + 1, bits, ll, of, ml, recent, used, out => do
    let llCell := t.literals.cell ll
    let ofCell := t.offsets.cell of
    let mlCell := t.matches_.cell ml
    let (offsetBits, bits) ← bits.read ofCell.symbol
    let value := 1 <<< ofCell.symbol + offsetBits
    let mlExtra := matchLengths.extras.getD mlCell.symbol ⟨0, 0⟩
    let (more, bits) ← bits.read mlExtra.bits
    let length := mlExtra.base + more
    let llExtra := literalLengths.extras.getD llCell.symbol ⟨0, 0⟩
    let (more, bits) ← bits.read llExtra.bits
    let count := llExtra.base + more
    let (distance, recent) := recent.resolve value count
    if used + count > literals.size ∨ out.size + count + length > limit ∨ distance = 0 ∨
        distance > out.size + count then
      throw .corrupted
    let out := if count = 0 then out else out ++ literals.extract used (used + count)
    let from_ := out.size - distance
    let out := copyWithin out from_ length
    if n = 0 then
      runSequences t literals limit n bits ll of ml recent (used + count) out
    else
      let (a, bits) ← bits.read llCell.bits
      let (b, bits) ← bits.read mlCell.bits
      let (c, bits) ← bits.read ofCell.bits
      runSequences t literals limit n bits (llCell.base + a) (ofCell.base + c) (mlCell.base + b)
        recent (used + count) out

/-- Tables and distances that later blocks of a frame may use again. -/
structure Memory where
  code : Option Huffman.Table
  tables : Option SequenceTables
  recent : Recent

def Memory.initial : Memory := ⟨none, none, Recent.initial⟩

/-- Decodes the compressed block in the bytes from `start` to `stop` behind the output so far. Its
literals may be at most `literalLimit` bytes, and the output at most `limit`. -/
def decodeBlock (bytes : ByteArray) (start stop literalLimit limit : Nat) (memory : Memory)
    (out : ByteArray) : Except Fault (ByteArray × Memory) := do
  let (literals, code, next) ← Literals.read bytes start stop literalLimit memory.code
  let (count, next) ← readCount bytes next stop
  if count = 0 then
    if next ≠ stop ∨ out.size + literals.size > limit then throw .corrupted
    return (out ++ literals, { memory with code })
  else
    if stop ≤ next then throw .corrupted
    let modes := (byteAt bytes next).toNat
    if modes % 4 ≠ 0 then throw .corrupted
    let (ll, next) ← literalLengths.table (modes / 64) bytes (next + 1) stop
      (memory.tables.map (·.literals))
    let (of, next) ← offsets.table (modes / 16 % 4) bytes next stop (memory.tables.map (·.offsets))
    let (ml, next) ← matchLengths.table (modes / 4 % 4) bytes next stop
      (memory.tables.map (·.matches_))
    let tables : SequenceTables := ⟨ll, of, ml⟩
    let bits ← BackBits.open? bytes next stop
    let (a, bits) ← bits.read ll.log
    let (b, bits) ← bits.read of.log
    let (c, bits) ← bits.read ml.log
    let (out, recent) ← runSequences tables literals limit count bits a b c memory.recent 0 out
    return (out, ⟨code, some tables, recent⟩)

end ColumnVault.Zstd
