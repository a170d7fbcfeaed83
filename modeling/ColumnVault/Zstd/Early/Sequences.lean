import ColumnVault.Zstd.Early.SideLengths

/-! Sequences of the formats six and seven. They are coded as they are today, apart from the distances
and from how a distance that was used before is named. -/

namespace ColumnVault.Zstd.Early

open Bytes

/-- The distance at a place among those used last, which is the latest from then on. Behind no
literals the first two change places. -/
def pickRecent (r : Recent) (place literals : Nat) : Nat × Recent :=
  match if literals = 0 ∧ place ≤ 1 then 1 - place else place with
  | 0 => (r.one, r)
  | 1 => (r.two, ⟨r.two, r.one, r.three⟩)
  | _ => (r.three, ⟨r.three, r.one, r.two⟩)

/-- The value that a code of a distance begins with. -/
def distanceValue (code : Nat) : Nat :=
  if code ≥ 27 then 1 else 1 <<< code - 1

/-- The distance for a code and the number behind it. Values up to two name a distance that was used
before; in the format seven only the first two codes do. -/
def resolveDistance (f : Format) (r : Recent) (code more literals : Nat) : Nat × Recent :=
  match f with
  | .seven =>
    if code ≤ 1 then pickRecent r (code + more) literals
    else
      let distance := 1 <<< code - 3 + more
      (distance, ⟨distance, r.one, r.two⟩)
  | _ =>
    let value := distanceValue code + more
    if value < 3 then pickRecent r value literals
    else (value - 2, ⟨value - 2, r.one, r.two⟩)

/-- Decoding sequences: the stream with its states, and the distances used last. -/
structure Decoder where
  bits : WordBits
  ll : Nat
  of : Nat
  ml : Nat
  recent : Recent

/-- Decodes one sequence. The stream is filled up again before the states if little of it is left. -/
def Decoder.next (f : Format) (t : SequenceTables) (bytes : ByteArray) (d : Decoder) :
    Sequence × Decoder :=
  let code := (t.offsets.cell d.of).symbol
  let llExtra := literalLengths.extras.getD (t.literals.cell d.ll).symbol ⟨0, 0⟩
  let mlExtra := matchLengths.extras.getD (t.matches_.cell d.ml).symbol ⟨0, 0⟩
  let bits := d.bits
  let more := (bits.look code).toNat
  let bits := bits.skip code
  let length := mlExtra.base + (bits.look mlExtra.bits).toNat
  let bits := bits.skip mlExtra.bits
  let literals := llExtra.base + (bits.look llExtra.bits).toNat
  let bits := bits.skip llExtra.bits
  let (distance, recent) := resolveDistance f d.recent code more literals
  let bits := if code + mlExtra.bits + llExtra.bits > 31 then bits.refill bytes else bits
  let (ll, bits) := nextState t.literals d.ll bits
  let (ml, bits) := nextState t.matches_ d.ml bits
  let (of, bits) := nextState t.offsets d.of bits
  (⟨literals, length, distance⟩, ⟨bits, ll, of, ml, recent⟩)

/-- Carries out `n` sequences, of which the first begins with literal `used`. -/
def Decoder.run (f : Format) (t : SequenceTables) (bytes : ByteArray) (l : Literals) :
    (n : Nat) → (d : Decoder) → (used : Nat) → (b : Buffer) → Except Fault (Recent × Nat × Buffer)
  | 0, d, used, b => .ok (d.recent, used, b)
  | n + 1, d, used, b => do
    let bits := d.bits.refill bytes
    if bits.used > 64 then throw .corrupted
    let (s, d) := { d with bits }.next f t bytes
    let b ← b.apply f.minMatch l used s
    Decoder.run f t bytes l n d (used + s.literals) b

/-- The largest code of a distance. -/
def maxDistance : Nat := 28

/-- The decoder that one two-bit mode asks for, and where its description ends. -/
def codedTable (field : Field) (maxCode mode : Nat) (bytes : ByteArray) (start stop : Nat)
    (last : Option Fse.Table) : Except Fault (Fse.Table × Nat) :=
  match mode with
  | 0 => .ok (Fse.Table.ofCounts field.usual, start)
  | 1 =>
    let code := (byteAt bytes start).toNat
    if stop ≤ start ∨ code > maxCode then .error .corrupted
    else .ok (Fse.Table.single code, start + 1)
  | 2 =>
    match last with
    | some t => .ok (t, start)
    | none => .error .corrupted
  | _ => do
    let (counts, next) ← readCounts bytes start stop maxCode field.maxLog
    return (Fse.Table.ofCounts counts, next)

/-- Tables and distances that later blocks of a frame may use again. -/
structure Memory where
  code : Option Huffman.Table
  tables : Option SequenceTables
  recent : Recent

def Memory.initial : Memory := ⟨none, none, Recent.initial⟩

/-- Carries out the sequences in the bytes from `start` to `stop`, and appends the literals left
over. -/
def runSequences (f : Format) (bytes : ByteArray) (start stop : Nat) (memory : Memory) (l : Literals)
    (b : Buffer) : Except Fault (Buffer × Memory) := do
  let (count, next) ← readCount bytes start stop
  if count = 0 ∧ next = start + 1 then return (← b.appendRest l 0, memory)
  else
    if next + 4 > stop then throw .corrupted
    let modes := (byteAt bytes next).toNat
    let last := if f = .seven then memory.tables else none
    let (ll, next) ← codedTable literalLengths literalLengths.maxCode (modes / 64) bytes (next + 1) stop
      (last.map (·.literals))
    let (of, next) ← codedTable offsets maxDistance (modes / 16 % 4) bytes next stop
      (last.map (·.offsets))
    let (ml, next) ← codedTable matchLengths matchLengths.maxCode (modes / 4 % 4) bytes next stop
      (last.map (·.matches_))
    let tables : SequenceTables := ⟨ll, of, ml⟩
    if count = 0 then
      return (← b.appendRest l 0, { memory with tables := memory.tables.map fun _ => tables })
    else
      let bits ← WordBits.open? bytes next stop
      let (a, bits) := firstState ll bytes bits
      let (c, bits) := firstState of bytes bits
      let (e, bits) := firstState ml bytes bits
      let recent := if f = .seven then memory.recent else ⟨1, 1, 1⟩
      let (recent, used, b) ← Decoder.run f tables bytes l count ⟨bits, a, c, e, recent⟩ 0 b
      return (← b.appendRest l used, { memory with tables := some tables, recent })

end ColumnVault.Zstd.Early
