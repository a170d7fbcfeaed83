import ColumnVault.Zstd.Huffman
import ColumnVault.Zstd.WordBits

/-! Decoding streams of code words, alone or four side by side. -/

namespace ColumnVault.Zstd.Huffman

open Bytes

/-! ### Code words

They are looked up by the value of the next bits: either `log` bits for one of them, or as many as a
pair may take. -/

@[inline] def Table.length (t : Table) (i : Nat) : Nat :=
  (byteAt t.lengths i).toNat

/-- Where the first code word in `window` bits is found, behind the first `n` of them. -/
@[inline] def Table.indexBehind (t : Table) (window n bits : Nat) : Nat :=
  ((bits <<< n) &&& ((1 <<< window) - 1)) >>> (window - t.log)

/-- A stream, and what is decoded of it and of those before it. -/
structure Lane where
  bits : WordBits
  out : ByteArray

namespace Lane

/-- Decodes one code word, or two where a pair is taken and fits. -/
@[inline] def take (t : Table) (l : Lane) : Lane :=
  let ⟨bits, out⟩ := l
  match t.pairs with
  | none =>
    let i := (bits.look t.log).toNat
    ⟨bits.skip (t.length i), out.push (byteAt t.symbols i)⟩
  | some window =>
    let value := (bits.look window).toNat
    let i := t.indexBehind window 0 value
    let n := t.length i
    let j := t.indexBehind window n value
    let both := n + t.length j
    if both ≤ window then
      ⟨bits.skip both, (out.push (byteAt t.symbols i)).push (byteAt t.symbols j)⟩
    else ⟨bits.skip n, out.push (byteAt t.symbols i)⟩

/-- Decodes one code word only. Where it stands first in a pair its length is not known: then the pair
is left out, as far as there are bits of it. -/
def takeLast (t : Table) (l : Lane) : Lane :=
  match t.pairs with
  | none => l.take t
  | some window =>
    let value := (l.bits.look window).toNat
    let i := t.indexBehind window 0 value
    let n := t.length i
    let both := n + t.length (t.indexBehind window n value)
    let used := l.bits.used
    let used :=
      if both > window then used + n
      else if used < 64 then min 64 (used + both)
      else used
    ⟨{ l.bits with used }, l.out.push (byteAt t.symbols i)⟩

@[inline] def refill (bytes : ByteArray) (l : Lane) : Lane :=
  let ⟨bits, out⟩ := l
  ⟨bits.refill bytes, out⟩

/-- Decodes until there are `size` bytes, by at most `fuel` steps. -/
def fill (t : Table) (bytes : ByteArray) (size : Nat) : (fuel : Nat) → Lane → Lane
  | 0, l => l
  | fuel + 1, l =>
    if l.out.size ≥ size then l
    else if l.out.size + 1 = size then (l.refill bytes).takeLast t
    else fill t bytes size fuel ((l.refill bytes).take t)

/-- Decodes five times, for which a word is always enough. -/
def turn (t : Table) (bytes : ByteArray) (l : Lane) : Lane :=
  (((((l.take t).take t).take t).take t).take t).refill bytes

end Lane

/-- Decodes one stream of `n` bytes, after which it has to be at its end. -/
def decodeStream (t : Table) (bytes : ByteArray) (start stop n : Nat) (out : ByteArray) :
    Except Fault ByteArray := do
  let bits ← WordBits.open? bytes start stop
  let l := Lane.fill t bytes (out.size + n) n ⟨bits, out⟩
  if l.bits.isFinished then return l.out else throw .corrupted

/-! ### Four streams side by side

They are decoded in turns as long as none can run out of room. What is left of each is decoded alone
then. A stream may go on into the one before it; that is only noticed where whole words of it are
read between the turns. -/

structure Lanes where
  one : Lane
  two : Lane
  three : Lane
  four : Lane

namespace Lanes

/-- The stream that ends at `stop`, with all four beginning at `base`. Without a mark all of its bits
count. -/
def laneTo (bytes : ByteArray) (base stop : Nat) : Lane :=
  let last := byteAt bytes (stop - 1)
  let used := if last = 0 then 0 else WordBits.markLength last
  ⟨⟨base, stop - 8, used, word64LE bytes (stop - 8)⟩, ByteArray.empty⟩

def turn (t : Table) (bytes : ByteArray) (l : Lanes) : Lanes :=
  let ⟨one, two, three, four⟩ := l
  ⟨one.turn t bytes, two.turn t bytes, three.turn t bytes, four.turn t bytes⟩

/-- Up to `fuel` turns, until the last stream has given `size` bytes. -/
def turns (t : Table) (bytes : ByteArray) (size : Nat) : (fuel : Nat) → Lanes → Lanes
  | 0, l => l
  | fuel + 1, l => if l.four.out.size ≥ size then l else turns t bytes size fuel (l.turn t bytes)

/-- For how many turns there is room: each may take seven bytes of a stream, and give five bytes, or
ten if code words are taken in pairs. The streams give `part` bytes each, the last `rest`. -/
def room (t : Table) (base part rest : Nat) (l : Lanes) : Nat :=
  let given :=
    if t.pairs.isNone then (rest - l.four.out.size) / 5
    else min ((rest - l.four.out.size) / 10)
      ((part - max l.one.out.size (max l.two.out.size l.three.out.size)) / 10)
  min ((l.one.bits.pos - base) / 7) given

/-- Whether no stream has overtaken the one before it. -/
def inOrder (l : Lanes) : Bool :=
  l.one.bits.pos ≤ l.two.bits.pos && l.two.bits.pos ≤ l.three.bits.pos &&
    l.three.bits.pos ≤ l.four.bits.pos

/-- Takes turns while there is room for them. -/
def run (t : Table) (bytes : ByteArray) (base part rest : Nat) : (fuel : Nat) → Lanes → Lanes
  | 0, l => l
  | fuel + 1, l =>
    let n := l.room t base part rest
    if n = 0 ∨ ¬ l.inOrder then l
    else run t bytes base part rest fuel (l.turns t bytes (l.four.out.size + 5 * n) n)

end Lanes

/-- The `n` bytes of a stream that begins at `start`, of which some are decoded by turns. -/
def Lane.rest (t : Table) (bytes : ByteArray) (start n : Nat) (l : Lane) : Except Fault ByteArray :=
  if l.bits.pos + 8 < start then .error .corrupted else .ok (l.fill t bytes n n).out

/-- Decodes four streams of `n` bytes together, behind a table of the lengths of the first three. If
all of them are long and no code word is, they are decoded side by side and may end anywhere. -/
def decodeFour (t : Table) (bytes : ByteArray) (start stop n : Nat) (sideBySide : Bool)
    (out : ByteArray) : Except Fault ByteArray := do
  if stop < start + 10 ∨ n < 6 then throw .corrupted
  let length := fun i =>
    (byteAt bytes (start + 2 * i)).toNat + (byteAt bytes (start + 2 * i + 1)).toNat * 256
  let one := start + 6
  let two := one + length 0
  let three := two + length 1
  let four := three + length 2
  let part := (n + 3) / 4
  if four ≥ stop ∨ n < 3 * part then throw .corrupted
  let rest := n - 3 * part
  if sideBySide ∧ 0 < rest ∧ [length 0, length 1, length 2, stop - four].all (8 ≤ ·) then
    let lane := Lanes.laneTo bytes start
    let l := Lanes.run t bytes start part rest n ⟨lane two, lane three, lane four, lane stop⟩
    return out ++ (← l.one.rest t bytes one part) ++ (← l.two.rest t bytes two part) ++
      (← l.three.rest t bytes three part) ++ (← l.four.rest t bytes four rest)
  else
    let out ← decodeStream t bytes one two part out
    let out ← decodeStream t bytes two three part out
    let out ← decodeStream t bytes three four part out
    decodeStream t bytes four stop rest out

end ColumnVault.Zstd.Huffman
