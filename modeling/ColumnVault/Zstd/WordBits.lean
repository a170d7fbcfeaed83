import ColumnVault.Zstd.Bits

/-! Backward streams that are read through a word of 64 bits. Reading past the end of such a stream is
no fault: the word is then read from its top again. Whether all of the stream was read is asked only
where it should end. -/

namespace ColumnVault.Zstd

open Bytes

/-- A stream that is looked at through the word at byte `pos`, of which the highest `used` bits are
read. The word does not move below byte `start`. -/
structure WordBits where
  start : Nat
  pos : Nat
  used : Nat
  word : UInt64

namespace WordBits

/-- The number of bits down to the mark in the last byte of a stream, the mark included. -/
@[inline] def markLength (last : UInt8) : Nat :=
  8 - highBit last.toNat

/-- The stream in the bytes from `start` to `stop`. It must not be empty, and its last byte holds the
mark. A short stream stands in the low bytes of its word. -/
def open? (bytes : ByteArray) (start stop : Nat) : Except Fault WordBits :=
  if stop ≤ start then .error .corrupted
  else
    let last := byteAt bytes (stop - 1)
    if last = 0 then .error .corrupted
    else if stop ≥ start + 8 then
      .ok ⟨start, stop - 8, markLength last, word64LE bytes (stop - 8)⟩
    else
      let size := stop - start
      let kept := (1 <<< UInt64.ofNat (size * 8)) - 1
      .ok ⟨start, start, markLength last + (8 - size) * 8, word64LE bytes start &&& kept⟩

/-- Moves the word down over the bytes that are read. -/
@[inline] def refill (bytes : ByteArray) (s : WordBits) : WordBits :=
  if s.used < 8 ∨ s.used > 64 ∨ s.pos = s.start then s
  else
    let n := min (s.used / 8) (s.pos - s.start)
    let pos := s.pos - n
    { s with pos, used := s.used - n * 8, word := word64LE bytes pos }

/-- The next `n` bits, of which those below the word are zeros. -/
@[inline] def look (s : WordBits) (n : Nat) : UInt64 :=
  (s.word <<< UInt64.ofNat s.used) >>> 1 >>> UInt64.ofNat (63 - n)

@[inline] def skip (s : WordBits) (n : Nat) : WordBits :=
  { s with used := s.used + n }

/-- Whether all of the stream is read, and no more. -/
def isFinished (s : WordBits) : Bool :=
  s.pos = s.start && s.used = 64

end WordBits

end ColumnVault.Zstd
