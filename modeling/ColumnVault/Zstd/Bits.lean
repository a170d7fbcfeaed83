import ColumnVault.Bytes.Word
import ColumnVault.Zstd.Fault

/-! Bit fields. Table descriptions are read forward from the low bit of the first byte; entropy-coded
streams are read backward from a mark, the highest set bit of the last byte. -/

namespace ColumnVault.Zstd

open Bytes

/-- The number of the highest set bit. -/
@[inline] def highBit (n : Nat) : Nat :=
  n.log2

/-- `n` bytes as a number, low byte first. -/
def numberLE (bytes : ByteArray) (start : Nat) : Nat → Nat
  | 0 => 0
  | n + 1 => (byteAt bytes start).toNat + 256 * numberLE bytes (start + 1) n

/-- `n` bits from bit `pos` of the bytes on, low bit first; bits past the end are zero. -/
@[inline] def bitsAt (bytes : ByteArray) (start pos n : Nat) : Nat :=
  ((word64LE bytes (start + pos / 8) >>> UInt64.ofNat (pos % 8)) &&&
    ((1 <<< UInt64.ofNat n) - 1)).toNat

/-- A stream read from its end: `left` bits, from byte `start` on, are still to be read. -/
structure BackBits where
  bytes : ByteArray
  start : Nat
  left : Nat

/-- The stream in the bytes from `start` to `stop`. It must not be empty, and its last byte holds the
mark. -/
def BackBits.open? (bytes : ByteArray) (start stop : Nat) : Except Fault BackBits :=
  if stop ≤ start then .error .corrupted
  else
    let last := byteAt bytes (stop - 1)
    if last = 0 then .error .corrupted
    else .ok ⟨bytes, start, (stop - start - 1) * 8 + highBit last.toNat⟩

/-- The next `n` bits, with zeros for those past the end of the stream. -/
@[inline] def BackBits.peek (s : BackBits) (n : Nat) : Nat :=
  if n ≤ s.left then bitsAt s.bytes s.start (s.left - n) n
  else bitsAt s.bytes s.start 0 s.left <<< (n - s.left)

/-- Leaves out `n` bits that the stream must have. -/
@[inline] def BackBits.skip (s : BackBits) (n : Nat) : Except Fault BackBits :=
  if n ≤ s.left then .ok { s with left := s.left - n } else .error .corrupted

/-- Reads `n` bits that the stream must have. -/
@[inline] def BackBits.read (s : BackBits) (n : Nat) : Except Fault (Nat × BackBits) :=
  if n ≤ s.left then .ok (bitsAt s.bytes s.start (s.left - n) n, { s with left := s.left - n })
  else .error .corrupted

end ColumnVault.Zstd
