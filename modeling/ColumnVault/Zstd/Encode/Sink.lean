import ColumnVault.Zstd.Bits

/-! Writing bit fields, the low bit of a byte first. -/

namespace ColumnVault.Zstd

open Bytes

/-- Bytes that are complete, and `count` bits that wait for the next byte to fill up. -/
structure Sink where
  out : ByteArray
  waiting : UInt64
  count : Nat

namespace Sink

def start (out : ByteArray) : Sink := ⟨out, 0, 0⟩

/-- Moves `n` full bytes out. -/
def drain (out : ByteArray) (waiting : UInt64) (count : Nat) : (n : Nat) → Sink
  | 0 => ⟨out, waiting, count⟩
  | n + 1 => drain (out.push waiting.toUInt8) (waiting >>> 8) (count - 8) n

/-- Adds the low `n` bits of a number, of which there may be 32. -/
@[inline] def add (s : Sink) (value n : Nat) : Sink :=
  let field := UInt64.ofNat value &&& ((1 <<< UInt64.ofNat n) - 1)
  let count := s.count + n
  drain s.out (s.waiting ||| field <<< UInt64.ofNat s.count) count (count / 8)

/-- The bytes, the last one filled up with zeros. -/
def pad (s : Sink) : ByteArray :=
  if s.count = 0 then s.out else s.out.push s.waiting.toUInt8

/-- The bytes of a stream that is read from its end, where a mark is set. -/
def close (s : Sink) : ByteArray :=
  (s.add 1 1).pad

end Sink

end ColumnVault.Zstd
