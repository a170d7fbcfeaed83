import ColumnVault.Bytes.Equality

/-! Words read from and written to bytes, in either order. -/

namespace ColumnVault.Bytes

/-- The byte at `i`, or zero past the end. -/
@[inline] def byteAt (b : ByteArray) (i : Nat) : UInt8 :=
  if h : i < b.size then b[i] else 0

@[inline] def word32LE (b : ByteArray) (i : Nat) : UInt32 :=
  (byteAt b i).toUInt32 ||| (byteAt b (i + 1)).toUInt32 <<< 8 |||
    (byteAt b (i + 2)).toUInt32 <<< 16 ||| (byteAt b (i + 3)).toUInt32 <<< 24

@[inline] def word32BE (b : ByteArray) (i : Nat) : UInt32 :=
  (byteAt b i).toUInt32 <<< 24 ||| (byteAt b (i + 1)).toUInt32 <<< 16 |||
    (byteAt b (i + 2)).toUInt32 <<< 8 ||| (byteAt b (i + 3)).toUInt32

@[inline] def word64LE (b : ByteArray) (i : Nat) : UInt64 :=
  (word32LE b i).toUInt64 ||| (word32LE b (i + 4)).toUInt64 <<< 32

@[inline] def word64BE (b : ByteArray) (i : Nat) : UInt64 :=
  (word32BE b i).toUInt64 <<< 32 ||| (word32BE b (i + 4)).toUInt64

@[inline] def pushWord32LE (b : ByteArray) (w : UInt32) : ByteArray :=
  (((b.push w.toUInt8).push (w >>> 8).toUInt8).push (w >>> 16).toUInt8).push (w >>> 24).toUInt8

@[inline] def pushWord32BE (b : ByteArray) (w : UInt32) : ByteArray :=
  (((b.push (w >>> 24).toUInt8).push (w >>> 16).toUInt8).push (w >>> 8).toUInt8).push w.toUInt8

def pushWord64BE (b : ByteArray) (w : UInt64) : ByteArray :=
  pushWord32BE (pushWord32BE b (w >>> 32).toUInt32) w.toUInt32

/-- `n` copies of a byte after the others. -/
def pushMany (b : ByteArray) (byte : UInt8) : Nat → ByteArray
  | 0 => b
  | n + 1 => pushMany (b.push byte) byte n

/-- `n` equal bytes. -/
def replicate (n : Nat) (byte : UInt8) : ByteArray :=
  pushMany (ByteArray.emptyWithCapacity n) byte n

end ColumnVault.Bytes
