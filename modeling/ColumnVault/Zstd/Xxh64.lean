import ColumnVault.Bytes.Word

/-! The 64-bit hash that checks the content of a frame. -/

namespace ColumnVault.Zstd.Xxh64

open Bytes

def prime1 : UInt64 := 0x9e3779b185ebca87
def prime2 : UInt64 := 0xc2b2ae3d27d4eb4f
def prime3 : UInt64 := 0x165667b19e3779f9
def prime4 : UInt64 := 0x85ebca77c2b2ae63
def prime5 : UInt64 := 0x27d4eb2f165667c5

@[inline] def rotl (x n : UInt64) : UInt64 :=
  x <<< n ||| x >>> (64 - n)

@[inline] def round (acc lane : UInt64) : UInt64 :=
  rotl (acc + lane * prime2) 31 * prime1

@[inline] def merge (hash acc : UInt64) : UInt64 :=
  (hash ^^^ round 0 acc) * prime1 + prime4

/-- Takes in `n` stripes of 32 bytes and joins the four lanes. -/
def stripes (data : ByteArray) : (n i : Nat) → (a b c d : UInt64) → UInt64
  | 0, _, a, b, c, d =>
    merge (merge (merge (merge (rotl a 1 + rotl b 7 + rotl c 12 + rotl d 18) a) b) c) d
  | n + 1, i, a, b, c, d =>
    stripes data n (i + 32) (round a (word64LE data i)) (round b (word64LE data (i + 8)))
      (round c (word64LE data (i + 16))) (round d (word64LE data (i + 24)))

/-- Takes in `n` words of 8 bytes. -/
def words (data : ByteArray) : (n i : Nat) → UInt64 → UInt64
  | 0, _, h => h
  | n + 1, i, h =>
    words data n (i + 8) (rotl (h ^^^ round 0 (word64LE data i)) 27 * prime1 + prime4)

/-- Takes in `n` single bytes. -/
def tail (data : ByteArray) : (n i : Nat) → UInt64 → UInt64
  | 0, _, h => h
  | n + 1, i, h =>
    tail data n (i + 1) (rotl (h ^^^ (byteAt data i).toUInt64 * prime5) 11 * prime1)

def finish (h : UInt64) : UInt64 :=
  let h := (h ^^^ h >>> 33) * prime2
  let h := (h ^^^ h >>> 29) * prime3
  h ^^^ h >>> 32

/-- The hash of some data, with seed zero. -/
def hash (data : ByteArray) : UInt64 :=
  let n := data.size
  let h := if n < 32 then prime5
    else stripes data (n / 32) 0 (prime1 + prime2) prime2 0 (0 - prime1)
  let h := h + UInt64.ofNat n
  let i := n / 32 * 32
  let h := words data (n % 32 / 8) i h
  let i := i + n % 32 / 8 * 8
  let h := if n % 8 ≥ 4 then
      rotl (h ^^^ (word32LE data i).toUInt64 * prime1) 23 * prime2 + prime3
    else h
  let i := if n % 8 ≥ 4 then i + 4 else i
  finish (tail data (n % 4) i h)

end ColumnVault.Zstd.Xxh64
