import ColumnVault.Bytes.Word

/-! The hash function SHA-256. -/

namespace ColumnVault.Crypto.Sha256

open Bytes

/-- The eight chaining words. -/
structure State where
  a : UInt32
  b : UInt32
  c : UInt32
  d : UInt32
  e : UInt32
  f : UInt32
  g : UInt32
  h : UInt32

def initial : State :=
  ⟨0x6a09e667, 0xbb67ae85, 0x3c6ef372, 0xa54ff53a, 0x510e527f, 0x9b05688c, 0x1f83d9ab, 0x5be0cd19⟩

def roundConstants : Array UInt32 := #[
  0x428a2f98, 0x71374491, 0xb5c0fbcf, 0xe9b5dba5, 0x3956c25b, 0x59f111f1, 0x923f82a4, 0xab1c5ed5,
  0xd807aa98, 0x12835b01, 0x243185be, 0x550c7dc3, 0x72be5d74, 0x80deb1fe, 0x9bdc06a7, 0xc19bf174,
  0xe49b69c1, 0xefbe4786, 0x0fc19dc6, 0x240ca1cc, 0x2de92c6f, 0x4a7484aa, 0x5cb0a9dc, 0x76f988da,
  0x983e5152, 0xa831c66d, 0xb00327c8, 0xbf597fc7, 0xc6e00bf3, 0xd5a79147, 0x06ca6351, 0x14292967,
  0x27b70a85, 0x2e1b2138, 0x4d2c6dfc, 0x53380d13, 0x650a7354, 0x766a0abb, 0x81c2c92e, 0x92722c85,
  0xa2bfe8a1, 0xa81a664b, 0xc24b8b70, 0xc76c51a3, 0xd192e819, 0xd6990624, 0xf40e3585, 0x106aa070,
  0x19a4c116, 0x1e376c08, 0x2748774c, 0x34b0bcb5, 0x391c0cb3, 0x4ed8aa4a, 0x5b9cca4f, 0x682e6ff3,
  0x748f82ee, 0x78a5636f, 0x84c87814, 0x8cc70208, 0x90befffa, 0xa4506ceb, 0xbef9a3f7, 0xc67178f2]

@[inline] def rotr (x : UInt32) (n : UInt32) : UInt32 :=
  x >>> n ||| x <<< (32 - n)

/-- The sixteen words of a block, followed by words mixed from earlier ones. -/
def schedule (w : Array UInt32) : Nat → Array UInt32
  | 0 => w
  | n + 1 =>
    let i := w.size
    let x := w.getD (i - 15) 0
    let y := w.getD (i - 2) 0
    let s0 := rotr x 7 ^^^ rotr x 18 ^^^ x >>> 3
    let s1 := rotr y 17 ^^^ rotr y 19 ^^^ y >>> 10
    schedule (w.push (w.getD (i - 16) 0 + s0 + w.getD (i - 7) 0 + s1)) n

/-- The last `n` of the 64 rounds over a schedule. -/
def rounds (w : Array UInt32) : Nat → (a b c d e f g h : UInt32) → State
  | 0, a, b, c, d, e, f, g, h => ⟨a, b, c, d, e, f, g, h⟩
  | n + 1, a, b, c, d, e, f, g, h =>
    let i := 63 - n
    let s1 := rotr e 6 ^^^ rotr e 11 ^^^ rotr e 25
    let t1 := h + s1 + (e &&& f ^^^ ~~~e &&& g) + roundConstants.getD i 0 + w.getD i 0
    let s0 := rotr a 2 ^^^ rotr a 13 ^^^ rotr a 22
    let t2 := s0 + (a &&& b ^^^ a &&& c ^^^ b &&& c)
    rounds w n (t1 + t2) a b c (d + t1) e f g

def blockWords (data : ByteArray) (i : Nat) (w : Array UInt32) : Nat → Array UInt32
  | 0 => w
  | n + 1 => blockWords data (i + 4) (w.push (word32BE data i)) n

/-- Takes in the 64 bytes at `i`. -/
def compress (s : State) (data : ByteArray) (i : Nat) : State :=
  let w := schedule (blockWords data i (Array.emptyWithCapacity 64) 16) 48
  let r := rounds w 64 s.a s.b s.c s.d s.e s.f s.g s.h
  ⟨s.a + r.a, s.b + r.b, s.c + r.c, s.d + r.d, s.e + r.e, s.f + r.f, s.g + r.g, s.h + r.h⟩

/-- Takes in `n` blocks from `i` on. -/
def compressBlocks (data : ByteArray) (s : State) (i : Nat) : Nat → State
  | 0 => s
  | n + 1 => compressBlocks data (compress s data i) (i + 64) n

/-- What follows the last whole block: the rest of the data, a one bit, zeros, and the length of
the data in bits. -/
def lastBlocks (data : ByteArray) : ByteArray :=
  let rest := (data.extract (data.size / 64 * 64) data.size).push 0x80
  let padded := pushMany rest 0 ((120 - rest.size) % 64)
  pushWord64BE padded (UInt64.ofNat (data.size * 8))

def State.bytes (s : State) : ByteArray :=
  [s.a, s.b, s.c, s.d, s.e, s.f, s.g, s.h].foldl pushWord32BE (ByteArray.emptyWithCapacity 32)

/-- The 32-byte digest of some data. -/
def digest (data : ByteArray) : ByteArray :=
  let s := compressBlocks data initial 0 (data.size / 64)
  let last := lastBlocks data
  (compressBlocks last s 0 (last.size / 64)).bytes

end ColumnVault.Crypto.Sha256
