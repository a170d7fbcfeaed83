import ColumnVault.Bytes.Word

/-! The one-time authenticator Poly1305: the message is the coefficients of a polynomial over the
integers modulo 2^130 - 5, evaluated at a point that the key gives. -/

namespace ColumnVault.Crypto.Poly1305

open Bytes

def modulus : Nat := 1 <<< 130 - 5

/-- The sixteen bytes at `i` as a number, low byte first. -/
@[inline] def number (b : ByteArray) (i : Nat) : Nat :=
  (word64LE b i).toNat + (word64LE b (i + 8)).toNat <<< 64

/-- The point of evaluation, with the bits that the standard clears. -/
def point (key : ByteArray) : Nat :=
  number key 0 &&& 0x0ffffffc0ffffffc0ffffffc0fffffff

/-- Takes in `n` whole blocks of the message from `i` on. -/
def wholeBlocks (r : Nat) (message : ByteArray) : Nat → Nat → Nat → Nat
  | 0, _, acc => acc
  | n + 1, i, acc =>
    wholeBlocks r message n (i + 16) ((acc + number message i + 1 <<< 128) * r % modulus)

/-- The sixteen-byte tag of a message under a 32-byte key that is used once. -/
def tag (key message : ByteArray) : ByteArray :=
  let r := point key
  let whole := message.size / 16
  let acc := wholeBlocks r message whole 0 0
  let rest := message.size % 16
  let acc := if rest = 0 then acc
    else (acc + number message (whole * 16) + 1 <<< (8 * rest)) * r % modulus
  let t := acc + number key 16
  let half := pushWord32LE (pushWord32LE (ByteArray.emptyWithCapacity 16) (UInt32.ofNat t))
    (UInt32.ofNat (t >>> 32))
  pushWord32LE (pushWord32LE half (UInt32.ofNat (t >>> 64))) (UInt32.ofNat (t >>> 96))

end ColumnVault.Crypto.Poly1305
