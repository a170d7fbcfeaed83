import ColumnVault.Text.Quoted

/-! Bytes as pairs of hexadecimal digits. Digits are written small and read in either case. -/

namespace ColumnVault.Hex

/-- Why a text is not the hexadecimal form of bytes. A faulty digit is named by the byte found
there, read as a single character. -/
inductive Fault where
  | oddLength
  | badDigit (digit : Char) (index : Nat)
  deriving DecidableEq, Repr

def Fault.message : Fault → String
  | .oddLength => "Odd number of digits"
  | .badDigit digit index => s!"Invalid character {Text.Quoted.char digit} at position {index}"

def digit (n : UInt8) : Char :=
  if n < 10 then Char.ofNat (48 + n.toNat) else Char.ofNat (87 + n.toNat)

def digitValue? (b : UInt8) : Option UInt8 :=
  if 48 ≤ b ∧ b ≤ 57 then some (b - 48)
  else if 65 ≤ b ∧ b ≤ 70 then some (b - 55)
  else if 97 ≤ b ∧ b ≤ 102 then some (b - 87)
  else none

def encodeByte (b : UInt8) : List Char :=
  [digit (b >>> 4), digit (b &&& 0xf)]

def encode (bytes : ByteArray) : String :=
  String.ofList (bytes.data.toList.flatMap encodeByte)

def readDigit (b : UInt8) (index : Nat) : Except Fault UInt8 :=
  match digitValue? b with
  | some v => .ok v
  | none => .error (.badDigit (Char.ofNat b.toNat) index)

/-- Reads pairs of digits, the first of which stands at `index`. -/
def readPairs : Nat → List UInt8 → Except Fault (List UInt8)
  | index, hi :: lo :: rest => do
    let h ← readDigit hi index
    let l ← readDigit lo (index + 1)
    let more ← readPairs (index + 2) rest
    return (h <<< 4 ||| l) :: more
  | _, _ => .ok []

/-- The bytes that the text writes. A text of odd length is refused before its digits are read. -/
def decode (s : String) : Except Fault ByteArray := do
  if s.utf8ByteSize % 2 = 1 then throw .oddLength
  let bytes ← readPairs 0 s.toUTF8.data.toList
  return bytes.toByteArray

end ColumnVault.Hex
