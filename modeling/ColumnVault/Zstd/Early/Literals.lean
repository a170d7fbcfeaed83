import ColumnVault.Zstd.Early.Buffer
import ColumnVault.Zstd.Early.Code

/-! The first part of a compressed block in the early formats: its literals. -/

namespace ColumnVault.Zstd.Early

open Bytes

/-- The largest number of literals. -/
def maxLiterals : Nat := 1 <<< 17

/-- Bytes that may be read behind the literals. -/
def padding : Nat := 8

def Literals.ofContent (content : ByteArray) : Literals :=
  ⟨pushMany content 0 padding, 0, content.size⟩

def Literals.repeated (byte : UInt8) (n : Nat) : Literals :=
  ⟨replicate (n + padding) byte, 0, n⟩

/-- The literals in the bytes from `start` to `stop`. They stay where they are, if enough bytes of the
block, which ends at `blockStop`, stand behind them. -/
def Literals.plain (bytes : ByteArray) (start stop blockStop : Nat) : Literals :=
  if stop + padding ≤ blockStop then ⟨bytes, start, stop - start⟩
  else .ofContent (bytes.extract start stop)

/-- What the part of a block comes to: its literals, the code that is valid after them, and where they
end. -/
abbrev LiteralsRead := Literals × Option Huffman.Table × Nat

/-- Literals of the format four. Plain ones that stand near the end of the block are taken from the
front of it, their header included. -/
def readLiteralsFour (bytes : ByteArray) (start stop : Nat) : Except Fault LiteralsRead := do
  if stop < start + 11 then throw .corrupted
  let size := bitsAt bytes start 2 22
  match bitsAt bytes start 0 2 with
  | 0 =>
    let size := bitsAt bytes start 2 19
    let packed := bitsAt bytes start 21 19
    let next := start + 5 + packed
    if size > maxLiterals ∨ next > stop ∨ size = 0 ∨ packed > size then throw .corrupted
    if packed = size then return (.ofContent (bytes.extract (start + 5) next), none, next)
    else if packed = 1 then return (.repeated (byteAt bytes (start + 5)) size, none, next)
    else
      let (content, code) ← unpackFour .four bytes (start + 5) next size
      return (.ofContent content, code, next)
  | 1 =>
    let next := start + 3 + size
    if start + size + 11 ≤ stop then return (⟨bytes, start + 3, size⟩, none, next)
    else if size > maxLiterals ∨ next > stop then throw .corrupted
    else return (.ofContent (bytes.extract start (start + size)), none, next)
  | 2 =>
    if size > maxLiterals then throw .corrupted
    return (.repeated (byteAt bytes (start + 3)) size, none, start + 4)
  | _ => throw .corrupted

/-- `n` bits of a number whose high bits come first, from bit `pos` of the bytes on. -/
def bitsHighFirst (bytes : ByteArray) (start pos n : Nat) : Nat :=
  ((word64BE bytes start <<< UInt64.ofNat pos) >>> UInt64.ofNat (64 - n)).toNat

/-- The size of plain or repeated literals, and how long it is written. -/
def plainSize (bytes : ByteArray) (start : Nat) : Nat × Nat :=
  match bitsHighFirst bytes start 2 2 with
  | 2 => (bitsHighFirst bytes start 4 12, 2)
  | 3 => (bitsHighFirst bytes start 4 20, 3)
  | _ => (bitsHighFirst bytes start 3 5, 1)

/-- Unpacks content of `size` bytes by a new code. -/
def unpack (f : Format) (bytes : ByteArray) (start stop size : Nat) (single : Bool) :
    Except Fault (Literals × Option Huffman.Table) := do
  let packed := stop - start
  if single then
    let (content, code) ← unpackOne f bytes start stop size
    return (.ofContent content, code)
  else
    let kept := f ≠ .seven ∧ f ≠ .five
    if size = 0 ∨ packed > size ∨ packed = 0 then throw .corrupted
    if packed = size then
      if kept then return (.ofContent (bytes.extract start stop), none) else throw .corrupted
    else if packed = 1 then
      if f ≠ .seven then return (.repeated (byteAt bytes start) size, none) else throw .corrupted
    else
      let (content, code) ← unpackFour f bytes start stop size
      return (.ofContent content, code)

/-- Literals of the formats from five on. Only in the format seven a code can be used again, and only
one that takes code words in pairs. -/
def readLiteralsFrom (f : Format) (bytes : ByteArray) (start stop : Nat)
    (code : Option Huffman.Table) : Except Fault LiteralsRead := do
  if stop < start + 3 then throw .corrupted
  let form := bitsHighFirst bytes start 2 2
  match bitsHighFirst bytes start 0 2 with
  | 0 =>
    if stop < start + 5 then throw .corrupted
    let (length, width) := if form < 2 then (3, 10) else if form = 2 then (4, 14) else (5, 18)
    let size := bitsHighFirst bytes start 4 width
    let next := start + length + bitsHighFirst bytes start (4 + width) width
    if size > maxLiterals ∨ next > stop then throw .corrupted
    let (literals, new) ← unpack f bytes (start + length) next size (form = 1)
    return (literals, new <|> code, next)
  | 1 =>
    let next := start + 3 + bitsHighFirst bytes start 14 10
    if form ≠ 1 ∨ next > stop then throw .corrupted
    match code with
    | none => throw .corrupted
    | some code =>
      if f ≠ .seven ∨ code.pairs.isNone then throw .corrupted
      let content ← Huffman.decodeStream code bytes (start + 3) next (bitsHighFirst bytes start 4 10)
        ByteArray.empty
      return (.ofContent content, code, next)
  | 2 =>
    let (size, length) := plainSize bytes start
    let next := start + length + size
    if next > stop then throw .corrupted
    return (.plain bytes (start + length) next stop, code, next)
  | _ =>
    let (size, length) := plainSize bytes start
    if size > maxLiterals ∨ stop < start + length + 1 then throw .corrupted
    return (.repeated (byteAt bytes (start + length)) size, code, start + length + 1)

/-- The literals of the block in the bytes from `start` to `stop`. -/
def readLiterals (f : Format) (bytes : ByteArray) (start stop : Nat) (code : Option Huffman.Table) :
    Except Fault LiteralsRead :=
  match f with
  | .four => readLiteralsFour bytes start stop
  | _ => readLiteralsFrom f bytes start stop code

end ColumnVault.Zstd.Early
