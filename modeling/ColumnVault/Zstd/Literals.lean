import ColumnVault.Zstd.Huffman.Choice
import ColumnVault.Zstd.Huffman.Lane

/-! The first part of a compressed block: the bytes that its sequences copy as they are. -/

namespace ColumnVault.Zstd.Literals

open Bytes

/-- What the first bytes of the part announce: where it starts and the size of its content. For
packed literals also the size of the packed bytes, and whether they are in four streams. -/
inductive Header where
  | raw (start size : Nat)
  | repeated (start size : Nat)
  | packed (start size packedSize : Nat) (four newTable : Bool)

def Header.size : Header → Nat
  | .raw _ n => n
  | .repeated _ n => n
  | .packed _ n _ _ _ => n

/-- Little-endian bits of the header after the four that tell its form. -/
def field (bytes : ByteArray) (start pos n : Nat) : Nat :=
  bitsAt bytes start pos n

def Header.read (bytes : ByteArray) (start stop : Nat) : Except Fault Header :=
  if stop < start + 2 then .error .corrupted
  else
    let kind := field bytes start 0 2
    let form := field bytes start 2 2
    if kind < 2 then
      let (length, size) :=
        if form = 1 then (2, field bytes start 4 12)
        else if form = 3 then (3, field bytes start 4 20)
        else (1, field bytes start 3 5)
      if stop < start + length + kind then .error .corrupted
      else if kind = 0 then .ok (.raw (start + length) size)
      else .ok (.repeated (start + length) size)
    else if stop < start + 5 then .error .corrupted
    else
      let (length, width) := if form < 2 then (3, 10) else if form = 2 then (4, 14) else (5, 18)
      .ok (.packed (start + length) (field bytes start 4 width) (field bytes start (4 + width) width)
        (form ≠ 0) (kind = 2))

/-- Code words that are no longer than this are decoded in streams side by side. -/
def shortLog : Nat := 11

/-- The code described at `start` for four streams or one, and where its description ends. -/
def readCode (bytes : ByteArray) (start stop size : Nat) (four : Bool) :
    Except Fault (Huffman.Table × Nat) := do
  let (code, next) ← Huffman.Table.read bytes start stop
  if four ∧ Huffman.estimates.choosePairs size (stop - start) then
    return ({ code with pairs := some (max code.log shortLog) }, next)
  else return (code, next)

/-- The literals of the part at `start`, the code that is valid after them, and where they end.
They may be at most `limit` bytes. -/
def read (bytes : ByteArray) (start stop limit : Nat) (table : Option Huffman.Table) :
    Except Fault (ByteArray × Option Huffman.Table × Nat) := do
  let header ← Header.read bytes start stop
  if header.size > limit then throw .corrupted
  match header with
  | .raw from_ size =>
    if from_ + size > stop then throw .corrupted
    return (bytes.extract from_ (from_ + size), table, from_ + size)
  | .repeated from_ size => return (replicate size (byteAt bytes from_), table, from_ + 1)
  | .packed from_ size packedSize four newTable =>
    let next := from_ + packedSize
    if next > stop ∨ size = 0 ∨ (four ∧ size < 6) then throw .corrupted
    let (code, from_) ←
      if newTable then readCode bytes from_ next size four
      else match table with
        | some t => pure (t, from_)
        | none => throw .corrupted
    let out := ByteArray.emptyWithCapacity size
    let content ←
      if four then Huffman.decodeFour code bytes from_ next size (code.log ≤ shortLog) out
      else Huffman.decodeStream code bytes from_ next size out
    return (content, some code, next)

end ColumnVault.Zstd.Literals
