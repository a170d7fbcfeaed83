import ColumnVault.Zstd.Encode.Words

/-! The literals of a block in the shortest of several forms: as they are, as one repeated byte, or
written with a prefix code, a new one or that of an earlier block. -/

namespace ColumnVault.Zstd.Literals

open Bytes

/-- The bytes that have to be saved for something to be packed. -/
def leastGain (size : Nat) : Nat :=
  size / 64 + 2

/-- Appends the low bytes of a number. -/
def pushNumber (out : ByteArray) (value : Nat) : (n : Nat) → ByteArray
  | 0 => out
  | n + 1 => pushNumber (out.push (UInt8.ofNat value)) (value / 256) n

/-- The header of literals that are not packed. -/
def pushPlainHeader (out : ByteArray) (kind size : Nat) : ByteArray :=
  if size < 32 then pushNumber out (kind + size * 8) 1
  else if size < 4096 then pushNumber out (kind + 4 + size * 16) 2
  else pushNumber out (kind + 12 + size * 16) 3

def pushRaw (out literals : ByteArray) : ByteArray :=
  pushPlainHeader out 0 literals.size ++ literals

def pushRepeated (out literals : ByteArray) : ByteArray :=
  (pushPlainHeader out 1 literals.size).push (byteAt literals 0)

/-- Packed literals, with the bits of their header that tell the kind and the number of streams. -/
def pushPacked (out packed : ByteArray) (kind size : Nat) (four : Bool) : ByteArray :=
  let header :=
    if size < 1024 then
      pushNumber out (kind + (if four then 4 else 0) + size <<< 4 + packed.size <<< 14) 3
    else if size < 16384 then pushNumber out (kind + 8 + size <<< 4 + packed.size <<< 18) 4
    else pushNumber out (kind + 12 + size <<< 4 + packed.size <<< 22) 5
  header ++ packed

/-- What a code comes to: packed bytes, and the code they are behind if it is new. -/
structure Packed where
  bytes : ByteArray
  newCode : Option Huffman.Code

/-- The streams written with a code, behind its description; none if they are no shorter than the
literals. -/
def streams? (code : Huffman.Code) (described literals : ByteArray) : Option ByteArray := do
  let streams ←
    if literals.size < 256 then some (code.stream literals 0 literals.size)
    else code.fourStreams? literals
  let bytes := described ++ streams
  if bytes.size ≥ literals.size - 1 then none else some bytes

/-- Whether the first and the last bytes are so evenly spread that packing is not tried. -/
def looksRandom (literals : ByteArray) : Bool :=
  let n := literals.size
  let most := fun (part : ByteArray) => (Huffman.countBytes part).foldl max 0
  n ≥ 40960 && most (literals.extract 0 4096) + most (literals.extract (n - 4096) n) ≤ 68

/-- Packs literals with the code of an earlier block or with a new one. -/
def pack? (literals : ByteArray) (counts : Array Nat) (old : Option Huffman.Code) :
    Option Packed :=
  let n := literals.size
  let old := old.filter (·.covers counts)
  match old.filter fun _ => n ≤ 1024 with
  | some code => (streams? code ByteArray.empty literals).map (⟨·, none⟩)
  | none => do
    let log := Fse.suitableLog 11 n (counts.size - 1) 1
    let code := Huffman.Code.ofLengths (Huffman.lengthsOf counts log)
    let described ← code.describe?
    match old.filter fun code' => code'.estimate counts ≤ described.size + code.estimate counts ∨
        described.size + 12 ≥ n with
    | some code' => (streams? code' ByteArray.empty literals).map (⟨·, none⟩)
    | none =>
      if described.size + 12 ≥ n then none
      else (streams? code described literals).map (⟨·, some code⟩)

/-- Appends the literals, and tells the code that is valid after them. `doubtful` tells that the block
seems hard to pack. -/
def write (literals : ByteArray) (doubtful : Bool) (old : Option Huffman.Code) (out : ByteArray) :
    ByteArray × Option Huffman.Code :=
  let n := literals.size
  if n < 64 ∨ (doubtful ∧ looksRandom literals) then (pushRaw out literals, old)
  else
    let counts := Huffman.countBytes literals
    let most := counts.foldl max 0
    if most = n then (pushRepeated out literals, old)
    else if most ≤ n / 128 + 4 then (pushRaw out literals, old)
    else
      match pack? literals counts old with
      | none => (pushRaw out literals, old)
      | some packed =>
        if packed.bytes.size ≥ n - leastGain n then (pushRaw out literals, old)
        else
          let kind := if packed.newCode.isSome then 2 else 3
          (pushPacked out packed.bytes kind n (n ≥ 256), packed.newCode.or old)

end ColumnVault.Zstd.Literals
