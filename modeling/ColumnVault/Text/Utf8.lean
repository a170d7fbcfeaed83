/-! Reading bytes as UTF-8: strictly, with the place of the first fault, or with a replacement
character for every part that cannot be read. -/

namespace ColumnVault.Text.Utf8

/-- Where bytes stop being UTF-8. The length is that of the longest faulty part, and is missing when
the bytes end within a sequence that could still have been completed. -/
structure Fault where
  index : Nat
  length? : Option Nat
  deriving DecidableEq, Repr

def Fault.message (f : Fault) : String :=
  match f.length? with
  | some n => s!"invalid utf-8 sequence of {n} bytes from index {f.index}"
  | none => s!"incomplete utf-8 byte sequence from index {f.index}"

/-- The first sequence of some bytes: a character, a part of `length` bytes that no continuation can
mend, or a beginning that the end of the bytes cuts off. -/
inductive Sequence where
  | whole (c : Char) (length : Nat)
  | broken (length : Nat)
  | cut
  deriving DecidableEq

/-- What a leading byte announces: its own bits, how many bytes follow, and the range of the first
of them. The range excludes overlong forms, surrogates and code points that do not exist. -/
def lead? (b : UInt8) : Option (Nat × Nat × UInt8 × UInt8) :=
  if b < 0x80 then some (b.toNat, 0, 0x80, 0xbf)
  else if b < 0xc2 then none
  else if b < 0xe0 then some (b.toNat - 0xc0, 1, 0x80, 0xbf)
  else if b = 0xe0 then some (0, 2, 0xa0, 0xbf)
  else if b = 0xed then some (0xd, 2, 0x80, 0x9f)
  else if b < 0xf0 then some (b.toNat - 0xe0, 2, 0x80, 0xbf)
  else if b = 0xf0 then some (0, 3, 0x90, 0xbf)
  else if b < 0xf4 then some (b.toNat - 0xf0, 3, 0x80, 0xbf)
  else if b = 0xf4 then some (4, 3, 0x80, 0x8f)
  else none

/-- Reads `more` continuation bytes, the first of them from `lo` to `hi`; `read` bytes came before
them and gave the bits `acc`. -/
def continuation : Nat → UInt8 → UInt8 → Nat → Nat → List UInt8 → Sequence
  | 0, _, _, read, acc, _ => .whole (Char.ofNat acc) read
  | _ + 1, _, _, _, _, [] => .cut
  | more + 1, lo, hi, read, acc, b :: rest =>
    if lo ≤ b ∧ b ≤ hi then
      continuation more 0x80 0xbf (read + 1) (acc * 64 + (b.toNat - 0x80)) rest
    else .broken read

def sequence (b : UInt8) (rest : List UInt8) : Sequence :=
  match lead? b with
  | none => .broken 1
  | some (bits, more, lo, hi) => continuation more lo hi 1 bits rest

/-- The first fault of the bytes, which start at `index` of the whole. -/
def faultFrom (index : Nat) : List UInt8 → Option Fault
  | [] => none
  | b :: rest =>
    match sequence b rest with
    | .whole _ n => faultFrom (index + n) (rest.drop (n - 1))
    | .broken n => some ⟨index, some n⟩
    | .cut => some ⟨index, none⟩
  termination_by bytes => bytes.length
  decreasing_by simp only [List.length_drop, List.length_cons]; omega

/-- The characters of the bytes, with U+FFFD for each part that is none. -/
def replacing : List UInt8 → List Char
  | [] => []
  | b :: rest =>
    match sequence b rest with
    | .whole c n => c :: replacing (rest.drop (n - 1))
    | .broken n => '\uFFFD' :: replacing (rest.drop (n - 1))
    | .cut => ['\uFFFD']
  termination_by bytes => bytes.length
  decreasing_by all_goals simp only [List.length_drop, List.length_cons]; omega

/-- The text that the bytes encode, or where they first fail to encode one. -/
def decode (bytes : ByteArray) : Except Fault String :=
  match String.fromUTF8? bytes with
  | some s => .ok s
  | none => .error ((faultFrom 0 bytes.data.toList).getD ⟨0, none⟩)

/-- The text that the bytes encode, with U+FFFD for each part that encodes nothing. -/
def decodeLossy (bytes : ByteArray) : String :=
  match String.fromUTF8? bytes with
  | some s => s
  | none => String.ofList (replacing bytes.data.toList)

end ColumnVault.Text.Utf8
