import ColumnVault.Bytes.Word

/-! The formats of frames before the present one that can still be read. The mark at the front of a
frame tells its format. -/

namespace ColumnVault.Zstd.Early

inductive Format where
  | four
  | five
  | six
  | seven
  deriving DecidableEq, Repr

namespace Format

def all : List Format := [.four, .five, .six, .seven]

/-- The first four bytes of a frame, read as a word with the low byte first. -/
def mark : Format → UInt32
  | .four => 0xfd2fb524
  | .five => 0xfd2fb525
  | .six => 0xfd2fb526
  | .seven => 0xfd2fb527

def ofMark? (w : UInt32) : Option Format :=
  all.find? (·.mark = w)

theorem ofMark?_mark (f : Format) : ofMark? f.mark = some f := by
  cases f <;> rfl

/-- Whether long lengths of sequences stand in bytes of their own, beside the coded ones. -/
def hasSideLengths : Format → Bool
  | .four | .five => true
  | .six | .seven => false

/-- The shortest copy of earlier bytes. -/
def minMatch : Format → Nat
  | .four | .five => 4
  | .six | .seven => 3

end Format

end ColumnVault.Zstd.Early
