import ColumnVault.Error

/-! What may stand in a search condition: column names that are plain identifiers, and placeholders
up to the largest parameter number. -/

namespace ColumnVault.Search

def maxParameter : Nat := 65535

def isNameStart (c : Char) : Bool :=
  ('a' ≤ c && c ≤ 'z') || ('A' ≤ c && c ≤ 'Z') || c = '_'

def isNamePart (c : Char) : Bool :=
  isNameStart c || ('0' ≤ c && c ≤ '9')

/-- An ASCII letter or underscore, and then ASCII letters, digits and underscores. -/
def isIdentifier (name : String) : Bool :=
  match name.toList with
  | [] => false
  | c :: rest => isNameStart c && rest.all isNamePart

def checkColumn (name : String) : Except Error Unit :=
  if isIdentifier name then .ok () else .error (.invalidColumn name)

/-- A number that a 64-bit counter can hold. -/
def fits (n : Nat) : Bool :=
  n < UInt64.size

/-- The number of the last placeholder of a condition over some keys that starts at `offset`, if
every step of its computation fits a 64-bit counter. -/
def lastSlot? (offset keyCount : Nat) : Option Nat :=
  if fits (keyCount * 2) ∧ fits (offset + keyCount * 2) ∧ 0 < offset + keyCount * 2 then
    some (offset + keyCount * 2 - 1)
  else none

def checkOffset (offset keyCount : Nat) : Except Error Unit :=
  match lastSlot? offset keyCount with
  | some last =>
    if 1 ≤ offset ∧ offset ≤ maxParameter ∧ last ≤ maxParameter then .ok ()
    else .error (.invalidOffset offset keyCount maxParameter)
  | none => .error (.invalidOffset offset keyCount maxParameter)

end ColumnVault.Search
