/-! Structured data, as configuration files and messages hold it, and how values are read from it. -/

namespace ColumnVault

inductive Data where
  | null
  | bool (b : Bool)
  | int (n : Int)
  | text (s : String)
  | list (items : List Data)
  | table (fields : List (String × Data))
  /-- A scalar of another kind, such as a fraction. -/
  | other
  deriving Inhabited

namespace Data

/-- Where data comes from. In a message the list form of a record has no more items than fields, and
null stands for nothing; in a file more items are passed over, and an empty table or list stands for
nothing. -/
inductive Origin where
  | message
  | file
  deriving DecidableEq, Repr

/-- The named fields of a record. A record may also be written as the list of its first fields. -/
def record? (origin : Origin) (names : List String) : Data → Option (List (Option Data))
  | .table fields => some (names.map fun name => fields.lookup name)
  | .list items =>
    if origin = .file ∨ items.length ≤ names.length then
      some ((List.range names.length).map fun i => items[i]?)
    else none
  | _ => none

def bool? : Data → Option Bool
  | .bool b => some b
  | _ => none

/-- A number that a 64-bit counter can hold. -/
def count? : Data → Option Nat
  | .int n => if 0 ≤ n ∧ n < UInt64.size then some n.toNat else none
  | _ => none

def text? : Data → Option String
  | .text s => some s
  | _ => none

/-- Whether the data says nothing. -/
def isVoid : Origin → Data → Bool
  | .message, .null => true
  | .file, .table [] => true
  | .file, .list [] => true
  | _, _ => false

/-- One of some names: the name itself, or a table with nothing under that one name. -/
def name? (origin : Origin) : Data → Option String
  | .text s => some s
  | .table [(s, d)] => if d.isVoid origin then some s else none
  | _ => none

/-- A field that keeps an initial value where it is missing. -/
def field {α : Type} (read : Data → Option α) (initial : α) : Option Data → Option α
  | none => some initial
  | some d => read d

end Data

end ColumnVault
