import ColumnVault.Assoc
import ColumnVault.Error

/-! Where a vault gets its master keys from. -/

namespace ColumnVault

/-- A source of master keys: the ids of the active keys in order, the id of the key for new values,
and the keys themselves. -/
structure KeySource where
  activeIds : List String
  defaultId : String
  masterKey : String → Except KeySourceError ByteArray

/-- Master keys held in memory, in the order in which their ids were first added. -/
structure KeyList where
  entries : List (String × ByteArray)
  chosen : Option String

namespace KeyList

def empty : KeyList := ⟨[], none⟩

/-- Adds a key; one that has the same id is replaced and keeps its place. -/
def insert (l : KeyList) (id : String) (key : ByteArray) : KeyList :=
  { l with entries := Assoc.put id key l.entries }

/-- Chooses the key for new values. -/
def choose (l : KeyList) (id : String) : KeyList :=
  { l with chosen := some id }

/-- The chosen id, or the one that was added first. -/
def defaultId (l : KeyList) : String :=
  (l.chosen <|> l.entries.head?.map (·.1)).getD ""

def masterKey (l : KeyList) (id : String) : Except KeySourceError ByteArray :=
  match l.entries.lookup id with
  | some key => .ok key
  | none => .error (.keyNotFound id)

def toSource (l : KeyList) : KeySource :=
  ⟨l.entries.map (·.1), l.defaultId, l.masterKey⟩

end KeyList

end ColumnVault
