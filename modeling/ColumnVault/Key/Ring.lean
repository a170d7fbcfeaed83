import ColumnVault.Key.Source
import ColumnVault.Key.Subkeys

/-! The keys of a vault: the subkeys of every active key, in the order of their ids. -/

namespace ColumnVault

structure KeyRing where
  entries : List (String × Subkeys)
  deriving DecidableEq

namespace KeyRing

def ids (r : KeyRing) : List String :=
  r.entries.map (·.1)

def get (r : KeyRing) (id : String) : Except Error Subkeys :=
  match r.entries.lookup id with
  | some keys => .ok keys
  | none => .error (.keyNotFound id)

/-- The subkeys of one key of a source. -/
def load (source : KeySource) (id : String) : Except Error Subkeys :=
  match source.masterKey id with
  | .ok master => Subkeys.derive master
  | .error (.keyNotFound id) => .error (.keyNotFound id)
  | .error e => .error (.keySource e)

/-- Adds the keys of the listed ids in order, each id once, and stops at the first that cannot be
added. -/
def addAll (source : KeySource) : List String → KeyRing → Except Error KeyRing
  | [], r => .ok r
  | id :: rest, r =>
    match KeyId.check id with
    | .error fault => .error (.invalidKeyId fault)
    | .ok () =>
      if id ∈ r.ids then addAll source rest r
      else
        match load source id with
        | .error e => .error e
        | .ok keys => addAll source rest ⟨r.entries ++ [(id, keys)]⟩

end KeyRing

end ColumnVault
