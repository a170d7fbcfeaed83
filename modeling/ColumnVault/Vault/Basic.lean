import ColumnVault.Key.Ring
import ColumnVault.Outcome
import ColumnVault.Packing.Basic

/-! A vault holds the subkeys of all active keys until it is closed. -/

namespace ColumnVault

structure Vault where
  /-- The keys, which are gone once the vault is closed. -/
  keys : Option KeyRing
  activeIds : List String
  /-- The id of the key that new values are encrypted under. -/
  defaultId : String
  policy : Policy
  deriving DecidableEq

/-- The two ways of calling an operation: with the default key, where a closed vault ends the call,
or with a key that the caller names, where it is an error. -/
inductive Shape where
  | defaultKey
  | namedKey
  deriving DecidableEq, Repr

namespace Vault

/-- A vault over all active keys of a source, which is not used again afterwards. -/
def new (source : KeySource) (policy : Policy) : Except Error Vault :=
  if source.activeIds = [] then .error .noKeysConfigured
  else
    match KeyRing.addAll source source.activeIds ⟨[]⟩ with
    | .error e => .error e
    | .ok ring =>
      if source.defaultId ∈ ring.ids then
        .ok ⟨some ring, ring.ids, source.defaultId, policy⟩
      else .error (.defaultKeyNotFound source.defaultId)

def isClosed (v : Vault) : Bool :=
  v.keys.isNone

/-- The vault without its keys. -/
def close (v : Vault) : Vault :=
  { v with keys := none }

/-- The keys of the vault, unless it is closed. -/
def ring (v : Vault) (shape : Shape) : Outcome KeyRing :=
  match v.keys, shape with
  | some r, _ => .value r
  | none, .defaultKey => .abort .closed
  | none, .namedKey => .failure .closed

end Vault

end ColumnVault
