import ColumnVault.Search.Column
import ColumnVault.Vault.Digest

/-! Search conditions. During a change of keys a row may be indexed under any active key, so the
condition for a value has one alternative for each of them. -/

namespace ColumnVault

namespace Search

/-- What is bound to a placeholder. -/
inductive Parameter where
  | keyId (id : String)
  | index (digest : ByteArray)
  deriving DecidableEq

structure Condition where
  predicate : String
  parameters : List Parameter
  deriving DecidableEq

/-- The condition that no row meets. -/
def Condition.never : Condition := ⟨"FALSE", []⟩

/-- One alternative of a predicate: key and digest of a row are those of two placeholders. -/
def fragment (column : String) (slot : Nat) : String :=
  s!"({column}_key_id = ${slot} AND {column}_idx = ${slot + 1})"

/-- The predicate over `n` keys whose placeholders start at `slot`. -/
def predicate (column : String) (slot n : Nat) : String :=
  String.intercalate " OR " ((List.range n).map fun i => fragment column (slot + i * 2))

end Search

namespace Vault

open Search

/-- The condition that a row meets when its column holds the value. A column or an offset that could
not stand in it ends the call. -/
def condition (v : Vault) (column : String) (value : Option ByteArray) (offset : Nat) :
    Outcome Condition := do
  let ring ← v.ring .defaultKey
  match (do checkColumn column; checkOffset offset v.activeIds.length : Except Error Unit) with
  | .error e => .abort (.condition e)
  | .ok () =>
    match value with
    | none => return Condition.never
    | some value =>
      match indexesUnder ring value v.activeIds with
      | .error e => .abort (.condition e)
      | .ok indexes =>
        return ⟨predicate column offset indexes.length,
          indexes.flatMap fun (id, digest) => [.keyId id, .index digest]⟩

/-- The condition for the normal form of a text. -/
def conditionText (v : Vault) (column : String) (text : Option String) (normalizer : Normalizer)
    (offset : Nat) : Outcome Condition := do
  let _ ← v.ring .defaultKey
  let normal ← match text with
    | none => pure none
    | some s => do pure (some (← normalizer.apply s))
  v.condition column (normal.map String.toUTF8) offset

end Vault

end ColumnVault
