import ColumnVault.Data
import ColumnVault.Packing.Basic

/-! Policies read from structured data. Every field may be missing and then keeps its initial value;
fields that are not known are passed over. -/

namespace ColumnVault.Policy

/-- The policy in a record of its fields. -/
def ofData? (origin : Data.Origin) (d : Data) : Option Policy := do
  match ← d.record? origin ["enabled", "threshold", "algorithm"] with
  | [e, t, a] =>
    return {
      enabled := ← Data.field Data.bool? initial.enabled e
      threshold := ← Data.field Data.count? initial.threshold t
      algorithm := ← Data.field (fun d => d.name? origin >>= Algorithm.ofName?) initial.algorithm a }
  | _ => none

/-- The policy in a record with a field `compression`. -/
def ofSettings? (origin : Data.Origin) (d : Data) : Option Policy := do
  match ← d.record? origin ["compression"] with
  | [c] => Data.field (ofData? origin) initial c
  | _ => none

end ColumnVault.Policy
