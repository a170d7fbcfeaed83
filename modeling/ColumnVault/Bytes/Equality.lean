/-! Deciding whether bytes are equal. -/

namespace ColumnVault.Bytes

/-- Bytes are compared by their content. -/
instance decEq : DecidableEq ByteArray := ByteArray.instDecidableEq

theorem beq_iff_data_eq (a b : ByteArray) : (a == b) = true ↔ a.data = b.data :=
  beq_iff_eq (a := a.data) (b := b.data)

instance lawful : LawfulBEq ByteArray where
  eq_of_beq h := ByteArray.ext ((beq_iff_data_eq _ _).1 h)
  rfl := (beq_iff_data_eq _ _).2 rfl

end ColumnVault.Bytes
