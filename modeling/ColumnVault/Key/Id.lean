/-! Key ids: texts of 1 to 255 bytes, so that one byte can carry their length. -/

namespace ColumnVault.KeyId

def maxSize : Nat := 255

/-- Why a text is no key id. -/
inductive Fault where
  | empty
  | tooLong (size : Nat)
  | other (text : String)
  deriving DecidableEq, Repr

def Fault.message : Fault → String
  | .empty => "key id is empty"
  | .tooLong size => s!"key id too long: {size} bytes (max: {maxSize})"
  | .other text => text

def Valid (id : String) : Prop :=
  0 < id.utf8ByteSize ∧ id.utf8ByteSize ≤ maxSize

instance (id : String) : Decidable (Valid id) :=
  inferInstanceAs (Decidable (_ ∧ _))

def check (id : String) : Except Fault Unit :=
  if id.utf8ByteSize = 0 then .error .empty
  else if id.utf8ByteSize > maxSize then .error (.tooLong id.utf8ByteSize)
  else .ok ()

theorem check_eq_ok_iff {id : String} : check id = .ok () ↔ Valid id := by
  unfold check Valid
  split
  · simp_all
  · split
    · simp; omega
    · simp; omega

end ColumnVault.KeyId
