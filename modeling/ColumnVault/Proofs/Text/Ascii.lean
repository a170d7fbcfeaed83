import Mathlib

/-! The first 128 characters, and texts that differ in the case of their letters only. What is said of these
characters alone, or of the capitals among them, is decided by going through them. -/

namespace ColumnVault.Text

theorem forall_ascii (P : Char → Prop) (h : ∀ n < 128, P (Char.ofNat n)) {c : Char} (hc : c.toNat < 128) :
    P c := by
  have hn := h c.toNat hc
  rwa [Char.ofNat_toNat] at hn

/-- A class within ASCII is a list of characters if it is so among the first 128. -/
theorem mem_iff_of_ascii {p : Char → Bool} {cs : List Char} (hp : ∀ c, p c = true → c.toNat < 128)
    (hcs : (cs.all fun c => c.toNat < 128) = true)
    (h : ∀ n < 128, p (Char.ofNat n) = cs.elem (Char.ofNat n)) (c : Char) : p c = true ↔ c ∈ cs := by
  have hascii {c : Char} (hc : c.toNat < 128) : p c = true ↔ c ∈ cs := by
    rw [forall_ascii (fun c => p c = cs.elem c) h hc, List.elem_iff]
  constructor
  · exact fun hc => (hascii (hp c hc)).1 hc
  · exact fun hc => (hascii (of_decide_eq_true (List.all_eq_true.1 hcs c hc))).2 hc

theorem isUpper_iff {c : Char} : c.isUpper = true ↔ 65 ≤ c.toNat ∧ c.toNat ≤ 90 := by
  rw [Char.isUpper, decide_eq_true_iff, ge_iff_le, UInt32.le_iff_toNat_le, UInt32.le_iff_toNat_le]
  rfl

theorem forall_capital (P : Char → Prop) (h : ∀ n < 26, P (Char.ofNat (n + 65))) {c : Char}
    (hc : c.isUpper = true) : P c := by
  rw [isUpper_iff] at hc
  have hn := h (c.toNat - 65) (by omega)
  rwa [Nat.sub_add_cancel hc.1, Char.ofNat_toNat] at hn

/-- What does not tell a capital of ASCII from its small letter does not see `Char.toLower`. -/
theorem comp_toLower {α : Type} {f : Char → α}
    (h : ∀ n < 26, f (Char.ofNat (n + 65)).toLower = f (Char.ofNat (n + 65))) (c : Char) :
    f c.toLower = f c := by
  by_cases hc : c.isUpper = true
  · exact forall_capital (fun c => f c.toLower = f c) h hc
  · rw [Char.toLower_eq_of_not_isUpper hc]

/-- Two texts are the same but for the case of ASCII letters. -/
def SameButForCase (s t : String) : Prop :=
  s.toList.map Char.toLower = t.toList.map Char.toLower

instance (s t : String) : Decidable (SameButForCase s t) :=
  inferInstanceAs (Decidable (_ = _))

/-- All characters of a text are among the first 128. -/
def IsAscii (s : String) : Prop :=
  ∀ c ∈ s.toList, c.toNat < 128

instance (s : String) : Decidable (IsAscii s) :=
  inferInstanceAs (Decidable (∀ _ ∈ _, _))

end ColumnVault.Text
