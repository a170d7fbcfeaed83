import ColumnVault.Proofs.Search.Meaning
import ColumnVault.Proofs.Text.Ascii
import ColumnVault.Toml.Strings

/-! What is let into a condition. The names of columns are those of a regular expression, and an offset is
let in if, in unbounded numbers, all the placeholders from it on are within the limit. What passes both makes
a condition whose placeholders are computed without overflow; all else ends the call. -/

namespace ColumnVault.Search

open Text

/-! ### Names -/

def letters : List Char :=
  "ABCDEFGHIJKLMNOPQRSTUVWXYZabcdefghijklmnopqrstuvwxyz".toList

def digits : List Char :=
  "0123456789".toList

/-- One character out of some. -/
def oneOf (cs : List Char) : RegularExpression Char :=
  (cs.map .char).sum

/-- `[A-Za-z_][A-Za-z0-9_]*` -/
def identifier : RegularExpression Char :=
  oneOf ('_' :: letters) * (oneOf ('_' :: letters ++ digits)).star

theorem mem_oneOf {cs text : List Char} : text ∈ (oneOf cs).matches' ↔ ∃ c ∈ cs, text = [c] := by
  induction cs with
  | nil => simp [oneOf, Language.notMem_zero]
  | cons c cs ih =>
    rw [oneOf, List.map_cons, List.sum_cons, ← oneOf, RegularExpression.matches'_add, Language.mem_add, ih,
      List.exists_mem_cons_iff]
    rfl

theorem mem_star_oneOf {cs text : List Char} :
    text ∈ (oneOf cs).star.matches' ↔ ∀ c ∈ text, c ∈ cs := by
  rw [RegularExpression.matches'_star, Language.mem_kstar]
  constructor
  · rintro ⟨pieces, rfl, hpieces⟩ c hc
    obtain ⟨piece, hpiece, hmem⟩ := List.mem_flatten.1 hc
    obtain ⟨d, hd, rfl⟩ := mem_oneOf.1 (hpieces piece hpiece)
    rwa [List.mem_singleton.1 hmem]
  · intro h
    refine ⟨text.map fun c => [c], by simp [← List.flatMap_def], ?_⟩
    rintro piece hpiece
    obtain ⟨c, hc, rfl⟩ := List.mem_map.1 hpiece
    exact mem_oneOf.2 ⟨c, h c hc, rfl⟩

theorem toNat_lt_of_isNameStart {c : Char} (h : isNameStart c = true) : c.toNat < 128 := by
  simp only [isNameStart, Bool.or_eq_true, Bool.and_eq_true, decide_eq_true_eq, Char.le_def,
    UInt32.le_iff_toNat_le] at h
  rcases h with (h | h) | rfl
  · exact Nat.lt_of_le_of_lt h.2 (by decide)
  · exact Nat.lt_of_le_of_lt h.2 (by decide)
  · decide

theorem toNat_lt_of_isNamePart {c : Char} (h : isNamePart c = true) : c.toNat < 128 := by
  rw [isNamePart, Bool.or_eq_true] at h
  rcases h with h | h
  · exact toNat_lt_of_isNameStart h
  · simp only [Bool.and_eq_true, decide_eq_true_eq, Char.le_def, UInt32.le_iff_toNat_le] at h
    exact Nat.lt_of_le_of_lt h.2 (by decide)

theorem isNameStart_iff_mem (c : Char) : isNameStart c = true ↔ c ∈ '_' :: letters :=
  mem_iff_of_ascii (fun _ => toNat_lt_of_isNameStart) (by decide) (by decide +kernel) c

theorem isNamePart_iff_mem (c : Char) : isNamePart c = true ↔ c ∈ '_' :: letters ++ digits :=
  mem_iff_of_ascii (fun _ => toNat_lt_of_isNamePart) (by decide) (by decide +kernel) c

theorem isIdentifier_iff_matches (name : String) :
    isIdentifier name = true ↔ name.toList ∈ identifier.matches' := by
  rw [identifier, RegularExpression.matches'_mul, Language.mem_mul, isIdentifier.eq_def]
  constructor
  · intro h
    split at h
    · cases h
    · next c rest heq =>
      rw [Bool.and_eq_true, List.all_eq_true] at h
      refine ⟨[c], mem_oneOf.2 ⟨c, (isNameStart_iff_mem c).1 h.1, rfl⟩, rest, mem_star_oneOf.2 ?_, heq.symm⟩
      exact fun d hd => (isNamePart_iff_mem d).1 (h.2 d hd)
  · rintro ⟨first, hfirst, rest, hrest, heq⟩
    obtain ⟨c, hc, rfl⟩ := mem_oneOf.1 hfirst
    rw [← heq]
    simp only [List.singleton_append, Bool.and_eq_true, List.all_eq_true]
    exact ⟨(isNameStart_iff_mem c).2 hc, fun d hd => (isNamePart_iff_mem d).2 (mem_star_oneOf.1 hrest d hd)⟩

theorem checkColumn_of_ne_ok {name : String} (h : checkColumn name ≠ .ok ()) :
    checkColumn name = .error (.invalidColumn name) := by
  rw [ne_eq, checkColumn_eq_ok_iff] at h
  rw [checkColumn, if_neg h]

/-- What is no identifier at a glance: nothing at all, or a text with a character beyond ASCII, a blank or a
quote in it. -/
def Unfit (name : String) : Prop :=
  name = "" ∨ ∃ c ∈ name.toList, 128 ≤ c.toNat ∨ isBlank c = true ∨ Toml.isQuote c = true

theorem Unfit.not_isIdentifier {name : String} (h : Unfit name) : ¬isIdentifier name = true := by
  intro hname
  rcases h with rfl | ⟨c, hc, hbad⟩
  · cases hname
  · have hplain : (('_' :: letters ++ digits).any fun c =>
        decide (128 ≤ c.toNat ∨ isBlank c = true ∨ Toml.isQuote c = true)) = false := by decide +kernel
    have hpart := (isNamePart_iff_mem c).1 (isNamePart_of_isIdentifier hname c hc)
    exact List.any_eq_false.1 hplain c hpart (decide_eq_true hbad)

/-! ### Offsets -/

/-- Wherever a step leaves the 64-bit numbers, the last placeholder is beyond the limit anyway. -/
theorem checkOffset_eq_ok_iff {offset keyCount : Nat} : checkOffset offset keyCount = .ok () ↔
    1 ≤ offset ∧ offset ≤ 65535 ∧ (offset : ℤ) + 2 * keyCount - 1 ≤ 65535 := by
  have hmax : maxParameter = 65535 := rfl
  have hsize : UInt64.size = 18446744073709551616 := rfl
  simp only [checkOffset, lastSlot?, fits, decide_eq_true_eq, hmax, hsize]
  split
  · next last hlast =>
    split_ifs at hlast
    cases hlast
    split_ifs with h
    · simp only [true_iff]
      omega
    · simp only [false_iff]
      omega
  · next hlast =>
    split_ifs at hlast with h
    simp only [reduceCtorEq, false_iff]
    omega

theorem checkOffset_of_ne_ok {offset keyCount : Nat} (h : checkOffset offset keyCount ≠ .ok ()) :
    checkOffset offset keyCount = .error (.invalidOffset offset keyCount 65535) := by
  have hmax : maxParameter = 65535 := rfl
  simp only [checkOffset, hmax] at h ⊢
  split at h
  · split_ifs at h ⊢
    · exact absurd rfl h
    · rfl
  · rfl

/-- The computations of the two placeholders of a key come to the same in 64-bit words as in unbounded
numbers. -/
structure SlotFits (offset i : Nat) : Prop where
  double : (UInt64.ofNat i * 2).toNat = i * 2
  slot : (UInt64.ofNat offset + UInt64.ofNat i * 2).toNat = offset + i * 2
  next : (UInt64.ofNat offset + UInt64.ofNat i * 2 + 1).toNat = offset + i * 2 + 1

theorem slotFits_of_lt {offset i : Nat} (h : offset + i * 2 + 1 < UInt64.size) : SlotFits offset i := by
  have hoffset : (UInt64.ofNat offset).toNat = offset := UInt64.toNat_ofNat_of_lt (by omega)
  have hi : (UInt64.ofNat i).toNat = i := UInt64.toNat_ofNat_of_lt (by omega)
  have hdouble : (UInt64.ofNat i * 2).toNat = i * 2 := by
    rw [UInt64.toNat_mul, hi]
    exact Nat.mod_eq_of_lt (by show i * 2 < UInt64.size; omega)
  have hslot : (UInt64.ofNat offset + UInt64.ofNat i * 2).toNat = offset + i * 2 := by
    rw [UInt64.toNat_add, hoffset, hdouble]
    exact Nat.mod_eq_of_lt (by show offset + i * 2 < UInt64.size; omega)
  refine ⟨hdouble, hslot, ?_⟩
  rw [UInt64.toNat_add, hslot]
  exact Nat.mod_eq_of_lt h

/-- An accepted offset leaves room for the placeholders of every key. -/
theorem slot_bounds {offset keyCount i : Nat} (h : checkOffset offset keyCount = .ok ())
    (hi : i < keyCount) : 1 ≤ offset + i * 2 ∧ offset + i * 2 + 1 ≤ 65535 := by
  have := checkOffset_eq_ok_iff.1 h
  omega

/-- The placeholders of a clause are numbers of parameters. -/
def Clause.WithinLimit (c : Clause) : Prop :=
  (1 ≤ c.first.placeholder ∧ c.first.placeholder ≤ 65535) ∧
    (1 ≤ c.second.placeholder ∧ c.second.placeholder ≤ 65535)

theorem withinLimit_of_mem_clausesFrom {column : String} {offset keyCount : Nat}
    (h : checkOffset offset keyCount = .ok ()) {clause : Clause}
    (hclause : clause ∈ clausesFrom column offset keyCount) : clause.WithinLimit := by
  rw [clausesFrom, List.mem_map] at hclause
  obtain ⟨i, hi, rfl⟩ := hclause
  obtain ⟨hfirst, hlast⟩ := slot_bounds h (List.mem_range.1 hi)
  exact ⟨⟨hfirst, Nat.le_of_succ_le hlast⟩, Nat.le_succ_of_le hfirst, hlast⟩

end ColumnVault.Search

namespace ColumnVault.Vault

open Search

section Open
variable {source : KeySource} {v : Vault} {ring : KeyRing} {column : String} {offset : Nat}

theorem Opened.condition_of_column (h : v.Opened source ring) (hcolumn : checkColumn column ≠ .ok ())
    (value : Option ByteArray) (offset : Nat) :
    v.condition column value offset = .abort (.condition (.invalidColumn column)) := by
  rw [condition, h.ring_eq, Outcome.value_bind, checkColumn_of_ne_ok hcolumn, error_bind]

theorem Opened.condition_of_offset (h : v.Opened source ring) (hcolumn : checkColumn column = .ok ())
    (hoffset : checkOffset offset v.activeIds.length ≠ .ok ()) (value : Option ByteArray) :
    v.condition column value offset =
      .abort (.condition (.invalidOffset offset v.activeIds.length 65535)) := by
  rw [condition, h.ring_eq, Outcome.value_bind, hcolumn, ok_bind, checkOffset_of_ne_ok hoffset]

/-- What passes both checks makes a condition, and every placeholder in its text is within the limit. -/
theorem Opened.condition_of_accepted (h : v.Opened source ring) (hcolumn : checkColumn column = .ok ())
    (hoffset : checkOffset offset v.activeIds.length = .ok ()) (value : Option ByteArray) :
    ∃ c clauses, v.condition column value offset = .value c ∧
      (∀ clauses', Reads clauses' c.predicate ↔ clauses' = clauses) ∧
      ∀ clause ∈ clauses, clause.WithinLimit := by
  cases value with
  | none =>
    refine ⟨_, [], h.condition_none hcolumn hoffset, fun clauses => ⟨fun hread => hread.unique .never, ?_⟩,
      fun _ hnone => absurd hnone List.not_mem_nil⟩
    rintro rfl
    exact .never
  | some value =>
    obtain ⟨c, hc, -, hmeans⟩ := h.condition_means hcolumn hoffset value
    exact ⟨c, _, hc, hmeans.reads, fun _ => withinLimit_of_mem_clausesFrom hoffset⟩

theorem Opened.condition_aborts_iff (h : v.Opened source ring) (value : Option ByteArray) :
    (∃ cause, v.condition column value offset = .abort cause) ↔
      checkColumn column ≠ .ok () ∨ checkOffset offset v.activeIds.length ≠ .ok () := by
  constructor
  · rintro ⟨cause, hcause⟩
    by_contra hboth
    obtain ⟨hcolumn, hoffset⟩ := not_or.1 hboth
    obtain ⟨c, -, hc, -⟩ :=
      h.condition_of_accepted (not_not.1 hcolumn) (not_not.1 hoffset) value
    cases hc.symm.trans hcause
  · intro hbad
    by_cases hcolumn : checkColumn column = .ok ()
    · exact ⟨_, h.condition_of_offset hcolumn (hbad.resolve_left (not_not.2 hcolumn)) value⟩
    · exact ⟨_, h.condition_of_column hcolumn value offset⟩

end Open

/-- A name is let in exactly if it matches `[A-Za-z_][A-Za-z0-9_]*`, so none that is empty or has a
character beyond ASCII, a blank or a quote in it; an offset exactly if it and the last placeholder, in
unbounded numbers, are from 1 to 65535. On an open vault a condition, also for a missing value, ends the call
exactly if its column or its offset is not let in, the column being looked at first; otherwise nothing
overflows where its placeholders are computed, and they are all within the limit. -/
theorem gates_exact (name : String) (offset : Nat) :
    (checkColumn name = .ok () ↔ name.toList ∈ identifier.matches') ∧
      (Unfit name → checkColumn name = .error (.invalidColumn name)) ∧
      (∀ keyCount, checkOffset offset keyCount = .ok () ↔
        1 ≤ offset ∧ offset ≤ 65535 ∧ (offset : ℤ) + 2 * keyCount - 1 ≤ 65535) ∧
      ∀ (source : KeySource) (v : Vault), v.OpenOn source → ∀ value,
        ((∃ cause, v.condition name value offset = .abort cause) ↔
          checkColumn name ≠ .ok () ∨ checkOffset offset v.activeIds.length ≠ .ok ()) ∧
        (checkColumn name ≠ .ok () →
          v.condition name value offset = .abort (.condition (.invalidColumn name))) ∧
        (checkColumn name = .ok () → checkOffset offset v.activeIds.length ≠ .ok () →
          v.condition name value offset =
            .abort (.condition (.invalidOffset offset v.activeIds.length 65535))) ∧
        (checkColumn name = .ok () → checkOffset offset v.activeIds.length = .ok () →
          (∃ c clauses, v.condition name value offset = .value c ∧
            (∀ clauses', Reads clauses' c.predicate ↔ clauses' = clauses) ∧
            ∀ clause ∈ clauses, clause.WithinLimit) ∧
          ∀ i < v.activeIds.length, SlotFits offset i) := by
  refine ⟨checkColumn_eq_ok_iff.trans (isIdentifier_iff_matches name), fun hunfit => ?_,
    fun _ => checkOffset_eq_ok_iff, fun source v hv value => ?_⟩
  · exact checkColumn_of_ne_ok (mt checkColumn_eq_ok_iff.1 hunfit.not_isIdentifier)
  · obtain ⟨ring, h⟩ := hv.opened
    refine ⟨h.condition_aborts_iff value, fun hcolumn => h.condition_of_column hcolumn value offset,
      fun hcolumn hoffset => h.condition_of_offset hcolumn hoffset value,
      fun hcolumn hoffset => ⟨h.condition_of_accepted hcolumn hoffset value, fun i hi => ?_⟩⟩
    have hsize : UInt64.size = 18446744073709551616 := rfl
    have := (slot_bounds hoffset hi).2
    exact slotFits_of_lt (by omega)

/-- With two keys the last offset that is let in is 65532; one more, or a name with a blank in it, and the
call ends. -/
theorem gates_exact_at_limit :
    let v := Twins.vault "new" .initial
    v.OpenOn (Twins.source "new") ∧ checkColumn "email" = .ok () ∧
      (∃ c clauses, v.condition "email" (some "a".toUTF8) 65532 = .value c ∧
        (∀ clauses', Reads clauses' c.predicate ↔ clauses' = clauses) ∧
        ∀ clause ∈ clauses, clause.WithinLimit) ∧
      v.condition "email" none 65533 = .abort (.condition (.invalidOffset 65533 2 65535)) ∧
      v.condition "e mail" none 65533 = .abort (.condition (.invalidColumn "e mail")) := by
  intro v
  have hv : v.OpenOn (Twins.source "new") := Twins.openOn (by decide) .initial
  have hcolumn : checkColumn "email" = .ok () := by decide
  obtain ⟨-, -, -, hlast⟩ := gates_exact "email" 65532
  obtain ⟨-, -, -, hbeyond⟩ := gates_exact "email" 65533
  obtain ⟨-, -, -, hblank⟩ := gates_exact "e mail" 65533
  obtain ⟨-, -, -, haccepted⟩ := hlast _ v hv (some "a".toUTF8)
  obtain ⟨-, -, hoffset, -⟩ := hbeyond _ v hv none
  obtain ⟨-, hname, -⟩ := hblank _ v hv none
  exact ⟨hv, hcolumn, (haccepted hcolumn (by decide)).1, hoffset hcolumn (by decide), hname (by decide)⟩

end ColumnVault.Vault
