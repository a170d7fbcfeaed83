import ColumnVault.Search.Condition
import Mathlib.Tactic.Common

/-! How the text of a predicate is read: clauses joined by ` OR `, each of which compares two columns with
two numbered placeholders, or the word `FALSE`, which has no clause. A text is read in one way only, and
the predicate of a condition is read as one clause for each key. -/

namespace ColumnVault.Search

/-- A column and the number of the placeholder that it is compared with. -/
structure Comparison where
  column : String
  placeholder : Nat
  deriving DecidableEq

/-- Two comparisons that have to hold together. -/
structure Clause where
  first : Comparison
  second : Comparison
  deriving DecidableEq

/-- An identifier and a decimal number, as in `name = $12`. -/
def Comparison.Spelled (c : Comparison) (text : List Char) : Prop :=
  isIdentifier c.column = true ∧ ∃ digits, digits ≠ [] ∧ (∀ d ∈ digits, d.isDigit = true) ∧
    Nat.ofDigitChars 10 digits 0 = c.placeholder ∧
    text = c.column.toList ++ " = $".toList ++ digits

/-- Two comparisons in brackets, with `AND` between them. -/
def Clause.Spelled (c : Clause) (text : List Char) : Prop :=
  ∃ a b, c.first.Spelled a ∧ c.second.Spelled b ∧ text = "(".toList ++ a ++ " AND ".toList ++ b ++ ")".toList

/-- One clause, or several with `OR` between them. -/
inductive Joined : List Clause → List Char → Prop
  | one {clause : Clause} {text : List Char} (h : clause.Spelled text) : Joined [clause] text
  | more {clause : Clause} {text more : List Char} {rest : List Clause} (h : clause.Spelled text)
      (hrest : Joined rest more) : Joined (clause :: rest) (text ++ " OR ".toList ++ more)

/-- What a predicate is read as. -/
inductive Reads : List Clause → String → Prop
  | never : Reads [] "FALSE"
  | joined {clauses : List Clause} {predicate : String} (h : Joined clauses predicate.toList) :
      Reads clauses predicate

/-! ### One reading -/

/-- Where the characters of a class come to an end, a text is split in one way. -/
theorem split_unique {p : Char → Bool} {a b x y : List Char} {c d : Char} (ha : ∀ e ∈ a, p e = true)
    (hb : ∀ e ∈ b, p e = true) (hc : p c = false) (hd : p d = false)
    (h : a ++ c :: x = b ++ d :: y) : a = b ∧ c :: x = d :: y := by
  have hab : a = b := by
    have := congrArg (List.takeWhile p) h
    rwa [List.takeWhile_append_of_pos ha, List.takeWhile_append_of_pos hb,
      List.takeWhile_cons_of_neg (by simp [hc]), List.takeWhile_cons_of_neg (by simp [hd]),
      List.append_nil, List.append_nil] at this
  subst hab
  exact ⟨rfl, List.append_cancel_left h⟩

theorem isNamePart_of_isIdentifier {name : String} (h : isIdentifier name = true) :
    ∀ c ∈ name.toList, isNamePart c = true := by
  rw [isIdentifier] at h
  split at h
  · cases h
  · next c rest heq =>
    rw [Bool.and_eq_true, List.all_eq_true] at h
    rw [heq, List.forall_mem_cons]
    exact ⟨by rw [isNamePart, h.1, Bool.true_or], h.2⟩

/-- The column ends at the blank and the number at the first character that is no digit. -/
theorem Comparison.Spelled.unique {c c' : Comparison} {a b x y : List Char} {d e : Char}
    (ha : c.Spelled a) (hb : c'.Spelled b) (hd : d.isDigit = false) (he : e.isDigit = false)
    (h : a ++ d :: x = b ++ e :: y) : c = c' ∧ d :: x = e :: y := by
  obtain ⟨hname, digits, -, hdigits, hnumber, rfl⟩ := ha
  obtain ⟨hname', digits', -, hdigits', hnumber', rfl⟩ := hb
  have hmark : " = $".toList = ' ' :: ['=', ' ', '$'] := rfl
  simp only [hmark, List.append_assoc, List.cons_append, List.nil_append] at h
  obtain ⟨hcolumn, hrest⟩ := split_unique (isNamePart_of_isIdentifier hname)
    (isNamePart_of_isIdentifier hname') rfl rfl h
  simp only [List.cons.injEq, true_and] at hrest
  obtain ⟨rfl, hend⟩ := split_unique hdigits hdigits' hd he hrest
  refine ⟨?_, hend⟩
  obtain ⟨column, placeholder⟩ := c
  obtain ⟨column', placeholder'⟩ := c'
  dsimp only at hcolumn hnumber hnumber'
  rw [← hnumber, ← hnumber', String.toList_inj.1 hcolumn]

theorem Clause.Spelled.unique {c c' : Clause} {a b x y : List Char} (ha : c.Spelled a)
    (hb : c'.Spelled b) (h : a ++ x = b ++ y) : c = c' ∧ x = y := by
  obtain ⟨first, second, hfirst, hsecond, rfl⟩ := ha
  obtain ⟨first', second', hfirst', hsecond', rfl⟩ := hb
  have hopen : "(".toList = ['('] := rfl
  have hand : " AND ".toList = ' ' :: ['A', 'N', 'D', ' '] := rfl
  have hclose : ")".toList = [')'] := rfl
  simp only [hopen, hand, hclose, List.append_assoc, List.cons_append, List.nil_append,
    List.cons.injEq, true_and] at h
  obtain ⟨hone, h⟩ := hfirst.unique hfirst' rfl rfl h
  simp only [List.cons.injEq, true_and] at h
  obtain ⟨htwo, h⟩ := hsecond.unique hsecond' rfl rfl h
  obtain ⟨c₁, c₂⟩ := c
  obtain ⟨c₁', c₂'⟩ := c'
  dsimp only at hone htwo
  rw [hone, htwo]
  exact ⟨rfl, List.tail_eq_of_cons_eq h⟩

/-- Clause by clause, since after a clause there is either nothing or `OR`. -/
theorem Joined.unique {clauses clauses' : List Clause} {text : List Char} (h : Joined clauses text)
    (h' : Joined clauses' text) : clauses = clauses' := by
  have hne (more : List Char) : " OR ".toList ++ more ≠ [] := List.cons_ne_nil _ _
  induction h generalizing clauses' with
  | @one clause text hclause =>
    generalize htext : text = text' at h'
    rw [← List.append_nil text] at htext
    cases h' with
    | one hclause' => rw [(hclause.unique hclause' (htext.trans (List.append_nil _).symm)).1]
    | more hclause' =>
      rw [List.append_assoc] at htext
      exact absurd (hclause.unique hclause' htext).2.symm (hne _)
  | @more clause text more rest hclause hrest ih =>
    generalize htext : text ++ " OR ".toList ++ more = text' at h'
    rw [List.append_assoc] at htext
    cases h' with
    | one hclause' =>
      exact absurd (hclause.unique hclause' (htext.trans (List.append_nil _).symm)).2 (hne _)
    | more hclause' hrest' =>
      rw [List.append_assoc] at htext
      obtain ⟨rfl, hmore⟩ := hclause.unique hclause' htext
      rw [List.append_cancel_left hmore] at ih
      rw [ih hrest']

theorem Clause.Spelled.head {c : Clause} {text : List Char} (h : c.Spelled text) :
    ∃ rest, text = '(' :: rest := by
  obtain ⟨a, b, -, -, rfl⟩ := h
  exact ⟨_, rfl⟩

theorem Joined.head {clauses : List Clause} {text : List Char} (h : Joined clauses text) :
    ∃ rest, text = '(' :: rest := by
  cases h with
  | one h => exact h.head
  | more h =>
    obtain ⟨rest, rfl⟩ := h.head
    exact ⟨_, rfl⟩

theorem not_joined_false {clauses : List Clause} : ¬ Joined clauses "FALSE".toList := by
  intro h
  obtain ⟨rest, hrest⟩ := h.head
  exact absurd (List.cons.inj hrest).1 (by decide)

/-- No text is read in two ways. -/
theorem Reads.unique {clauses clauses' : List Clause} {predicate : String} (h : Reads clauses predicate)
    (h' : Reads clauses' predicate) : clauses = clauses' := by
  cases h with
  | never =>
    cases h' with
    | never => rfl
    | joined h' => exact absurd h' not_joined_false
  | joined h =>
    cases h' with
    | never => exact absurd h not_joined_false
    | joined h' => exact h.unique h'

/-! ### The reading of a predicate -/

def keyIdColumn (column : String) : String :=
  column ++ "_key_id"

def indexColumn (column : String) : String :=
  column ++ "_idx"

theorem checkColumn_eq_ok_iff {name : String} : checkColumn name = .ok () ↔ isIdentifier name = true := by
  constructor
  · intro h
    rw [checkColumn] at h
    split_ifs at h with hname
    exact hname
  · exact fun h => if_pos h

theorem isIdentifier_append {name suffix : String} (h : isIdentifier name = true)
    (hsuffix : suffix.toList.all isNamePart = true) : isIdentifier (name ++ suffix) = true := by
  rw [isIdentifier] at h ⊢
  split at h
  · cases h
  · next c rest heq =>
    rw [Bool.and_eq_true, List.all_eq_true] at h
    rw [String.toList_append, heq, List.cons_append]
    simp only [Bool.and_eq_true, List.all_append, List.all_eq_true]
    exact ⟨h.1, h.2, List.all_eq_true.1 hsuffix⟩

/-- Two placeholders, one behind the other, for the key and the index of a row. -/
def clauseAt (column : String) (slot : Nat) : Clause :=
  ⟨⟨keyIdColumn column, slot⟩, ⟨indexColumn column, slot + 1⟩⟩

/-- The clauses over `n` keys whose placeholders start at `offset`. -/
def clausesFrom (column : String) (offset n : Nat) : List Clause :=
  (List.range n).map fun i => clauseAt column (offset + i * 2)

theorem Comparison.spelled_toDigits {name : String} (h : isIdentifier name = true) (n : Nat) :
    Comparison.Spelled ⟨name, n⟩ (name.toList ++ " = $".toList ++ Nat.toDigits 10 n) :=
  ⟨h, _, Nat.toDigits_ne_nil, fun _ hd => Nat.isDigit_of_mem_toDigits (by decide) (by decide) hd,
    Nat.ofDigitChars_ten_toDigits, rfl⟩

theorem spelled_fragment {column : String} (h : isIdentifier column = true) (slot : Nat) :
    (clauseAt column slot).Spelled (fragment column slot).toList := by
  have hkey : isIdentifier (keyIdColumn column) = true := isIdentifier_append h rfl
  have hindex : isIdentifier (indexColumn column) = true := isIdentifier_append h rfl
  refine ⟨_, _, Comparison.spelled_toDigits hkey slot, Comparison.spelled_toDigits hindex (slot + 1), ?_⟩
  simp only [fragment, toString, Nat.toList_repr, String.toList_append, keyIdColumn, indexColumn,
    List.append_assoc]
  rfl

/-- Spelled clauses with `OR` between them are joined. -/
theorem joined_intercalate {α : Type} (clause : α → Clause) (text : α → List Char) :
    ∀ (a : α) (l : List α), (∀ b ∈ a :: l, (clause b).Spelled (text b)) →
      Joined ((a :: l).map clause) (" OR ".toList.intercalate ((a :: l).map text))
  | a, [], h => by
    rw [List.forall_mem_singleton] at h
    simpa using Joined.one h
  | a, b :: l, h => by
    rw [List.forall_mem_cons] at h
    have hrest := joined_intercalate clause text b l h.2
    have := Joined.more h.1 hrest
    simpa [List.intercalate] using this

theorem reads_predicate {column : String} (h : isIdentifier column = true) (offset : Nat) {n : Nat}
    (hn : 0 < n) : Reads (clausesFrom column offset n) (predicate column offset n) := by
  apply Reads.joined
  obtain ⟨m, rfl⟩ := Nat.exists_eq_add_of_lt hn
  rw [predicate, clausesFrom, String.toList_intercalate, List.map_map, Nat.zero_add, List.range_succ_eq_map]
  exact joined_intercalate _ _ _ _ fun i _ => spelled_fragment h _

/-- The clauses tell the column, the first placeholder and the number of keys. -/
theorem clausesFrom_inj {column column' : String} {offset offset' n n' : Nat} (hn : 0 < n)
    (h : clausesFrom column offset n = clausesFrom column' offset' n') :
    column = column' ∧ offset = offset' ∧ n = n' := by
  have hlength : n = n' := by simpa [clausesFrom] using congrArg List.length h
  subst hlength
  have hfirst : clauseAt column offset = clauseAt column' offset' := by
    have := congrArg List.head? h
    obtain ⟨m, rfl⟩ := Nat.exists_eq_add_of_lt hn
    simpa [clausesFrom, List.range_succ_eq_map] using this
  have hcolumn := congrArg (fun c => c.first.column) hfirst
  have hoffset := congrArg (fun c => c.first.placeholder) hfirst
  refine ⟨?_, hoffset, rfl⟩
  simpa [clauseAt, keyIdColumn] using hcolumn

end ColumnVault.Search
