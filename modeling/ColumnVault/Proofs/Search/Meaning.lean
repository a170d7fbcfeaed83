import ColumnVault.Proofs.Search.Alternatives
import ColumnVault.Proofs.Search.Grammar

/-! What a search condition means: its predicate is read by the grammar, its parameters are bound to the
placeholders, and the rows on which it is then true are those whose key is active and whose index is the
digest of the value under that key. -/

namespace ColumnVault

/-- The digest of a value under the index key that comes from the master key of an id. -/
def KeySource.digest? (source : KeySource) (id : String) (value : ByteArray) : Option ByteArray :=
  match source.masterKey id with
  | .ok master => some (Crypto.Hmac.sha256 (Subkeys.ofMaster master).index value)
  | .error _ => none

namespace Search

/-- The values in the columns of a row. -/
abbrev Row := String → Option Parameter

/-- What is bound to a placeholder when the parameters start at `offset`. -/
def Condition.bound (c : Condition) (offset placeholder : Nat) : Option Parameter :=
  if offset ≤ placeholder then c.parameters[placeholder - offset]? else none

/-- The column has a value, and it is that of the placeholder. -/
def Comparison.Holds (c : Comparison) (row : Row) (bound : Nat → Option Parameter) : Prop :=
  ∃ p, row c.column = some p ∧ bound c.placeholder = some p

def Clause.Holds (c : Clause) (row : Row) (bound : Nat → Option Parameter) : Prop :=
  c.first.Holds row bound ∧ c.second.Holds row bound

/-- One of the clauses that the predicate is read as holds. -/
def Condition.TrueOn (c : Condition) (offset : Nat) (row : Row) : Prop :=
  ∃ clauses, Reads clauses c.predicate ∧ ∃ clause ∈ clauses, clause.Holds row (c.bound offset)

theorem not_trueOn_never (offset : Nat) (row : Row) : ¬ Condition.never.TrueOn offset row := by
  rintro ⟨clauses, hreads, clause, hclause, -⟩
  rw [hreads.unique .never] at hclause
  exact absurd hclause List.not_mem_nil

/-! ### The parameters -/

/-- An id and a digest for each key. -/
def parametersOf (indexes : List (String × ByteArray)) : List Parameter :=
  indexes.flatMap fun (id, digest) => [.keyId id, .index digest]

theorem length_parametersOf (indexes : List (String × ByteArray)) :
    (parametersOf indexes).length = 2 * indexes.length := by
  induction indexes with
  | nil => rfl
  | cons p rest ih =>
    rw [parametersOf, List.flatMap_cons, List.length_append, ← parametersOf, ih, List.length_cons]
    simp only [List.length_cons, List.length_nil]
    omega

theorem getElem?_parametersOf (indexes : List (String × ByteArray)) (i : Nat) :
    (parametersOf indexes)[2 * i]? = indexes[i]?.map (.keyId ·.1) ∧
      (parametersOf indexes)[2 * i + 1]? = indexes[i]?.map (.index ·.2) := by
  induction indexes generalizing i with
  | nil => exact ⟨rfl, rfl⟩
  | cons p rest ih =>
    obtain ⟨id, digest⟩ := p
    have hcons : parametersOf ((id, digest) :: rest) =
        .keyId id :: .index digest :: parametersOf rest := rfl
    rw [hcons]
    cases i with
    | zero => exact ⟨rfl, rfl⟩
    | succ i => exact ih i

/-- The rows that meet a condition with these parameters: those that have the id and the digest of one
key. -/
theorem trueOn_iff {column : String} (hcolumn : isIdentifier column = true) (offset : Nat)
    {indexes : List (String × ByteArray)} (hindexes : indexes ≠ []) (row : Row) :
    (⟨predicate column offset indexes.length, parametersOf indexes⟩ : Condition).TrueOn offset row ↔
      ∃ p ∈ indexes, row (keyIdColumn column) = some (.keyId p.1) ∧
        row (indexColumn column) = some (.index p.2) := by
  set c : Condition := ⟨predicate column offset indexes.length, parametersOf indexes⟩
  have hreads := reads_predicate hcolumn offset (List.length_pos_iff.2 hindexes)
  -- the clause of the `i`-th key compares with the parameters at `2 * i` and behind it
  have hclause (i : Nat) (hi : i < indexes.length) :
      (clauseAt column (offset + i * 2)).Holds row (c.bound offset) ↔
        row (keyIdColumn column) = some (.keyId indexes[i].1) ∧
          row (indexColumn column) = some (.index indexes[i].2) := by
    obtain ⟨hkey, hindex⟩ := getElem?_parametersOf indexes i
    rw [List.getElem?_eq_getElem hi, Option.map_some] at hkey hindex
    have hfirst : c.bound offset (offset + i * 2) = some (.keyId indexes[i].1) := by
      rw [Condition.bound, if_pos (Nat.le_add_right _ _), Nat.add_sub_cancel_left, Nat.mul_comm]
      exact hkey
    have hsecond : c.bound offset (offset + i * 2 + 1) = some (.index indexes[i].2) := by
      rw [Condition.bound, if_pos (by omega), Nat.add_assoc, Nat.add_sub_cancel_left, Nat.mul_comm]
      exact hindex
    simp [Clause.Holds, Comparison.Holds, clauseAt, hfirst, hsecond]
  constructor
  · rintro ⟨clauses, hread, clause, hmem, hholds⟩
    rw [hread.unique hreads, clausesFrom, List.mem_map] at hmem
    obtain ⟨i, hi, rfl⟩ := hmem
    rw [List.mem_range] at hi
    exact ⟨indexes[i], List.getElem_mem hi, (hclause i hi).1 hholds⟩
  · rintro ⟨p, hp, hrow⟩
    obtain ⟨i, hi, rfl⟩ := List.mem_iff_getElem.1 hp
    exact ⟨_, hreads, _, List.mem_map.2 ⟨i, List.mem_range.2 hi, rfl⟩, (hclause i hi).2 hrow⟩

/-- What a condition says of a value in a column, over the ids of the active keys. -/
structure Condition.Means (c : Condition) (source : KeySource) (ids : List String) (column : String)
    (offset : Nat) (value : ByteArray) : Prop where
  /-- The predicate is read as one clause for each id in order, and in no other way. -/
  reads : ∀ clauses, Reads clauses c.predicate ↔ clauses = clausesFrom column offset ids.length
  length_parameters : c.parameters.length = 2 * ids.length
  /-- Two parameters for each id: the id, and the digest of the value under its key. -/
  parameters : ∀ i id, ids[i]? = some id → ∃ digest, source.digest? id value = some digest ∧
    c.parameters[2 * i]? = some (.keyId id) ∧ c.parameters[2 * i + 1]? = some (.index digest)
  trueOn : ∀ row, c.TrueOn offset row ↔ ∃ id ∈ ids, row (keyIdColumn column) = some (.keyId id) ∧
    ∃ digest, source.digest? id value = some digest ∧ row (indexColumn column) = some (.index digest)

end Search

namespace Vault

open Search

section Open
variable {source : KeySource} {v : Vault} {ring : KeyRing}

theorem Opened.digest? (h : v.Opened source ring) {id : String} {keys : Subkeys}
    (hkeys : ring.get id = .ok keys) (value : ByteArray) :
    source.digest? id value = some (keys.blindIndex value) := by
  obtain ⟨-, master, hmaster, -, rfl⟩ := h.get_eq_ok_iff.1 hkeys
  rw [KeySource.digest?, hmaster]
  rfl

theorem Opened.digest?_of_mem (h : v.Opened source ring) {value : ByteArray} {ids : List String}
    {indexes : List (String × ByteArray)} (hindexes : indexesUnder ring value ids = .ok indexes)
    {p : String × ByteArray} (hp : p ∈ indexes) : source.digest? p.1 value = some p.2 := by
  obtain ⟨keys, hkeys, hdigest⟩ := (indexesUnder_eq_ok_iff.1 hindexes).2 p hp
  rw [h.digest? hkeys, hdigest]

theorem Opened.activeIds_ne_nil (h : v.Opened source ring) : v.activeIds ≠ [] :=
  List.ne_nil_of_mem h.default_mem

/-- A condition is made only where the column and the offset are accepted, which is before the value is
looked at. -/
theorem Opened.checks_of_condition (h : v.Opened source ring) {column : String}
    {value : Option ByteArray} {offset : Nat} {c : Condition}
    (hc : v.condition column value offset = .value c) :
    checkColumn column = .ok () ∧ checkOffset offset v.activeIds.length = .ok () := by
  rw [condition, h.ring_eq, Outcome.value_bind] at hc
  split at hc
  · cases hc
  · next hchecks =>
    obtain ⟨⟨⟩, hcolumn, hoffset⟩ := bind_eq_ok hchecks
    exact ⟨hcolumn, hoffset⟩

theorem Opened.condition_none (h : v.Opened source ring) {column : String} {offset : Nat}
    (hcolumn : checkColumn column = .ok ()) (hoffset : checkOffset offset v.activeIds.length = .ok ()) :
    v.condition column none offset = .value .never := by
  rw [condition, h.ring_eq, Outcome.value_bind, hcolumn, ok_bind, hoffset]
  rfl

theorem Opened.condition_means (h : v.Opened source ring) {column : String} {offset : Nat}
    (hcolumn : checkColumn column = .ok ()) (hoffset : checkOffset offset v.activeIds.length = .ok ())
    (value : ByteArray) : ∃ c, v.condition column (some value) offset = .value c ∧
      c.predicate = predicate column offset v.activeIds.length ∧
      c.Means source v.activeIds column offset value := by
  obtain ⟨indexes, hindexes, hcondition⟩ := h.condition_some hcolumn hoffset value
  obtain ⟨hids, -⟩ := indexesUnder_eq_ok_iff.1 hindexes
  have hlength : indexes.length = v.activeIds.length := by rw [← hids, List.length_map]
  have hidentifier := checkColumn_eq_ok_iff.1 hcolumn
  have hne : indexes ≠ [] := by
    rintro rfl
    exact h.activeIds_ne_nil hids.symm
  refine ⟨_, hcondition, by rw [hlength], ?_, ?_, ?_, ?_⟩
  · intro clauses
    have hreads := reads_predicate hidentifier offset (List.length_pos_iff.2 hne)
    rw [← hlength]
    exact ⟨fun hread => hread.unique hreads, fun heq => heq ▸ hreads⟩
  · rw [← hlength]
    exact length_parametersOf indexes
  · intro i id hid
    rw [← hids, List.getElem?_map, Option.map_eq_some_iff] at hid
    obtain ⟨p, hp, rfl⟩ := hid
    obtain ⟨hkey, hindex⟩ := getElem?_parametersOf indexes i
    rw [hp, Option.map_some] at hkey hindex
    exact ⟨p.2, h.digest?_of_mem hindexes (List.mem_of_getElem? hp), hkey, hindex⟩
  · intro row
    refine (trueOn_iff hidentifier offset hne row).trans ?_
    constructor
    · rintro ⟨p, hp, hkey, hindex⟩
      have hmem : p.1 ∈ v.activeIds := hids ▸ List.mem_map_of_mem hp
      exact ⟨p.1, hmem, hkey, p.2, h.digest?_of_mem hindexes hp, hindex⟩
    · rintro ⟨id, hid, hkey, digest, hdigest, hindex⟩
      rw [← hids] at hid
      obtain ⟨p, hp, rfl⟩ := List.mem_map.1 hid
      rw [h.digest?_of_mem hindexes hp] at hdigest
      cases hdigest
      exact ⟨p, hp, hkey, hindex⟩

/-- A predicate with clauses tells for which column it was made, where its placeholders start, and for how
many keys. -/
theorem Opened.predicate_of_condition (h : v.Opened source ring) {column : String}
    {value : Option ByteArray} {offset : Nat} {c : Condition}
    (hc : v.condition column value offset = .value c) (hne : c.predicate ≠ "FALSE") :
    Reads (clausesFrom column offset v.activeIds.length) c.predicate := by
  obtain ⟨hcolumn, hoffset⟩ := h.checks_of_condition hc
  cases value with
  | none =>
    rw [h.condition_none hcolumn hoffset] at hc
    cases hc
    exact absurd rfl hne
  | some value =>
    obtain ⟨c', hc', -, hmeans⟩ := h.condition_means hcolumn hoffset value
    rw [hc] at hc'
    cases hc'
    exact (hmeans.reads _).2 rfl

end Open

/-- For a value, the condition says of a row that its key is active and that its index is the digest of
the value under that key. For a missing value no row meets it. Two conditions with one text, other than
that for a missing value, are over one column, start at one placeholder and have as many keys. -/
theorem condition_meaning {source : KeySource} {v : Vault} (hv : v.OpenOn source) {column : String}
    {offset : Nat} (hcolumn : checkColumn column = .ok ())
    (hoffset : checkOffset offset v.activeIds.length = .ok ()) :
    (∀ value, ∃ c, v.condition column (some value) offset = .value c ∧
      c.Means source v.activeIds column offset value) ∧
    (∃ c, v.condition column none offset = .value c ∧ c.predicate = "FALSE" ∧ c.parameters = [] ∧
      ∀ row, ¬ c.TrueOn offset row) ∧
    ∀ (source' : KeySource) (v' : Vault), v'.OpenOn source' →
      ∀ (column' : String) (offset' : Nat) (value value' : Option ByteArray) (c c' : Condition),
        v.condition column value offset = .value c →
        v'.condition column' value' offset' = .value c' → c.predicate = c'.predicate →
        c.predicate ≠ "FALSE" →
        column = column' ∧ offset = offset' ∧ v.activeIds.length = v'.activeIds.length := by
  obtain ⟨ring, hv⟩ := hv.opened
  refine ⟨?_, ⟨_, hv.condition_none hcolumn hoffset, rfl, rfl, not_trueOn_never offset⟩, ?_⟩
  · intro value
    obtain ⟨c, hc, -, hmeans⟩ := hv.condition_means hcolumn hoffset value
    exact ⟨c, hc, hmeans⟩
  · intro source' v' hv' column' offset' value value' c c' hc hc' htext hne
    obtain ⟨ring', hv'⟩ := hv'.opened
    have hreads := hv.predicate_of_condition hc hne
    have hreads' := hv'.predicate_of_condition hc' (htext ▸ hne)
    rw [← htext] at hreads'
    exact clausesFrom_inj (List.length_pos_iff.2 hv.activeIds_ne_nil) (hreads.unique hreads')

/-- Two keys and a late offset: a row under the newer key with the right digest meets the condition, and
with another digest it does not. -/
theorem condition_meaning_twins :
    (Twins.vault "new" .initial).OpenOn (Twins.source "new") ∧ checkColumn "email" = .ok () ∧
      checkOffset 65532 2 = .ok () ∧
      ∃ c digest, (Twins.vault "new" .initial).condition "email" (some "a".toUTF8) 65532 = .value c ∧
        (Twins.source "new").digest? "new" "a".toUTF8 = some digest ∧
        ∀ index, c.TrueOn 65532 (fun name => if name = "email_key_id" then some (.keyId "new")
          else if name = "email_idx" then some (.index index) else none) ↔ index = digest := by
  have hv : (Twins.vault "new" .initial).OpenOn (Twins.source "new") :=
    Twins.openOn (by decide) .initial
  have hcolumn : checkColumn "email" = .ok () := by decide
  have hoffset : checkOffset 65532 2 = .ok () := by decide
  obtain ⟨c, hc, hmeans⟩ := (condition_meaning hv hcolumn hoffset).1 "a".toUTF8
  have hmaster : (Twins.source "new").masterKey "new" = .ok Twins.master :=
    Twins.masterKey_eq (by decide)
  have hdigest : (Twins.source "new").digest? "new" "a".toUTF8 =
      some (Crypto.Hmac.sha256 (Subkeys.ofMaster Twins.master).index "a".toUTF8) := by
    rw [KeySource.digest?, hmaster]
  refine ⟨hv, hcolumn, hoffset, c, _, hc, hdigest, ?_⟩
  intro index
  rw [hmeans.trueOn]
  constructor
  · rintro ⟨id, -, hid, digest, hdigest', hindex⟩
    cases hid
    cases hindex
    exact Option.some.inj (hdigest'.symm.trans hdigest)
  · rintro rfl
    exact ⟨"new", by decide, rfl, _, hdigest, rfl⟩

end Vault

end ColumnVault
