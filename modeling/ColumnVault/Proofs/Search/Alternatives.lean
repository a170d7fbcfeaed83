import ColumnVault.Proofs.Vault.Opening
import ColumnVault.Search.Condition
import ColumnVault.Vault.Seal

/-! The alternatives of a condition: one for each active key, with the index that the value has under
that key. A row meets the condition if its key and its index are those of one alternative. -/

namespace ColumnVault

namespace Search

/-- The parameters of a condition two by two, as its alternatives take them. -/
def alternatives : List Parameter → List (String × ByteArray)
  | .keyId id :: .index digest :: rest => (id, digest) :: alternatives rest
  | _ => []

theorem alternatives_flatMap (indexes : List (String × ByteArray)) :
    alternatives (indexes.flatMap fun (id, digest) => [.keyId id, .index digest]) = indexes := by
  induction indexes with
  | nil => rfl
  | cons p rest ih =>
    rw [List.flatMap_cons]
    exact congrArg (p :: ·) ih

/-- The key and the index of a row are those of an alternative. -/
def Condition.MetBy (c : Condition) (row : SealedValue) : Prop :=
  ∃ digest, row.blindIndex = some digest ∧ (row.keyId, digest) ∈ alternatives c.parameters

end Search

namespace Vault

open Search

/-- The indexes are those of all the keys, in their order. -/
theorem indexesUnder_eq_ok_iff {ring : KeyRing} {value : ByteArray} {ids : List String}
    {indexes : List (String × ByteArray)} :
    indexesUnder ring value ids = .ok indexes ↔ indexes.map Prod.fst = ids ∧
      ∀ p ∈ indexes, ∃ keys, ring.get p.1 = .ok keys ∧ p.2 = keys.blindIndex value := by
  induction ids generalizing indexes with
  | nil =>
    rw [indexesUnder, Except.ok.injEq, List.map_eq_nil_iff]
    constructor
    · rintro rfl
      simp
    · rintro ⟨rfl, -⟩
      rfl
  | cons id rest ih =>
    rw [indexesUnder, bind_eq_ok_iff]
    constructor
    · rintro ⟨keys, hkeys, h⟩
      obtain ⟨more, hmore, h⟩ := bind_eq_ok h
      obtain ⟨hids, hget⟩ := ih.1 hmore
      cases h
      refine ⟨congrArg (id :: ·) hids, ?_⟩
      rw [List.forall_mem_cons]
      exact ⟨⟨keys, hkeys, rfl⟩, hget⟩
    · rintro ⟨hids, hget⟩
      obtain ⟨⟨i, digest⟩, more, rfl, hid, hmore⟩ := List.map_eq_cons_iff.1 hids
      subst hid
      rw [List.forall_mem_cons] at hget
      obtain ⟨⟨keys, hkeys, hdigest⟩, hget⟩ := hget
      refine ⟨keys, hkeys, ?_⟩
      dsimp only at hdigest
      rw [ih.2 ⟨hmore, hget⟩, ok_bind, hdigest]
      rfl

/-- The index that a list of ids gives for one of them is the digest under its keys. -/
theorem digest_of_indexesUnder {ring : KeyRing} {value : ByteArray} {ids : List String}
    {indexes : List (String × ByteArray)} (hindexes : indexesUnder ring value ids = .ok indexes)
    {id : String} {keys : Subkeys} (hkeys : ring.get id = .ok keys) {p : String × ByteArray}
    (hp : p ∈ indexes) (hid : p.1 = id) : p.2 = keys.blindIndex value := by
  obtain ⟨keys', hkeys', hdigest⟩ := (indexesUnder_eq_ok_iff.1 hindexes).2 p hp
  rw [hid, hkeys] at hkeys'
  cases hkeys'
  exact hdigest

theorem exists_indexesUnder {ring : KeyRing} (value : ByteArray) {ids : List String}
    (h : ∀ id ∈ ids, ∃ keys, ring.get id = .ok keys) :
    ∃ indexes, indexesUnder ring value ids = .ok indexes := by
  induction ids with
  | nil => exact ⟨[], rfl⟩
  | cons id rest ih =>
    rw [List.forall_mem_cons] at h
    obtain ⟨⟨keys, hkeys⟩, hrest⟩ := h
    obtain ⟨more, hmore⟩ := ih hrest
    refine ⟨(id, keys.blindIndex value) :: more, ?_⟩
    rw [indexesUnder, hkeys, ok_bind, hmore]
    rfl

section Open
variable {source : KeySource} {v : Vault} {ring : KeyRing}

theorem Opened.exists_indexes (h : v.Opened source ring) (value : ByteArray) :
    ∃ indexes, indexesUnder ring value v.activeIds = .ok indexes :=
  exists_indexesUnder value fun _ hid => h.exists_get hid

/-- Where the column and the offset are accepted there is a condition, and its alternatives are the
indexes under the active keys. -/
theorem Opened.condition_some (h : v.Opened source ring) {column : String} {offset : Nat}
    (hcolumn : checkColumn column = .ok ()) (hoffset : checkOffset offset v.activeIds.length = .ok ())
    (value : ByteArray) :
    ∃ indexes, indexesUnder ring value v.activeIds = .ok indexes ∧
      v.condition column (some value) offset = .value ⟨predicate column offset indexes.length,
        indexes.flatMap fun (id, digest) => [.keyId id, .index digest]⟩ := by
  obtain ⟨indexes, hindexes⟩ := h.exists_indexes value
  refine ⟨indexes, hindexes, ?_⟩
  rw [condition, h.ring_eq, Outcome.value_bind, hcolumn, ok_bind, hoffset]
  simp only [hindexes]
  rfl

theorem Opened.conditionText_some (h : v.Opened source ring) (column : String) {text normal : String}
    {normalizer : Normalizer} (hnormal : normalizer.apply text = .value normal) (offset : Nat) :
    v.conditionText column (some text) normalizer offset =
      v.condition column (some normal.toUTF8) offset := by
  rw [conditionText, h.ring_eq, Outcome.value_bind]
  simp only [hnormal, Outcome.value_bind]
  rfl

/-- A row that is indexed for the normal form of a text under an active key meets the condition for
the text. -/
theorem Opened.exists_conditionText (h : v.Opened source ring) {column : String} {offset : Nat}
    (hcolumn : checkColumn column = .ok ()) (hoffset : checkOffset offset v.activeIds.length = .ok ())
    {text normal : String} {normalizer : Normalizer} (hnormal : normalizer.apply text = .value normal)
    {row : SealedValue} {keys : Subkeys} (hkeys : ring.get row.keyId = .ok keys)
    (hrow : row.blindIndex = some (keys.blindIndex normal.toUTF8)) :
    ∃ c, v.conditionText column (some text) normalizer offset = .value c ∧ c.MetBy row := by
  obtain ⟨indexes, hindexes, hcondition⟩ := h.condition_some hcolumn hoffset normal.toUTF8
  refine ⟨_, (h.conditionText_some column hnormal offset).trans hcondition, _, hrow, ?_⟩
  rw [alternatives_flatMap]
  have hactive : row.keyId ∈ indexes.map Prod.fst := by
    rw [(indexesUnder_eq_ok_iff.1 hindexes).1]
    exact (h.get_eq_ok_iff.1 hkeys).1
  obtain ⟨p, hmem, hid⟩ := List.mem_map.1 hactive
  rw [← digest_of_indexesUnder hindexes hkeys hmem hid, ← hid]
  exact hmem

end Open

end Vault

end ColumnVault
