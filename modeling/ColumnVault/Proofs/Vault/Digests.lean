import ColumnVault.Proofs.Search.Meaning
import ColumnVault.Proofs.Vault.Construction
import ColumnVault.Proofs.Vault.Migration

/-! The digest of a value under a key is one, whichever operation gives it: the index under a named key, the
indexes under all keys, a parameter of a condition, and, for the default key, the index of the value, of the
text that has it as its normal form, of a moved row and of a sealed one. So what was sealed with a
normalizer is found with it. -/

namespace ColumnVault

namespace Search

/-- An id is among the parameters of a condition, and wherever it is, the digest stands behind it. -/
def Condition.Pairs (c : Condition) (id : String) (digest : ByteArray) : Prop :=
  (∃ i : Nat, c.parameters[i]? = some (.keyId id)) ∧
    ∀ i : Nat, c.parameters[i]? = some (.keyId id) → c.parameters[i + 1]? = some (.index digest)

/-- The columns of a row hold the key id and the index of a sealed value. -/
def Stores (stored : Row) (column : String) (row : SealedValue) : Prop :=
  stored (keyIdColumn column) = some (.keyId row.keyId) ∧
    stored (indexColumn column) = row.blindIndex.map .index

theorem pairs_parametersOf {indexes : List (String × ByteArray)} {id : String} {digest : ByteArray}
    (hid : id ∈ indexes.map Prod.fst) (hdigest : ∀ p ∈ indexes, p.1 = id → p.2 = digest)
    (predicate : String) : (⟨predicate, parametersOf indexes⟩ : Condition).Pairs id digest := by
  constructor
  · obtain ⟨p, hp, rfl⟩ := List.mem_map.1 hid
    obtain ⟨i, hi⟩ := List.mem_iff_getElem?.1 hp
    refine ⟨2 * i, ?_⟩
    rw [(getElem?_parametersOf indexes i).1, hi]
    rfl
  · intro i hi
    -- an id stands at an even place only, since digests stand at the odd ones
    obtain ⟨j, rfl | rfl⟩ : ∃ j, i = 2 * j ∨ i = 2 * j + 1 := ⟨i / 2, by omega⟩
    · obtain ⟨hkey, hindex⟩ := getElem?_parametersOf indexes j
      obtain ⟨p, hp, hid⟩ := Option.map_eq_some_iff.1 (hkey.symm.trans hi)
      cases hid
      rw [hindex, hp, Option.map_some, hdigest p (List.mem_of_getElem? hp) rfl]
    · obtain ⟨p, -, hid⟩ := Option.map_eq_some_iff.1
        ((getElem?_parametersOf indexes j).2.symm.trans hi)
      cases hid

end Search

namespace Vault

open Search

/-- What the operations that take a key or all keys make of a value, and of a text that has it as its normal
form: one digest under the key of an id. -/
structure DigestUnder (v : Vault) (normalizer : Normalizer) (text : String) (value : ByteArray)
    (id : String) (digest : ByteArray) : Prop where
  withKey : v.blindIndexWithKey id (some value) = .value (some digest)
  all : ∃ indexes, v.blindIndexAll (some value) = .value (some indexes) ∧
    indexes.map Prod.fst = v.activeIds ∧ indexes.lookup id = some digest
  conditions : ∀ column offset, checkColumn column = .ok () →
    checkOffset offset v.activeIds.length = .ok () →
    ∃ c, v.condition column (some value) offset = .value c ∧
      v.conditionText column (some text) normalizer offset = .value c ∧ c.Pairs id digest

/-- What the operations with the default key make of them: one digest. -/
structure DefaultDigest [Zstd.Encoder] (v : Vault) (normalizer : Normalizer) (text : String)
    (value digest : ByteArray) : Prop where
  blindIndex : v.blindIndex (some value) = .value (some digest)
  blindIndexText : v.blindIndexText (some text) normalizer = .value (some digest)
  rotateIndex : v.rotateIndex (some value) = .value (some digest)
  /-- Sealing the text succeeds where a nonce can be drawn. -/
  seals : ∀ e, 24 ≤ e.pool.size →
    ∃ row, ((v.sealText (some text) normalizer).run e).1 = .value row
  sealed : ∀ e row, ((v.sealText (some text) normalizer).run e).1 = .value row →
    row.blindIndex = some digest ∧ row.keyId = v.defaultId ∧
      ∃ data, row.ciphertext = some data ∧ Envelope.peekKeyId data = .ok v.defaultId

section Open
variable {source : KeySource} {v : Vault} {ring : KeyRing} {keys : Subkeys} {id : String}
  {normalizer : Normalizer} {text normal : String}

theorem lookup_indexesUnder {value : ByteArray} {ids : List String}
    {indexes : List (String × ByteArray)} (hindexes : indexesUnder ring value ids = .ok indexes)
    (hkeys : ring.get id = .ok keys) (hid : id ∈ ids) :
    indexes.lookup id = some (keys.blindIndex value) := by
  cases hl : indexes.lookup id with
  | none =>
    rw [← (indexesUnder_eq_ok_iff.1 hindexes).1] at hid
    obtain ⟨p, hp, rfl⟩ := List.mem_map.1 hid
    exact absurd (List.lookup_eq_none_iff.1 hl p hp) (by simp)
  | some digest =>
    obtain ⟨before, after, heq, -⟩ := List.lookup_eq_some_iff.1 hl
    have hmem : (id, digest) ∈ indexes := by simp [heq]
    exact congrArg some (digest_of_indexesUnder hindexes hkeys hmem rfl)

theorem Opened.digestUnder (h : v.Opened source ring) (hkeys : ring.get id = .ok keys)
    (hnormal : normalizer.apply text = .value normal) :
    v.DigestUnder normalizer text normal.toUTF8 id (keys.blindIndex normal.toUTF8) := by
  have hid : id ∈ v.activeIds := (h.get_eq_ok_iff.1 hkeys).1
  refine ⟨h.blindIndexWithKey_eq hkeys _, ?_, fun column offset hcolumn hoffset => ?_⟩
  · obtain ⟨indexes, hindexes⟩ := h.exists_indexes normal.toUTF8
    refine ⟨indexes, ?_, (indexesUnder_eq_ok_iff.1 hindexes).1, lookup_indexesUnder hindexes hkeys hid⟩
    rw [blindIndexAll, h.ring_eq, Outcome.value_bind]
    dsimp only
    rw [hindexes]
    rfl
  · obtain ⟨indexes, hindexes, hcondition⟩ := h.condition_some hcolumn hoffset normal.toUTF8
    refine ⟨_, hcondition, (h.conditionText_some column hnormal offset).trans hcondition, ?_⟩
    rw [← (indexesUnder_eq_ok_iff.1 hindexes).1] at hid
    exact pairs_parametersOf hid (fun p => digest_of_indexesUnder hindexes hkeys) _

variable [Zstd.Encoder]

theorem Opened.defaultDigest (h : v.Opened source ring) (hkeys : ring.get v.defaultId = .ok keys)
    (hnormal : normalizer.apply text = .value normal) :
    v.DefaultDigest normalizer text normal.toUTF8 (keys.blindIndex normal.toUTF8) := by
  refine ⟨h.blindIndex_eq hkeys _, ?_, h.rotateIndex_eq hkeys _, fun e he => ?_, fun e row hrun => ?_⟩
  · rw [h.blindIndexText_some hkeys, hnormal, Outcome.value_bind]
  · exact ⟨_, congrArg Prod.fst (h.sealText_run hkeys hnormal he)⟩
  · obtain ⟨hid, keys', policy, nonce, normal', hkeys', hnormal', hrow⟩ :=
      h.isSealed_of_sealText (Prod.ext hrun rfl)
    rw [hid, hkeys] at hkeys'
    cases hkeys'
    cases hnormal.symm.trans hnormal'
    have hwell := written_wellFormed policy keys (h.valid h.default_mem) text.toUTF8 nonce
    rw [hrow, hid]
    exact ⟨rfl, rfl, _, rfl, Envelope.peekKeyId_bytes hwell⟩

/-- A row that stores what was sealed for a text makes every condition for the text true. -/
theorem Opened.trueOn_of_sealText (h : v.Opened source ring) {e e' : Entropy} {row : SealedValue}
    (hrun : (v.sealText (some text) normalizer).run e = (.value row, e')) {column : String}
    {offset : Nat} (hcolumn : checkColumn column = .ok ())
    (hoffset : checkOffset offset v.activeIds.length = .ok ()) :
    ∃ c, v.conditionText column (some text) normalizer offset = .value c ∧
      ∀ stored, Stores stored column row → c.TrueOn offset stored := by
  obtain ⟨hid, keys, policy, nonce, normal, hkeys, hnormal, hrow⟩ := h.isSealed_of_sealText hrun
  obtain ⟨c, hc, -, hmeans⟩ := h.condition_means hcolumn hoffset normal.toUTF8
  refine ⟨c, (h.conditionText_some column hnormal offset).trans hc, fun stored hstored => ?_⟩
  obtain ⟨hkeyId, hindex⟩ := hstored
  rw [hrow] at hindex
  refine (hmeans.trueOn stored).2 ⟨row.keyId, (h.get_eq_ok_iff.1 hkeys).1, hkeyId, _, ?_, hindex⟩
  exact h.digest? hkeys _

end Open

/-- For a text and the normal form that a normalizer gives it, and for an active key, all operations agree on
one digest, which is that of the normal form under the index key; the indexes under all keys are those of
the active ids, each once. What is sealed for the text names the default key in its row and in its envelope,
and makes every condition for the text true. -/
theorem digest_paths_agree [Zstd.Encoder] {source : KeySource} {v : Vault} (hv : v.OpenOn source)
    {normalizer : Normalizer} {text normal : String} (hnormal : normalizer.apply text = .value normal) :
    v.activeIds.Nodup ∧
    (∀ id ∈ v.activeIds, ∃ digest, source.digest? id normal.toUTF8 = some digest ∧
      v.DigestUnder normalizer text normal.toUTF8 id digest ∧
      (id = v.defaultId → v.DefaultDigest normalizer text normal.toUTF8 digest)) ∧
    ∀ e row, ((v.sealText (some text) normalizer).run e).1 = .value row →
      ∀ column offset, checkColumn column = .ok () → checkOffset offset v.activeIds.length = .ok () →
        ∃ c, v.conditionText column (some text) normalizer offset = .value c ∧
          ∀ stored, Stores stored column row → c.TrueOn offset stored := by
  obtain ⟨ring, h⟩ := hv.opened
  refine ⟨hv.nodup_activeIds, fun id hid => ?_, fun e row hrun column offset hcolumn hoffset => ?_⟩
  · obtain ⟨keys, hkeys⟩ := h.exists_get hid
    refine ⟨_, h.digest? hkeys _, h.digestUnder hkeys hnormal, ?_⟩
    rintro rfl
    exact h.defaultDigest hkeys hnormal
  · exact h.trueOn_of_sealText (Prod.ext hrun rfl) hcolumn hoffset

/-- A text with blanks and a capital, two keys and a late offset. -/
theorem digest_paths_agree_twins :
    let v := Twins.vault "new" .initial
    v.OpenOn (Twins.source "new") ∧ Normalizer.trim.apply " Al " = .value "Al" ∧
      checkColumn "name" = .ok () ∧ checkOffset 65532 2 = .ok () ∧
      ∃ digest row c, v.blindIndexWithKey "new" (some "Al".toUTF8) = .value (some digest) ∧
        v.conditionText "name" (some " Al ") .trim 65532 = .value c ∧ c.Pairs "new" digest ∧
        ((v.sealText (some " Al ") .trim).run ⟨Bytes.replicate 24 9, ""⟩).1 = .value row ∧
        row.blindIndex = some digest ∧ ∀ stored, Stores stored "name" row → c.TrueOn 65532 stored := by
  intro v
  have hv : v.OpenOn (Twins.source "new") := Twins.openOn (by decide) .initial
  have hnormal : Normalizer.trim.apply " Al " = .value "Al" := by decide
  have hcolumn : checkColumn "name" = .ok () := by decide
  have hoffset : checkOffset 65532 2 = .ok () := by decide
  obtain ⟨-, hpaths, hfound⟩ := digest_paths_agree hv hnormal
  obtain ⟨digest, -, hunder, hdefault⟩ := hpaths "new" (by decide)
  have hdefault := hdefault rfl
  obtain ⟨row, hrow⟩ := hdefault.seals ⟨Bytes.replicate 24 9, ""⟩ (by decide)
  obtain ⟨c, -, hc, hpairs⟩ := hunder.conditions "name" 65532 hcolumn hoffset
  obtain ⟨c', hc', htrue⟩ := hfound _ row hrow "name" 65532 hcolumn hoffset
  cases hc.symm.trans hc'
  exact ⟨hv, hnormal, hcolumn, hoffset, digest, row, c, hunder.withKey, hc, hpairs, hrow,
    (hdefault.sealed _ row hrow).1, htrue⟩

end Vault

end ColumnVault
