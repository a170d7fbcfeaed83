import ColumnVault.Proofs.Search.Alternatives
import ColumnVault.Proofs.Vault.Rotation

/-! Moving the rows of a table to the default key, some of them, in any order. All the while each row is
read and found as before, and a moved row needs the default key only. -/

namespace ColumnVault.Vault

open Search

section Encrypting
variable [Zstd.Encoder]

/-! ### Moving one row -/

/-- The normal form of a text that was read from an envelope. -/
def normalText (normalizer : Normalizer) : Option ByteArray → Outcome (Option String)
  | none => return none
  | some value => do return some (← normalizer.apply (Text.Utf8.decodeLossy value))

/-- Moves a row to the default key, unless it is there: its value is encrypted again, and the row is
indexed for the text that was read from it. -/
def moveRow (v : Vault) (normalizer : Normalizer) (row : SealedValue) : Drawing SealedValue := do
  if ← v.needsRotation row.ciphertext then
    let value ← v.decrypt row.ciphertext
    let normal ← normalText normalizer value
    let ciphertext ← v.rotate row.ciphertext
    let index ← v.rotateIndex (normal.map String.toUTF8)
    return ⟨ciphertext, index, v.defaultId⟩
  else
    return row

/-- Moves rows of a table one after another, each with a source of random bytes of its own. -/
def moveRows {ι : Type} [DecidableEq ι] (v : Vault) (normalizer : Normalizer) :
    List (ι × Entropy) → (ι → SealedValue) → Outcome (ι → SealedValue)
  | [], rows => return rows
  | (i, e) :: rest, rows => do
    let row ← ((v.moveRow normalizer (rows i)).run e).1
    v.moveRows normalizer rest (Function.update rows i row)

/-- A row as it was sealed for a text under some policy, with the keys that a ring has for its id. -/
def IsSealed (ring : KeyRing) (normalizer : Normalizer) (text : String) (row : SealedValue) : Prop :=
  ∃ keys policy nonce normal, ring.get row.keyId = .ok keys ∧ normalizer.apply text = .value normal ∧
    row = ⟨some (written policy keys row.keyId text.toUTF8 nonce).bytes,
      some (keys.blindIndex normal.toUTF8), row.keyId⟩

section Open
variable {source : KeySource} {v : Vault} {ring : KeyRing} {normalizer : Normalizer} {text : String}
  {row : SealedValue}

/-- A sealed row needs to be moved exactly if its key is not the default key. -/
theorem Opened.needsRotation_sealed (h : v.Opened source ring)
    (hrow : IsSealed ring normalizer text row) :
    v.needsRotation row.ciphertext = .value (decide (row.keyId ≠ v.defaultId)) := by
  obtain ⟨keys, policy, nonce, normal, hkeys, -, hrow⟩ := hrow
  have hid : KeyId.Valid row.keyId := h.valid (h.get_eq_ok_iff.1 hkeys).1
  rw [hrow]
  exact h.needsRotation_bytes (written_wellFormed policy keys hid text.toUTF8 nonce)

/-- What a vault seals for a text is a sealed row under its default key. -/
theorem Opened.isSealed_of_sealText (h : v.Opened source ring) {e e' : Entropy}
    (run : (v.sealText (some text) normalizer).run e = (.value row, e')) :
    row.keyId = v.defaultId ∧ IsSealed ring normalizer text row := by
  obtain ⟨keys, hkeys⟩ := h.exists_get h.default_mem
  rw [sealText, Option.map_some, h.sealValue_some hkeys, Drawing.seq_assoc] at run
  obtain ⟨data, _, hdata, run⟩ := Drawing.run_bind_eq_value run
  rw [Drawing.pure_seq] at run
  obtain ⟨index, _, hindex, run⟩ := Drawing.run_bind_eq_value run
  cases run
  have hindex := Drawing.lift_eq_value hindex
  rw [h.blindIndexText_some hkeys, Outcome.bind_eq_value_iff] at hindex
  obtain ⟨normal, hnormal, hindex⟩ := hindex
  cases hindex
  obtain ⟨keys', nonce, hkeys', -, rfl⟩ := exists_written_of_encryptUnder hdata
  rw [hkeys] at hkeys'
  cases hkeys'
  exact ⟨rfl, keys, v.policy, nonce, normal, hkeys, hnormal, rfl⟩

theorem Opened.decrypt_sealed (h : v.Opened source ring) (hrow : IsSealed ring normalizer text row) :
    v.decrypt row.ciphertext = .value (some text.toUTF8) := by
  obtain ⟨keys, policy, nonce, normal, hkeys, -, hrow⟩ := hrow
  rw [hrow]
  exact (h.readsBack_written hkeys policy text.toUTF8 nonce).1

/-- A sealed row that is moved is a sealed row for the same text, under the default key. -/
theorem Opened.moveRow_sealed (h : v.Opened source ring) (hrow : IsSealed ring normalizer text row)
    {e : Entropy} (he : nonceSize ≤ e.pool.size) :
    ∃ row' e', (v.moveRow normalizer row).run e = (.value row', e') ∧
      row'.keyId = v.defaultId ∧ IsSealed ring normalizer text row' := by
  have hneeds := h.needsRotation_sealed hrow
  have hvalue := h.decrypt_sealed hrow
  rw [moveRow, hneeds, Drawing.lift_value_bind]
  by_cases hid : row.keyId = v.defaultId
  · exact ⟨row, e, by simp [hid], hid, hrow⟩
  -- under another key the row is read, and the normal form of what is read is that of its text
  obtain ⟨keys, hkeys⟩ := h.exists_get h.default_mem
  obtain ⟨_, _, _, normal, _, hnormal, hfields⟩ := hrow
  have hciphertext : row.ciphertext = some (row.ciphertext.getD ByteArray.empty) := by
    rw [hfields]
    rfl
  rw [hciphertext] at hvalue ⊢
  have hrotate := h.rotate_run hkeys hvalue he
  have hnormalText : normalText normalizer (some text.toUTF8) = .value (some normal) := by
    rw [normalText, Text.Utf8.decodeLossy_toUTF8, hnormal]
    rfl
  rw [if_pos (by simpa using hid), hvalue, Drawing.lift_value_bind, hnormalText,
    Drawing.lift_value_bind, Option.map_some, h.rotateIndex_eq hkeys, Option.map_some,
    Drawing.run_bind_value hrotate]
  exact ⟨_, _, rfl, rfl, keys, v.policy, e.next nonceSize he, normal, hkeys, hnormal, rfl⟩

/-- Along any schedule all rows stay sealed for their texts, and the rows of the schedule come under the
default key. The induction is on the schedule: each move hands a sealed table to the rest. -/
theorem Opened.moveRows_sealed (h : v.Opened source ring) {ι : Type} [DecidableEq ι]
    {text : ι → String} (schedule : List (ι × Entropy))
    (hentropy : ∀ p ∈ schedule, nonceSize ≤ p.2.pool.size) {rows : ι → SealedValue}
    (hrows : ∀ i, IsSealed ring normalizer (text i) (rows i)) :
    ∃ rows', v.moveRows normalizer schedule rows = .value rows' ∧
      (∀ i, IsSealed ring normalizer (text i) (rows' i)) ∧
      (∀ i ∉ schedule.map Prod.fst, rows' i = rows i) ∧
      ∀ i, i ∈ schedule.map Prod.fst ∨ (rows i).keyId = v.defaultId →
        (rows' i).keyId = v.defaultId := by
  induction schedule generalizing rows with
  | nil => exact ⟨rows, rfl, hrows, by simp, by simp⟩
  | cons p rest ih =>
    obtain ⟨i, e⟩ := p
    rw [List.forall_mem_cons] at hentropy
    obtain ⟨he, hrest⟩ := hentropy
    obtain ⟨row, e', hrun, hid, hrow⟩ := h.moveRow_sealed (hrows i) he
    have hupdate (j : ι) : IsSealed ring normalizer (text j) (Function.update rows i row j) := by
      by_cases hj : j = i
      · subst hj
        rwa [Function.update_self]
      · rw [Function.update_of_ne hj]
        exact hrows j
    obtain ⟨rows', hmoved, hsealed, hsame, hdefault⟩ := ih hrest hupdate
    refine ⟨rows', ?_, hsealed, ?_, ?_⟩
    · rw [moveRows, hrun, Outcome.value_bind]
      exact hmoved
    · intro j hj
      rw [List.map_cons, List.mem_cons, not_or] at hj
      rw [hsame j hj.2, Function.update_of_ne hj.1]
    · intro j hj
      refine hdefault j ?_
      by_cases hji : j = i
      · subst hji
        rw [Function.update_self]
        exact .inr hid
      · rw [Function.update_of_ne hji]
        rw [List.map_cons, List.mem_cons] at hj
        exact hj.imp_left fun hj => hj.resolve_left hji

end Open

/-! ### Moving a table -/

/-- A vault reads the text of a row, and every condition that it makes for the text is met by the row. -/
structure Keeps (v : Vault) (normalizer : Normalizer) (text : String) (row : SealedValue) : Prop where
  reads : v.decrypt row.ciphertext = .value (some text.toUTF8)
  finds : ∀ column offset, checkColumn column = .ok () →
    checkOffset offset v.activeIds.length = .ok () →
    ∃ c, v.conditionText column (some text) normalizer offset = .value c ∧ c.MetBy row

theorem Opened.keeps_sealed {source : KeySource} {v : Vault} {ring : KeyRing}
    (h : v.Opened source ring) {normalizer : Normalizer} {text : String} {row : SealedValue}
    (hrow : IsSealed ring normalizer text row) : v.Keeps normalizer text row := by
  refine ⟨h.decrypt_sealed hrow, ?_⟩
  intro column offset hcolumn hoffset
  obtain ⟨keys, policy, nonce, normal, hkeys, hnormal, hfields⟩ := hrow
  exact h.exists_conditionText hcolumn hoffset hnormal hkeys (by rw [hfields])

theorem IsSealed.of_get_eq {ring ring' : KeyRing} {normalizer : Normalizer} {text : String}
    {row : SealedValue} (hrow : IsSealed ring normalizer text row)
    (hget : ring.get row.keyId = ring'.get row.keyId) : IsSealed ring' normalizer text row := by
  obtain ⟨keys, policy, nonce, normal, hkeys, hrow⟩ := hrow
  exact ⟨keys, policy, nonce, normal, hget ▸ hkeys, hrow⟩

/-- A row that was sealed for a text by some vault, under a default key that the given vault has too. -/
def SealedFor (source : KeySource) (v : Vault) (normalizer : Normalizer) (text : String)
    (row : SealedValue) : Prop :=
  ∃ (source' : KeySource) (v' : Vault) (e : Entropy), v'.OpenOn source' ∧
    v'.defaultId ∈ v.activeIds ∧
    source'.masterKey v'.defaultId = source.masterKey v'.defaultId ∧
    ((v'.sealText (some text) normalizer).run e).1 = .value row

theorem SealedFor.isSealed {source : KeySource} {v : Vault} {ring : KeyRing}
    (h : v.Opened source ring) {normalizer : Normalizer} {text : String} {row : SealedValue}
    (hrow : SealedFor source v normalizer text row) : IsSealed ring normalizer text row := by
  obtain ⟨source', v', e, hv', hactive, hmaster, hrun⟩ := hrow
  obtain ⟨ring', hv'⟩ := hv'.opened
  obtain ⟨hid, hsealed⟩ := hv'.isSealed_of_sealText (Prod.ext hrun rfl)
  refine hsealed.of_get_eq ?_
  rw [hid]
  exact hv'.get_eq_get h hv'.default_mem hactive hmaster

/-- However far the rows of a table have been moved, and in whichever order, each of them is read and
found as it was. A row that was moved needs no further move, and it is read and found by every vault that
has the default key and no other. -/
theorem moveRows_keeps {source : KeySource} {v : Vault} (hv : v.OpenOn source)
    {normalizer : Normalizer} {ι : Type} [DecidableEq ι] {text : ι → String}
    {rows : ι → SealedValue} (hrows : ∀ i, SealedFor source v normalizer (text i) (rows i))
    {schedule : List (ι × Entropy)} (hentropy : ∀ p ∈ schedule, 24 ≤ p.2.pool.size) :
    ∃ rows', v.moveRows normalizer schedule rows = .value rows' ∧
      (∀ i, v.Keeps normalizer (text i) (rows' i)) ∧
      (∀ i ∉ schedule.map Prod.fst, rows' i = rows i) ∧
      ∀ i ∈ schedule.map Prod.fst, v.needsRotation (rows' i).ciphertext = .value false ∧
        ∀ (source' : KeySource) (v' : Vault), v'.OpenOn source' → v'.activeIds = [v.defaultId] →
          source'.masterKey v.defaultId = source.masterKey v.defaultId →
          v'.Keeps normalizer (text i) (rows' i) := by
  obtain ⟨ring, hv⟩ := hv.opened
  obtain ⟨rows', hmoved, hsealed, hsame, hdefault⟩ :=
    hv.moveRows_sealed schedule hentropy fun i => (hrows i).isSealed hv
  refine ⟨rows', hmoved, fun i => hv.keeps_sealed (hsealed i), hsame, ?_⟩
  intro i hi
  have hid := hdefault i (.inl hi)
  constructor
  · rw [hv.needsRotation_sealed (hsealed i), hid]
    simp
  · intro source' v' hv' hactive hmaster
    obtain ⟨ring', hv'⟩ := hv'.opened
    refine hv'.keeps_sealed ((hsealed i).of_get_eq ?_)
    rw [hid]
    refine hv.get_eq_get hv' hv.default_mem ?_ hmaster.symm
    rw [hactive]
    exact List.mem_singleton.2 rfl

end Encrypting

/-- Two packed rows, each under a key of its own, are moved, and then the older key is taken away. -/
theorem moveRows_keeps_twins :
    let v := Twins.vault "new" Twins.packing
    v.OpenOn (Twins.source "new") ∧ Twins.remainingVault.OpenOn Twins.remaining ∧
      ∃ rows : Fin 2 → SealedValue,
        (∀ i, SealedFor (Twins.source "new") v .email Twins.text (rows i)) ∧ rows 0 ≠ rows 1 ∧
        (∀ i, ∃ data, (rows i).ciphertext = some data ∧ Bytes.byteAt data 0 = 1) ∧
        ∃ rows', v.moveRows .email
            [(1, ⟨Bytes.replicate 24 1, ""⟩), (0, ⟨Bytes.replicate 24 2, ""⟩)] rows = .value rows' ∧
          ∀ i, Twins.remainingVault.Keeps .email Twins.text (rows' i) := by
  intro v
  have hv : v.OpenOn (Twins.source "new") := Twins.openOn (by decide) Twins.packing
  have hsealed (id : String) (hid : id ∈ ["old", "new"]) : ∃ row, row.keyId = id ∧
      (∃ data, row.ciphertext = some data ∧ Bytes.byteAt data 0 = 1) ∧
      SealedFor (Twins.source "new") v .email Twins.text row := by
    have hv' := Twins.openOn hid Twins.packing
    obtain ⟨ring', hopened⟩ := hv'.opened
    obtain ⟨keys, hkeys⟩ := hopened.exists_get hopened.default_mem
    have hnormal : Normalizer.email.apply Twins.text = .value _ := rfl
    have hrun := hopened.sealText_run hkeys hnormal (e := ⟨Bytes.replicate 24 9, ""⟩) (by decide)
    refine ⟨_, ?_, ⟨_, rfl, Twins.flag_text hid keys _⟩, _, _, _, hv', hid, ?_, congrArg Prod.fst hrun⟩
    · rfl
    · exact (Twins.masterKey_eq hid).trans (Twins.masterKey_eq hid).symm
  obtain ⟨old, hold, hflagOld, hrowOld⟩ := hsealed "old" (by decide)
  obtain ⟨new, hnew, hflagNew, hrowNew⟩ := hsealed "new" (by decide)
  have hrows (i : Fin 2) :
      SealedFor (Twins.source "new") v .email Twins.text (if i = 0 then old else new) := by
    split_ifs
    · exact hrowOld
    · exact hrowNew
  have hentropy : ∀ p ∈ [((1 : Fin 2), (⟨Bytes.replicate 24 1, ""⟩ : Entropy)),
      (0, ⟨Bytes.replicate 24 2, ""⟩)], 24 ≤ p.2.pool.size := by decide
  obtain ⟨rows', hmoved, -, -, hdone⟩ := moveRows_keeps hv hrows hentropy
  refine ⟨hv, Twins.openOn_remaining, _, hrows, ?_, fun i => ?_, rows', hmoved, ?_⟩
  · show old ≠ new
    rintro rfl
    rw [hold] at hnew
    exact absurd hnew (by decide)
  · split_ifs
    · exact hflagOld
    · exact hflagNew
  · intro i
    have hmem : i ∈ ([1, 0] : List (Fin 2)) := by
      revert i
      decide
    refine (hdone i hmem).2 _ _ Twins.openOn_remaining rfl ?_
    exact (Twins.masterKey_eq (by decide)).symm

end ColumnVault.Vault
