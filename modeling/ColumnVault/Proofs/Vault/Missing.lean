import ColumnVault.Proofs.Search.Alternatives
import ColumnVault.Proofs.Vault.Authentication
import ColumnVault.Proofs.Vault.Closing
import ColumnVault.Proofs.Vault.Written

/-! Missing values. What comes of a missing value is missing, and what comes of any other value, be it
empty, is not: an open vault has the keys of all its active ids, the default id among them, so that no
operation takes the branch in which a key is not found. -/

namespace ColumnVault

/-- A transformation of the caller gives up on a text. -/
inductive Normalizer.GivesUp : Normalizer → String → Abort → Prop
  | custom {transform : String → Except String String} {s text : String}
    (h : transform s = .error text) : GivesUp (.custom transform) s (.normalizer text)

theorem Normalizer.yields_apply (normalizer : Normalizer) (s : String) :
    (normalizer.apply s).Yields (fun _ => True) (fun _ => False) (normalizer.GivesUp s) := by
  cases normalizer with
  | custom transform =>
    rw [apply]
    cases h : transform s with
    | ok s' => exact .value trivial
    | error text => exact .abort (.custom h)
  | identity | email | digits | trim | lowercase => exact .value trivial

/-- The random bytes did not suffice. -/
def Abort.OfEntropy (cause : Abort) : Prop :=
  ∃ text, cause = .entropy text

theorem Drawing.yields_bytes (n : Nat) :
    (Drawing.bytes n).Yields (fun _ => True) (fun _ => False) Abort.OfEntropy := by
  intro e
  by_cases h : n ≤ e.pool.size
  · rw [run_bytes_of_le h]
    exact .value trivial
  · rw [run_bytes_of_lt (Nat.lt_of_not_le h)]
    exact .abort ⟨_, rfl⟩

namespace Vault

open Search

/-! ### What a call can come to -/

section Calls
variable {α : Type}

/-- The calls on a missing value. -/
inductive Call.OfMissing : {α : Type} → Call α → Prop
  | encrypt : OfMissing (.encrypt none)
  | encryptWithKey (id : String) : OfMissing (.encryptWithKey id none)
  | decrypt : OfMissing (.decrypt none)
  | decryptWithKey (id : String) : OfMissing (.decryptWithKey id none)
  | rotate : OfMissing (.rotate none)
  | blindIndex : OfMissing (.blindIndex none)
  | blindIndexText (normalizer : Normalizer) : OfMissing (.blindIndexText none normalizer)
  | blindIndexWithKey (id : String) : OfMissing (.blindIndexWithKey id none)
  | blindIndexAll : OfMissing (.blindIndexAll none)
  | rotateIndex : OfMissing (.rotateIndex none)
  | sealValue : OfMissing (.sealValue none)
  | sealText (normalizer : Normalizer) : OfMissing (.sealText none normalizer)

/-- What is given back is missing exactly where the value is. -/
def Call.Keeps : Call α → α → Prop
  | .encrypt value, result | .encryptWithKey _ value, result | .decrypt value, result
  | .decryptWithKey _ value, result | .rotate value, result | .blindIndex value, result
  | .blindIndexWithKey _ value, result | .blindIndexAll value, result
  | .rotateIndex value, result => result.isSome = value.isSome
  | .blindIndexText text _, index => index.isSome = text.isSome
  | .sealValue value, row =>
    row.ciphertext.isSome = value.isSome ∧ row.blindIndex.isSome = value.isSome
  | .sealText text _, row =>
    row.ciphertext.isSome = text.isSome ∧ row.blindIndex.isSome = text.isSome
  | .condition .., _ | .conditionText .., _ | .needsRotation .., _ => True

/-- The errors that a call on an open vault can come back with. -/
def Call.MayFail (v : Vault) : Call α → Error → Prop
  | .encryptWithKey id _, err | .blindIndexWithKey id _, err =>
    id ∉ v.activeIds ∧ err = .keyNotFound id
  | .decrypt _, err | .rotate _, err => HeaderFault none err ∨ ContentFault none err
  | .decryptWithKey id _, err => HeaderFault (some id) err ∨ ContentFault (some id) err
  | _, _ => False

/-- The column or the offset of a condition is not accepted. -/
def Refused (v : Vault) (column : String) (offset : Nat) (cause : Abort) : Prop :=
  ∃ err, (do checkColumn column; checkOffset offset v.activeIds.length) = .error err ∧
    cause = .condition err

/-- The reasons for which a call on an open vault can be given up. -/
def Call.MayStop (v : Vault) : Call α → Abort → Prop
  | .encrypt _, cause | .encryptWithKey .., cause | .rotate _, cause | .sealValue _, cause =>
    cause.OfEntropy
  | .sealText text normalizer, cause =>
    cause.OfEntropy ∨ ∃ s ∈ text, normalizer.GivesUp s cause
  | .blindIndexText text normalizer, cause => ∃ s ∈ text, normalizer.GivesUp s cause
  | .condition column _ offset, cause => v.Refused column offset cause
  | .conditionText column text normalizer offset, cause =>
    v.Refused column offset cause ∨ ∃ s ∈ text, normalizer.GivesUp s cause
  | _, _ => False

end Calls

/-! ### The operations -/

theorem yields_onValue {α β : Type} {F : Error → Prop} {A : Abort → Prop} (value : Option α)
    {f : α → Drawing β} (hf : ∀ a, (f a).Yields (fun _ => True) F A) :
    (onValue value f).Yields (fun result => result.isSome = value.isSome) F A := by
  cases value with
  | none => exact Drawing.yields_pure rfl
  | some a => exact (hf a).bind fun _ _ => Drawing.yields_pure rfl

section Open
variable {source : KeySource} {v : Vault} {ring : KeyRing}

/-- Only under an id that is not active is there no key. -/
theorem Opened.notMem_of_get_eq_error (h : v.Opened source ring) {id : String} {err : Error}
    (hget : ring.get id = .error err) : id ∉ v.activeIds ∧ err = .keyNotFound id := by
  refine ⟨fun hid => ?_, KeyRing.get_eq_error hget⟩
  obtain ⟨keys, hkeys⟩ := h.exists_get hid
  rw [hget] at hkeys
  cases hkeys

theorem Opened.yields_encryptUnder [Zstd.Encoder] (h : v.Opened source ring) (id : String)
    (value : ByteArray) : (encryptUnder ring v.policy id value).Yields (fun _ => True)
      (fun err => id ∉ v.activeIds ∧ err = .keyNotFound id) Abort.OfEntropy := by
  cases hget : ring.get id with
  | error err =>
    rw [encryptUnder, hget]
    exact fun _ => .failure (h.notMem_of_get_eq_error hget)
  | ok keys =>
    have hid := h.valid (h.get_eq_ok_iff.1 hget).1
    rw [encryptUnder_eq v.policy hid hget]
    exact ((Drawing.yields_bytes nonceSize).mono (fun _ => False.elim) fun _ hcause => hcause).bind
      fun nonce _ => Drawing.yields_pure trivial

theorem Opened.yields_encryptDefault [Zstd.Encoder] (h : v.Opened source ring) (value : ByteArray) :
    (encryptUnder ring v.policy v.defaultId value).Yields (fun _ => True) (fun _ => False)
      Abort.OfEntropy :=
  (h.yields_encryptUnder v.defaultId value).mono (fun _ hfails => hfails.1 h.default_mem)
    fun _ hcause => hcause

theorem Opened.yields_decryptExpecting (h : v.Opened source ring) (expected : Option String)
    (envelope : Option ByteArray) : (v.decryptExpecting expected envelope).Yields
      (fun result => result.isSome = envelope.isSome)
      (fun err => HeaderFault expected err ∨ ContentFault expected err) (fun _ => False) := by
  cases envelope with
  | none =>
    cases expected with
    | none =>
      rw [decryptExpecting, decrypt, h.ring_eq]
      exact .value rfl
    | some id =>
      rw [decryptExpecting, decryptWithKey, h.ring_eq]
      exact .value rfl
  | some data =>
    rw [h.decryptExpecting_some]
    cases hd : decryptUnder ring data expected with
    | error err => exact .failure (fault_of_decryptUnder hd)
    | ok value => exact .value rfl

theorem Opened.yields_rotate [Zstd.Encoder] (h : v.Opened source ring) (envelope : Option ByteArray) :
    (v.rotate envelope).Yields (fun result => result.isSome = envelope.isSome)
      (fun err => HeaderFault none err ∨ ContentFault none err) Abort.OfEntropy := by
  rw [rotate, h.ring_eq, Drawing.lift_value_bind]
  refine yields_onValue envelope fun data => ?_
  cases hd : decryptUnder ring data none with
  | error err => exact fun _ => .failure (fault_of_decryptUnder hd)
  | ok value => exact (h.yields_encryptDefault value).mono (fun _ => False.elim) fun _ hcause => hcause

theorem Opened.yields_blindIndexText (h : v.Opened source ring) (text : Option String)
    (normalizer : Normalizer) : (v.blindIndexText text normalizer).Yields
      (fun index => index.isSome = text.isSome) (fun _ => False)
      (fun cause => ∃ s ∈ text, normalizer.GivesUp s cause) := by
  obtain ⟨keys, hkeys⟩ := h.exists_get h.default_mem
  cases text with
  | none =>
    rw [blindIndexText, h.ring_eq, Outcome.value_bind, hkeys]
    exact .value rfl
  | some s =>
    rw [h.blindIndexText_some hkeys]
    have happly : (normalizer.apply s).Yields (fun _ => True) (fun _ => False)
        (fun cause => ∃ s' ∈ some s, normalizer.GivesUp s' cause) :=
      (normalizer.yields_apply s).mono (fun _ => False.elim) fun _ hcause => ⟨s, rfl, hcause⟩
    exact happly.bind fun normal _ => .value rfl

theorem Opened.yields_sealValue [Zstd.Encoder] (h : v.Opened source ring) (value : Option ByteArray) :
    (v.sealValue value).Yields
      (fun row => row.ciphertext.isSome = value.isSome ∧ row.blindIndex.isSome = value.isSome)
      (fun _ => False) Abort.OfEntropy := by
  obtain ⟨keys, hkeys⟩ := h.exists_get h.default_mem
  rw [sealValue, h.ring_eq, Drawing.lift_value_bind, hkeys]
  simp only [Outcome.lift_eq, Outcome.ofExcept_ok, Drawing.lift_value_bind]
  refine (yields_onValue value h.yields_encryptDefault).bind fun ciphertext hciphertext => ?_
  exact Drawing.yields_pure ⟨hciphertext, Option.isSome_map⟩

theorem Opened.yields_sealText [Zstd.Encoder] (h : v.Opened source ring) (text : Option String)
    (normalizer : Normalizer) : (v.sealText text normalizer).Yields
      (fun row => row.ciphertext.isSome = text.isSome ∧ row.blindIndex.isSome = text.isSome)
      (fun _ => False)
      (fun cause => cause.OfEntropy ∨ ∃ s ∈ text, normalizer.GivesUp s cause) := by
  have hvalue := h.yields_sealValue (text.map String.toUTF8)
  have hindex := Drawing.yields_lift (h.yields_blindIndexText text normalizer)
  rw [Option.isSome_map] at hvalue
  rw [sealText]
  refine (hvalue.mono (fun _ => False.elim) fun _ => .inl).bind fun row hrow => ?_
  refine (hindex.mono (fun _ => False.elim) fun _ => .inr).bind fun index hindex => ?_
  exact Drawing.yields_pure ⟨hrow.1, hindex⟩

theorem Opened.yields_blindIndexWithKey (h : v.Opened source ring) (id : String)
    (value : Option ByteArray) : (v.blindIndexWithKey id value).Yields
      (fun index => index.isSome = value.isSome)
      (fun err => id ∉ v.activeIds ∧ err = .keyNotFound id) (fun _ => False) := by
  rw [blindIndexWithKey, h.ring_eq, Outcome.value_bind]
  cases value with
  | none => exact .value rfl
  | some value =>
    cases hget : ring.get id with
    | error err => exact .failure (h.notMem_of_get_eq_error hget)
    | ok keys => exact .value (by simp)

theorem Opened.yields_blindIndexAll (h : v.Opened source ring) (value : Option ByteArray) :
    (v.blindIndexAll value).Yields (fun indexes => indexes.isSome = value.isSome) (fun _ => False)
      (fun _ => False) := by
  rw [blindIndexAll, h.ring_eq, Outcome.value_bind]
  cases value with
  | none => exact .value rfl
  | some value =>
    obtain ⟨indexes, hindexes⟩ := h.exists_indexes value
    dsimp only
    rw [hindexes]
    exact .value rfl

theorem Opened.yields_condition (h : v.Opened source ring) (column : String)
    (value : Option ByteArray) (offset : Nat) : (v.condition column value offset).Yields
      (fun _ => True) (fun _ => False) (v.Refused column offset) := by
  rw [condition, h.ring_eq, Outcome.value_bind]
  split
  · next err herr => exact .abort ⟨err, herr, rfl⟩
  · cases value with
    | none => exact .value trivial
    | some value =>
      obtain ⟨indexes, hindexes⟩ := h.exists_indexes value
      simp only [hindexes]
      exact .value trivial

theorem Opened.yields_conditionText (h : v.Opened source ring) (column : String)
    (text : Option String) (normalizer : Normalizer) (offset : Nat) :
    (v.conditionText column text normalizer offset).Yields (fun _ => True) (fun _ => False)
      (fun cause => v.Refused column offset cause ∨ ∃ s ∈ text, normalizer.GivesUp s cause) := by
  have hcondition (value : Option ByteArray) : (v.condition column value offset).Yields
      (fun _ => True) (fun _ => False)
      (fun cause => v.Refused column offset cause ∨ ∃ s ∈ text, normalizer.GivesUp s cause) :=
    (h.yields_condition column value offset).mono (fun _ => False.elim) fun _ => .inl
  rw [conditionText, h.ring_eq, Outcome.value_bind]
  cases text with
  | none => exact hcondition none
  | some s =>
    have happly : (normalizer.apply s).Yields (fun _ => True) (fun _ => False) (fun cause =>
        v.Refused column offset cause ∨ ∃ s' ∈ some s, normalizer.GivesUp s' cause) :=
      (normalizer.yields_apply s).mono (fun _ => False.elim) fun _ hcause => .inr ⟨s, rfl, hcause⟩
    exact happly.bind fun normal _ => hcondition (some normal.toUTF8)

theorem Opened.yields_call [Zstd.Encoder] (h : v.Opened source ring) {α : Type} (c : Call α) :
    (v.call c).Yields c.Keeps (c.MayFail v) (c.MayStop v) := by
  obtain ⟨keys, hkeys⟩ := h.exists_get h.default_mem
  cases c with
  | encrypt value =>
    rw [call, encrypt, h.ring_eq]
    exact yields_onValue value h.yields_encryptDefault
  | encryptWithKey id value =>
    rw [call, encryptWithKey, h.ring_eq]
    exact yields_onValue value (h.yields_encryptUnder id)
  | decrypt envelope => exact Drawing.yields_lift (h.yields_decryptExpecting none envelope)
  | decryptWithKey id envelope =>
    exact Drawing.yields_lift (h.yields_decryptExpecting (some id) envelope)
  | rotate envelope => exact h.yields_rotate envelope
  | blindIndex value =>
    rw [call, h.blindIndex_eq hkeys]
    exact Drawing.yields_lift (.value Option.isSome_map)
  | rotateIndex value =>
    rw [call, h.rotateIndex_eq hkeys]
    exact Drawing.yields_lift (.value Option.isSome_map)
  | blindIndexText text normalizer =>
    exact Drawing.yields_lift (h.yields_blindIndexText text normalizer)
  | blindIndexWithKey id value => exact Drawing.yields_lift (h.yields_blindIndexWithKey id value)
  | blindIndexAll value => exact Drawing.yields_lift (h.yields_blindIndexAll value)
  | sealValue value => exact h.yields_sealValue value
  | sealText text normalizer => exact h.yields_sealText text normalizer
  | condition column value offset => exact Drawing.yields_lift (h.yields_condition column value offset)
  | conditionText column text normalizer offset =>
    exact Drawing.yields_lift (h.yields_conditionText column text normalizer offset)
  | needsRotation envelope =>
    refine Drawing.yields_lift ?_
    cases envelope with
    | none =>
      rw [needsRotation, h.ring_eq]
      exact .value trivial
    | some data =>
      rw [needsRotation, h.ring_eq]
      dsimp only [Outcome.value_bind]
      split <;> exact .value trivial

/-- On a missing value no random byte is drawn, and no normalizer is run. -/
theorem Opened.call_of_missing [Zstd.Encoder] (h : v.Opened source ring) {α : Type} {c : Call α}
    (hc : c.OfMissing) : ∃ a, v.call c = pure a := by
  obtain ⟨keys, hkeys⟩ := h.exists_get h.default_mem
  have hring := h.ring_eq
  cases hc with
  | encrypt => exact ⟨none, by simp [call, encrypt, onValue, hring]⟩
  | encryptWithKey id => exact ⟨none, by simp [call, encryptWithKey, onValue, hring]⟩
  | decrypt => exact ⟨none, by simp [call, decrypt, hring, Drawing.lift_value]⟩
  | decryptWithKey id => exact ⟨none, by simp [call, decryptWithKey, hring, Drawing.lift_value]⟩
  | rotate => exact ⟨none, by simp [call, rotate, onValue, hring]⟩
  | blindIndex => exact ⟨none, by simp [call, h.blindIndex_eq hkeys, Drawing.lift_value]⟩
  | rotateIndex => exact ⟨none, by simp [call, h.rotateIndex_eq hkeys, Drawing.lift_value]⟩
  | blindIndexText normalizer =>
    exact ⟨none, by simp [call, blindIndexText, hring, Drawing.lift_value]⟩
  | blindIndexWithKey id => exact ⟨none, by simp [call, blindIndexWithKey, hring, Drawing.lift_value]⟩
  | blindIndexAll => exact ⟨none, by simp [call, blindIndexAll, hring, Drawing.lift_value]⟩
  | sealValue =>
    exact ⟨⟨none, none, v.defaultId⟩, by simp [call, sealValue, onValue, hring, hkeys]⟩
  | sealText normalizer =>
    exact ⟨⟨none, none, v.defaultId⟩, by
      simp [call, sealText, sealValue, blindIndexText, onValue, hring, hkeys]⟩

end Open

/-- On an open vault a missing value leads to missing ones, whatever else the call is given and without a
look at it. Any other value, be it empty, leads to ones that are there, unless the call fails or is given
up for one of the reasons that it may have. The vault itself never asks for a key that it does not find. -/
theorem call_keeps_missing [Zstd.Encoder] {source : KeySource} {v : Vault} (h : v.OpenOn source) :
    (∀ {α : Type} (c : Call α), (v.call c).Yields c.Keeps (c.MayFail v) (c.MayStop v)) ∧
    (∀ {α : Type} {c : Call α}, c.OfMissing → ∃ a, c.Keeps a ∧ v.call c = pure a) ∧
    ∀ {shape : Shape} {ring : KeyRing}, v.ring shape = .value ring →
      (∃ keys, ring.get v.defaultId = .ok keys) ∧
      ∀ value, ∃ indexes, indexesUnder ring value v.activeIds = .ok indexes := by
  obtain ⟨ring, h⟩ := h.opened
  refine ⟨h.yields_call, fun {α c} hc => ?_, fun {shape ring'} hring => ?_⟩
  · obtain ⟨a, ha⟩ := h.call_of_missing hc
    refine ⟨a, ?_, ha⟩
    have hyields := h.yields_call c ⟨ByteArray.empty, ""⟩
    rw [ha, Drawing.run_pure] at hyields
    cases hyields with
    | value hkeeps => exact hkeeps
  · rw [h.ring_eq] at hring
    cases hring
    exact ⟨h.exists_get h.default_mem, h.exists_indexes⟩

/-- Nothing is sealed for a missing text, and a normalizer that would give up does not; but the empty
value has an index. -/
theorem call_keeps_missing_twins :
    let v := Twins.vault "new" .initial
    v.OpenOn (Twins.source "new") ∧
      (∃ row : SealedValue, row.ciphertext = none ∧ row.blindIndex = none ∧
        v.sealText none (.custom fun _ => .error "gives up") = pure row) ∧
      ∃ index, v.blindIndex (some ByteArray.empty) = .value (some index) := by
  intro v
  have hv : v.OpenOn (Twins.source "new") := Twins.openOn (by decide) .initial
  obtain ⟨hyields, hmissing, -⟩ := call_keeps_missing hv
  refine ⟨hv, ?_, ?_⟩
  · obtain ⟨row, hkeeps, hcall⟩ := hmissing (.sealText (.custom fun _ => .error "gives up"))
    have hciphertext : row.ciphertext = none := Option.not_isSome_iff_eq_none.1 (by simp [hkeeps.1])
    have hindex : row.blindIndex = none := Option.not_isSome_iff_eq_none.1 (by simp [hkeeps.2])
    exact ⟨row, hciphertext, hindex, hcall⟩
  · have hindex : (v.blindIndex (some ByteArray.empty)).Yields (fun index => index.isSome = true)
        (fun _ => False) (fun _ => False) :=
      hyields (.blindIndex (some ByteArray.empty)) ⟨ByteArray.empty, ""⟩
    generalize v.blindIndex (some ByteArray.empty) = o at hindex ⊢
    cases hindex with
    | value hsome => exact (Option.isSome_iff_exists.1 hsome).imp fun _ => congrArg Outcome.value
    | failure hfails => exact hfails.elim
    | abort hcause => exact hcause.elim

end Vault

end ColumnVault
