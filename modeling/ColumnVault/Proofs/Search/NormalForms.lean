import ColumnVault.Proofs.Text.Lowercase
import ColumnVault.Proofs.Vault.Digests

/-! The normal forms of the built-in normalizers. What a normalizer gives is normal, and what is normal it
leaves as it is. The index of a text, the condition for it and the index under which it is sealed depend on
its normal form only, so they are the same for a text and for its normal form, and for all the ways of
writing an address that the normalizer for addresses takes for one. -/

namespace ColumnVault

open Text

namespace Normalizer

/-- The normalizers that have a name. -/
def builtIn : List Normalizer :=
  [.identity, .email, .digits, .trim, .lowercase]

/-- The texts that a normalizer is there to give. -/
def IsNormal : Normalizer → String → Prop
  | .identity, _ => True
  | .email, s => Trimmed s.toList ∧ Small s.toList
  | .digits, s => ∀ c ∈ s.toList, '0' ≤ c ∧ c ≤ '9'
  | .trim, s => Trimmed s.toList
  | .lowercase, s => Small s.toList
  | .custom transform, s => transform s = .ok s

variable {n : Normalizer}

theorem exists_normal (hn : n ∈ builtIn) (s : String) :
    ∃ form, n.apply s = .value form ∧ n.IsNormal form := by
  simp only [builtIn, List.mem_cons, List.not_mem_nil, or_false] at hn
  rcases hn with rfl | rfl | rfl | rfl | rfl
  · exact ⟨s, rfl, trivial⟩
  · refine ⟨_, rfl, ?_⟩
    rw [IsNormal, toList_lowercase, toList_trim]
    exact ⟨(trimmed_trimChars _).lowercaseChars, small_lowercaseChars _⟩
  · refine ⟨_, rfl, fun c hc => ?_⟩
    rw [digitsOf, String.toList_ofList, List.mem_filter] at hc
    exact of_decide_eq_true hc.2
  · refine ⟨_, rfl, ?_⟩
    rw [IsNormal, toList_trim]
    exact trimmed_trimChars _
  · refine ⟨_, rfl, ?_⟩
    rw [IsNormal, toList_lowercase]
    exact small_lowercaseChars _

theorem apply_of_isNormal {s : String} (h : n.IsNormal s) : n.apply s = .value s := by
  cases n with
  | identity => rfl
  | email =>
    rw [apply, Text.lowercase, toList_trim, trimChars_eq_self h.1, lowercaseChars_of_small h.2,
      String.ofList_toList]
  | digits =>
    have hall : s.toList.filter (fun c => '0' ≤ c ∧ c ≤ '9') = s.toList :=
      List.filter_eq_self.2 fun c hc => decide_eq_true (h c hc)
    rw [apply, digitsOf, hall, String.ofList_toList]
  | trim => rw [apply, Text.trim, trimChars_eq_self h, String.ofList_toList]
  | lowercase => rw [apply, Text.lowercase, lowercaseChars_of_small h, String.ofList_toList]
  | custom transform =>
    have htransform : transform s = .ok s := h
    rw [apply, htransform]

/-! ### Addresses -/

theorem apply_email_toLower {s t : String} (h : SameButForCase s t) : email.apply s = email.apply t := by
  have hform (s : String) : lowercaseChars (trimChars (s.toList.map Char.toLower)) =
      lowercaseChars (trimChars s.toList) := by
    rw [trimChars_map_toLower, lowercaseChars_map_toLower]
  rw [SameButForCase] at h
  rw [apply, apply, Text.lowercase, Text.lowercase, toList_trim, toList_trim, ← hform s, ← hform t, h]

theorem apply_email_padded {before after : String} (hbefore : ∀ c ∈ before.toList, isBlank c = true)
    (hafter : ∀ c ∈ after.toList, isBlank c = true) (s : String) :
    email.apply (before ++ s ++ after) = email.apply s := by
  rw [apply, apply, Text.trim, String.toList_append, String.toList_append,
    trimChars_padded hbefore hafter, Text.trim]

theorem apply_email_of_ascii {s : String} (h : IsAscii s) :
    email.apply s = .value (String.ofList ((Text.trim s).toList.map Char.toLower)) := by
  have htrim : ∀ c ∈ trimChars s.toList, c.toNat < 128 := fun c hc => h c (mem_of_mem_trimChars hc)
  rw [apply, Text.lowercase, toList_trim, lowercaseChars_of_ascii htrim]

/-- Of two ASCII addresses, each written without blanks around it, only the case of letters is not told. -/
theorem apply_email_eq_iff {s t : String} (hs : IsAscii s) (ht : IsAscii t) :
    email.apply s = email.apply t ↔ SameButForCase (Text.trim s) (Text.trim t) := by
  rw [apply_email_of_ascii hs, apply_email_of_ascii ht, Outcome.value.injEq, String.ofList_inj]
  rfl

end Normalizer

namespace Vault

open Search

variable {n : Normalizer} {s t : String}

/-! ### Operations on texts of one normal form -/

theorem blindIndexText_congr (v : Vault) (h : n.apply s = n.apply t) :
    v.blindIndexText (some s) n = v.blindIndexText (some t) n := by
  rw [blindIndexText, blindIndexText]
  congr 1
  funext ring
  cases ring.get v.defaultId with
  | error err => rfl
  | ok keys => simp only [h]

theorem conditionText_congr (v : Vault) (h : n.apply s = n.apply t) (column : String) (offset : Nat) :
    v.conditionText column (some s) n offset = v.conditionText column (some t) n offset := by
  simp only [conditionText, h]

/-- The index in a row is the one that the text has by itself. -/
theorem blindIndexText_of_sealText [Zstd.Encoder] {v : Vault} {e e' : Entropy} {row : SealedValue}
    (h : (v.sealText (some s) n).run e = (.value row, e')) :
    v.blindIndexText (some s) n = .value row.blindIndex := by
  rw [sealText] at h
  obtain ⟨sealed, _, -, h⟩ := Drawing.run_bind_eq_value h
  obtain ⟨index, _, hindex, h⟩ := Drawing.run_bind_eq_value h
  cases h
  exact Drawing.lift_eq_value hindex

theorem blindIndex_eq_of_sealText [Zstd.Encoder] {v : Vault} (h : n.apply s = n.apply t) {e e' : Entropy}
    {row row' : SealedValue} (hrow : ((v.sealText (some s) n).run e).1 = .value row)
    (hrow' : ((v.sealText (some t) n).run e').1 = .value row') : row.blindIndex = row'.blindIndex := by
  have hs := blindIndexText_of_sealText (Prod.ext hrow rfl)
  have ht := blindIndexText_of_sealText (Prod.ext hrow' rfl)
  rw [v.blindIndexText_congr h, ht] at hs
  exact (Outcome.value.inj hs).symm

/-- Addresses that differ in the case of ASCII letters and in the blanks around them have one form, which has
no blank at an end and no ASCII capital; so their indexes and the conditions for them agree. Of two ASCII
addresses nothing else is overlooked. -/
theorem email_identifies_variants (s : String) :
    ∃ form, Normalizer.email.apply s = .value form ∧ Trimmed form.toList ∧
      (∀ c ∈ form.toList, c.isUpper = false) ∧
      (∀ s' before after, SameButForCase s s' → (∀ c ∈ before.toList, isBlank c = true) →
        (∀ c ∈ after.toList, isBlank c = true) →
        Normalizer.email.apply (before ++ s' ++ after) = .value form ∧
        ∀ v : Vault,
          v.blindIndexText (some (before ++ s' ++ after)) .email = v.blindIndexText (some s) .email ∧
          ∀ column offset, v.conditionText column (some (before ++ s' ++ after)) .email offset =
            v.conditionText column (some s) .email offset) ∧
      ∀ t, IsAscii s → IsAscii t →
        (Normalizer.email.apply t = .value form ↔ SameButForCase (Text.trim s) (Text.trim t)) := by
  obtain ⟨form, hform, htrimmed, hsmall⟩ :=
    Normalizer.exists_normal (n := .email) (List.mem_cons_of_mem _ List.mem_cons_self) s
  refine ⟨form, hform, htrimmed, fun c hc => not_isUpper_of_isSmall (hsmall c hc), ?_, fun t hs ht => ?_⟩
  · intro s' before after hcase hbefore hafter
    have hsame : Normalizer.email.apply (before ++ s' ++ after) = Normalizer.email.apply s :=
      (Normalizer.apply_email_padded hbefore hafter s').trans (Normalizer.apply_email_toLower hcase).symm
    exact ⟨hsame.trans hform, fun v => ⟨v.blindIndexText_congr hsame, v.conditionText_congr hsame⟩⟩
  · rw [← Normalizer.apply_email_eq_iff hs ht, hform]
    exact eq_comm

/-- Capitals are taken for small letters also beside a sigma, whose form depends on its neighbours. -/
theorem email_identifies_variants_sigma :
    SameButForCase "Σas.XΣ@A" "ΣAS.xΣ@a" ∧ (∀ c ∈ "\t\u3000".toList, isBlank c = true) ∧
      Normalizer.email.apply "Σas.XΣ@A" = .value "σas.xς@a" ∧
      Normalizer.email.apply ("\t\u3000" ++ "ΣAS.xΣ@a" ++ "\t\u3000") = .value "σas.xς@a" := by
  have hcase : SameButForCase "Σas.XΣ@A" "ΣAS.xΣ@a" := by decide
  have hall : "\t\u3000".toList.all isBlank = true := by decide
  have hblank : ∀ c ∈ "\t\u3000".toList, isBlank c = true := List.all_eq_true.1 hall
  have hvalue : Normalizer.email.apply "Σas.XΣ@A" = .value "σas.xς@a" := by decide +kernel
  obtain ⟨form, hform, -, -, hvariants, -⟩ := email_identifies_variants "Σas.XΣ@A"
  cases hform.symm.trans hvalue
  exact ⟨hcase, hblank, hvalue, (hvariants _ _ _ hcase hblank hblank).1⟩

/-- What a built-in normalizer gives is normal and its own normal form, so on any vault it has the index of
the text, the conditions for it are those for the text, and what is sealed for either has one index. On an
open vault that is the digest of the normal form under the default key; sealing succeeds where a nonce can be
drawn, and a row that was sealed for the text is found with its normal form. -/
theorem normal_forms_fixed [Zstd.Encoder] {n : Normalizer} (hn : n ∈ Normalizer.builtIn) (s : String) :
    ∃ form, n.apply s = .value form ∧ n.IsNormal form ∧ n.apply form = .value form ∧
      (∀ v : Vault, v.blindIndexText (some form) n = v.blindIndexText (some s) n ∧
        (∀ column offset,
          v.conditionText column (some form) n offset = v.conditionText column (some s) n offset) ∧
        ∀ e e' row row', ((v.sealText (some form) n).run e).1 = .value row →
          ((v.sealText (some s) n).run e').1 = .value row' → row.blindIndex = row'.blindIndex) ∧
      ∀ (source : KeySource) (v : Vault), v.OpenOn source →
        (∃ digest, source.digest? v.defaultId form.toUTF8 = some digest ∧
          v.DefaultDigest n form form.toUTF8 digest ∧ v.DefaultDigest n s form.toUTF8 digest) ∧
        ∀ e row, ((v.sealText (some s) n).run e).1 = .value row →
          ∀ column offset, checkColumn column = .ok () → checkOffset offset v.activeIds.length = .ok () →
            ∃ c, v.conditionText column (some form) n offset = .value c ∧
              ∀ stored, Stores stored column row → c.TrueOn offset stored := by
  obtain ⟨form, hform, hnormal⟩ := Normalizer.exists_normal hn s
  have hself := Normalizer.apply_of_isNormal hnormal
  have hsame : n.apply form = n.apply s := hself.trans hform.symm
  refine ⟨form, hform, hnormal, hself, fun v => ⟨v.blindIndexText_congr hsame, v.conditionText_congr hsame,
    fun _ _ _ _ hrow hrow' => blindIndex_eq_of_sealText hsame hrow hrow'⟩, fun source v hv => ?_⟩
  obtain ⟨ring, h⟩ := hv.opened
  obtain ⟨keys, hkeys⟩ := h.exists_get h.default_mem
  refine ⟨⟨_, h.digest? hkeys _, h.defaultDigest hkeys hself, h.defaultDigest hkeys hform⟩, ?_⟩
  intro e row hrow column offset hcolumn hoffset
  rw [v.conditionText_congr hsame]
  exact h.trueOn_of_sealText (Prod.ext hrow rfl) hcolumn hoffset

/-- A final sigma and the one capital with a small form of two characters. -/
theorem normal_forms_fixed_sigma :
    Normalizer.email ∈ Normalizer.builtIn ∧ (Twins.vault "new" .initial).OpenOn (Twins.source "new") ∧
      ∃ form digest, Normalizer.email.apply " \u0130Σ " = .value form ∧
        Normalizer.email.apply form = .value form ∧
        (Twins.vault "new" .initial).DefaultDigest .email form form.toUTF8 digest ∧
        (Twins.vault "new" .initial).DefaultDigest .email " \u0130Σ " form.toUTF8 digest := by
  have hn : Normalizer.email ∈ Normalizer.builtIn := List.mem_cons_of_mem _ List.mem_cons_self
  have hv : (Twins.vault "new" .initial).OpenOn (Twins.source "new") := Twins.openOn (by decide) .initial
  obtain ⟨form, hform, -, hself, -, hopen⟩ := normal_forms_fixed hn " \u0130Σ "
  obtain ⟨⟨digest, -, hdigest, hdigest'⟩, -⟩ := hopen _ _ hv
  exact ⟨hn, hv, form, digest, hform, hself, hdigest, hdigest'⟩

end Vault

end ColumnVault
