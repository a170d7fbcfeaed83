import ColumnVault.Proofs.Text.Ascii
import ColumnVault.Proofs.Text.Blank
import ColumnVault.Text.Lowercase

/-! Texts in small letters. No small form has another small form, whichever form of the sigma it is, so what
is in small letters stays as it is. A small form is blank only if its character is, and the case of ASCII
letters is not seen, neither in a letter nor in its neighbours. -/

namespace ColumnVault.Text

/-! ### The table -/

/-- None of the small forms of a run is one of `first`, `first + step`, …, `last`: they end before, or begin
behind, or both go in even steps and are of different parity. -/
def CaseRun.misses (r : CaseRun) (first last step : Nat) : Bool :=
  r.target + (r.last - r.first) < first || last < r.target ||
    ((r.step % 2 = 0 || r.first = r.last) && (step % 2 = 0 || first = last) &&
      (r.target + first) % 2 = 1)

/-- The small forms of a run are characters. -/
def CaseRun.isSound (r : CaseRun) : Bool :=
  r.target + (r.last - r.first) < 0xd800 ||
    (0xdfff < r.target && r.target + (r.last - r.first) < 0x110000)

theorem CaseRun.small?_eq_some_iff {r : CaseRun} {n m : Nat} : r.small? n = some m ↔
    (r.first ≤ n ∧ n ≤ r.last ∧ (n - r.first) % r.step = 0) ∧ r.target + (n - r.first) = m := by
  rw [small?, Option.ite_none_right_eq_some, Option.some_inj]

theorem mod_two_of_step {step first last n : Nat} (hstep : step % 2 = 0 ∨ first = last)
    (hn : first ≤ n ∧ n ≤ last ∧ (n - first) % step = 0) : (n - first) % 2 = 0 := by
  obtain ⟨hfirst, hlast, hdiv⟩ := hn
  rcases hstep with hstep | hone
  · exact Nat.mod_eq_zero_of_dvd
      (Nat.dvd_trans (Nat.dvd_of_mod_eq_zero hstep) (Nat.dvd_of_mod_eq_zero hdiv))
  · omega

theorem CaseRun.not_between_of_misses {r : CaseRun} {first last step n m : Nat}
    (h : r.misses first last step = true) (hm : r.small? n = some m) :
    ¬(first ≤ m ∧ m ≤ last ∧ (m - first) % step = 0) := by
  obtain ⟨hn, rfl⟩ := small?_eq_some_iff.1 hm
  intro hbetween
  simp only [misses, Bool.or_eq_true, Bool.and_eq_true, decide_eq_true_eq] at h
  rcases h with (h | h) | ⟨⟨hr, hq⟩, hparity⟩
  · omega
  · omega
  · have := mod_two_of_step hr hn
    have := mod_two_of_step hq hbetween
    omega

theorem isSound_caseRuns : caseRuns.all CaseRun.isSound = true := by
  decide +kernel

/-- The small forms in the table are none of its capitals. -/
theorem misses_caseRuns :
    (caseRuns.all fun r => caseRuns.all fun q => r.misses q.first q.last q.step) = true := by
  decide +kernel

/-- The one capital that is not in the table is none of the small forms either. -/
theorem misses_dotted : (caseRuns.all fun r => r.misses 0x130 0x130 1) = true := by
  decide +kernel

theorem misses_blankRanges :
    (caseRuns.all fun r => blankRanges.all fun b => r.misses b.1 b.2 1) = true := by
  decide +kernel

/-- A character that is in no run is its own small form; the small form of another is that of a run. -/
theorem smallChar_cases (c : Char) : smallChar c = c ∧ (∀ q ∈ caseRuns, q.small? c.toNat = none) ∨
    ∃ r ∈ caseRuns, r.small? c.toNat = some (smallChar c).toNat := by
  rw [smallChar]
  split
  · next n hn =>
    obtain ⟨r, hr, hsmall⟩ := List.exists_of_findSome?_eq_some hn
    refine .inr ⟨r, hr, ?_⟩
    obtain ⟨hbetween, hn⟩ := CaseRun.small?_eq_some_iff.1 hsmall
    have hsound := List.all_eq_true.1 isSound_caseRuns r hr
    simp only [CaseRun.isSound, Bool.or_eq_true, Bool.and_eq_true, decide_eq_true_eq] at hsound
    have hvalid : n.isValidChar := by
      rcases hsound with h | h
      · exact .inl (by omega)
      · exact .inr ⟨by omega, by omega⟩
    rw [hsmall, Char.ofNat, dif_pos hvalid]
    rfl
  · next hn => exact .inl ⟨rfl, List.findSome?_eq_none_iff.1 hn⟩

/-! ### Small characters -/

/-- The character is its own small form. -/
def IsSmall (c : Char) : Prop :=
  smallChars c = [c]

instance (c : Char) : Decidable (IsSmall c) :=
  inferInstanceAs (Decidable (_ = _))

theorem isSmall_iff {c : Char} : IsSmall c ↔ c ≠ '\u0130' ∧ smallChar c = c := by
  rw [IsSmall, smallChars]
  split_ifs with h
  · subst h
    simp
  · simp [h]

theorem isSmall_smallChar {c : Char} (hc : c ≠ '\u0130') : IsSmall (smallChar c) := by
  rw [isSmall_iff]
  rcases smallChar_cases c with ⟨hself, -⟩ | ⟨r, hr, hsmall⟩
  · rw [hself]
    exact ⟨hc, hself⟩
  · have hmisses := List.all_eq_true.1 misses_caseRuns r hr
    constructor
    · intro hdotted
      rw [hdotted] at hsmall
      exact CaseRun.not_between_of_misses (List.all_eq_true.1 misses_dotted r hr) hsmall (by decide)
    · rcases smallChar_cases (smallChar c) with ⟨hself, -⟩ | ⟨q, hq, hagain⟩
      · exact hself
      · exact absurd (CaseRun.small?_eq_some_iff.1 hagain).1
          (CaseRun.not_between_of_misses (List.all_eq_true.1 hmisses q hq) hsmall)

theorem isBlank_of_smallChar {c : Char} (h : isBlank (smallChar c) = true) : isBlank c = true := by
  rcases smallChar_cases c with ⟨hself, -⟩ | ⟨r, hr, hsmall⟩
  · rwa [hself] at h
  · obtain ⟨b, hb, hge, hle⟩ := CodeRanges.has_iff.1 h
    have hmisses := List.all_eq_true.1 (List.all_eq_true.1 misses_blankRanges r hr) b hb
    exact absurd ⟨hge, hle, Nat.mod_one _⟩ (CaseRun.not_between_of_misses hmisses hsmall)

/-- What stands for a character between its neighbours. -/
def smallForms (before : List Char) (c : Char) (after : List Char) : List Char :=
  if c = 'Σ' then [if isFinalSigma before after then 'ς' else 'σ'] else smallChars c

theorem lowercaseAfter_cons (before : List Char) (c : Char) (after : List Char) :
    lowercaseAfter before (c :: after) = smallForms before c after ++ lowercaseAfter (c :: before) after :=
  rfl

section Forms
variable {before after : List Char} {c d : Char}

theorem mem_smallForms (h : d ∈ smallForms before c after) :
    d ∈ ['ς', 'σ', 'i', '\u0307'] ∨ c ≠ '\u0130' ∧ d = smallChar c := by
  rw [smallForms, smallChars] at h
  split_ifs at h with hsigma hfinal hdotted
  · exact .inl (by rw [List.mem_singleton.1 h]; decide)
  · exact .inl (by rw [List.mem_singleton.1 h]; decide)
  · exact .inl (List.mem_cons_of_mem _ (List.mem_cons_of_mem _ h))
  · exact .inr ⟨hdotted, List.mem_singleton.1 h⟩

theorem isSmall_of_mem_smallForms (h : d ∈ smallForms before c after) : IsSmall d := by
  rcases mem_smallForms h with h | ⟨hc, rfl⟩
  · have hall : (['ς', 'σ', 'i', '\u0307'].all fun e => decide (IsSmall e)) = true := by decide +kernel
    exact of_decide_eq_true (List.all_eq_true.1 hall d h)
  · exact isSmall_smallChar hc

theorem isBlank_eq_false_of_mem_smallForms (h : d ∈ smallForms before c after)
    (hc : isBlank c = false) : isBlank d = false := by
  rcases mem_smallForms h with h | ⟨-, rfl⟩
  · have hany : ['ς', 'σ', 'i', '\u0307'].any isBlank = false := by decide
    exact eq_false_of_ne_true (List.any_eq_false.1 hany d h)
  · refine eq_false_of_ne_true fun hblank => ?_
    rw [isBlank_of_smallChar hblank] at hc
    cases hc

theorem smallForms_ne_nil : smallForms before c after ≠ [] := by
  rw [smallForms, smallChars]
  split_ifs <;> exact List.cons_ne_nil _ _

theorem smallForms_of_isSmall (h : IsSmall c) : smallForms before c after = [c] := by
  rw [smallForms, if_neg]
  · exact h
  · rintro rfl
    revert h
    decide +kernel

end Forms

/-! ### Small texts -/

/-- All its characters are their own small forms. -/
def Small (cs : List Char) : Prop :=
  ∀ c ∈ cs, IsSmall c

theorem small_lowercaseAfter (before cs : List Char) : Small (lowercaseAfter before cs) := by
  induction cs generalizing before with
  | nil => exact fun c hc => absurd hc List.not_mem_nil
  | cons c after ih =>
    intro d hd
    rw [lowercaseAfter_cons, List.mem_append] at hd
    exact hd.elim isSmall_of_mem_smallForms (ih (c :: before) d)

theorem lowercaseAfter_of_small {cs : List Char} (h : Small cs) (before : List Char) :
    lowercaseAfter before cs = cs := by
  induction cs generalizing before with
  | nil => rfl
  | cons c after ih =>
    rw [Small, List.forall_mem_cons] at h
    rw [lowercaseAfter_cons, smallForms_of_isSmall h.1, ih h.2, List.singleton_append]

theorem small_lowercaseChars (cs : List Char) : Small (lowercaseChars cs) :=
  small_lowercaseAfter [] cs

theorem lowercaseChars_of_small {cs : List Char} (h : Small cs) : lowercaseChars cs = cs :=
  lowercaseAfter_of_small h []

theorem mem_head?_lowercaseAfter {before cs : List Char} {d : Char}
    (h : d ∈ (lowercaseAfter before cs).head?) :
    ∃ c ∈ cs.head?, ∃ before after, d ∈ smallForms before c after := by
  cases cs with
  | nil => cases h
  | cons c after =>
    rw [lowercaseAfter_cons, List.head?_append_of_ne_nil _ smallForms_ne_nil] at h
    exact ⟨c, rfl, before, after, List.mem_of_mem_head? h⟩

theorem mem_getLast?_lowercaseAfter {before cs : List Char} {d : Char}
    (h : d ∈ (lowercaseAfter before cs).getLast?) :
    ∃ c ∈ cs.getLast?, ∃ before after, d ∈ smallForms before c after := by
  induction cs generalizing before with
  | nil => cases h
  | cons c after ih =>
    rw [lowercaseAfter_cons] at h
    cases after with
    | nil =>
      rw [lowercaseAfter, List.append_nil] at h
      exact ⟨c, rfl, before, [], List.mem_of_mem_getLast? h⟩
    | cons c' after' =>
      have hne : lowercaseAfter (c :: before) (c' :: after') ≠ [] := by
        rw [lowercaseAfter_cons]
        exact List.append_ne_nil_of_left_ne_nil smallForms_ne_nil _
      rw [List.getLast?_append_of_ne_nil _ hne] at h
      rw [List.getLast?_cons_cons]
      exact ih h

/-- No blank comes to an end of a text. -/
theorem Trimmed.lowercaseChars {cs : List Char} (h : Trimmed cs) : Trimmed (lowercaseChars cs) := by
  constructor
  · intro d hd
    obtain ⟨c, hc, _, _, hforms⟩ := mem_head?_lowercaseAfter hd
    exact isBlank_eq_false_of_mem_smallForms hforms (h.first c hc)
  · intro d hd
    obtain ⟨c, hc, _, _, hforms⟩ := mem_getLast?_lowercaseAfter hd
    exact isBlank_eq_false_of_mem_smallForms hforms (h.last c hc)

/-! ### ASCII letters -/

theorem smallChars_of_isUpper {c : Char} (h : c.isUpper = true) : smallChars c = [c.toLower] :=
  forall_capital (fun c => smallChars c = [c.toLower]) (by decide +kernel) h

theorem not_isUpper_of_isSmall {c : Char} (h : IsSmall c) : c.isUpper = false := by
  refine eq_false_of_ne_true fun hupper => ?_
  have hlower := Char.isUpper_toLower_eq_false c
  rw [IsSmall, smallChars_of_isUpper hupper, List.singleton_inj] at h
  rw [h, hupper] at hlower
  cases hlower

/-- The runs of ASCII are one, that of its capitals. -/
theorem first_caseRuns : (caseRuns.all fun r => (r.first = 65 && r.last = 90) || 128 ≤ r.first) = true := by
  decide +kernel

theorem isSmall_of_ascii {c : Char} (hc : c.toNat < 128) (h : c.isUpper = false) : IsSmall c := by
  refine isSmall_iff.2 ⟨?_, ?_⟩
  · rintro rfl
    revert hc
    decide
  · rcases smallChar_cases c with ⟨hself, -⟩ | ⟨r, hr, hsmall⟩
    · exact hself
    · obtain ⟨⟨hfirst, hlast, -⟩, -⟩ := CaseRun.small?_eq_some_iff.1 hsmall
      have hrun := List.all_eq_true.1 first_caseRuns r hr
      simp only [Bool.or_eq_true, Bool.and_eq_true, decide_eq_true_eq] at hrun
      rw [← Bool.not_eq_true, isUpper_iff] at h
      omega

theorem smallChars_of_ascii {c : Char} (hc : c.toNat < 128) : smallChars c = [c.toLower] := by
  by_cases h : c.isUpper = true
  · exact smallChars_of_isUpper h
  · rw [Char.toLower_eq_of_not_isUpper h]
    exact isSmall_of_ascii hc (eq_false_of_ne_true h)

theorem lowercaseAfter_of_ascii {cs : List Char} (h : ∀ c ∈ cs, c.toNat < 128) (before : List Char) :
    lowercaseAfter before cs = cs.map Char.toLower := by
  induction cs generalizing before with
  | nil => rfl
  | cons c after ih =>
    rw [List.forall_mem_cons] at h
    have hsigma : c ≠ 'Σ' := by
      rintro rfl
      exact absurd h.1 (by decide)
    rw [lowercaseAfter_cons, smallForms, if_neg hsigma, smallChars_of_ascii h.1, ih h.2, List.map_cons,
      List.singleton_append]

theorem lowercaseChars_of_ascii {cs : List Char} (h : ∀ c ∈ cs, c.toNat < 128) :
    lowercaseChars cs = cs.map Char.toLower :=
  lowercaseAfter_of_ascii h []

theorem smallChars_toLower (c : Char) : smallChars c.toLower = smallChars c := by
  by_cases h : c.isUpper = true
  · have hlower : IsSmall c.toLower := by
      refine isSmall_of_ascii ?_ (Char.isUpper_toLower_eq_false c)
      exact forall_capital (fun c => c.toLower.toNat < 128) (by decide) h
    rw [smallChars_of_isUpper h, hlower]
  · rw [Char.toLower_eq_of_not_isUpper h]

theorem isBlank_toLower (c : Char) : isBlank c.toLower = isBlank c :=
  comp_toLower (by decide +kernel) c

theorem trimChars_map_toLower (cs : List Char) :
    trimChars (cs.map Char.toLower) = (trimChars cs).map Char.toLower := by
  have hblank : isBlank ∘ Char.toLower = isBlank := funext isBlank_toLower
  simp only [trimChars, List.dropWhile_map, ← List.map_reverse, hblank]

theorem nearestIsCased_map_toLower (cs : List Char) :
    nearestIsCased (cs.map Char.toLower) = nearestIsCased cs := by
  have hcased : isCased ∘ Char.toLower = isCased := funext (comp_toLower (by decide +kernel))
  have hignorable : isCaseIgnorable ∘ Char.toLower = isCaseIgnorable :=
    funext (comp_toLower (by decide +kernel))
  rw [nearestIsCased, List.dropWhile_map, hignorable, List.head?_map, Option.any_map, ← Function.comp_def,
    hcased, nearestIsCased]

theorem smallForms_map_toLower (before : List Char) (c : Char) (after : List Char) :
    smallForms (before.map Char.toLower) c.toLower (after.map Char.toLower) = smallForms before c after := by
  have hsigma : decide (c.toLower = 'Σ') = decide (c = 'Σ') :=
    comp_toLower (f := fun c => decide (c = 'Σ')) (by decide) c
  have hfinal : isFinalSigma (before.map Char.toLower) (after.map Char.toLower) =
      isFinalSigma before after := by
    rw [isFinalSigma, nearestIsCased_map_toLower, nearestIsCased_map_toLower, isFinalSigma]
  rw [decide_eq_decide] at hsigma
  rw [smallForms, smallForms, hfinal, smallChars_toLower]
  by_cases hc : c = 'Σ'
  · rw [if_pos (hsigma.2 hc), if_pos hc]
  · rw [if_neg (mt hsigma.1 hc), if_neg hc]

theorem lowercaseAfter_map_toLower (before cs : List Char) :
    lowercaseAfter (before.map Char.toLower) (cs.map Char.toLower) = lowercaseAfter before cs := by
  induction cs generalizing before with
  | nil => rfl
  | cons c after ih =>
    have := ih (c :: before)
    rw [List.map_cons, lowercaseAfter_cons, lowercaseAfter_cons, smallForms_map_toLower, ← this,
      List.map_cons]

theorem lowercaseChars_map_toLower (cs : List Char) :
    lowercaseChars (cs.map Char.toLower) = lowercaseChars cs :=
  lowercaseAfter_map_toLower [] cs

end ColumnVault.Text
