import ColumnVault.Text.Blank
import Mathlib.Data.List.DropRight
import Mathlib.Data.List.TakeWhile

/-! Texts without blanks at their ends. Trimming gives such a text, leaves it as it is, and does not see what
blanks are put around a text. -/

namespace ColumnVault.Text

/-- Neither the first nor the last character is blank. -/
structure Trimmed (cs : List Char) : Prop where
  first : ∀ c ∈ cs.head?, isBlank c = false
  last : ∀ c ∈ cs.getLast?, isBlank c = false

theorem trimChars_eq_rdropWhile (cs : List Char) :
    trimChars cs = (cs.dropWhile isBlank).rdropWhile isBlank := rfl

theorem mem_of_mem_trimChars {c : Char} {cs : List Char} (h : c ∈ trimChars cs) : c ∈ cs := by
  rw [trimChars_eq_rdropWhile] at h
  exact (List.dropWhile_sublist isBlank).mem ((List.rdropWhile_prefix isBlank _).mem h)

theorem trimmed_trimChars (cs : List Char) : Trimmed (trimChars cs) := by
  rw [trimChars_eq_rdropWhile]
  constructor
  · intro c hc
    -- the first character is still that of the text without the blanks in front
    obtain ⟨rest, hrest⟩ := List.rdropWhile_prefix isBlank (cs.dropWhile isBlank)
    have hfirst : (cs.dropWhile isBlank).head? = some c := by
      rw [← hrest, List.head?_append, Option.mem_def.1 hc]
      rfl
    have := List.head?_dropWhile_not isBlank cs
    rwa [hfirst] at this
  · intro c hc
    obtain ⟨hne, rfl⟩ := List.mem_getLast?_eq_getLast hc
    exact eq_false_of_ne_true (List.rdropWhile_last_not _ _ hne)

theorem trimChars_eq_self {cs : List Char} (h : Trimmed cs) : trimChars cs = cs := by
  have hfront : cs.dropWhile isBlank = cs := by
    rw [List.dropWhile_eq_self_iff]
    intro hpos hblank
    have := h.first cs[0] (by simp [List.head?_eq_getElem?])
    rw [hblank] at this
    cases this
  rw [trimChars_eq_rdropWhile, hfront, List.rdropWhile_eq_self_iff]
  intro hne hblank
  have := h.last _ (List.getLast?_eq_some_getLast hne)
  rw [hblank] at this
  cases this

theorem trimChars_padded {before after : List Char} (hbefore : ∀ c ∈ before, isBlank c = true)
    (hafter : ∀ c ∈ after, isBlank c = true) (cs : List Char) :
    trimChars (before ++ cs ++ after) = trimChars cs := by
  rw [trimChars, trimChars, List.append_assoc, List.dropWhile_append_of_pos hbefore, List.dropWhile_append]
  split
  · next hall =>
    rw [List.isEmpty_iff] at hall
    have hnone : after.dropWhile isBlank = [] := List.dropWhile_eq_nil_iff.2 hafter
    rw [hall, hnone]
  · rw [List.reverse_append,
      List.dropWhile_append_of_pos fun c hc => hafter c (List.mem_reverse.1 hc)]

/-- A blank at the end is left out. -/
theorem trim_append_of_isBlank {c : Char} (h : isBlank c = true) (s : String) :
    trim (s ++ String.singleton c) = trim s := by
  have hafter : ∀ d ∈ [c], isBlank d = true := List.forall_mem_singleton.2 h
  rw [trim, String.toList_append, String.toList_singleton, ← List.nil_append s.toList,
    trimChars_padded (fun _ hd => absurd hd List.not_mem_nil) hafter, trim]

theorem trim_eq_self {s : String} (h : ∀ c ∈ s.toList, isBlank c = false) : trim s = s := by
  have htrimmed : Trimmed s.toList :=
    ⟨fun c hc => h c (List.mem_of_mem_head? hc), fun c hc => h c (List.mem_of_mem_getLast? hc)⟩
  rw [trim, trimChars_eq_self htrimmed, String.ofList_toList]

end ColumnVault.Text
