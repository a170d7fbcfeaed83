/-! Lists of pairs as finite maps: each key once, looked up from the front. -/

namespace ColumnVault.Assoc

variable {α β : Type}

/-- Replaces the value at a key in its place, or adds both at the end. -/
def put [BEq α] (a : α) (b : β) : List (α × β) → List (α × β)
  | [] => [(a, b)]
  | e :: rest => if e.1 == a then (a, b) :: rest else e :: put a b rest

theorem lookup_put [BEq α] [LawfulBEq α] (a c : α) (b : β) (l : List (α × β)) :
    (put a b l).lookup c = if c == a then some b else l.lookup c := by
  induction l with
  | nil => by_cases h : c = a <;> simp [put, List.lookup_cons, h, beq_eq_false_iff_ne.2]
  | cons e rest ih =>
    obtain ⟨k, v⟩ := e
    by_cases hk : k = a
    · subst hk
      by_cases h : c = k
      · simp [put, h]
      · simp [put, List.lookup_cons, beq_eq_false_iff_ne.2 h]
    · by_cases h : c = k
      · subst h
        simp [put, hk]
      · simp [put, hk, List.lookup_cons, beq_eq_false_iff_ne.2 h, ih]

/-- A key that is there keeps its place, and a new one comes last. -/
theorem map_fst_put [BEq α] [LawfulBEq α] (a : α) (b : β) (l : List (α × β)) :
    (put a b l).map (·.1) = if a ∈ l.map (·.1) then l.map (·.1) else l.map (·.1) ++ [a] := by
  induction l with
  | nil => rfl
  | cons e rest ih =>
    by_cases h : e.1 = a
    · simp [put, h]
    · simp only [put, beq_eq_false_iff_ne.2 h, Bool.false_eq_true, ↓reduceIte, List.map_cons, ih,
        List.mem_cons, Ne.symm h, false_or]
      split <;> rfl

/-- Replaces the value at a key, or adds both before the first larger key. -/
def putSorted (b : β) (a : String) : List (String × β) → List (String × β)
  | [] => [(a, b)]
  | e :: rest =>
    if e.1 = a then (a, b) :: rest
    else if a < e.1 then (a, b) :: e :: rest
    else e :: putSorted b a rest

theorem lookup_putSorted (b : β) (a c : String) (l : List (String × β)) :
    (putSorted b a l).lookup c = if c = a then some b else l.lookup c := by
  induction l with
  | nil => by_cases h : c = a <;> simp [putSorted, List.lookup_cons, h, beq_eq_false_iff_ne.2]
  | cons e rest ih =>
    obtain ⟨k, v⟩ := e
    rw [putSorted]
    by_cases h : c = a
    · subst h
      split
      · simp
      · split
        · simp
        · next hk _ => simp [List.lookup_cons, beq_eq_false_iff_ne.2 (Ne.symm hk), ih]
    · split
      · next hk =>
        subst hk
        simp [List.lookup_cons, beq_eq_false_iff_ne.2 h]
      · split
        · simp [List.lookup_cons, beq_eq_false_iff_ne.2 h]
        · simp [List.lookup_cons, ih, h]

end ColumnVault.Assoc
