import ColumnVault.Proofs.Vault.Construction

/-! Keys put into a list one after another. The list then has each id once, in the order in which the ids
were added first; each id has the key that was added last under it; and the id for new values is the one
that was chosen last, or else the one that was added first. Whether a vault opens on the list follows from
this, and keys that were replaced have no part in it. -/

namespace ColumnVault

/-! ### First and last -/

section FirstAndLast
variable {α : Type} {p : α → Bool} {l : List α} {a b : α}

/-- A member passes a test, and none before it does. -/
def IsFirst (p : α → Bool) (l : List α) (a : α) : Prop :=
  ∃ before after, l = before ++ a :: after ∧ p a = true ∧ ∀ b ∈ before, p b = false

/-- A member passes a test, and none after it does. -/
def IsLast (p : α → Bool) (l : List α) (a : α) : Prop :=
  ∃ before after, l = before ++ a :: after ∧ p a = true ∧ ∀ b ∈ after, p b = false

theorem isFirst_iff_find? : IsFirst p l a ↔ l.find? p = some a := by
  simp only [IsFirst, List.find?_eq_some_iff_append, Bool.not_eq_true']
  constructor
  · rintro ⟨before, after, hl, ha, hbefore⟩
    exact ⟨ha, before, after, hl, hbefore⟩
  · rintro ⟨ha, before, after, hl, hbefore⟩
    exact ⟨before, after, hl, ha, hbefore⟩

theorem isLast_iff_isFirst_reverse : IsLast p l a ↔ IsFirst p l.reverse a := by
  constructor
  · rintro ⟨before, after, rfl, ha, hafter⟩
    exact ⟨after.reverse, before.reverse, by simp, ha, by simpa using hafter⟩
  · rintro ⟨before, after, hl, ha, hbefore⟩
    rw [List.reverse_eq_iff] at hl
    exact ⟨after.reverse, before.reverse, by simp [hl], ha, by simpa using hbefore⟩

theorem isLast_iff_find?_reverse : IsLast p l a ↔ l.reverse.find? p = some a := by
  rw [isLast_iff_isFirst_reverse, isFirst_iff_find?]

theorem IsFirst.passes (h : IsFirst p l a) : p a = true :=
  List.find?_some (isFirst_iff_find?.1 h)

theorem IsFirst.mem (h : IsFirst p l a) : a ∈ l :=
  List.mem_of_find?_eq_some (isFirst_iff_find?.1 h)

theorem IsLast.passes (h : IsLast p l a) : p a = true :=
  (isLast_iff_isFirst_reverse.1 h).passes

theorem IsLast.mem (h : IsLast p l a) : a ∈ l :=
  List.mem_reverse.1 (isLast_iff_isFirst_reverse.1 h).mem

theorem IsFirst.append (h : IsFirst p l a) (more : List α) : IsFirst p (l ++ more) a := by
  obtain ⟨before, after, rfl, ha, hbefore⟩ := h
  exact ⟨before, after ++ more, by simp, ha, hbefore⟩

theorem exists_isFirst (ha : a ∈ l) (hp : p a = true) : ∃ b, IsFirst p l b := by
  simp only [isFirst_iff_find?, ← Option.isSome_iff_exists, List.find?_isSome]
  exact ⟨a, ha, hp⟩

theorem exists_isLast (ha : a ∈ l) (hp : p a = true) : ∃ b, IsLast p l b := by
  simp only [isLast_iff_isFirst_reverse]
  exact exists_isFirst (List.mem_reverse.2 ha) hp

theorem isFirst_concat : IsFirst p (l ++ [b]) a ↔
    IsFirst p l a ∨ (∀ c ∈ l, p c = false) ∧ p b = true ∧ a = b := by
  rw [isFirst_iff_find?, isFirst_iff_find?, List.find?_append, Option.or_eq_some_iff,
    List.find?_eq_none]
  cases hb : p b <;> simp [hb, eq_comm (a := a)]

theorem isLast_concat : IsLast p (l ++ [b]) a ↔ if p b = true then a = b else IsLast p l a := by
  rw [isLast_iff_find?_reverse, isLast_iff_find?_reverse, List.reverse_append, List.reverse_singleton,
    List.singleton_append, List.find?_cons]
  cases p b <;> simp [eq_comm (a := a)]

end FirstAndLast

namespace KeyList

/-! ### Steps -/

/-- One step in the making of a list. -/
inductive Step
  | insert (id : String) (key : ByteArray)
  | choose (id : String)

namespace Step

def run (l : KeyList) : Step → KeyList
  | insert id key => l.insert id key
  | choose id => l.choose id

/-- The step adds a key, under whatever id. -/
def inserts : Step → Bool
  | insert .. => true
  | choose _ => false

/-- The step adds a key under the id. -/
def adds (id : String) : Step → Bool
  | insert i _ => i == id
  | choose _ => false

/-- The step chooses the id for new values. -/
def chooses : Step → Bool
  | insert .. => false
  | choose _ => true

end Step

/-- The list that some steps make, from the empty one on. -/
def build (steps : List Step) : KeyList :=
  steps.foldl Step.run empty

theorem build_concat (steps : List Step) (s : Step) : build (steps ++ [s]) = s.run (build steps) := by
  rw [build, List.foldl_append]
  rfl

/-! ### What the steps tell -/

/-- Some key was added under the id. -/
def Added (steps : List Step) (id : String) : Prop :=
  ∃ key, .insert id key ∈ steps

/-- The key that was added last under the id. -/
def LastKey (steps : List Step) (id : String) (key : ByteArray) : Prop :=
  IsLast (Step.adds id) steps (.insert id key)

/-- The id under which the very first key was added. -/
def FirstAdded (steps : List Step) (id : String) : Prop :=
  ∃ key, IsFirst Step.inserts steps (.insert id key)

/-- Of the steps that add a key under one of two ids, the first adds it under `id`. -/
def AddedBefore (steps : List Step) (id other : String) : Prop :=
  ∃ key, IsFirst (fun s => s.adds id || s.adds other) steps (.insert id key)

/-- The id that was chosen last. -/
def LastChosen (steps : List Step) (id : String) : Prop :=
  IsLast Step.chooses steps (.choose id)

/-- The id for new values: the one that was chosen last; where none was chosen, the one that was added
first; and where none was added either, the empty text. -/
inductive IsDefault (steps : List Step) : String → Prop
  | chosen {id : String} (last : LastChosen steps id) : IsDefault steps id
  | added {id : String} (unchosen : ∀ i, .choose i ∉ steps) (first : FirstAdded steps id) :
    IsDefault steps id
  | none (unchosen : ∀ i, .choose i ∉ steps) (empty : ∀ i, ¬Added steps i) : IsDefault steps ""

/-- Keys were added, each under an id of 1 to 255 bytes; the last key of each id has 32 bytes; and the id
for new values is one of those added. -/
structure Openable (steps : List Step) : Prop where
  nonempty : ∃ id, Added steps id
  valid : ∀ id, Added steps id → 1 ≤ id.toUTF8.size ∧ id.toUTF8.size ≤ 255
  size : ∀ id key, LastKey steps id key → key.size = 32
  default : ∃ id, IsDefault steps id ∧ Added steps id

variable {steps : List Step} {s : Step} {l : KeyList} {id other : String} {key key' : ByteArray}

theorem eq_insert_of_adds (h : s.adds id = true) : ∃ key, s = .insert id key := by
  cases s with
  | insert i key => exact ⟨key, by rw [eq_of_beq h]⟩
  | choose i => cases h

theorem added_of_adds (hmem : s ∈ steps) (hs : s.adds id = true) : Added steps id := by
  obtain ⟨key, rfl⟩ := eq_insert_of_adds hs
  exact ⟨key, hmem⟩

theorem exists_lastKey_iff : (∃ key, LastKey steps id key) ↔ Added steps id := by
  constructor
  · rintro ⟨key, hlast⟩
    exact ⟨key, hlast.mem⟩
  · rintro ⟨key, hmem⟩
    obtain ⟨s, hlast⟩ := exists_isLast (p := Step.adds id) hmem (beq_self_eq_true id)
    obtain ⟨key, rfl⟩ := eq_insert_of_adds hlast.passes
    exact ⟨key, hlast⟩

theorem exists_lastChosen_iff : (∃ id, LastChosen steps id) ↔ ∃ id, .choose id ∈ steps := by
  constructor
  · rintro ⟨id, hlast⟩
    exact ⟨id, hlast.mem⟩
  · rintro ⟨id, hmem⟩
    obtain ⟨s, hlast⟩ := exists_isLast (p := Step.chooses) hmem rfl
    cases s with
    | insert i key => cases hlast.passes
    | choose i => exact ⟨i, hlast⟩

theorem not_inserts_iff : (∀ s ∈ steps, s.inserts = false) ↔ ∀ id, ¬Added steps id := by
  constructor
  · rintro h id ⟨key, hmem⟩
    cases h _ hmem
  · intro h s hmem
    cases s with
    | insert id key => exact absurd ⟨key, hmem⟩ (h id)
    | choose id => rfl

/-- An id comes before all that were not added yet. -/
theorem addedBefore_of_not_added (hid : Added steps id) (hother : ¬Added steps other) :
    AddedBefore steps id other := by
  obtain ⟨key, hmem⟩ := hid
  obtain ⟨s, hfirst⟩ := exists_isFirst (p := fun s => s.adds id || s.adds other) hmem
    (by simp [Step.adds])
  have hnot : s.adds other = false := Bool.eq_false_iff.2 fun h => hother (added_of_adds hfirst.mem h)
  have hadds : s.adds id = true := by simpa [hnot] using hfirst.passes
  obtain ⟨key, rfl⟩ := eq_insert_of_adds hadds
  exact ⟨key, hfirst⟩

theorem AddedBefore.append (h : AddedBefore steps id other) (more : List Step) :
    AddedBefore (steps ++ more) id other :=
  h.imp fun _ hfirst => hfirst.append more

/-! ### One step more -/

theorem added_insert : Added (steps ++ [.insert other key]) id ↔ Added steps id ∨ id = other := by
  simp [Added, exists_or]

theorem added_choose : Added (steps ++ [.choose other]) id ↔ Added steps id := by
  simp [Added]

theorem lastKey_insert : LastKey (steps ++ [.insert other key']) id key ↔
    if id = other then key = key' else LastKey steps id key := by
  rw [LastKey, isLast_concat]
  by_cases h : id = other
  · simp [Step.adds, h]
  · simp [Step.adds, LastKey, h, Ne.symm h]

theorem lastKey_choose : LastKey (steps ++ [.choose other]) id key ↔ LastKey steps id key :=
  isLast_concat

theorem firstAdded_insert : FirstAdded (steps ++ [.insert other key]) id ↔
    FirstAdded steps id ∨ (∀ i, ¬Added steps i) ∧ id = other := by
  simp only [FirstAdded, isFirst_concat, exists_or, not_inserts_iff]
  simp [Step.inserts]

theorem firstAdded_choose : FirstAdded (steps ++ [.choose other]) id ↔ FirstAdded steps id := by
  simp [FirstAdded, isFirst_concat]

theorem lastChosen_insert : LastChosen (steps ++ [.insert other key]) id ↔ LastChosen steps id :=
  isLast_concat

theorem lastChosen_choose : LastChosen (steps ++ [.choose other]) id ↔ id = other := by
  rw [LastChosen, isLast_concat]
  simp [Step.chooses]

theorem activeIds_insert (l : KeyList) (id : String) (key : ByteArray) :
    (l.insert id key).toSource.activeIds =
      if id ∈ l.toSource.activeIds then l.toSource.activeIds else l.toSource.activeIds ++ [id] :=
  Assoc.map_fst_put id key l.entries

theorem head?_activeIds_insert (l : KeyList) (id : String) (key : ByteArray) :
    (l.insert id key).toSource.activeIds.head? = l.toSource.activeIds.head?.or (some id) := by
  rw [activeIds_insert]
  split_ifs with hid
  · obtain ⟨first, rest, hids⟩ := List.exists_cons_of_ne_nil (List.ne_nil_of_mem hid)
    rw [hids, List.head?_cons, Option.some_or]
  · rw [List.head?_append, List.head?_singleton]

/-! ### All steps -/

/-- The ids of a list in their order, its keys and its chosen id are what some steps tell. -/
structure Follows (steps : List Step) (l : KeyList) : Prop where
  mem_activeIds : ∀ id, id ∈ l.toSource.activeIds ↔ Added steps id
  ordered : l.toSource.activeIds.Pairwise fun id other => id ≠ other ∧ AddedBefore steps id other
  head : ∀ id, l.toSource.activeIds.head? = some id ↔ FirstAdded steps id
  lookup : ∀ id key, l.entries.lookup id = some key ↔ LastKey steps id key
  chosen : ∀ id, l.chosen = some id ↔ LastChosen steps id

theorem follows_empty : Follows [] empty where
  mem_activeIds := by simp [Added, toSource, empty]
  ordered := .nil
  head := by simp [FirstAdded, isFirst_iff_find?, toSource, empty]
  lookup := by simp [LastKey, isLast_iff_find?_reverse, empty]
  chosen := by simp [LastChosen, isLast_iff_find?_reverse, empty]

theorem Follows.nodup_activeIds (h : Follows steps l) : l.toSource.activeIds.Nodup :=
  h.ordered.imp And.left

theorem Follows.activeIds_eq_nil_iff (h : Follows steps l) :
    l.toSource.activeIds = [] ↔ ∀ id, ¬Added steps id := by
  simp only [List.eq_nil_iff_forall_not_mem, h.mem_activeIds]

theorem Follows.insert (h : Follows steps l) (id : String) (key : ByteArray) :
    Follows (steps ++ [.insert id key]) (l.insert id key) where
  mem_activeIds i := by
    rw [added_insert, ← h.mem_activeIds, activeIds_insert]
    split_ifs with hid
    · exact (or_iff_left_of_imp fun heq => heq ▸ hid).symm
    · rw [List.mem_append, List.mem_singleton]
  ordered := by
    have hordered := h.ordered.imp fun ⟨hne, hbefore⟩ =>
      And.intro hne (hbefore.append [.insert id key])
    rw [activeIds_insert]
    split_ifs with hid
    · exact hordered
    -- the id is new, so all others were added before it
    refine List.pairwise_append.2 ⟨hordered, List.pairwise_singleton .., fun i hi j hj => ?_⟩
    rw [List.mem_singleton.1 hj]
    rw [h.mem_activeIds] at hi hid
    exact ⟨fun heq => hid (heq ▸ hi), (addedBefore_of_not_added hi hid).append _⟩
  head i := by
    rw [firstAdded_insert, head?_activeIds_insert, Option.or_eq_some_iff, List.head?_eq_none_iff,
      h.head, h.activeIds_eq_nil_iff, Option.some_inj, eq_comm (a := id)]
  lookup i k := by
    rw [lastKey_insert, KeyList.insert, Assoc.lookup_put]
    by_cases hi : i = id
    · simp [hi, eq_comm]
    · simp [hi, h.lookup i k]
  chosen i := (h.chosen i).trans lastChosen_insert.symm

theorem Follows.choose (h : Follows steps l) (id : String) :
    Follows (steps ++ [.choose id]) (l.choose id) where
  mem_activeIds i := (h.mem_activeIds i).trans added_choose.symm
  ordered := h.ordered.imp fun ⟨hne, hbefore⟩ => ⟨hne, hbefore.append _⟩
  head i := (h.head i).trans firstAdded_choose.symm
  lookup i k := (h.lookup i k).trans lastKey_choose.symm
  chosen i := by
    rw [lastChosen_choose, KeyList.choose, Option.some_inj, eq_comm]

theorem follows_build (steps : List Step) : Follows steps (build steps) := by
  -- from the last step back, as the list is what the steps before made of the empty one
  induction steps using List.reverseRecOn with
  | nil => exact follows_empty
  | append_singleton steps s ih =>
    rw [build_concat]
    cases s with
    | insert id key => exact ih.insert id key
    | choose id => exact ih.choose id

/-! ### What the list then answers -/

theorem Follows.masterKey_eq_ok_iff (h : Follows steps l) :
    l.masterKey id = .ok key ↔ LastKey steps id key := by
  rw [← h.lookup, masterKey]
  cases l.entries.lookup id <;> simp

theorem Follows.masterKey_eq_error_iff (h : Follows steps l) {err : KeySourceError} :
    l.masterKey id = .error err ↔ ¬Added steps id ∧ err = .keyNotFound id := by
  rw [← exists_lastKey_iff]
  simp only [← h.lookup, masterKey]
  cases l.entries.lookup id <;> simp [eq_comm]

theorem Follows.chosen_eq_none_iff (h : Follows steps l) :
    l.chosen = none ↔ ∀ id, .choose id ∉ steps := by
  rw [← not_exists, ← exists_lastChosen_iff]
  simp only [← h.chosen, Option.eq_none_iff_forall_ne_some, not_exists, ne_eq]

theorem Follows.defaultId_eq_iff (h : Follows steps l) : l.defaultId = id ↔ IsDefault steps id := by
  have hhead : l.entries.head?.map (·.1) = l.toSource.activeIds.head? := List.head?_map.symm
  rw [defaultId, hhead]
  constructor
  · rintro rfl
    cases hchosen : l.chosen with
    | some i => exact .chosen ((h.chosen i).1 hchosen)
    | none =>
      have hunchosen := h.chosen_eq_none_iff.1 hchosen
      cases hfirst : l.toSource.activeIds.head? with
      | some i => exact .added hunchosen ((h.head i).1 hfirst)
      | none => exact .none hunchosen (h.activeIds_eq_nil_iff.1 (List.head?_eq_none_iff.1 hfirst))
  · rintro (hlast | ⟨hunchosen, hfirst⟩ | ⟨hunchosen, hempty⟩)
    · rw [(h.chosen id).2 hlast]
      rfl
    · rw [h.chosen_eq_none_iff.2 hunchosen, (h.head id).2 hfirst]
      rfl
    · rw [h.chosen_eq_none_iff.2 hunchosen, h.activeIds_eq_nil_iff.2 hempty]
      rfl

/-! ### Opening a vault -/

theorem Follows.complete_iff (h : Follows steps l) : l.toSource.Complete ↔ Openable steps := by
  constructor
  · rintro ⟨hne, hsupplies, hdefault⟩
    simp only [h.mem_activeIds] at hsupplies hdefault
    refine ⟨?_, fun id hid => (hsupplies id hid).valid, fun id key hlast => ?_, ?_⟩
    · obtain ⟨id, hid⟩ := List.exists_mem_of_ne_nil _ hne
      exact ⟨id, (h.mem_activeIds id).1 hid⟩
    · obtain ⟨master, hmaster, hsize⟩ := (hsupplies id (exists_lastKey_iff.1 ⟨key, hlast⟩)).master
      cases hmaster.symm.trans (h.masterKey_eq_ok_iff.2 hlast)
      exact hsize
    · exact ⟨l.defaultId, h.defaultId_eq_iff.1 rfl, hdefault⟩
  · rintro ⟨⟨id, hid⟩, hvalid, hsize, defaultId, hdefault, hadded⟩
    obtain rfl := h.defaultId_eq_iff.2 hdefault
    refine ⟨List.ne_nil_of_mem ((h.mem_activeIds id).2 hid), fun i hi => ?_,
      (h.mem_activeIds _).2 hadded⟩
    have hi := (h.mem_activeIds i).1 hi
    obtain ⟨key, hlast⟩ := exists_lastKey_iff.2 hi
    exact ⟨hvalid i hi, key, h.masterKey_eq_ok_iff.2 hlast, hsize i key hlast⟩

theorem Follows.opens_iff (h : Follows steps l) (policy : Policy) :
    (∃ v, Vault.new l.toSource policy = .ok v) ↔ Openable steps := by
  rw [← h.complete_iff]
  refine ⟨fun ⟨v, hv⟩ => ?_, fun hcomplete => Vault.new_of_complete hcomplete policy⟩
  rcases Vault.complete_or_refused l.toSource with hcomplete | ⟨err, hrefused⟩
  · exact hcomplete
  · cases hv.symm.trans (Vault.new_of_refused hrefused policy)

/-- The vault has the ids as they are, since none of them comes twice. -/
theorem Follows.ids_of_new (h : Follows steps l) {policy : Policy} {v : Vault}
    (hv : Vault.new l.toSource policy = .ok v) :
    v.activeIds = l.toSource.activeIds ∧ v.defaultId = l.defaultId := by
  obtain ⟨ring, hopened⟩ := Vault.openedAs_of_new hv
  exact ⟨hopened.activeIds.trans (eraseDups_of_nodup h.nodup_activeIds), hopened.defaultId⟩

/-- After any steps, the active ids are those added, each once, in the order in which they were added
first. The key of an id is the last one added under it, and exactly the ids that were never added are not
found. The id for new values is the one chosen last, or else the one added first, or else empty. So a vault
opens on the list, under whatever policy, exactly if the steps allow it, and it has these ids. -/
theorem build_insertion_ordered (steps : List Step) :
    let source := (build steps).toSource
    source.activeIds.Nodup ∧ (∀ id, id ∈ source.activeIds ↔ Added steps id) ∧
      source.activeIds.Pairwise (AddedBefore steps) ∧
      (∀ id key, source.masterKey id = .ok key ↔ LastKey steps id key) ∧
      (∀ id err, source.masterKey id = .error err ↔ ¬Added steps id ∧ err = .keyNotFound id) ∧
      (∀ id, source.defaultId = id ↔ IsDefault steps id) ∧
      ∀ policy, ((∃ v, Vault.new source policy = .ok v) ↔ Openable steps) ∧
        ∀ v, Vault.new source policy = .ok v →
          v.activeIds = source.activeIds ∧ v.defaultId = source.defaultId := by
  intro source
  have h := follows_build steps
  exact ⟨h.nodup_activeIds, h.mem_activeIds, h.ordered.imp And.right, fun _ _ => h.masterKey_eq_ok_iff,
    fun _ _ => h.masterKey_eq_error_iff, fun _ => h.defaultId_eq_iff,
    fun policy => ⟨h.opens_iff policy, fun _ => h.ids_of_new⟩⟩

/-- A key that is too short is replaced in its place. -/
example :
    let l := build [.insert "a" (Bytes.replicate 5 1), .insert "b" (Bytes.replicate 32 2),
      .insert "a" (Bytes.replicate 32 3)]
    l.toSource.activeIds = ["a", "b"] ∧ l.masterKey "a" = .ok (Bytes.replicate 32 3) ∧
      l.defaultId = "a" :=
  ⟨rfl, rfl, rfl⟩

end KeyList

end ColumnVault
