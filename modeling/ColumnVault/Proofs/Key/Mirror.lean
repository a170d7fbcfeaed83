import ColumnVault.Proofs.Key.Changes

/-! One directory of keys and the value that was read from it or made with it, through any changes made
through that value. The value has the keys of the files, as reading the directory anew would, except for
those that lay there when the directory was made: a value that is made knows its own key only. -/

namespace ColumnVault.KeyDirectory

open FileTree Text

variable {t t' : FileTree} {id : String} {p : Place} {dir key : ByteArray} {d : KeyDirectory}
  {hidden : String → Option ByteArray} {s : FileTree × KeyDirectory}

/-- How a value for a directory comes about. -/
inductive Opening where
  | load
  | init (id : String) (entropy : Entropy)

def Opening.run (o : Opening) (t : FileTree) (dir : ByteArray) :
    Except KeySourceError KeyDirectory × FileTree :=
  match o with
  | .load => (KeyDirectory.load t dir, t)
  | .init id entropy => KeyDirectory.init t dir id entropy

/-- The keys that an opening overlooks: those of the files that are there when a directory is made. -/
def Opening.overlooked (o : Opening) (t : FileTree) (p : Place) (id : String) : Option ByteArray :=
  match o with
  | .load => none
  | .init .. => keyFile? t p id

/-- A value has the keys of the files at a place, except for some that are there and it has not. -/
structure Mirrors (hidden : String → Option ByteArray) (dir : ByteArray) (p : Place) (t : FileTree)
    (d : KeyDirectory) : Prop where
  path : d.dir = dir
  enters : t.Enters d.dir p
  keys : ∀ id, hidden id = none → d.keys.lookup id = keyFile? t p id
  others : ∀ id key, hidden id = some key → d.keys.lookup id = none ∧ keyFile? t p id = some key

/-! ### Steps -/

theorem Mirrors.generated (h : Mirrors hidden dir p t d) (hgen : Generated t d id key t') :
    Mirrors hidden dir p t' { d with keys := Assoc.putSorted key id d.keys } := by
  refine ⟨h.path, (hgen.wrote.wrote_at h.enters).keeps.enters h.enters, fun c hc => ?_,
    fun c k hc => ?_⟩
  · rw [Assoc.lookup_putSorted, keyFile?_of_generated hgen h.enters, h.keys c hc]
  · obtain ⟨hnone, hfile⟩ := h.others c k hc
    have hne : c ≠ id := by
      rintro rfl
      rw [hgen.keyFile?_eq_none h.enters] at hfile
      cases hfile
    rw [Assoc.lookup_putSorted, keyFile?_of_generated hgen h.enters, if_neg hne, if_neg hne]
    exact ⟨hnone, hfile⟩

theorem Mirrors.madeCurrent (h : Mirrors hidden dir p t d) {text : ByteArray}
    (hwrote : t.WroteIn d.dir currentName text t') (id : String) :
    Mirrors hidden dir p t' { d with current := id } := by
  refine ⟨h.path, (hwrote.wrote_at h.enters).keeps.enters h.enters, fun c hc => ?_,
    fun c k hc => ?_⟩
  · rw [keyFile?_of_wroteIn_current hwrote]
    exact h.keys c hc
  · rw [keyFile?_of_wroteIn_current hwrote]
    exact h.others c k hc

theorem Mirrors.change (h : Mirrors hidden dir p s.1 s.2) (c : Change) :
    Mirrors hidden dir p (KeyDirectory.change s c).1 (KeyDirectory.change s c).2 := by
  obtain hsame | ⟨id, key, hgen, hd⟩ | ⟨id, -, hwrote, hd⟩ := change_cases s c
  · rwa [hsame]
  · rw [hd]
    exact h.generated hgen
  · rw [hd]
    exact h.madeCurrent hwrote id

theorem Mirrors.changes (h : Mirrors hidden dir p s.1 s.2) (changes : List Change) :
    Mirrors hidden dir p (changes.foldl KeyDirectory.change s).1
      (changes.foldl KeyDirectory.change s).2 := by
  induction changes generalizing s with
  | nil => exact h
  | cons c rest ih => exact ih (h.change c)

/-- The current key of a value is one of its keys. -/
def HasCurrent (d : KeyDirectory) : Prop :=
  (d.keys.lookup d.current).isSome = true

theorem HasCurrent.change (h : HasCurrent s.2) (c : Change) :
    HasCurrent (KeyDirectory.change s c).2 := by
  obtain hsame | ⟨id, key, -, hd⟩ | ⟨id, hknown, -, hd⟩ := change_cases s c
  · rwa [hsame]
  · rw [hd, HasCurrent, Assoc.lookup_putSorted]
    split_ifs
    · rfl
    · exact h
  · rw [hd]
    exact hknown

theorem HasCurrent.changes (h : HasCurrent s.2) (changes : List Change) :
    HasCurrent (changes.foldl KeyDirectory.change s).2 := by
  induction changes generalizing s with
  | nil => exact h
  | cons c rest ih => exact ih (h.change c)

theorem mem_activeIds_iff (h : HasCurrent d) (id : String) :
    id ∈ d.activeIds ↔ (d.keys.lookup id).isSome = true := by
  have hkeys : (d.keys.lookup id).isSome = true ↔ id ∈ d.keys.map (·.1) := by
    simp only [List.lookup_isSome_iff, List.mem_map, beq_iff_eq, @eq_comm _ id]
  rw [activeIds, List.mem_cons, List.mem_filter, ← hkeys, decide_eq_true_eq]
  constructor
  · rintro (rfl | ⟨hmem, -⟩)
    · exact h
    · exact hmem
  · intro hmem
    exact (eq_or_ne id d.current).imp_right fun hne => ⟨hmem, hne⟩

/-! ### Runs -/

/-- A directory that is made is known by its new key, and all other key files are overlooked. -/
theorem mirrors_of_opening {o : Opening} (h : o.run t dir = (.ok d, t')) :
    HasCurrent d ∧ ∃ p, Mirrors (o.overlooked t p) dir p t' d := by
  cases o with
  | load =>
    obtain ⟨hload, rfl⟩ := Prod.mk.inj h
    obtain ⟨rfl, ⟨p, henters, hkeys⟩, hcurrent⟩ := load_eq_ok hload
    exact ⟨hcurrent, p, rfl, henters, fun id _ => hkeys id, nofun⟩
  | init id entropy =>
    obtain ⟨s, hgrown, ⟨e, ⟨⟩, -⟩ | ⟨key, s', hgen, ⟨e, ⟨⟩, -⟩ | ⟨hcurrent, hd⟩⟩⟩ := init_cases h
    cases hd
    obtain ⟨p, henters, -⟩ := hgen.wrote.wrote
    have hempty : Mirrors (keyFile? t p) dir p s ⟨dir, [], id⟩ := by
      refine ⟨rfl, henters, fun c hc => ?_, fun c k hc => ⟨rfl, ?_⟩⟩
      · rw [keyFile?_of_grown hgrown, hc]
        rfl
      · rw [keyFile?_of_grown hgrown, hc]
    refine ⟨?_, p, (hempty.generated hgen).madeCurrent hcurrent id⟩
    rw [HasCurrent, List.lookup_cons_self]
    rfl

/-- After any changes made through it, a value has the keys of the key files in its directory, which are
also what reading the directory gives. If the directory was made with it, it lacks those, and only those,
whose files were there before. -/
theorem keys_eq_key_files {o : Opening} (h : o.run t dir = (.ok d, t')) (changes : List Change) :
    ∃ p, t'.Enters dir p ∧
      let s := changes.foldl change (t', d)
      (∀ id, o.overlooked t p id = none → s.2.keys.lookup id = keyFile? s.1 p id) ∧
      (∀ id key, o.overlooked t p id = some key →
        s.2.keys.lookup id = none ∧ keyFile? s.1 p id = some key) ∧
      (∀ id, id ∈ s.2.activeIds ↔ (s.2.keys.lookup id).isSome = true) ∧
      ∀ d', load s.1 dir = .ok d' → ∀ id, d'.keys.lookup id = keyFile? s.1 p id := by
  obtain ⟨hcurrent, p, hmirrors⟩ := mirrors_of_opening h
  have hs := Mirrors.changes (s := (t', d)) hmirrors changes
  refine ⟨p, hmirrors.path ▸ hmirrors.enters, hs.keys, hs.others,
    mem_activeIds_iff (HasCurrent.changes (s := (t', d)) hcurrent changes), fun d' hd' id => ?_⟩
  obtain ⟨-, ⟨q, hq, hkeys⟩, -⟩ := load_eq_ok hd'
  rw [hkeys, hq.unique (hs.path ▸ hs.enters)]

/-! ### A directory made around a key file -/

/-- A directory in which a key file lies, and no file that names a current key. -/
def oneKeyFile : FileTree :=
  ⟨[(["keys".toUTF8], .directory),
    (["keys".toUTF8, "old.key".toUTF8], .file (Bytes.replicate 32 1) true)], []⟩

/-- The same after a directory was made there with a new key. -/
def twoKeyFiles : FileTree :=
  ⟨oneKeyFile.entries ++
    [(["keys".toUTF8, "new.key".toUTF8], .file (Bytes.replicate 32 2) true),
      (["keys".toUTF8, "current".toUTF8], .file "new\n".toUTF8 false)], []⟩

/-- What is known of the directory that was made. -/
def newKey : KeyDirectory :=
  ⟨"keys".toUTF8, [("new", Bytes.replicate 32 2)], "new"⟩

/-- A further key is made and becomes current, which the key that was there before cannot. -/
theorem keys_eq_key_files_beside_old_key :
    let s := [Change.generate "next" ⟨Bytes.replicate 32 3, ""⟩, .setCurrent "old",
      .setCurrent "next"].foldl change (twoKeyFiles, newKey)
    (Opening.init "new" ⟨Bytes.replicate 32 2, ""⟩).run oneKeyFile "keys".toUTF8 =
        (.ok newKey, twoKeyFiles) ∧
      s.2.keys.lookup "next" = keyFile? s.1 ["keys".toUTF8] "next" ∧
      s.2.keys.lookup "old" = none ∧
      keyFile? s.1 ["keys".toUTF8] "old" = some (Bytes.replicate 32 1) := by
  intro s
  have hopen : (Opening.init "new" ⟨Bytes.replicate 32 2, ""⟩).run oneKeyFile "keys".toUTF8 =
      (.ok newKey, twoKeyFiles) := rfl
  obtain ⟨p, henters, hkeys, hothers, -⟩ := keys_eq_key_files hopen
    [.generate "next" ⟨Bytes.replicate 32 3, ""⟩, .setCurrent "old", .setCurrent "next"]
  obtain rfl : p = ["keys".toUTF8] := henters.unique ⟨rfl, rfl⟩
  exact ⟨hopen, hkeys "next" rfl, hothers "old" _ rfl⟩

/-- A directory that is made around a key file is known without that key, which reading it gives. -/
theorem made_directory_lacks_old_key :
    (Opening.init "new" ⟨Bytes.replicate 32 2, ""⟩).run oneKeyFile "keys".toUTF8 =
        (.ok newKey, twoKeyFiles) ∧
      newKey.keys.lookup "old" = none ∧
      ∃ d, load twoKeyFiles "keys".toUTF8 = .ok d ∧ d.keys.lookup "old" = some (Bytes.replicate 32 1) :=
  ⟨rfl, rfl, ⟨"keys".toUTF8, [("new", Bytes.replicate 32 2), ("old", Bytes.replicate 32 1)], "new"⟩, rfl,
    rfl⟩

end ColumnVault.KeyDirectory
