import ColumnVault.Proofs.Files.Entries
import ColumnVault.Proofs.Key.Names
import ColumnVault.Proofs.Text.Blank

/-! What is read from a directory of keys: the key files at its place, and the key that the file
`current` names once the blanks at the ends of its text are left out. -/

namespace ColumnVault.KeyDirectory

open FileTree Text

variable {t t' : FileTree} {id : String} {p : Place} {dir name key : ByteArray}
  {names : List ByteArray} {keys keys' : List (String × ByteArray)} {d : KeyDirectory}

theorem liftFile_eq_ok_iff {α : Type} {r : Except FileFault α} {a : α} :
    liftFile r = .ok a ↔ r = .ok a := by
  cases r <;> simp [liftFile]

/-! ### Key files -/

/-- The content of the key file of an id in the directory at a place. A file without anything before its
extension is none. -/
def keyFile? (t : FileTree) (p : Place) (id : String) : Option ByteArray :=
  if id = "" then none
  else
    match t.get? (p ++ [(keyName id).toUTF8]) with
    | some (.file content _) => some content
    | _ => none

theorem keyFile?_eq_some_iff : keyFile? t p id = some key ↔
    id ≠ "" ∧ ∃ isPrivate, t.get? (p ++ [(keyName id).toUTF8]) = some (.file key isPrivate) := by
  rw [keyFile?]
  split_ifs with hid
  · exact ⟨nofun, fun h => absurd hid h.1⟩
  · split
    · next content isPrivate hget =>
      rw [hget]
      constructor
      · rintro ⟨⟩
        exact ⟨hid, isPrivate, rfl⟩
      · rintro ⟨-, _, ⟨⟩⟩
        rfl
    · next hget => exact ⟨nofun, fun ⟨_, isPrivate, hfile⟩ => absurd hfile (hget key isPrivate)⟩

theorem keyFile?_eq_none_of_notMem (h : (keyName id).toUTF8 ∉ t.names p) : keyFile? t p id = none := by
  rw [mem_names_iff, Option.not_isSome_iff_eq_none] at h
  rw [keyFile?, h]
  exact ite_self none

/-- Trees with the same files have the same key files. -/
theorem keyFile?_congr (h : ∀ content isPrivate,
    t'.get? (p ++ [(keyName id).toUTF8]) = some (.file content isPrivate) ↔
      t.get? (p ++ [(keyName id).toUTF8]) = some (.file content isPrivate)) :
    keyFile? t' p id = keyFile? t p id := by
  refine Option.ext fun key => ?_
  rw [keyFile?_eq_some_iff, keyFile?_eq_some_iff]
  simp only [h]

/-! ### Reading keys -/

theorem readKey_eq_ok_iff (henters : t.Enters dir p) (hname : isKeyName name = true) :
    readKey t dir name = .ok (id, key) ↔ name = (keyName id).toUTF8 ∧ checkId id = .ok () ∧
      Fits dir (keyName id) ∧ keyFile? t p id = some key ∧ key.size = keySize := by
  rw [readKey, bind_eq_ok_iff]
  constructor
  · rintro ⟨id', hid, h⟩
    obtain ⟨hname', hcheck⟩ := (idOfName_eq_ok_iff hname).1 hid
    obtain ⟨content, hread, h⟩ := bind_eq_ok h
    obtain ⟨hfits, q, hq, hfile⟩ :=
      (read_join_eq_ok_iff (plain_keyName hcheck)).1 (liftFile_eq_ok_iff.1 hread)
    obtain rfl := hq.unique henters
    split_ifs at h with hsize
    · cases h
    · cases h
      exact ⟨hname', hcheck, hfits,
        keyFile?_eq_some_iff.2 ⟨ne_empty_of_checkId hcheck, hfile⟩, not_not.1 hsize⟩
  · rintro ⟨hname', hcheck, hfits, hfile, hsize⟩
    have hread : t.read (keyPath dir id) = .ok key :=
      (read_join_eq_ok_iff (plain_keyName hcheck)).2
        ⟨hfits, p, henters, (keyFile?_eq_some_iff.1 hfile).2⟩
    refine ⟨id, (idOfName_eq_ok_iff hname).2 ⟨hname', hcheck⟩, ?_⟩
    dsimp only
    rw [liftFile_eq_ok_iff.2 hread, ok_bind, if_neg (not_not.2 hsize)]
    rfl

/-- The keys that are read are those of the key files among the names. -/
theorem lookup_of_readKeys (henters : t.Enters dir p) (h : readKeys t dir names keys = .ok keys')
    (id : String) :
    keys'.lookup id =
      if id ≠ "" ∧ (keyName id).toUTF8 ∈ names then keyFile? t p id else keys.lookup id := by
  induction names generalizing keys with
  | nil =>
    cases h
    simp
  | cons name rest ih =>
    rw [readKeys] at h
    split_ifs at h with hname
    · obtain ⟨⟨i, key⟩, hread, hrest⟩ := bind_eq_ok h
      obtain ⟨rfl, hcheck, -, hfile, -⟩ := (readKey_eq_ok_iff henters hname).1 hread
      rw [ih hrest, Assoc.lookup_putSorted]
      by_cases hid : id = i
      · subst hid
        rw [if_pos rfl, hfile, ite_self, if_pos ⟨ne_empty_of_checkId hcheck, List.mem_cons_self⟩]
      · have hne : (keyName id).toUTF8 ≠ (keyName i).toUTF8 := fun heq => hid (keyName_injective heq)
        simp only [if_neg hid, List.mem_cons, or_iff_right hne]
    · rw [ih h]
      by_cases hid : id = ""
      · rw [if_neg fun h => h.1 hid, if_neg fun h => h.1 hid]
      · have hne : (keyName id).toUTF8 ≠ name := by
          rintro rfl
          exact hname (isKeyName_keyName hid)
        simp only [List.mem_cons, or_iff_right hne]

theorem lookup_of_readKeys_names (henters : t.Enters dir p)
    (h : readKeys t dir (t.names p) [] = .ok keys) (id : String) :
    keys.lookup id = keyFile? t p id := by
  rw [lookup_of_readKeys henters h, List.lookup_nil]
  split_ifs with hmem
  · rfl
  · by_cases hid : id = ""
    · rw [keyFile?, if_pos hid]
    · exact (keyFile?_eq_none_of_notMem fun hname => hmem ⟨hid, hname⟩).symm

/-- Only files of the size of a key are read as keys. -/
theorem size_of_readKeys (henters : t.Enters dir p) (h : readKeys t dir names keys = .ok keys')
    (hkeys : ∀ id key, keys.lookup id = some key → key.size = keySize) :
    ∀ id key, keys'.lookup id = some key → key.size = keySize := by
  induction names generalizing keys with
  | nil =>
    cases h
    exact hkeys
  | cons name rest ih =>
    rw [readKeys] at h
    split_ifs at h with hname
    · obtain ⟨⟨i, key⟩, hread, hrest⟩ := bind_eq_ok h
      obtain ⟨-, -, -, -, hsize⟩ := (readKey_eq_ok_iff henters hname).1 hread
      refine ih hrest fun c k hc => ?_
      rw [Assoc.lookup_putSorted] at hc
      split_ifs at hc
      · cases hc
        exact hsize
      · exact hkeys c k hc
    · exact ih h hkeys

/-- Keys are read if each of their files can be. -/
theorem exists_readKeys (t : FileTree) (dir : ByteArray) (names : List ByteArray)
    (keys : List (String × ByteArray))
    (h : ∀ name ∈ names, isKeyName name = true → ∃ e, readKey t dir name = .ok e) :
    ∃ keys', readKeys t dir names keys = .ok keys' := by
  induction names generalizing keys with
  | nil => exact ⟨keys, rfl⟩
  | cons name rest ih =>
    rw [List.forall_mem_cons] at h
    rw [readKeys]
    split_ifs with hname
    · obtain ⟨⟨i, key⟩, hread⟩ := h.1 hname
      rw [hread, ok_bind]
      exact ih _ h.2
    · exact ih _ h.2

/-! ### Reading a directory -/

/-- Keys of a directory, of which one is to be current. -/
def withCurrent (dir : ByteArray) (keys : List (String × ByteArray)) (id : String) :
    Except KeySourceError KeyDirectory :=
  if (keys.lookup id).isNone then .error (.keyNotFound id) else .ok ⟨dir, keys, id⟩

theorem withCurrent_eq_ok_iff :
    withCurrent dir keys id = .ok d ↔ (keys.lookup id).isSome = true ∧ d = ⟨dir, keys, id⟩ := by
  rw [withCurrent]
  cases keys.lookup id <;> simp [eq_comm]

theorem loadListed_eq (t : FileTree) (dir : ByteArray) (names : List ByteArray) :
    loadListed t dir names = (do
      let keys ← readKeys t dir names []
      match ← readCurrent t dir, keys with
      | some id, _ => withCurrent dir keys id
      | none, [(id, _)] => withCurrent dir keys id
      | none, _ => .error .noDefaultKey) := by
  rfl

theorem readKeys_of_load (h : load t dir = .ok d) :
    d.dir = dir ∧ (∃ p, t.Enters dir p ∧ readKeys t dir (t.names p) [] = .ok d.keys) ∧
      (d.keys.lookup d.current).isSome = true := by
  rw [load] at h
  split_ifs at h with hdir
  obtain ⟨-, -, p, henters⟩ := hasDirectory_iff.1 hdir
  rw [list_eq_names hdir henters] at h
  have h : loadListed t dir (t.names p) = .ok d := h
  rw [loadListed_eq] at h
  obtain ⟨keys, hkeys, h⟩ := bind_eq_ok h
  obtain ⟨current?, -, h⟩ := bind_eq_ok h
  have hcurrent : ∃ id, withCurrent dir keys id = .ok d := by
    split at h
    · exact ⟨_, h⟩
    · exact ⟨_, h⟩
    · cases h
  obtain ⟨id, hid⟩ := hcurrent
  obtain ⟨hsome, rfl⟩ := withCurrent_eq_ok_iff.1 hid
  exact ⟨rfl, ⟨p, henters, hkeys⟩, hsome⟩

/-- A directory is read as it is: its keys are those of its key files. -/
theorem load_eq_ok (h : load t dir = .ok d) :
    d.dir = dir ∧ (∃ p, t.Enters dir p ∧ ∀ id, d.keys.lookup id = keyFile? t p id) ∧
      (d.keys.lookup d.current).isSome = true := by
  obtain ⟨hdir, ⟨p, henters, hkeys⟩, hcurrent⟩ := readKeys_of_load h
  exact ⟨hdir, ⟨p, henters, lookup_of_readKeys_names henters hkeys⟩, hcurrent⟩

theorem size_of_load (h : load t dir = .ok d) (hkey : d.keys.lookup id = some key) :
    key.size = keySize := by
  obtain ⟨-, ⟨p, henters, hkeys⟩, -⟩ := readKeys_of_load h
  exact size_of_readKeys henters hkeys nofun id key hkey

/-- What comes of some keys and the text that names the current one. -/
def named (dir : ByteArray) (keys : List (String × ByteArray)) (text : String) :
    Except KeySourceError KeyDirectory :=
  if trim text = "" then .error .noDefaultKey else withCurrent dir keys (trim text)

/-- The line end behind an id is left out with the blanks. -/
theorem named_newline (dir : ByteArray) (keys : List (String × ByteArray)) (id : String) :
    named dir keys (id ++ "\n") = named dir keys id := by
  have hline : "\n" = String.singleton '\n' := by decide
  rw [named, named, hline, trim_append_of_isBlank (by decide)]

/-- A directory has a text that names its current key, and it and all key files can be read. -/
structure Readable (t : FileTree) (dir : ByteArray) (p : Place) (text : String) : Prop where
  size_ne_zero : dir.size ≠ 0
  enters : t.Enters dir p
  fits : Fits dir currentName
  current : ∃ isPrivate,
    t.get? (p ++ [currentName.toUTF8]) = some (.file text.toUTF8 isPrivate)
  keys : ∀ name, isKeyName name = true → (t.get? (p ++ [name])).isSome = true →
    ∃ id key, name = (keyName id).toUTF8 ∧ checkId id = .ok () ∧ Fits dir (keyName id) ∧
      keyFile? t p id = some key ∧ key.size = keySize

theorem Readable.readCurrent {text : String} (h : Readable t dir p text) :
    readCurrent t dir = if trim text = "" then .error .noDefaultKey else .ok (some (trim text)) := by
  obtain ⟨isPrivate, hfile⟩ := h.current
  have hhas : t.has (currentPath dir) = true :=
    (has_join_iff plain_currentName).2 ⟨h.fits, p, h.enters, by rw [hfile]; rfl⟩
  have hread : t.read (currentPath dir) = .ok text.toUTF8 :=
    (read_join_eq_ok_iff plain_currentName).2 ⟨h.fits, p, h.enters, isPrivate, hfile⟩
  have htext : t.readText (currentPath dir) = .ok text := by
    rw [readText, hread, ok_bind, Utf8.decode_toUTF8]
    rfl
  simp only [KeyDirectory.readCurrent, hhas, not_true_eq_false, if_false, liftFile_eq_ok_iff.2 htext,
    ok_bind]
  split_ifs <;> rfl

theorem Readable.load {text : String} (h : Readable t dir p text) :
    ∃ keys, (∀ id, keys.lookup id = keyFile? t p id) ∧
      KeyDirectory.load t dir = named dir keys text := by
  have hdir := hasDirectory_of_fits h.size_ne_zero h.fits h.enters
  obtain ⟨keys, hkeys⟩ := exists_readKeys t dir (t.names p) [] fun name hname hkey => by
    obtain ⟨id, key, hread⟩ := h.keys name hkey (mem_names_iff.1 hname)
    exact ⟨(id, key), (readKey_eq_ok_iff h.enters hkey).2 hread⟩
  refine ⟨keys, lookup_of_readKeys_names h.enters hkeys, ?_⟩
  rw [KeyDirectory.load, if_pos hdir, list_eq_names hdir h.enters]
  show loadListed t dir (t.names p) = named dir keys text
  rw [loadListed_eq, hkeys, ok_bind, h.readCurrent, named]
  split_ifs <;> rfl

end ColumnVault.KeyDirectory
