import ColumnVault.Proofs.Files.Reach
import ColumnVault.Proofs.Key.Openable
import Mathlib.Data.List.Sort

/-! Reading a directory of keys, whatever the order in which its entries are listed. Every entry with the
name of a key has to be the file of one, and there has to be a current key; the value then has exactly the
keys of these files. The order of the list only decides which of several faults is told. -/

namespace ColumnVault

/-! ### Keys in order are told by looking them up -/

namespace Assoc

variable {β : Type} {a : String} {b : β} {l : List (String × β)}

theorem lookup_eq_some_iff_mem (h : l.Pairwise fun x y => x.1 < y.1) :
    l.lookup a = some b ↔ (a, b) ∈ l := by
  induction l with
  | nil => simp
  | cons e rest ih =>
    obtain ⟨hlt, hrest⟩ := List.pairwise_cons.1 h
    obtain ⟨k, v⟩ := e
    by_cases hk : a = k
    · subst hk
      have hnot : (a, b) ∉ rest := fun hmem => lt_irrefl a (hlt _ hmem)
      simp [hnot, eq_comm]
    · rw [List.lookup_cons, beq_eq_false_iff_ne.2 hk]
      simp [ih hrest, hk]

end Assoc

namespace KeyDirectory

open FileTree Text

variable {t : FileTree} {id : String} {p : Place} {dir name key : ByteArray} {names : List ByteArray}
  {keys keys' : List (String × ByteArray)} {d : KeyDirectory}

/-! ### Entries -/

/-- The entry of a name is the file of a key: the name has the extension of keys, what stands before it is
the text of an id that can name a file, and the file is no further away than paths reach and has the size
of a key. -/
structure KeyEntry (t : FileTree) (dir : ByteArray) (p : Place) (name : ByteArray) (id : String)
    (key : ByteArray) : Prop where
  split : splitExtension name = (id.toUTF8, some keyExtension.toUTF8)
  checked : checkId id = .ok ()
  file : ∃ isPrivate, t.get? (p ++ [name]) = some (.file key isPrivate)
  fits : Fits dir (keyName id)
  size : key.size = keySize

theorem KeyEntry.name_eq (h : KeyEntry t dir p name id key) : name = (keyName id).toUTF8 := by
  refine ByteArray.ext (Array.ext' ?_)
  rw [(eq_of_splitExtension h.split).1, toList_keyName]

theorem KeyEntry.isKeyName (h : KeyEntry t dir p name id key) : isKeyName name = true := by
  rw [KeyDirectory.isKeyName, h.split, decide_eq_true rfl]

theorem keyEntry_iff : KeyEntry t dir p name id key ↔ name = (keyName id).toUTF8 ∧
    checkId id = .ok () ∧ Fits dir (keyName id) ∧ keyFile? t p id = some key ∧ key.size = keySize := by
  constructor
  · intro h
    obtain rfl := h.name_eq
    exact ⟨rfl, h.checked, h.fits,
      keyFile?_eq_some_iff.2 ⟨ne_empty_of_checkId h.checked, h.file⟩, h.size⟩
  · rintro ⟨rfl, hcheck, hfits, hfile, hsize⟩
    exact ⟨splitExtension_keyName (ne_empty_of_checkId hcheck), hcheck,
      (keyFile?_eq_some_iff.1 hfile).2, hfits, hsize⟩

/-- A key is read from exactly the entries that are files of keys. -/
theorem readKey_eq_ok_iff_keyEntry (henters : t.Enters dir p) (hname : isKeyName name = true) :
    readKey t dir name = .ok (id, key) ↔ KeyEntry t dir p name id key := by
  rw [readKey_eq_ok_iff henters hname, keyEntry_iff]

/-- A list names the entries at a place, in any order. -/
def Lists (t : FileTree) (p : Place) (names : List ByteArray) : Prop :=
  ∀ name, name ∈ names ↔ (t.get? (p ++ [name])).isSome = true

theorem lists_names (t : FileTree) (p : Place) : Lists t p (t.names p) :=
  fun _ => mem_names_iff

/-- Every entry at a place that has the name of a key is the file of one. -/
def AllKeys (t : FileTree) (dir : ByteArray) (p : Place) : Prop :=
  ∀ name, isKeyName name = true → (t.get? (p ++ [name])).isSome = true →
    ∃ id key, KeyEntry t dir p name id key

/-- Some keys are those of the files at a place, in the order of their ids. -/
structure KeysOf (t : FileTree) (dir : ByteArray) (p : Place) (keys : List (String × ByteArray)) : Prop where
  ordered : keys.Pairwise fun x y => x.1 < y.1
  mem_iff : ∀ id key, (id, key) ∈ keys ↔ ∃ name, KeyEntry t dir p name id key

theorem KeysOf.unique (h : KeysOf t dir p keys) (h' : KeysOf t dir p keys') : keys = keys' := by
  have hirrefl : Std.Irrefl fun x y : String × ByteArray => x.1 < y.1 := ⟨fun x => lt_irrefl x.1⟩
  refine h.ordered.eq_of_mem_iff h'.ordered fun e => ?_
  rw [h.mem_iff, h'.mem_iff]

/-! ### Reading keys -/

/-- Keys can be read from a list of entries exactly if each of them that has the name of a key is the file
of one. -/
theorem exists_readKeys_iff (henters : t.Enters dir p) :
    (∃ keys', readKeys t dir names keys = .ok keys') ↔
      ∀ name ∈ names, isKeyName name = true → ∃ id key, KeyEntry t dir p name id key := by
  induction names generalizing keys with
  | nil => simp [readKeys]
  | cons name rest ih =>
    rw [readKeys, List.forall_mem_cons]
    split_ifs with hname
    · simp only [hname, true_imp_iff, ← readKey_eq_ok_iff_keyEntry henters hname]
      cases hread : readKey t dir name with
      | error e => simp
      | ok e =>
        rw [ok_bind]
        exact ih.trans (and_iff_right ⟨e.1, e.2, rfl⟩).symm
    · simpa [hname] using ih

theorem keysOf_of_readKeys (henters : t.Enters dir p) (hnames : Lists t p names)
    (h : readKeys t dir names [] = .ok keys) : KeysOf t dir p keys := by
  have hkept := wellKept_of_readKeys henters wellKept_nil h
  refine ⟨hkept.ordered, fun id key => ⟨fun hmem => ?_, ?_⟩⟩
  · have hlookup := (Assoc.lookup_eq_some_iff_mem hkept.ordered).2 hmem
    rw [lookup_of_readKeys henters h, List.lookup_nil] at hlookup
    split_ifs at hlookup with hlisted
    obtain ⟨i, k, hentry⟩ := (exists_readKeys_iff henters).1 ⟨keys, h⟩ _ hlisted.2
      (isKeyName_keyName hlisted.1)
    obtain ⟨heq, hcheck, hfits, hfile, hsize⟩ := keyEntry_iff.1 hentry
    obtain rfl := keyName_injective heq
    obtain rfl := Option.some.inj (hfile.symm.trans hlookup)
    exact ⟨_, hentry⟩
  · rintro ⟨name, hentry⟩
    obtain ⟨rfl, hcheck, -, hfile, -⟩ := keyEntry_iff.1 hentry
    obtain ⟨isPrivate, hget⟩ := hentry.file
    have hlisted := (hnames _).2 (by rw [hget]; rfl)
    rw [← Assoc.lookup_eq_some_iff_mem hkept.ordered, lookup_of_readKeys henters h,
      if_pos ⟨ne_empty_of_checkId hcheck, hlisted⟩, hfile]

/-- What is read does not depend on the order in which the entries are listed. -/
theorem readKeys_eq_ok_iff (henters : t.Enters dir p) (hnames : Lists t p names) :
    readKeys t dir names [] = .ok keys ↔ AllKeys t dir p ∧ KeysOf t dir p keys := by
  have hall : (∃ keys', readKeys t dir names [] = .ok keys') ↔ AllKeys t dir p := by
    rw [exists_readKeys_iff henters]
    exact ⟨fun h name hname hsome => h name ((hnames name).2 hsome) hname,
      fun h name hmem hname => h name hname ((hnames name).1 hmem)⟩
  constructor
  · intro h
    exact ⟨hall.1 ⟨keys, h⟩, keysOf_of_readKeys henters hnames h⟩
  · rintro ⟨hkeys, hof⟩
    obtain ⟨keys', h⟩ := hall.2 hkeys
    rwa [hof.unique (keysOf_of_readKeys henters hnames h)]

/-! ### The current key -/

/-- There is no entry `current` at a place that the path of a directory reaches. -/
def NoCurrent (t : FileTree) (dir : ByteArray) (p : Place) : Prop :=
  ¬(Fits dir currentName ∧ (t.get? (p ++ [currentName.toUTF8])).isSome = true)

/-- The entry `current` at a place is a file with a text, and the path of a directory reaches it. -/
def CurrentText (t : FileTree) (dir : ByteArray) (p : Place) (text : String) : Prop :=
  Fits dir currentName ∧
    ∃ isPrivate, t.get? (p ++ [currentName.toUTF8]) = some (.file text.toUTF8 isPrivate)

theorem readText_join_eq_ok_iff {text name : String} (hname : Plain name) (henters : t.Enters dir p) :
    t.readText (join dir name.toUTF8) = .ok text ↔ Fits dir name ∧
      ∃ isPrivate, t.get? (p ++ [name.toUTF8]) = some (.file text.toUTF8 isPrivate) := by
  have hread : t.read (join dir name.toUTF8) = .ok text.toUTF8 ↔ Fits dir name ∧
      ∃ isPrivate, t.get? (p ++ [name.toUTF8]) = some (.file text.toUTF8 isPrivate) := by
    rw [read_join_eq_ok_iff hname]
    exact and_congr_right fun _ => ⟨fun ⟨q, hq, h⟩ => hq.unique henters ▸ h, fun h => ⟨p, henters, h⟩⟩
  rw [← hread, readText]
  constructor
  · intro h
    obtain ⟨content, hcontent, h⟩ := bind_eq_ok h
    split at h
    · next s hs =>
      cases h
      rw [hcontent, Utf8.decode_eq_ok_iff.1 hs]
    · cases h
  · intro h
    rw [h, ok_bind, Utf8.decode_toUTF8]
    rfl

theorem readCurrent_eq (t : FileTree) (dir : ByteArray) : readCurrent t dir =
    if t.has (currentPath dir) then
      liftFile (t.readText (currentPath dir)) >>= fun text =>
        if trim text = "" then .error .noDefaultKey else .ok (some (trim text))
    else .ok none := by
  rw [readCurrent]
  split_ifs with h
  · rfl
  · rfl

theorem has_currentPath_iff (henters : t.Enters dir p) :
    t.has (currentPath dir) = true ↔ ¬NoCurrent t dir p := by
  rw [NoCurrent, not_not, currentPath, has_join_iff plain_currentName]
  exact and_congr_right fun _ => ⟨fun ⟨q, hq, h⟩ => hq.unique henters ▸ h, fun h => ⟨p, henters, h⟩⟩

theorem readCurrent_eq_none_iff (henters : t.Enters dir p) :
    readCurrent t dir = .ok none ↔ NoCurrent t dir p := by
  rw [readCurrent_eq, ← not_iff_not, ← has_currentPath_iff henters]
  split_ifs with h
  · refine iff_of_true (fun hok => ?_) h
    obtain ⟨text, -, hok⟩ := bind_eq_ok hok
    split_ifs at hok
    cases hok
  · exact iff_of_false (fun hnot => hnot rfl) h

theorem readCurrent_eq_some_iff (henters : t.Enters dir p) :
    readCurrent t dir = .ok (some id) ↔ id ≠ "" ∧ ∃ text, CurrentText t dir p text ∧ trim text = id := by
  have htext (text : String) : liftFile (t.readText (currentPath dir)) = .ok text ↔
      CurrentText t dir p text := by
    rw [liftFile_eq_ok_iff, currentPath, readText_join_eq_ok_iff plain_currentName henters, CurrentText]
  rw [readCurrent_eq]
  split_ifs with h
  · simp only [bind_eq_ok_iff, htext]
    constructor
    · rintro ⟨text, hcurrent, hid⟩
      split_ifs at hid with hempty
      cases hid
      exact ⟨hempty, text, hcurrent, rfl⟩
    · rintro ⟨hne, text, hcurrent, rfl⟩
      exact ⟨text, hcurrent, if_neg hne⟩
  · refine iff_of_false nofun ?_
    rintro ⟨-, text, ⟨hfits, isPrivate, hfile⟩, -⟩
    exact h ((has_currentPath_iff henters).2 fun hnot => hnot ⟨hfits, by rw [hfile]; rfl⟩)

/-- The current key of a directory is the one that the text of `current` names, blanks at its ends left
out, or the only one if there is no such entry. -/
def Chosen (t : FileTree) (dir : ByteArray) (p : Place) (id : String) : Prop :=
  (∃ name key, KeyEntry t dir p name id key) ∧
    ((∃ text, CurrentText t dir p text ∧ trim text = id) ∨
      NoCurrent t dir p ∧ ∀ name, isKeyName name = true → (t.get? (p ++ [name])).isSome = true →
        name = (keyName id).toUTF8)

theorem KeysOf.isSome_lookup_iff (h : KeysOf t dir p keys) :
    (keys.lookup id).isSome = true ↔ ∃ name key, KeyEntry t dir p name id key := by
  rw [Option.isSome_iff_exists, exists_comm]
  exact exists_congr fun key => (Assoc.lookup_eq_some_iff_mem h.ordered).trans (h.mem_iff id key)

/-- There is one key only if all entries with the name of a key have the same name. -/
theorem KeysOf.eq_singleton_iff (h : KeysOf t dir p keys) (hall : AllKeys t dir p) :
    (∃ key, keys = [(id, key)]) ↔ (∃ name key, KeyEntry t dir p name id key) ∧
      ∀ name, isKeyName name = true → (t.get? (p ++ [name])).isSome = true →
        name = (keyName id).toUTF8 := by
  constructor
  · rintro ⟨key, rfl⟩
    refine ⟨?_, fun name hname hsome => ?_⟩
    · obtain ⟨name, hentry⟩ := (h.mem_iff id key).1 List.mem_cons_self
      exact ⟨name, key, hentry⟩
    · obtain ⟨i, k, hentry⟩ := hall name hname hsome
      have hmem := (h.mem_iff i k).2 ⟨name, hentry⟩
      cases List.mem_singleton.1 hmem
      exact hentry.name_eq
  · rintro ⟨⟨name, key, hentry⟩, honly⟩
    have hmem := (h.mem_iff id key).2 ⟨name, hentry⟩
    refine ⟨key, KeysOf.unique h ⟨List.pairwise_singleton _ _, fun i k => ?_⟩⟩
    rw [List.mem_singleton, ← h.mem_iff]
    refine ⟨fun heq => heq ▸ hmem, fun hik => ?_⟩
    obtain ⟨name', hentry'⟩ := (h.mem_iff i k).1 hik
    obtain ⟨isPrivate, hget⟩ := hentry'.file
    have heq := honly name' hentry'.isKeyName (by rw [hget]; rfl)
    obtain rfl := keyName_injective (hentry'.name_eq.symm.trans heq)
    have hl := (Assoc.lookup_eq_some_iff_mem h.ordered).2 hik
    rw [(Assoc.lookup_eq_some_iff_mem h.ordered).2 hmem] at hl
    rw [Option.some.inj hl]

/-! ### Reading a directory -/

/-- What is made of the keys of a directory and of its file `current`. -/
def settle (t : FileTree) (dir : ByteArray) (keys : List (String × ByteArray)) :
    Except KeySourceError KeyDirectory := do
  match ← readCurrent t dir, keys with
  | some id, _ => withCurrent dir keys id
  | none, [(id, _)] => withCurrent dir keys id
  | none, _ => .error .noDefaultKey

theorem settle_eq_ok_iff (henters : t.Enters dir p) (hall : AllKeys t dir p)
    (hkeys : KeysOf t dir p keys) :
    settle t dir keys = .ok d ↔ d.dir = dir ∧ d.keys = keys ∧ Chosen t dir p d.current := by
  rw [settle, bind_eq_ok_iff]
  constructor
  · rintro ⟨current, hcurrent, h⟩
    cases current with
    | some id =>
      obtain ⟨hsome, rfl⟩ := withCurrent_eq_ok_iff.1 h
      exact ⟨rfl, rfl, hkeys.isSome_lookup_iff.1 hsome,
        .inl ((readCurrent_eq_some_iff henters).1 hcurrent).2⟩
    | none =>
      split at h
      · next heq => cases heq
      · next id key _ =>
        obtain ⟨-, rfl⟩ := withCurrent_eq_ok_iff.1 h
        obtain ⟨hentry, honly⟩ := (hkeys.eq_singleton_iff hall).1 ⟨key, rfl⟩
        exact ⟨rfl, rfl, hentry, .inr ⟨(readCurrent_eq_none_iff henters).1 hcurrent, honly⟩⟩
      · cases h
  · obtain ⟨dir', keys', id⟩ := d
    rintro ⟨hdir, hsame, hentry, hchosen⟩
    dsimp only at hdir hsame hentry hchosen
    subst hdir hsame
    have hwith : withCurrent dir' keys' id = .ok ⟨dir', keys', id⟩ :=
      withCurrent_eq_ok_iff.2 ⟨hkeys.isSome_lookup_iff.2 hentry, rfl⟩
    obtain htext | ⟨hnone, honly⟩ := hchosen
    · obtain ⟨name, key, hkey⟩ := hentry
      exact ⟨_, (readCurrent_eq_some_iff henters).2 ⟨ne_empty_of_checkId hkey.checked, htext⟩, hwith⟩
    · obtain ⟨key, rfl⟩ := (hkeys.eq_singleton_iff hall).2 ⟨hentry, honly⟩
      exact ⟨none, (readCurrent_eq_none_iff henters).2 hnone, hwith⟩

/-- A value is read from a list of the entries exactly if all of them with the name of a key are files of
keys and there is a current key; it has these keys, in the order of their ids, and that current one. -/
theorem loadListed_eq_ok_iff (henters : t.Enters dir p) (hnames : Lists t p names) :
    loadListed t dir names = .ok d ↔ AllKeys t dir p ∧ d.dir = dir ∧ KeysOf t dir p d.keys ∧
      Chosen t dir p d.current := by
  have hsettle : loadListed t dir names = readKeys t dir names [] >>= settle t dir :=
    loadListed_eq t dir names
  rw [hsettle, bind_eq_ok_iff]
  simp only [readKeys_eq_ok_iff henters hnames]
  constructor
  · rintro ⟨keys, ⟨hall, hkeys⟩, h⟩
    obtain ⟨hdir, rfl, hchosen⟩ := (settle_eq_ok_iff henters hall hkeys).1 h
    exact ⟨hall, hdir, hkeys, hchosen⟩
  · rintro ⟨hall, hdir, hkeys, hchosen⟩
    exact ⟨d.keys, ⟨hall, hkeys⟩, (settle_eq_ok_iff henters hall hkeys).2 ⟨hdir, rfl, hchosen⟩⟩

theorem exists_loadListed_iff (henters : t.Enters dir p) (hnames : Lists t p names) :
    (∃ d, loadListed t dir names = .ok d) ↔ AllKeys t dir p ∧ ∃ id, Chosen t dir p id := by
  simp only [loadListed_eq_ok_iff henters hnames]
  constructor
  · rintro ⟨d, hall, -, -, hchosen⟩
    exact ⟨hall, d.current, hchosen⟩
  · rintro ⟨hall, id, hchosen⟩
    obtain ⟨keys, hread⟩ : ∃ keys, readKeys t dir names [] = .ok keys :=
      (exists_readKeys_iff henters).2 fun name hname hkey => hall name hkey ((hnames name).1 hname)
    exact ⟨⟨dir, keys, id⟩, hall, rfl, keysOf_of_readKeys henters hnames hread, hchosen⟩

theorem load_eq_loadListed (hdir : t.hasDirectory dir = true) (henters : t.Enters dir p) :
    load t dir = loadListed t dir (t.names p) := by
  rw [load, if_pos hdir, list_eq_names hdir henters]
  rfl

/-- The keys that are read are those of the files, each once. -/
theorem KeysOf.perm (h : KeysOf t dir p keys) (hall : AllKeys t dir p) (hnames : Lists t p names)
    (hnodup : names.Nodup) :
    (keys.map fun e => (keyName e.1).toUTF8).Perm (names.filter (isKeyName ·)) := by
  have hdistinct : (keys.map fun e => (keyName e.1).toUTF8).Nodup :=
    List.pairwise_map.2 (h.ordered.imp fun hlt heq => hlt.ne (keyName_injective heq))
  refine (List.perm_ext_iff_of_nodup hdistinct (hnodup.filter _)).2 fun name => ?_
  rw [List.mem_map, List.mem_filter, hnames]
  constructor
  · rintro ⟨⟨id, key⟩, hmem, rfl⟩
    obtain ⟨name, hentry⟩ := (h.mem_iff id key).1 hmem
    obtain ⟨isPrivate, hget⟩ := hentry.file
    rw [← hentry.name_eq, hget]
    exact ⟨rfl, hentry.isKeyName⟩
  · rintro ⟨hsome, hname⟩
    obtain ⟨id, key, hentry⟩ := hall name hname hsome
    exact ⟨(id, key), (h.mem_iff id key).2 ⟨name, hentry⟩, hentry.name_eq.symm⟩

/-- Reading a directory, whose entries may be listed in any order. It comes off exactly if every entry with
the extension of keys is the file of a key, of 32 bytes, under an id that passes its check, and `current`
is a text that names one of these keys, or the path reaches no entry `current` and there is one key. What
is read is the same for every order: one key for each of these files, with its bytes. -/
theorem load_exact (t : FileTree) (dir : ByteArray) (hdir : t.hasDirectory dir = true) :
    ∃ p, t.Enters dir p ∧ ∀ names, Lists t p names →
      ((∃ d, loadListed t dir names = .ok d) ↔
        (∀ name ∈ names, (splitExtension name).2 = some "key".toUTF8 →
          ∃ id key, KeyEntry t dir p name id key) ∧ ∃ id, Chosen t dir p id) ∧
      ∀ d, loadListed t dir names = .ok d → load t dir = .ok d ∧ d.dir = dir ∧
        Chosen t dir p d.current ∧ d.keys.Pairwise (fun x y => x.1 < y.1) ∧
        (∀ id key, (id, key) ∈ d.keys ↔ ∃ name, KeyEntry t dir p name id key) ∧
        (names.Nodup → (d.keys.map fun e => (keyName e.1).toUTF8).Perm (names.filter (isKeyName ·))) := by
  obtain ⟨-, -, p, henters⟩ := hasDirectory_iff.1 hdir
  refine ⟨p, henters, fun names hnames => ⟨?_, fun d hd => ?_⟩⟩
  · rw [exists_loadListed_iff henters hnames]
    refine and_congr_left fun _ => ⟨fun hall name hmem hname => ?_, fun hall name hname hsome => ?_⟩
    · exact hall name (decide_eq_true hname) ((hnames name).1 hmem)
    · exact hall name ((hnames name).2 hsome) (of_decide_eq_true hname)
  · have hread := (loadListed_eq_ok_iff henters hnames).1 hd
    have hload : load t dir = .ok d := by
      rw [load_eq_loadListed hdir henters, loadListed_eq_ok_iff henters (lists_names t p)]
      exact hread
    obtain ⟨hall, hpath, hkeys, hchosen⟩ := hread
    exact ⟨hload, hpath, hchosen, hkeys.ordered, hkeys.mem_iff, hkeys.perm hall hnames⟩

/-- A directory with two keys, a name that is all extension, a name that is no text, and blanks around the id
in `current`. -/
def mixedEntries : FileTree :=
  ⟨[(["keys".toUTF8], .directory),
    (["keys".toUTF8, "b.key".toUTF8], .file (Bytes.replicate 32 1) true),
    (["keys".toUTF8, ".key".toUTF8], .directory),
    (["keys".toUTF8, ⟨#[0xff]⟩], .file .empty false),
    (["keys".toUTF8, "a.b.key".toUTF8], .file (Bytes.replicate 32 2) false),
    (["keys".toUTF8, "current".toUTF8], .file " a.b\n\n".toUTF8 false)], []⟩

theorem load_exact_reversed :
    let d : KeyDirectory :=
      ⟨"keys".toUTF8, [("a.b", Bytes.replicate 32 2), ("b", Bytes.replicate 32 1)], "a.b"⟩
    mixedEntries.hasDirectory "keys".toUTF8 = true ∧
      loadListed mixedEntries "keys".toUTF8 (mixedEntries.names ["keys".toUTF8]).reverse = .ok d ∧
      load mixedEntries "keys".toUTF8 = .ok d := by
  intro d
  have hdir : mixedEntries.hasDirectory "keys".toUTF8 = true := rfl
  have hread : loadListed mixedEntries "keys".toUTF8 (mixedEntries.names ["keys".toUTF8]).reverse = .ok d :=
    rfl
  obtain ⟨p, henters, hexact⟩ := load_exact mixedEntries "keys".toUTF8 hdir
  obtain rfl : p = ["keys".toUTF8] := henters.unique ⟨rfl, rfl⟩
  have hnames : Lists mixedEntries ["keys".toUTF8] (mixedEntries.names ["keys".toUTF8]).reverse :=
    fun name => List.mem_reverse.trans (lists_names _ _ name)
  exact ⟨hdir, hread, ((hexact _ hnames).2 d hread).1⟩

/-- A directory with one key, and a file that names another as the current one. -/
def currentGone : FileTree :=
  ⟨[(["keys".toUTF8], .directory),
    (["keys".toUTF8, "k.key".toUTF8], .file (Bytes.replicate 32 9) false),
    (["keys".toUTF8, "current".toUTF8], .file "gone\n".toUTF8 false)], []⟩

theorem keyEntry_currentGone (hfits : Fits dir (keyName "k")) :
    KeyEntry currentGone dir ["keys".toUTF8] "k.key".toUTF8 "k" (Bytes.replicate 32 9) :=
  ⟨rfl, rfl, ⟨false, rfl⟩, hfits, rfl⟩

theorem eq_of_isKeyName_currentGone (hname : isKeyName name = true)
    (hsome : (currentGone.get? (["keys".toUTF8] ++ [name])).isSome = true) : name = "k.key".toUTF8 := by
  have hnames : currentGone.names ["keys".toUTF8] = ["k.key".toUTF8, currentName.toUTF8] := rfl
  have hmem := mem_names_iff.2 hsome
  rw [hnames, List.mem_pair] at hmem
  refine hmem.resolve_right ?_
  rintro rfl
  rw [not_isKeyName_currentName] at hname
  cases hname

/-- Under a path that reaches the key file and not `current`, the one key is taken as the current one. -/
theorem load_currentGone_of_not_fits (hdir : dir.size ≠ 0) (henters : currentGone.Enters dir ["keys".toUTF8])
    (hfits : Fits dir (keyName "k")) (hroom : ¬Fits dir currentName) :
    load currentGone dir = .ok ⟨dir, [("k", Bytes.replicate 32 9)], "k"⟩ := by
  have hentry := keyEntry_currentGone hfits
  rw [load_eq_loadListed (hasDirectory_of_fits hdir hfits henters) henters,
    loadListed_eq_ok_iff henters (lists_names _ _)]
  refine ⟨fun name hname hsome => ?_, rfl, ⟨List.pairwise_singleton _ _, fun id key => ?_⟩,
    ⟨_, _, hentry⟩, .inr ⟨fun h => hroom h.1, fun name => eq_of_isKeyName_currentGone⟩⟩
  · rw [eq_of_isKeyName_currentGone hname hsome]
    exact ⟨_, _, hentry⟩
  · rw [List.mem_singleton]
    constructor
    · rintro ⟨⟩
      exact ⟨_, hentry⟩
    · rintro ⟨name, h⟩
      obtain ⟨isPrivate, hget⟩ := h.file
      have hname := eq_of_isKeyName_currentGone h.isKeyName (by rw [hget]; rfl)
      obtain rfl := keyName_injective (h.name_eq.symm.trans (hname.trans hentry.name_eq))
      rw [hname] at hget
      cases hget
      rfl

/-- The id in `current` has no key, so the directory is refused; but under a path that leaves room for the
name of the key file and not for `current`, the one key is taken as the current one. -/
theorem load_passes_over_current :
    let dir := padded "keys".toUTF8 4085
    currentGone.Enters dir ["keys".toUTF8] ∧
      currentGone.get? ["keys".toUTF8, "current".toUTF8] = some (.file "gone\n".toUTF8 false) ∧
      load currentGone "keys".toUTF8 = .error (.keyNotFound "gone") ∧
      load currentGone dir = .ok ⟨dir, [("k", Bytes.replicate 32 9)], "k"⟩ := by
  intro dir
  have hnul : 0 ∉ "keys".toUTF8.data.toList := by decide
  have henters : currentGone.Enters dir ["keys".toUTF8] := Enters.padded ⟨rfl, rfl⟩ (by decide) 4085
  have hfits : Fits dir (keyName "k") :=
    (fits_padded_iff hnul (plain_keyName rfl) 4084).2 (by decide)
  have hroom : ¬Fits dir currentName := by
    rw [fits_padded_iff hnul plain_currentName 4084]
    decide
  have hsize : dir.size ≠ 0 := size_padded_ne_zero (by decide) 4085
  exact ⟨henters, rfl, rfl, load_currentGone_of_not_fits hsize henters hfits hroom⟩

end KeyDirectory

end ColumnVault
