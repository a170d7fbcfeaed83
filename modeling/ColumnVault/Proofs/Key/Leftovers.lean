import ColumnVault.Proofs.Key.Listing

/-! What changes of the keys of a directory leave behind. A change that fails leaves the value and all
files as they are, and one that succeeds writes one file. Making a directory writes two, its first key and
then `current`; the second is not written after the first only where its path is too long. -/

namespace ColumnVault

theorem Assoc.perm_putSorted {β : Type} {a : String} {b : β} {l : List (String × β)}
    (h : l.lookup a = none) : (putSorted b a l).Perm ((a, b) :: l) := by
  induction l with
  | nil => exact .refl _
  | cons x rest ih =>
    obtain ⟨k, c⟩ := x
    rw [List.lookup_cons] at h
    rw [putSorted]
    split_ifs with hk hlt
    · rw [beq_iff_eq.2 hk.symm] at h
      cases h
    · exact .refl _
    · rw [beq_eq_false_iff_ne.2 (Ne.symm hk)] at h
      exact ((ih h).cons _).trans (.swap _ _ _)

namespace FileTree

variable {t t' : FileTree} {name : String} {p : Place} {dir content path : ByteArray}

/-- The second tree is the first with one more file, which only its owner may read. -/
structure Added (t : FileTree) (q : Place) (content : ByteArray) (t' : FileTree) : Prop where
  start : t'.start = t.start
  missing : t.get? q = none
  there : t'.get? q = some (.file content true)
  others : ∀ r, r ≠ q → t'.get? r = t.get? r

/-- The file that was added has the name, in the directory. -/
def AddedIn (t : FileTree) (dir : ByteArray) (name : String) (content : ByteArray) (t' : FileTree) : Prop :=
  ∃ p, t.Enters dir p ∧ t.Added (p ++ [name.toUTF8]) content t'

theorem addedIn_of_writeAs_join (hname : Plain name) (hhas : t.has (join dir name.toUTF8) = false)
    (h : t.writeAs (join dir name.toUTF8) content true = .ok t') : t.AddedIn dir name content t' := by
  obtain ⟨hfits, p, henters, hwrote⟩ := writeAs_join hname h
  exact ⟨p, henters, hwrote.keeps.start, get?_eq_none_of_not_has hname hhas hfits henters,
    get?_of_writeAs_join hname henters h, hwrote.others⟩

theorem write_of_maxPath_lt (hnul : 0 ∉ path.data.toList) (hlong : maxPath < path.size)
    (content : ByteArray) : t.write path content = .error .nameTooLong := by
  have hcheck : checkPath path = .error .nameTooLong := by
    rw [checkPath, if_neg (mt List.contains_iff_mem.1 hnul), if_pos hlong]
  rw [write, resolve, if_neg (Nat.ne_zero_of_lt hlong), hcheck]
  rfl

end FileTree

namespace KeyDirectory

open FileTree

variable {t t' : FileTree} {dir : ByteArray} {id : String} {p : Place} {d d' : KeyDirectory}
  {entropy : Entropy} {e : KeySourceError}

/-! ### Changes of a value -/

theorem addedIn_of_generate (h : generate t d id entropy = (.ok (), d', t')) :
    ∃ key rest, entropy.draw keySize = .ok (key, rest) ∧ t.AddedIn d.dir (keyName id) key.val t' ∧
      d.keys.lookup id = none ∧ d' = { d with keys := Assoc.putSorted key.val id d.keys } := by
  obtain ⟨e, ⟨⟩, -⟩ | ⟨key, rest, hcheck, hknown, hhas, hdraw, hwrite, -, rfl⟩ := generate_steps h
  exact ⟨key, rest, hdraw, addedIn_of_writeAs_join (plain_keyName hcheck) hhas hwrite, hknown, rfl⟩

theorem wroteIn_of_setCurrent (h : setCurrent t d id = (.ok (), d', t')) :
    t.WroteIn d.dir currentName (id ++ "\n").toUTF8 t' ∧ d' = { d with current := id } := by
  obtain ⟨e, ⟨⟩, -⟩ | ⟨-, hwrote, -, hd⟩ := setCurrent_cases h
  exact ⟨hwrote, hd⟩

theorem change_of_error {c : Change} (h : (c.run t d).1 = .error e) : change (t, d) c = (t, d) := by
  rw [change, Change.run_of_error h]

/-! ### One change after another -/

/-- Naming a key of a value as current can only fail for the path of `current`, if no directory is in the
place of that file. -/
theorem not_fits_of_setCurrent (h : setCurrent t d id = (.error e, d', t'))
    (hknown : (d.keys.lookup id).isSome = true) (henters : t.Enters d.dir p)
    (hget : t.get? (p ++ [currentName.toUTF8]) ≠ some .directory) : ¬Fits d.dir currentName := by
  intro hfits
  obtain ⟨s, hs⟩ := write_join_of_fits plain_currentName hfits henters hget (id ++ "\n").toUTF8
  have hnone : ¬(d.keys.lookup id).isNone = true := by
    rw [Option.isNone_eq_false_iff.2 hknown]
    exact Bool.false_ne_true
  rw [setCurrent, if_neg hnone, currentPath, hs] at h
  cases h

/-- A file of a drawn key was added in a directory with a path that leaves no room for `current`. -/
def KeyLeft (t : FileTree) (dir : ByteArray) (id : String) (entropy : Entropy) (t' : FileTree) : Prop :=
  maxPath < (currentPath dir).size ∧
    ∃ key rest, entropy.draw keySize = .ok (key, rest) ∧ t.AddedIn dir (keyName id) key.val t'

/-- A key that was made, but then not made current, is left where no directory is in the place of
`current`. -/
theorem keyLeft_of_setCurrent {s : FileTree} {d'' : KeyDirectory}
    (hgenerate : generate t d id entropy = (.ok (), d', s))
    (hset : setCurrent s d' id = (.error e, d'', t'))
    (hget : ∀ p, t.Enters d.dir p → Fits d.dir currentName →
      t.get? (p ++ [currentName.toUTF8]) ≠ some .directory) : KeyLeft t d.dir id entropy t' := by
  obtain ⟨e', ⟨⟩, -⟩ | ⟨_, hgenerated, -⟩ := generate_cases hgenerate
  obtain ⟨key, rest, hdraw, ⟨p, henters, hadded⟩, -, rfl⟩ := addedIn_of_generate hgenerate
  have hne : p ++ [currentName.toUTF8] ≠ p ++ [(keyName id).toUTF8] := fun heq =>
    keyName_ne_currentName (ne_empty_of_checkId hgenerated.checked)
      (List.append_singleton_inj.1 heq).2.symm
  have hknown : ((Assoc.putSorted key.val id d.keys).lookup id).isSome = true := by
    rw [Assoc.lookup_putSorted, if_pos rfl]
    rfl
  have hroom : ¬Fits d.dir currentName := by
    intro hfits
    refine not_fits_of_setCurrent hset hknown ((hgenerated.wrote.wrote_at henters).keeps.enters henters)
      ?_ hfits
    rw [hadded.others _ hne]
    exact hget p henters hfits
  have hlong := maxPath_lt_of_not_fits hgenerated.wrote.fits plain_currentName (by decide) hroom
  obtain ⟨_, -, -, rfl⟩ | ⟨-, -, ⟨⟩, -⟩ := setCurrent_cases hset
  exact ⟨hlong, key, rest, hdraw, p, henters, hadded⟩

/-- When making a directory fails, only directories on its way were made, but for a key that is left. -/
theorem grown_of_init (h : init t dir id entropy = (.error e, t')) :
    t.Grown (t.places dir) t' ∨
      ∃ s, t.Grown (t.places dir) s ∧ KeyLeft s dir id entropy t' := by
  obtain ⟨s, hgrown, ⟨e', -, rfl⟩ | ⟨hhas, d, s', r, d', hgenerate, hset, hr⟩⟩ := init_steps h
  · exact .inl hgrown
  · obtain ⟨cause, rfl⟩ : ∃ cause, r = .error cause := by
      cases r with
      | error cause => exact ⟨cause, rfl⟩
      | ok _ => cases hr
    refine .inr ⟨s, hgrown, keyLeft_of_setCurrent hgenerate hset fun p henters hfits => ?_⟩
    rw [get?_eq_none_of_not_has plain_currentName hhas hfits henters]
    exact nofun

/-- Making a directory of keys where one is, under a path that leaves room for the file of the key and not
for `current`, fails and leaves that file. -/
theorem init_of_maxPath_lt {key : { bytes : ByteArray // bytes.size = keySize }} {rest : Entropy}
    (hcheck : checkId id = .ok ()) (hdir : t.hasDirectory dir = true) (henters : t.Enters dir p)
    (hfits : Fits dir (keyName id)) (hlong : maxPath < (currentPath dir).size)
    (hfresh : t.get? (p ++ [(keyName id).toUTF8]) = none)
    (hdraw : entropy.draw keySize = .ok (key, rest)) :
    ∃ t', init t dir id entropy = (.error (.file .nameTooLong), t') ∧ KeyLeft t dir id entropy t' := by
  have hplain := plain_keyName hcheck
  have hcurrent : t.has (currentPath dir) = false := Bool.eq_false_iff.2 fun hhas =>
    absurd (checkPath_eq_ok_iff.1 ((has_join_iff plain_currentName).1 hhas).1.path).2 (Nat.not_le.2 hlong)
  have hkey : t.has (keyPath dir id) = false := Bool.eq_false_iff.2 fun hhas => by
    obtain ⟨-, q, hq, hsome⟩ := (has_join_iff hplain).1 hhas
    rw [hq.unique henters, hfresh] at hsome
    cases hsome
  obtain ⟨s, hs⟩ := writeAs_join_of_fits hplain hfits henters (by rw [hfresh]; exact nofun) key.val true
  have hgenerate : generate t ⟨dir, [], id⟩ id entropy = (.ok (), ⟨dir, [(id, key.val)], id⟩, s) := by
    have hs : t.writeAs (keyPath dir id) key.val true = .ok s := hs
    simp only [generate, hcheck, hkey, hdraw, hs, List.lookup_nil, Option.isSome_none,
      Bool.false_eq_true, or_self, if_false, Assoc.putSorted]
  have hnul : 0 ∉ (currentPath dir).data.toList := by
    rw [currentPath, zero_mem_toList_join]
    rintro (hzero | hzero)
    · exact (checkPath_eq_ok_iff.1 (hasDirectory_iff.1 hdir).2.1).1 hzero
    · exact plain_currentName.noNul hzero
  refine ⟨s, ?_, hlong, key, rest, hdraw, addedIn_of_writeAs_join hplain hkey hs⟩
  simp only [init, makeDirectories_of_enters hdir, hcurrent, hgenerate, setCurrent, List.lookup_cons_self,
    Option.isNone_some, Bool.false_eq_true, if_false, write_of_maxPath_lt hnul hlong, Except.map]

/-- Where a directory of keys was read, `current` is no directory. -/
theorem current_ne_directory_of_load (h : load t dir = .ok d) (henters : t.Enters dir p)
    (hfits : Fits dir currentName) : t.get? (p ++ [currentName.toUTF8]) ≠ some .directory := by
  have hdir : t.hasDirectory dir = true := by
    rw [load] at h
    split_ifs at h with hdir
    exact hdir
  rw [load_eq_loadListed hdir henters, loadListed_eq_ok_iff henters (lists_names t p)] at h
  obtain ⟨-, -, -, -, ⟨text, ⟨-, isPrivate, hfile⟩, -⟩ | ⟨hnone, -⟩⟩ := h
  · rw [hfile]
    rintro ⟨⟩
  · intro hcurrent
    exact hnone ⟨hfits, by rw [hcurrent]; rfl⟩

end KeyDirectory

end ColumnVault
