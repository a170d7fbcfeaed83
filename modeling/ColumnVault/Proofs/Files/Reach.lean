import ColumnVault.Proofs.Files.Entries

/-! How far paths reach. A file of a directory can be written unless a directory is in its place or its
path is too long; and a path is made longer, without leading elsewhere, by slashes at its end. -/

namespace ColumnVault.FileTree

variable {t t' : FileTree} {dir content : ByteArray} {name other : String} {p q : Place}

/-! ### Paths that are too long -/

theorem zero_mem_toList_join (dir name : ByteArray) : 0 ∈ (join dir name).data.toList ↔
    0 ∈ dir.data.toList ∨ 0 ∈ name.data.toList := by
  have hslash : (0 : UInt8) ≠ slash := by decide
  rcases toList_join dir name with ⟨hdir, hbytes⟩ | ⟨before, hdir, hbytes⟩ | ⟨-, hbytes⟩
  · rw [hbytes, hdir]
    simp
  · rw [hbytes, hdir]
    simp [hslash]
  · rw [hbytes]
    simp [hslash]

/-- A path that has room for one name has no room for another only if it gets too long. -/
theorem maxPath_lt_of_not_fits (hfits : Fits dir name) (hother : Plain other)
    (hsize : other.toUTF8.size ≤ maxName) (h : ¬Fits dir other) :
    maxPath < (join dir other.toUTF8).size := by
  by_contra hle
  refine h ⟨checkPath_eq_ok_iff.2 ⟨fun hnul => ?_, Nat.not_lt.1 hle⟩, hsize⟩
  obtain ⟨hdir, -⟩ := checkPath_eq_ok_iff.1 hfits.path
  rw [zero_mem_toList_join] at hdir hnul
  exact hnul.elim (fun hd => hdir (.inl hd)) hother.noNul

/-! ### Writing where nothing is in the way -/

theorem write_join_of_fits (hname : Plain name) (hfits : Fits dir name) (henters : t.Enters dir p)
    (hget : t.get? (p ++ [name.toUTF8]) ≠ some .directory) (content : ByteArray) :
    ∃ t', t.write (join dir name.toUTF8) content = .ok t' := by
  rw [write, (resolve_join_eq_ok_iff hname).2 ⟨hfits, p, henters, rfl⟩, ok_bind]
  cases he : t.get? (p ++ [name.toUTF8]) with
  | none => exact ⟨_, rfl⟩
  | some e =>
    cases e with
    | directory => exact absurd he hget
    | file => exact ⟨_, rfl⟩

theorem writeAs_join_of_fits (hname : Plain name) (hfits : Fits dir name) (henters : t.Enters dir p)
    (hget : t.get? (p ++ [name.toUTF8]) ≠ some .directory) (content : ByteArray) (isPrivate : Bool) :
    ∃ t', t.writeAs (join dir name.toUTF8) content isPrivate = .ok t' := by
  obtain ⟨s, hs⟩ := write_join_of_fits hname hfits henters hget content
  have hkeeps := ((write_join hname hs).wrote_at henters).keeps
  rw [writeAs, hs, ok_bind,
    (resolve_join_eq_ok_iff hname).2 ⟨hfits, p, hkeeps.enters henters, rfl⟩, ok_bind]
  exact ⟨_, rfl⟩

/-- What is written with a privacy has it afterwards. -/
theorem get?_of_writeAs_join (hname : Plain name) (henters : t.Enters dir p) {isPrivate : Bool}
    (h : t.writeAs (join dir name.toUTF8) content isPrivate = .ok t') :
    t'.get? (p ++ [name.toUTF8]) = some (.file content isPrivate) := by
  rw [writeAs] at h
  obtain ⟨s, hs, h⟩ := bind_eq_ok h
  obtain ⟨q, hq, h⟩ := bind_eq_ok h
  cases h
  have hkeeps := ((write_join hname hs).wrote_at henters).keeps
  obtain ⟨-, p', henters', rfl⟩ := (resolve_join_eq_ok_iff hname).1 hq
  obtain rfl := (hkeeps.enters henters).unique henters'
  rw [get?_put (append_singleton_ne_nil p _), if_pos rfl]

/-! ### Making directories that are there -/

theorem directory_of_walk {names : List ByteArray} (h : t.walk p names = .ok q)
    (hq : t.get? q = some .directory) : t.get? p = some .directory := by
  cases names with
  | nil =>
    cases h
    exact hq
  | cons name rest =>
    rw [walk] at h
    split at h
    · cases h
    · cases h
    · next hp => exact hp

theorem makeWalk_of_walk {names : List ByteArray} (h : t.walk p names = .ok q)
    (hq : t.get? q = some .directory) : t.makeWalk p names = (.ok (), t) := by
  induction names generalizing p with
  | nil => rfl
  | cons name rest ih =>
    have hp := directory_of_walk h hq
    rw [walk, hp] at h
    obtain ⟨r, hr, hrest⟩ := bind_eq_ok h
    rw [makeWalk, hr]
    dsimp only
    rw [directory_of_walk hrest hq]
    exact ih hrest

/-- Making a directory that is there changes nothing. -/
theorem makeDirectories_of_enters (hdir : t.hasDirectory dir = true) :
    t.makeDirectories dir = (.ok (), t) := by
  obtain ⟨hsize, hcheck, p, henters⟩ := hasDirectory_iff.1 hdir
  have hmake : t.makeWalk (t.origin dir) (makableSteps (steps dir)) = (.ok (), t) := by
    rw [makableSteps]
    split_ifs
    · -- the steps up to the last that leads elsewhere end in a directory on the way
      have hwalk := henters.walk
      rw [← List.take_append_drop _ (steps dir), walk_append] at hwalk
      obtain ⟨r, hr, hrest⟩ := bind_eq_ok hwalk
      exact makeWalk_of_walk hr (directory_of_walk hrest henters.directory)
    · exact makeWalk_of_walk henters.walk henters.directory
  rw [makeDirectories, if_neg hsize, hcheck]
  dsimp only
  rw [hmake]
  dsimp only
  rw [find, resolve_eq_ok_iff.2 ⟨hsize, hcheck, henters.walk⟩, ok_bind, henters.directory]
  rfl

/-! ### Slashes at the end of a path -/

/-- A path with slashes behind it. -/
def padded (dir : ByteArray) : Nat → ByteArray
  | 0 => dir
  | n + 1 => (padded dir n).push slash

theorem size_padded (dir : ByteArray) (n : Nat) : (padded dir n).size = dir.size + n := by
  induction n with
  | zero => rfl
  | succ n ih => rw [padded, ByteArray.size_push, ih, Nat.add_assoc]

theorem size_padded_ne_zero (hdir : dir.size ≠ 0) (n : Nat) : (padded dir n).size ≠ 0 := by
  rw [size_padded]
  exact fun h => hdir (Nat.add_eq_zero_iff.1 h).1

theorem toList_push_slash (dir : ByteArray) : (dir.push slash).data.toList = dir.data.toList ++ [slash] := by
  rw [ByteArray.data_push, Array.toList_push]

theorem Enters.push_slash (h : t.Enters dir p) (hdir : dir.size ≠ 0) : t.Enters (dir.push slash) p := by
  have hbytes := toList_push_slash dir
  have hne : dir.data.toList ≠ [] := fun hnil => hdir (congrArg List.length hnil)
  have horigin : t.origin (dir.push slash) = t.origin dir :=
    t.origin_of_prefix hne (hbytes ▸ List.prefix_append _ _)
  have hsteps : steps (dir.push slash) = steps dir ++ [ByteArray.empty] := by
    rw [steps, hbytes, splitSlashes_append_slash, List.map_append, ← steps]
    rfl
  refine ⟨?_, h.directory⟩
  rw [horigin, hsteps, walk_append, h.walk, ok_bind, walk_singleton_eq_ok_iff]
  exact ⟨h.directory, if_pos (.inl rfl)⟩

theorem Enters.padded (h : t.Enters dir p) (hdir : dir.size ≠ 0) (n : Nat) :
    t.Enters (padded dir n) p := by
  induction n with
  | zero => exact h
  | succ n ih => exact ih.push_slash (size_padded_ne_zero hdir n)

/-- A name goes right behind the slashes. -/
theorem join_padded (dir name : ByteArray) (n : Nat) :
    join (padded dir (n + 1)) name = padded dir (n + 1) ++ name := by
  refine if_pos (.inr ?_)
  rw [padded, toList_push_slash]
  exact List.getLast?_concat

theorem size_join_padded (dir name : ByteArray) (n : Nat) :
    (join (padded dir (n + 1)) name).size = dir.size + (n + 1) + name.size := by
  rw [join_padded, ByteArray.size_append, size_padded]

theorem zero_notMem_padded (h : 0 ∉ dir.data.toList) (n : Nat) : 0 ∉ (padded dir n).data.toList := by
  induction n with
  | zero => exact h
  | succ n ih =>
    rw [padded, toList_push_slash, List.mem_append]
    exact fun hmem => hmem.elim ih (by decide)

/-- Slashes leave room for a name until the path is as long as a path may be. -/
theorem fits_padded_iff (hdir : 0 ∉ dir.data.toList) (hname : Plain name) (n : Nat) :
    Fits (padded dir (n + 1)) name ↔
      dir.size + (n + 1) + name.toUTF8.size ≤ maxPath ∧ name.toUTF8.size ≤ maxName := by
  have hnul : 0 ∉ (join (padded dir (n + 1)) name.toUTF8).data.toList := by
    rw [zero_mem_toList_join]
    exact fun h => h.elim (zero_notMem_padded hdir _) hname.noNul
  rw [← size_join_padded]
  exact ⟨fun h => ⟨(checkPath_eq_ok_iff.1 h.path).2, h.name⟩,
    fun h => ⟨checkPath_eq_ok_iff.2 ⟨hnul, h.1⟩, h.2⟩⟩

end ColumnVault.FileTree
