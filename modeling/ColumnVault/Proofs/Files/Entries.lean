import ColumnVault.Proofs.Files.Places

/-! Reading and writing the files of a directory, and making directories: what each operation finds or
changes, told by the place of the directory and the name of the file. -/

namespace ColumnVault.FileTree

variable {t t' : FileTree} {dir content : ByteArray} {name : String} {p q : Place}

theorem Enters.unique (h : t.Enters dir p) (h' : t.Enters dir q) : p = q :=
  Except.ok.inj (h.walk.symm.trans h'.walk)

theorem Enters.at_target (h : t.Enters dir q) (htarget : t.target dir = .ok p) : t.Enters dir p := by
  cases htarget.symm.trans h.target
  exact h

/-! ### Finding files -/

theorem Plain.size_join_ne_zero (h : Plain name) (dir : ByteArray) : (join dir name.toUTF8).size ≠ 0 := by
  have hname : name.toUTF8.data.toList.length ≠ 0 := h.ne_empty
  have hsize : (join dir name.toUTF8).size = (join dir name.toUTF8).data.toList.length := rfl
  rw [hsize]
  rcases toList_join dir name.toUTF8 with ⟨-, hbytes⟩ | ⟨before, -, hbytes⟩ | ⟨-, hbytes⟩
  · rwa [hbytes]
  · rw [hbytes, List.length_append, List.length_cons]
    omega
  · rw [hbytes, List.length_append, List.length_cons]
    omega

theorem walk_singleton_eq_ok_iff {name : ByteArray} :
    t.walk p [name] = .ok q ↔ t.get? p = some .directory ∧ step p name = .ok q := by
  rw [walk]
  split
  · next hp => simp [hp]
  · next hp => simp [hp]
  · next hp =>
    rw [bind_eq_ok_iff]
    simp [hp, walk]

/-- A file of a directory lies where the directory is, behind its own name. -/
theorem resolve_join_eq_ok_iff (h : Plain name) :
    t.resolve (join dir name.toUTF8) = .ok q ↔
      Fits dir name ∧ ∃ p, t.Enters dir p ∧ q = p ++ [name.toUTF8] := by
  rw [resolve_eq_ok_iff, origin_join t dir h, walk_steps_join t _ dir h, bind_eq_ok_iff]
  constructor
  · rintro ⟨-, hpath, p, hp, hq⟩
    obtain ⟨hdirectory, hstep⟩ := walk_singleton_eq_ok_iff.1 hq
    rw [h.step] at hstep
    split_ifs at hstep with hsize
    cases hstep
    exact ⟨⟨hpath, Nat.not_lt.1 hsize⟩, p, ⟨hp, hdirectory⟩, rfl⟩
  · rintro ⟨hfits, p, henters, rfl⟩
    refine ⟨h.size_join_ne_zero dir, hfits.path, p, henters.walk, ?_⟩
    rw [walk_singleton_eq_ok_iff, h.step, if_neg (Nat.not_lt.2 hfits.name)]
    exact ⟨henters.directory, rfl⟩

theorem find_join_eq_ok_iff (h : Plain name) {e : Entry} :
    t.find (join dir name.toUTF8) = .ok e ↔
      Fits dir name ∧ ∃ p, t.Enters dir p ∧ t.get? (p ++ [name.toUTF8]) = some e := by
  rw [find, bind_eq_ok_iff]
  constructor
  · rintro ⟨q, hq, he⟩
    obtain ⟨hfits, p, henters, rfl⟩ := (resolve_join_eq_ok_iff h).1 hq
    split at he
    · next e' he' =>
      cases he
      exact ⟨hfits, p, henters, he'⟩
    · cases he
  · rintro ⟨hfits, p, henters, he⟩
    refine ⟨_, (resolve_join_eq_ok_iff h).2 ⟨hfits, p, henters, rfl⟩, ?_⟩
    rw [he]
    rfl

theorem has_join_iff (h : Plain name) :
    t.has (join dir name.toUTF8) = true ↔
      Fits dir name ∧ ∃ p, t.Enters dir p ∧ (t.get? (p ++ [name.toUTF8])).isSome = true := by
  have hfound : t.has (join dir name.toUTF8) = true ↔ ∃ e, t.find (join dir name.toUTF8) = .ok e := by
    rw [has]
    cases t.find (join dir name.toUTF8) <;> simp [Except.isOk, Except.toBool]
  simp only [hfound, find_join_eq_ok_iff h, Option.isSome_iff_exists]
  constructor
  · rintro ⟨e, hfits, p, henters, he⟩
    exact ⟨hfits, p, henters, e, he⟩
  · rintro ⟨hfits, p, henters, e, he⟩
    exact ⟨e, hfits, p, henters, he⟩

/-- Where no file is found there is none, as long as its path can be followed. -/
theorem get?_eq_none_of_not_has (h : Plain name) (hhas : t.has (join dir name.toUTF8) = false)
    (hfits : Fits dir name) (henters : t.Enters dir p) : t.get? (p ++ [name.toUTF8]) = none := by
  refine Option.not_isSome_iff_eq_none.1 fun hsome => Bool.false_ne_true (hhas.symm.trans ?_)
  exact (has_join_iff h).2 ⟨hfits, p, henters, hsome⟩

theorem read_join_eq_ok_iff (h : Plain name) :
    t.read (join dir name.toUTF8) = .ok content ↔
      Fits dir name ∧ ∃ p, t.Enters dir p ∧
        ∃ isPrivate, t.get? (p ++ [name.toUTF8]) = some (.file content isPrivate) := by
  rw [read, bind_eq_ok_iff]
  constructor
  · rintro ⟨e, he, hcontent⟩
    obtain ⟨hfits, p, henters, he⟩ := (find_join_eq_ok_iff h).1 he
    cases e with
    | directory => cases hcontent
    | file c isPrivate =>
      cases hcontent
      exact ⟨hfits, p, henters, isPrivate, he⟩
  · rintro ⟨hfits, p, henters, isPrivate, he⟩
    exact ⟨_, (find_join_eq_ok_iff h).2 ⟨hfits, p, henters, he⟩, rfl⟩

/-! ### Listing a directory -/

theorem checkPath_of_join (h : checkPath (join dir name.toUTF8) = .ok ()) :
    checkPath dir = .ok () := by
  rw [checkPath_eq_ok_iff] at h ⊢
  have hfront := prefix_join dir name.toUTF8
  exact ⟨fun hnul => h.1 (hfront.mem hnul), Nat.le_trans hfront.length_le h.2⟩

/-- A directory of which the path of some file is not too long. -/
theorem hasDirectory_of_fits (hdir : dir.size ≠ 0) (hfits : Fits dir name) (h : t.Enters dir p) :
    t.hasDirectory dir = true :=
  hasDirectory_iff.2 ⟨hdir, checkPath_of_join hfits.path, p, h⟩

theorem list_eq_names (hdir : t.hasDirectory dir = true) (h : t.Enters dir p) :
    t.list dir = .ok (t.names p) := by
  obtain ⟨hsize, hcheck, -⟩ := hasDirectory_iff.1 hdir
  rw [list, resolve_eq_ok_iff.2 ⟨hsize, hcheck, h.walk⟩, ok_bind, h.directory]
  rfl

/-! ### Writing files -/

/-- The second tree has a file with the content at the place, and all else, with all directories, is as in
the first. -/
structure Wrote (t : FileTree) (q : Place) (content : ByteArray) (t' : FileTree) : Prop where
  keeps : Keeps t t'
  written : ∃ isPrivate, t'.get? q = some (.file content isPrivate)
  others : ∀ r, r ≠ q → t'.get? r = t.get? r

/-- The second tree is the first with the content written to the file of the name in the directory. -/
structure WroteIn (t : FileTree) (dir : ByteArray) (name : String) (content : ByteArray) (t' : FileTree) :
    Prop where
  fits : Fits dir name
  wrote : ∃ p, t.Enters dir p ∧ t.Wrote (p ++ [name.toUTF8]) content t'

theorem WroteIn.wrote_at (h : t.WroteIn dir name content t') (henters : t.Enters dir p) :
    t.Wrote (p ++ [name.toUTF8]) content t' := by
  obtain ⟨q, hq, hwrote⟩ := h.wrote
  rwa [hq.unique henters] at hwrote

/-- The directory that was written to is where its path leads. -/
theorem WroteIn.enters (h : t.WroteIn dir name content t') (htarget : t.target dir = .ok p) :
    t.Enters dir p := by
  obtain ⟨q, hq, -⟩ := h.wrote
  exact hq.at_target htarget

theorem wrote_put (hq : q ≠ []) (h : t.get? q ≠ some .directory) (isPrivate : Bool) :
    t.Wrote q content (t.put q (.file content isPrivate)) := by
  refine ⟨keeps_put hq fun hdir => absurd hdir h, ⟨isPrivate, ?_⟩, fun r hr => ?_⟩
  · rw [get?_put hq, if_pos rfl]
  · rw [get?_put hq, if_neg hr]

theorem Wrote.trans {t'' : FileTree} {c : ByteArray} (h : t.Wrote q c t') (h' : t'.Wrote q content t'') :
    t.Wrote q content t'' :=
  ⟨h.keeps.trans h'.keeps, h'.written, fun r hr => (h'.others r hr).trans (h.others r hr)⟩

theorem Wrote.get?_ne_directory (h : t.Wrote q content t') : t'.get? q ≠ some .directory := by
  obtain ⟨isPrivate, hq⟩ := h.written
  rw [hq]
  rintro ⟨⟩

theorem write_eq_ok {path : ByteArray} (h : t.write path content = .ok t') :
    ∃ q, t.resolve path = .ok q ∧ (q ≠ [] → t.Wrote q content t') := by
  rw [write] at h
  obtain ⟨q, hq, h⟩ := bind_eq_ok h
  refine ⟨q, hq, fun hne => ?_⟩
  split at h
  · cases h
  · next hget =>
    cases h
    exact wrote_put hne (by simp [hget]) _
  · next hget =>
    cases h
    exact wrote_put hne (by simp [hget]) _

theorem write_join (hname : Plain name) (h : t.write (join dir name.toUTF8) content = .ok t') :
    t.WroteIn dir name content t' := by
  obtain ⟨q, hq, hwrote⟩ := write_eq_ok h
  obtain ⟨hfits, p, henters, rfl⟩ := (resolve_join_eq_ok_iff hname).1 hq
  exact ⟨hfits, p, henters, hwrote (append_singleton_ne_nil p _)⟩

theorem writeAs_join (hname : Plain name) {isPrivate : Bool}
    (h : t.writeAs (join dir name.toUTF8) content isPrivate = .ok t') :
    t.WroteIn dir name content t' := by
  rw [writeAs] at h
  obtain ⟨s, hs, h⟩ := bind_eq_ok h
  obtain ⟨q, hq, h⟩ := bind_eq_ok h
  cases h
  obtain ⟨hfits, p, henters, hwrote⟩ := write_join hname hs
  -- the file is where it was when its privacy is set
  obtain ⟨-, p', henters', rfl⟩ := (resolve_join_eq_ok_iff hname).1 hq
  obtain rfl := (hwrote.keeps.enters henters).unique henters'
  exact ⟨hfits, p, henters,
    hwrote.trans (wrote_put (append_singleton_ne_nil p _) hwrote.get?_ne_directory isPrivate)⟩

/-! ### Making directories -/

/-- The second tree has all entries of the first, and besides them only directories at given places. -/
structure Grown (t : FileTree) (places : List Place) (t' : FileTree) : Prop where
  start : t'.start = t.start
  get? : ∀ q, t'.get? q = t.get? q ∨
    t.get? q = none ∧ t'.get? q = some .directory ∧ q ∈ places

theorem Grown.refl (t : FileTree) (places : List Place) : t.Grown places t :=
  ⟨rfl, fun _ => .inl rfl⟩

theorem Grown.mono {places more : List Place} (h : t.Grown places t') (hsub : places ⊆ more) :
    t.Grown more t' :=
  ⟨h.start, fun q => (h.get? q).imp_right fun ⟨hnone, hdir, hq⟩ => ⟨hnone, hdir, hsub hq⟩⟩

theorem Grown.keeps {places : List Place} (h : t.Grown places t') : Keeps t t' := by
  refine ⟨h.start, fun q hq => ?_⟩
  rcases h.get? q with heq | ⟨hnone, -⟩
  · rw [heq, hq]
  · rw [hq] at hnone
    cases hnone

/-- No file comes or goes when a tree grows. -/
theorem Grown.file_iff {places : List Place} (h : t.Grown places t') (q : Place) (isPrivate : Bool) :
    t'.get? q = some (.file content isPrivate) ↔ t.get? q = some (.file content isPrivate) := by
  rcases h.get? q with heq | ⟨hnone, hdir, -⟩
  · rw [heq]
  · simp [hnone, hdir]

theorem Grown.put {places : List Place} (h : (t.put q .directory).Grown places t')
    (hnone : t.get? q = none) (hq : q ∈ places) : t.Grown places t' := by
  have hne : q ≠ [] := by
    rintro rfl
    cases hnone
  refine ⟨h.start, fun r => ?_⟩
  by_cases hr : r = q
  · subst hr
    right
    have hr' : (t.put r .directory).get? r = some .directory := by rw [get?_put hne, if_pos rfl]
    exact ⟨hnone, h.keeps.directory r hr', hq⟩
  · have hr' : (t.put q .directory).get? r = t.get? r := by rw [get?_put hne, if_neg hr]
    rw [← hr']
    exact h.get? r

theorem mem_placesFrom_self (p : Place) (names : List ByteArray) : p ∈ placesFrom p names := by
  cases names with
  | nil => exact List.mem_singleton_self p
  | cons name rest =>
    rw [placesFrom]
    split
    · exact List.mem_cons_self
    · exact List.mem_singleton_self p

theorem placesFrom_take_subset (p : Place) (names : List ByteArray) (n : Nat) :
    placesFrom p (names.take n) ⊆ placesFrom p names := by
  induction names generalizing p n with
  | nil => rw [List.take_nil]; exact List.Subset.refl _
  | cons name rest ih =>
    cases n with
    | zero =>
      intro q hq
      rw [List.mem_singleton.1 hq]
      exact mem_placesFrom_self p _
    | succ n =>
      rw [List.take_succ_cons, placesFrom, placesFrom]
      split
      · exact List.cons_subset_cons p (ih _ n)
      · exact List.Subset.refl _

theorem grown_makeWalk (t : FileTree) (p : Place) (names : List ByteArray) :
    t.Grown (placesFrom p names) (t.makeWalk p names).2 := by
  induction names generalizing t p with
  | nil => exact .refl t _
  | cons name rest ih =>
    rw [makeWalk, placesFrom]
    cases step p name with
    | error fault => exact .refl t _
    | ok q =>
      dsimp only
      split
      · exact (ih t q).mono (List.subset_cons_self p _)
      · exact .refl t _
      · next hnone =>
        exact ((ih _ q).put hnone (mem_placesFrom_self q rest)).mono (List.subset_cons_self p _)

/-- Whatever comes of making a directory, nothing but directories on the way of its path are made. -/
theorem grown_makeDirectories (t : FileTree) (path : ByteArray) :
    t.Grown (t.places path) (t.makeDirectories path).2 := by
  have hmake : t.Grown (t.places path) (t.makeWalk (t.origin path) (makableSteps (steps path))).2 := by
    refine (grown_makeWalk t _ _).mono ?_
    rw [makableSteps]
    split_ifs
    · exact placesFrom_take_subset _ _ _
    · exact List.Subset.refl _
  rw [makeDirectories]
  split_ifs
  · exact .refl t _
  · split
    · exact .refl t _
    · split <;> rename_i hwalk <;> rw [hwalk] at hmake
      · exact hmake
      · split <;> exact hmake

end ColumnVault.FileTree
