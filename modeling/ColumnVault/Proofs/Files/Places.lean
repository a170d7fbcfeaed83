import ColumnVault.Files.Tree
import ColumnVault.Proofs.Bytes.Slice
import ColumnVault.Proofs.Sequencing

/-! Where the paths of files in a directory lead. The place is told by the path alone; the tree only
decides whether it can be reached. What is written at such a path changes that place and no other. -/

namespace ColumnVault.FileTree

/-! ### Places of a tree -/

/-- The second tree begins its paths where the first does and has all its directories. -/
structure Keeps (t t' : FileTree) : Prop where
  start : t'.start = t.start
  directory : ∀ p, t.get? p = some .directory → t'.get? p = some .directory

theorem Keeps.refl (t : FileTree) : Keeps t t :=
  ⟨rfl, fun _ h => h⟩

theorem Keeps.trans {t t' t'' : FileTree} (h : Keeps t t') (h' : Keeps t' t'') : Keeps t t'' :=
  ⟨h'.start.trans h.start, fun p hp => h'.directory p (h.directory p hp)⟩

theorem keeps_put {t : FileTree} {p : Place} (hp : p ≠ []) {e : Entry}
    (h : t.get? p = some .directory → e = .directory) : Keeps t (t.put p e) := by
  refine ⟨rfl, fun q hq => ?_⟩
  rw [get?_put hp]
  split_ifs with hqp
  · rw [h (hqp ▸ hq)]
  · exact hq

theorem append_singleton_ne_nil (p : Place) (name : ByteArray) : p ++ [name] ≠ [] :=
  List.append_ne_nil_of_right_ne_nil p (List.cons_ne_nil name [])

/-- What is listed in a directory is there. -/
theorem mem_names_iff {t : FileTree} {p : Place} {name : ByteArray} :
    name ∈ t.names p ↔ (t.get? (p ++ [name])).isSome = true := by
  rw [names, List.mem_filterMap, get?, if_neg (append_singleton_ne_nil p name), List.lookup_isSome_iff]
  constructor
  · rintro ⟨e, he, h⟩
    split_ifs at h with hp
    have hlast : e.1 ≠ [] := by
      intro hnil
      rw [hnil] at h
      cases h
    rw [List.getLast?_eq_some_getLast hlast, Option.some.injEq] at h
    refine ⟨e, he, ?_⟩
    rw [beq_iff_eq, ← hp, ← h, List.dropLast_concat_getLast]
  · rintro ⟨e, he, h⟩
    rw [beq_iff_eq] at h
    refine ⟨e, he, ?_⟩
    rw [← h, List.dropLast_concat, if_pos rfl, List.getLast?_concat]

/-! ### Walks -/

theorem walk_append (t : FileTree) (p : Place) (a b : List ByteArray) :
    t.walk p (a ++ b) = t.walk p a >>= fun q => t.walk q b := by
  induction a generalizing p with
  | nil => rfl
  | cons name rest ih =>
    rw [List.cons_append, walk, walk]
    split
    · rfl
    · rfl
    · cases step p name with
      | error fault => rfl
      | ok q => exact ih q

/-- A walk ends where its steps lead. -/
theorem foldlM_step_of_walk {t : FileTree} {p q : Place} {names : List ByteArray}
    (h : t.walk p names = .ok q) : names.foldlM step p = .ok q := by
  induction names generalizing p with
  | nil => exact h
  | cons name rest ih =>
    rw [walk] at h
    split at h
    · cases h
    · cases h
    · obtain ⟨r, hr, h⟩ := bind_eq_ok h
      rw [List.foldlM_cons, hr, ok_bind]
      exact ih h

theorem Keeps.walk {t t' : FileTree} (h : Keeps t t') {p q : Place} {names : List ByteArray}
    (hw : t.walk p names = .ok q) : t'.walk p names = .ok q := by
  induction names generalizing p with
  | nil => exact hw
  | cons name rest ih =>
    rw [FileTree.walk] at hw ⊢
    split at hw
    · cases hw
    · cases hw
    · next hp =>
      rw [h.directory p hp]
      obtain ⟨r, hr, hw⟩ := bind_eq_ok hw
      show (step p name >>= fun q => t'.walk q rest) = .ok q
      rw [hr, ok_bind]
      exact ih hw

/-- An empty step only asks for a directory, as the next step does too. -/
theorem walk_empty_step (t : FileTree) (p : Place) (name : ByteArray) (rest : List ByteArray) :
    t.walk p (ByteArray.empty :: name :: rest) = t.walk p (name :: rest) := by
  have hstep : step p ByteArray.empty = .ok p := if_pos (.inl rfl)
  rw [walk]
  split
  · next hp => rw [walk, hp]
  · next hp => rw [walk, hp]
  · rw [hstep, ok_bind]

/-! ### The directory of a path -/

/-- Where a path leads, whatever is there. -/
def target (t : FileTree) (path : ByteArray) : Except FileFault Place :=
  (steps path).foldlM step (t.origin path)

/-- A path leads to a directory at a place. The empty path leads to where paths begin. -/
structure Enters (t : FileTree) (dir : ByteArray) (p : Place) : Prop where
  walk : t.walk (t.origin dir) (steps dir) = .ok p
  directory : t.get? p = some .directory

theorem Enters.target {t : FileTree} {dir : ByteArray} {p : Place} (h : t.Enters dir p) :
    t.target dir = .ok p :=
  foldlM_step_of_walk h.walk

theorem Keeps.origin {t t' : FileTree} (h : Keeps t t') (path : ByteArray) :
    t'.origin path = t.origin path := by
  rw [FileTree.origin, FileTree.origin, h.start]

theorem Keeps.target {t t' : FileTree} (h : Keeps t t') (path : ByteArray) :
    t'.target path = t.target path := by
  rw [FileTree.target, FileTree.target, h.origin]

theorem Keeps.enters {t t' : FileTree} (h : Keeps t t') {dir : ByteArray} {p : Place}
    (hd : t.Enters dir p) : t'.Enters dir p :=
  ⟨by rw [h.origin]; exact h.walk hd.walk, h.directory p hd.directory⟩

theorem checkPath_eq_ok_iff {path : ByteArray} :
    checkPath path = .ok () ↔ 0 ∉ path.data.toList ∧ path.size ≤ maxPath := by
  rw [checkPath]
  split_ifs with hnul hsize
  · exact ⟨nofun, fun h => absurd (List.contains_iff_mem.1 hnul) h.1⟩
  · exact ⟨nofun, fun h => absurd h.2 (Nat.not_le.2 hsize)⟩
  · exact ⟨fun _ => ⟨fun hmem => hnul (List.contains_iff_mem.2 hmem), Nat.not_lt.1 hsize⟩, fun _ => rfl⟩

theorem resolve_eq_ok_iff {t : FileTree} {path : ByteArray} {p : Place} :
    t.resolve path = .ok p ↔ path.size ≠ 0 ∧ checkPath path = .ok () ∧
      t.walk (t.origin path) (steps path) = .ok p := by
  rw [resolve]
  by_cases hsize : path.size = 0
  · simp [hsize]
  · simp only [hsize, if_false, ne_eq, not_false_eq_true, true_and, bind_eq_ok_iff]
    constructor
    · rintro ⟨⟨⟩, hcheck, hwalk⟩
      exact ⟨hcheck, hwalk⟩
    · rintro ⟨hcheck, hwalk⟩
      exact ⟨(), hcheck, hwalk⟩

theorem hasDirectory_iff {t : FileTree} {dir : ByteArray} :
    t.hasDirectory dir = true ↔ dir.size ≠ 0 ∧ checkPath dir = .ok () ∧ ∃ p, t.Enters dir p := by
  rw [hasDirectory, find]
  cases hp : t.resolve dir with
  | error fault =>
    simp only [error_bind, Bool.false_eq_true, false_iff, not_and, not_exists]
    intro hdir hcheck p henters
    have := resolve_eq_ok_iff.2 ⟨hdir, hcheck, henters.walk⟩
    rw [hp] at this
    cases this
  | ok p =>
    obtain ⟨hsize, hcheck, hwalk⟩ := resolve_eq_ok_iff.1 hp
    simp only [ok_bind, hsize, hcheck, ne_eq, not_false_eq_true, true_and]
    constructor
    · intro h
      refine ⟨p, hwalk, ?_⟩
      cases he : t.get? p with
      | none => simp [he] at h
      | some e =>
        cases e with
        | directory => rfl
        | file content isPrivate => simp [he] at h
    · rintro ⟨q, hq⟩
      have hqp := hq.walk
      rw [hwalk] at hqp
      cases hqp
      simp [hq.directory]

/-! ### Files in a directory -/

/-- A name that is one step of a path, and no step in place or back. -/
structure Plain (name : String) : Prop where
  noSlash : slash ∉ name.toUTF8.data.toList
  noNul : 0 ∉ name.toUTF8.data.toList
  ne_empty : name.toUTF8.size ≠ 0
  ne_dot : name.toUTF8 ≠ dot
  ne_dotDot : name.toUTF8 ≠ dotDot

/-- The path of a name in a directory is no longer than a path may be, and the name no longer than a name
may be. -/
structure Fits (dir : ByteArray) (name : String) : Prop where
  path : checkPath (join dir name.toUTF8) = .ok ()
  name : name.toUTF8.size ≤ maxName

theorem Plain.step {name : String} (h : Plain name) (p : Place) :
    step p name.toUTF8 = if name.toUTF8.size > maxName then .error .nameTooLong
      else .ok (p ++ [name.toUTF8]) := by
  rw [FileTree.step, if_neg (not_or.2 ⟨h.ne_empty, h.ne_dot⟩), if_neg h.ne_dotDot]

/-- The bytes of a path in a directory: those of the directory, a slash where there is none yet, and
those of the name. -/
theorem toList_join (dir name : ByteArray) :
    dir.data.toList = [] ∧ (join dir name).data.toList = name.data.toList ∨
    (∃ before, dir.data.toList = before ++ [slash] ∧
      (join dir name).data.toList = before ++ slash :: name.data.toList) ∨
    dir.data.toList ≠ [] ∧
      (join dir name).data.toList = dir.data.toList ++ slash :: name.data.toList := by
  have happend : (dir ++ name).data.toList = dir.data.toList ++ name.data.toList := by
    rw [ByteArray.data_append, Array.toList_append]
  rw [join]
  split_ifs with h
  · rcases h with hsize | hlast
    · have hdir : dir.data.toList = [] := List.eq_nil_of_length_eq_zero hsize
      exact .inl ⟨hdir, by rw [happend, hdir, List.nil_append]⟩
    · obtain ⟨before, hdir⟩ := List.getLast?_eq_some_iff.1 hlast
      exact .inr (.inl ⟨before, hdir, by rw [happend, hdir, List.append_assoc, List.singleton_append]⟩)
  · refine .inr (.inr ⟨fun hdir => h (.inl (congrArg List.length hdir)), ?_⟩)
    rw [ByteArray.data_append, Array.toList_append, ByteArray.data_push, Array.toList_push,
      List.append_assoc, List.singleton_append]

theorem prefix_join (dir name : ByteArray) : dir.data.toList <+: (join dir name).data.toList := by
  rcases toList_join dir name with ⟨hdir, -⟩ | ⟨before, hdir, hbytes⟩ | ⟨-, hbytes⟩
  · rw [hdir]
    exact List.nil_prefix
  · rw [hbytes, hdir, List.append_cons before slash name.data.toList]
    exact List.prefix_append _ _
  · rw [hbytes]
    exact List.prefix_append _ _

/-- A path begins where its first bytes do. -/
theorem origin_of_prefix (t : FileTree) {dir path : ByteArray} (hdir : dir.data.toList ≠ [])
    (h : dir.data.toList <+: path.data.toList) : t.origin path = t.origin dir := by
  obtain ⟨rest, hrest⟩ := h
  rw [origin, origin, ← hrest, List.head?_append, List.head?_eq_some_head hdir, Option.some_or]

theorem origin_join (t : FileTree) (dir : ByteArray) {name : String} (h : Plain name) :
    t.origin (join dir name.toUTF8) = t.origin dir := by
  rcases toList_join dir name.toUTF8 with ⟨hdir, hbytes⟩ | ⟨before, hdir, -⟩ | ⟨hdir, -⟩
  · have hhead : name.toUTF8.data.toList.head? ≠ some slash := fun hhead =>
      h.noSlash (List.mem_of_head? hhead)
    rw [origin, origin, hbytes, hdir, if_neg hhead]
    rfl
  · have hne : dir.data.toList ≠ [] := hdir ▸ List.append_ne_nil_of_right_ne_nil before nofun
    exact t.origin_of_prefix hne (prefix_join dir _)
  · exact t.origin_of_prefix hdir (prefix_join dir _)

/-- A path in a directory leads on from where the directory is by one step. -/
theorem walk_steps_join (t : FileTree) (p : Place) (dir : ByteArray) {name : String} (h : Plain name) :
    t.walk p (steps (join dir name.toUTF8)) =
      t.walk p (steps dir) >>= fun q => t.walk q [name.toUTF8] := by
  have hname : (splitSlashes name.toUTF8.data.toList).map List.toByteArray = [name.toUTF8] := by
    rw [splitSlashes_of_notMem h.noSlash, List.map_singleton, Bytes.toByteArray_toList]
  rw [← walk_append, steps, steps]
  rcases toList_join dir name.toUTF8 with ⟨hdir, hbytes⟩ | ⟨before, hdir, hbytes⟩ | ⟨-, hbytes⟩
  · rw [hbytes, hdir, hname]
    exact (walk_empty_step t p name.toUTF8 []).symm
  · rw [hbytes, hdir, splitSlashes_append_slash, splitSlashes_append_slash, List.map_append, hname,
      List.map_append, List.append_assoc, walk_append, walk_append]
    congr 1
    funext q
    exact (walk_empty_step t q name.toUTF8 []).symm
  · rw [hbytes, splitSlashes_append_slash, List.map_append, hname]

end ColumnVault.FileTree
