import ColumnVault.Proofs.Key.Loading

/-! What the changes of a directory of keys do to its files. A change that fails leaves them as they are;
one that succeeds writes one file, and making a directory writes two. -/

namespace ColumnVault.KeyDirectory

open FileTree Text

variable {t t' : FileTree} {id : String} {p : Place} {dir key : ByteArray} {d d' : KeyDirectory}
  {entropy : Entropy} {r : Except KeySourceError Unit}

/-- A new key was written to a file that was not there. -/
structure Generated (t : FileTree) (d : KeyDirectory) (id : String) (key : ByteArray) (t' : FileTree) :
    Prop where
  checked : checkId id = .ok ()
  size : key.size = keySize
  fresh : d.keys.lookup id = none
  wrote : t.WroteIn d.dir (keyName id) key t'
  missing : ∀ p, t.Enters d.dir p → t.get? (p ++ [(keyName id).toUTF8]) = none

/-- What happens when a key is made: nothing is written, or one draw is. -/
theorem generate_steps (h : generate t d id entropy = (r, d', t')) :
    (∃ e, r = .error e ∧ d' = d ∧ t' = t) ∨
      ∃ key rest, checkId id = .ok () ∧ d.keys.lookup id = none ∧ t.has (keyPath d.dir id) = false ∧
        entropy.draw keySize = .ok (key, rest) ∧
        t.writeAs (keyPath d.dir id) key.val true = .ok t' ∧
        r = .ok () ∧ d' = { d with keys := Assoc.putSorted key.val id d.keys } := by
  rw [generate] at h
  split at h
  · cases h
    exact .inl ⟨_, rfl, rfl, rfl⟩
  · next hcheck =>
    dsimp only at h
    split_ifs at h with hthere
    · cases h
      exact .inl ⟨_, rfl, rfl, rfl⟩
    · obtain ⟨hknown, hhas⟩ := not_or.1 hthere
      split at h
      · cases h
        exact .inl ⟨_, rfl, rfl, rfl⟩
      · next drawn rest hdraw =>
        split at h
        · cases h
          exact .inl ⟨_, rfl, rfl, rfl⟩
        · next hwrite =>
          cases h
          exact .inr ⟨drawn, rest, hcheck, Option.not_isSome_iff_eq_none.1 hknown,
            Bool.not_eq_true _ ▸ hhas, hdraw, hwrite, rfl, rfl⟩

theorem generate_cases (h : generate t d id entropy = (r, d', t')) :
    (∃ e, r = .error e ∧ d' = d ∧ t' = t) ∨
      ∃ key, Generated t d id key t' ∧ r = .ok () ∧
        d' = { d with keys := Assoc.putSorted key id d.keys } := by
  obtain hfailed | ⟨key, rest, hcheck, hknown, hhas, -, hwrite, hr⟩ := generate_steps h
  · exact .inl hfailed
  · have hplain := plain_keyName hcheck
    have hwrote := writeAs_join hplain hwrite
    exact .inr ⟨key.val, ⟨hcheck, key.property, hknown, hwrote,
      fun p => get?_eq_none_of_not_has hplain hhas hwrote.fits⟩, hr⟩

theorem setCurrent_cases (h : setCurrent t d id = (r, d', t')) :
    (∃ e, r = .error e ∧ d' = d ∧ t' = t) ∨
      (d.keys.lookup id).isSome = true ∧ t.WroteIn d.dir currentName (id ++ "\n").toUTF8 t' ∧
        r = .ok () ∧ d' = { d with current := id } := by
  rw [setCurrent] at h
  split_ifs at h with hnone
  · cases h
    exact .inl ⟨_, rfl, rfl, rfl⟩
  · split at h
    · cases h
      exact .inl ⟨_, rfl, rfl, rfl⟩
    · next hwrite =>
      cases h
      refine .inr ⟨?_, write_join plain_currentName hwrite, rfl, rfl⟩
      rwa [← Option.not_isSome, Bool.not_eq_true', Bool.not_eq_false] at hnone

section Init
variable {r : Except KeySourceError KeyDirectory}

/-- What happens when a directory of keys is made: directories are, and then, unless there is a file
`current`, a key is made and becomes current. -/
theorem init_steps (h : init t dir id entropy = (r, t')) :
    ∃ s, t.Grown (t.places dir) s ∧
      ((∃ e, r = .error e ∧ t' = s) ∨
        s.has (currentPath dir) = false ∧ ∃ d s' r' d',
          generate s ⟨dir, [], id⟩ id entropy = (.ok (), d, s') ∧
            setCurrent s' d id = (r', d', t') ∧ r = r'.map fun () => d') := by
  have hgrown := grown_makeDirectories t dir
  rw [init] at h
  split at h
  · next hmake =>
    cases h
    rw [hmake] at hgrown
    exact ⟨_, hgrown, .inl ⟨_, rfl, rfl⟩⟩
  · next s hmake =>
    rw [hmake] at hgrown
    refine ⟨s, hgrown, ?_⟩
    split_ifs at h with hthere
    · cases h
      exact .inl ⟨_, rfl, rfl⟩
    · split at h <;> rename_i hgenerate
      · cases h
        obtain ⟨e, -, -, rfl⟩ | ⟨key, -, ⟨⟩, -⟩ := generate_cases hgenerate
        exact .inl ⟨_, rfl, rfl⟩
      · cases h
        exact .inr ⟨Bool.not_eq_true _ ▸ hthere, _, _, _, _, hgenerate, rfl, rfl⟩

/-- Making a directory of keys may make directories, then a key, and then the file that names it. -/
theorem init_cases (h : init t dir id entropy = (r, t')) :
    ∃ s, t.Grown (t.places dir) s ∧
      ((∃ e, r = .error e ∧ t' = s) ∨
        ∃ key s', Generated s ⟨dir, [], id⟩ id key s' ∧
          ((∃ e, r = .error e ∧ t' = s') ∨
            s'.WroteIn dir currentName (id ++ "\n").toUTF8 t' ∧ r = .ok ⟨dir, [(id, key)], id⟩)) := by
  obtain ⟨s, hgrown, hfailed | ⟨-, d, s', r', d', hgenerate, hset, rfl⟩⟩ := init_steps h
  · exact ⟨s, hgrown, .inl hfailed⟩
  · obtain ⟨e, ⟨⟩, -⟩ | ⟨key, hgenerated, -, rfl⟩ := generate_cases hgenerate
    refine ⟨s, hgrown, .inr ⟨key, s', hgenerated, ?_⟩⟩
    obtain ⟨e, rfl, -, rfl⟩ | ⟨-, hwrote, rfl, rfl⟩ := setCurrent_cases hset
    · exact .inl ⟨e, rfl, rfl⟩
    · exact .inr ⟨hwrote, rfl⟩

end Init

/-! ### Changes one after another -/

/-- A change made through a value. -/
inductive Change where
  | generate (id : String) (entropy : Entropy)
  | setCurrent (id : String)

def Change.run (c : Change) (t : FileTree) (d : KeyDirectory) : Changed :=
  match c with
  | .generate id entropy => KeyDirectory.generate t d id entropy
  | .setCurrent id => KeyDirectory.setCurrent t d id

theorem Change.run_cases {c : Change} (h : c.run t d = (r, d', t')) :
    (∃ e, r = .error e ∧ d' = d ∧ t' = t) ∨
      (∃ id entropy key, c = .generate id entropy ∧ Generated t d id key t' ∧ r = .ok () ∧
        d' = { d with keys := Assoc.putSorted key id d.keys }) ∨
      ∃ id, c = .setCurrent id ∧ (d.keys.lookup id).isSome = true ∧
        t.WroteIn d.dir currentName (id ++ "\n").toUTF8 t' ∧ r = .ok () ∧
        d' = { d with current := id } := by
  cases c with
  | generate id entropy =>
    exact (generate_cases h).imp_right fun ⟨key, hgen⟩ => .inl ⟨id, entropy, key, rfl, hgen⟩
  | setCurrent id => exact (setCurrent_cases h).imp_right fun hset => .inr ⟨id, rfl, hset⟩

/-- A change that fails leaves the value and the files as they are. -/
theorem Change.run_of_error {c : Change} {e : KeySourceError} (h : (c.run t d).1 = .error e) :
    c.run t d = (.error e, d, t) := by
  rcases hr : c.run t d with ⟨r, d', t'⟩
  rw [hr] at h
  obtain rfl : r = .error e := h
  obtain ⟨_, -, rfl, rfl⟩ | ⟨_, _, _, -, -, ⟨⟩, -⟩ | ⟨_, -, -, -, ⟨⟩, -⟩ := run_cases hr
  rfl

/-- The tree and the value after a change. -/
def change (s : FileTree × KeyDirectory) (c : Change) : FileTree × KeyDirectory :=
  let (_, d, t) := c.run s.1 s.2
  (t, d)

theorem change_cases (s : FileTree × KeyDirectory) (c : Change) :
    change s c = s ∨
      (∃ id key, Generated s.1 s.2 id key (change s c).1 ∧
        (change s c).2 = { s.2 with keys := Assoc.putSorted key id s.2.keys }) ∨
      ∃ id, (s.2.keys.lookup id).isSome = true ∧
        s.1.WroteIn s.2.dir currentName (id ++ "\n").toUTF8 (change s c).1 ∧
        (change s c).2 = { s.2 with current := id } := by
  rw [change]
  rcases hr : c.run s.1 s.2 with ⟨r, d', t'⟩
  obtain ⟨e, -, rfl, rfl⟩ | ⟨id, _, key, -, hgen, -, rfl⟩ | ⟨id, -, hknown, hwrote, -, rfl⟩ :=
    Change.run_cases hr
  · exact .inl rfl
  · exact .inr (.inl ⟨id, key, hgen, rfl⟩)
  · exact .inr (.inr ⟨id, hknown, hwrote, rfl⟩)

/-! ### The key files afterwards -/

/-- A file that is there is not written as a new one. -/
theorem Generated.keyFile?_eq_none (h : Generated t d id key t') (henters : t.Enters d.dir p) :
    keyFile? t p id = none := by
  rw [keyFile?, h.missing p henters]
  exact ite_self none

theorem keyFile?_of_generated (h : Generated t d id key t') (henters : t.Enters d.dir p) (c : String) :
    keyFile? t' p c = if c = id then some key else keyFile? t p c := by
  have hwrote := h.wrote.wrote_at henters
  split_ifs with hc
  · subst hc
    exact keyFile?_eq_some_iff.2 ⟨ne_empty_of_checkId h.checked, hwrote.written⟩
  · refine keyFile?_congr fun content isPrivate => ?_
    rw [hwrote.others]
    intro heq
    exact hc (keyName_injective (List.append_singleton_inj.1 heq).2)

theorem keyFile?_of_wroteIn_current {text : ByteArray} (h : t.WroteIn dir currentName text t')
    (p : Place) (c : String) : keyFile? t' p c = keyFile? t p c := by
  by_cases hc : c = ""
  · rw [keyFile?, keyFile?, if_pos hc, if_pos hc]
  · obtain ⟨q, -, hwrote⟩ := h.wrote
    refine keyFile?_congr fun content isPrivate => ?_
    rw [hwrote.others]
    intro heq
    exact keyName_ne_currentName hc (List.append_singleton_inj.1 heq).2

theorem keyFile?_of_grown {places : List Place} (h : t.Grown places t') (p : Place) (c : String) :
    keyFile? t' p c = keyFile? t p c :=
  keyFile?_congr fun _ _ => h.file_iff _ _

end ColumnVault.KeyDirectory
