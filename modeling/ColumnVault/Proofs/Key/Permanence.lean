import ColumnVault.Proofs.Key.Reload

/-! Key files last. Along every session, with any number of values for any directories, a key file stays as
it is from the moment it is there, and the values have no keys but those of the files. A value may be out
of date and not know of a file; but a new key is only written where nothing is, and the one file that is
written over, `current`, is no key file. -/

namespace ColumnVault.KeyDirectory

open FileTree

variable {t t' : FileTree} {p : Place} {s : Session} {dir key : ByteArray} {id : String}
  {d d' : KeyDirectory} {entropy : Entropy} {a : Action}

/-! ### Key files stay -/

/-- The second tree has all directories and all key files of the first, wherever they are. -/
def Preserves (t t' : FileTree) : Prop :=
  ∀ p, Extends p t t'

theorem Preserves.refl (t : FileTree) : Preserves t t :=
  fun _ => ⟨.refl t, fun _ _ hfile => hfile⟩

theorem Preserves.trans {t'' : FileTree} (h : Preserves t t') (h' : Preserves t' t'') :
    Preserves t t'' :=
  fun p => ⟨(h p).keeps.trans (h' p).keeps, fun c k hfile => (h' p).files c k ((h p).files c k hfile)⟩

theorem preserves_of_init {r : Except KeySourceError KeyDirectory}
    (h : init t dir id entropy = (r, t')) : Preserves t t' := by
  obtain ⟨t₁, hgrown, hmore⟩ := init_cases h
  have h₁ : Preserves t t₁ := extends_of_grown hgrown
  obtain ⟨e, -, rfl⟩ | ⟨key, t₂, hgen, hmore⟩ := hmore
  · exact h₁
  · have h₂ := h₁.trans (extends_of_generated hgen)
    obtain ⟨e, -, rfl⟩ | ⟨hwrote, -⟩ := hmore
    · exact h₂
    · exact h₂.trans (extends_of_wroteIn_current hwrote)

theorem preserves_of_change {c : Change} {r : Except KeySourceError Unit}
    (h : c.run t d = (r, d', t')) : Preserves t t' := by
  obtain ⟨e, -, -, rfl⟩ | ⟨id, _, key, -, hgen, -⟩ | ⟨id, -, -, hwrote, -⟩ := Change.run_cases h
  · exact .refl t'
  · exact extends_of_generated hgen
  · exact extends_of_wroteIn_current hwrote

/-- No action, be it successful or not, loses a key file. -/
theorem Session.preserves_step (s : Session) (a : Action) : Preserves s.tree (s.step a).tree := by
  cases a with
  | load dir =>
    rw [step]
    split <;> exact .refl s.tree
  | init dir id entropy =>
    rw [step]
    split <;> rename_i hrun <;> exact preserves_of_init hrun
  | change i c =>
    rw [step]
    split
    · exact .refl s.tree
    · split <;> rename_i hrun <;> exact preserves_of_change hrun

theorem Session.preserves_run (s : Session) (actions : List Action) :
    Preserves s.tree (s.run actions).tree := by
  induction actions generalizing s with
  | nil => exact .refl s.tree
  | cons a rest ih => exact (s.preserves_step a).trans (ih (s.step a))

/-! ### Values agree with the files -/

/-- The keys of a value are those of key files at the place of its directory, and have their size. -/
structure Backed (t : FileTree) (p : Place) (d : KeyDirectory) : Prop where
  enters : t.Enters d.dir p
  knows : Knows t p d
  size : ∀ id key, d.keys.lookup id = some key → key.size = keySize

theorem Backed.preserved (h : Backed t p d) (hpreserves : Preserves t t') : Backed t' p d :=
  ⟨(hpreserves p).keeps.enters h.enters, (hpreserves p).knows h.knows, h.size⟩

theorem Backed.generated (h : Backed t p d) (hgen : Generated t d id key t') :
    Backed t' p { d with keys := Assoc.putSorted key id d.keys } := by
  refine ⟨(extends_of_generated hgen p).keeps.enters h.enters, knows_generated hgen h.enters h.knows,
    fun c k hc => ?_⟩
  rw [Assoc.lookup_putSorted] at hc
  split_ifs at hc
  · cases hc
    exact hgen.size
  · exact h.size c k hc

theorem Backed.change (h : Backed t p d) {c : Change} {r : Except KeySourceError Unit}
    (hrun : c.run t d = (r, d', t')) : Backed t' p d' := by
  obtain ⟨e, -, rfl, rfl⟩ | ⟨id, _, key, -, hgen, -, rfl⟩ | ⟨id, -, -, hwrote, -, rfl⟩ :=
    Change.run_cases hrun
  · exact h
  · exact h.generated hgen
  · obtain ⟨henters, hknows, hsize⟩ := h.preserved (extends_of_wroteIn_current hwrote)
    exact ⟨henters, hknows, hsize⟩

theorem exists_backed_of_load (h : load t dir = .ok d) : ∃ p, Backed t p d := by
  obtain ⟨rfl, ⟨p, henters, hkeys⟩, -⟩ := load_eq_ok h
  exact ⟨p, henters, fun id key hkey => (hkeys id).symm.trans hkey, fun id key => size_of_load h⟩

theorem exists_backed_of_init (h : init t dir id entropy = (.ok d, t')) : ∃ p, Backed t' p d := by
  obtain ⟨t₁, -, ⟨e, ⟨⟩, -⟩ | ⟨key, t₂, hgen, ⟨e, ⟨⟩, -⟩ | ⟨hwrote, ⟨⟩⟩⟩⟩ := init_cases h
  obtain ⟨p, henters, -⟩ := hgen.wrote.wrote
  have hempty : Backed t₁ p ⟨dir, [], id⟩ := ⟨henters, nofun, nofun⟩
  exact ⟨p, (hempty.generated hgen).preserved (extends_of_wroteIn_current hwrote)⟩

/-- A value was there before an action, or the action read it or made it, or is a change of it, which may have
failed. -/
theorem Session.mem_values_step (h : d ∈ (s.step a).values) :
    d ∈ s.values ∨ (∃ dir, load s.tree dir = .ok d) ∨
      (∃ dir id entropy, init s.tree dir id entropy = (.ok d, (s.step a).tree)) ∨
      ∃ c r, ∃ d₀ ∈ s.values, Change.run c s.tree d₀ = (r, d, (s.step a).tree) := by
  cases a with
  | load dir =>
    rw [step] at h
    split at h
    · next hload =>
      rcases List.mem_append.1 h with hd | hd
      · exact .inl hd
      · rw [List.mem_singleton.1 hd]
        exact .inr (.inl ⟨dir, hload⟩)
    · exact .inl h
  | init dir id entropy =>
    rw [step] at h ⊢
    split at h <;> rename_i hrun
    · rcases List.mem_append.1 h with hd | hd
      · exact .inl hd
      · rw [List.mem_singleton.1 hd]
        exact .inr (.inr (.inl ⟨dir, id, entropy, hrun⟩))
    · exact .inl h
  | change i c =>
    rw [step] at h ⊢
    split at h
    · exact .inl h
    · next d₀ hd₀ =>
      split at h <;> rename_i hrun <;> rcases List.mem_or_eq_of_mem_set h with hd | rfl
      · exact .inl hd
      · exact .inr (.inr (.inr ⟨c, _, d₀, List.mem_of_getElem? hd₀, hrun⟩))
      · exact .inl hd
      · exact .inr (.inr (.inr ⟨c, _, d₀, List.mem_of_getElem? hd₀, hrun⟩))

/-- Whatever an action does for one value, the others keep the files of their keys. -/
theorem Session.backed_step (h : ∀ d ∈ s.values, ∃ p, Backed s.tree p d) (a : Action) :
    ∀ d ∈ (s.step a).values, ∃ p, Backed (s.step a).tree p d := by
  have hpreserves := s.preserves_step a
  intro d hd
  obtain hd | ⟨dir, hload⟩ | ⟨dir, id, entropy, hinit⟩ | ⟨c, r, d₀, hd₀, hrun⟩ := mem_values_step hd
  · exact (h d hd).imp fun _ hbacked => hbacked.preserved hpreserves
  · exact (exists_backed_of_load hload).imp fun _ hbacked => hbacked.preserved hpreserves
  · exact exists_backed_of_init hinit
  · exact (h d₀ hd₀).imp fun _ hbacked => hbacked.change hrun

theorem Session.backed_run (h : ∀ d ∈ s.values, ∃ p, Backed s.tree p d) (actions : List Action) :
    ∀ d ∈ (s.run actions).values, ∃ p, Backed (s.run actions).tree p d := by
  induction actions generalizing s with
  | nil => exact h
  | cons a rest ih => exact ih (s.backed_step h a)

/-! ### A key is made once -/

/-- An action makes the key of an id in the directory at a place: it makes that directory with it, or it
generates it through a value for the directory. -/
inductive Session.Makes (s : Session) (p : Place) (id : String) : Action → Prop
  | init {dir : ByteArray} {entropy : Entropy} {d : KeyDirectory} {t' : FileTree}
    (target : s.tree.target dir = .ok p)
    (run : KeyDirectory.init s.tree dir id entropy = (.ok d, t')) : Makes s p id (.init dir id entropy)
  | generate {i : Nat} {entropy : Entropy} {d d' : KeyDirectory} {t' : FileTree}
    (value : s.values[i]? = some d) (target : s.tree.target d.dir = .ok p)
    (run : KeyDirectory.generate s.tree d id entropy = (.ok (), d', t')) :
    Makes s p id (.change i (.generate id entropy))

/-- The file of the key is not there before, and it is afterwards. -/
theorem Session.Makes.writes_keyFile (h : s.Makes p id a) :
    keyFile? s.tree p id = none ∧ ∃ key, keyFile? (s.step a).tree p id = some key := by
  cases h with
  | @init dir entropy d t' htarget hrun =>
    have htree : (s.step (.init dir id entropy)).tree = t' := by rw [step, hrun]
    obtain ⟨t₁, hgrown, ⟨e, ⟨⟩, -⟩ | ⟨key, t₂, hgen, ⟨e, ⟨⟩, -⟩ | ⟨hwrote, -⟩⟩⟩ := init_cases hrun
    have henters := hgen.wrote.enters ((hgrown.keeps.target dir).trans htarget)
    refine ⟨?_, key, ?_⟩
    · rw [← keyFile?_of_grown hgrown, hgen.keyFile?_eq_none henters]
    · rw [htree, keyFile?_of_wroteIn_current hwrote, keyFile?_of_generated hgen henters, if_pos rfl]
  | @generate i entropy d d' t' hvalue htarget hrun =>
    have htree : (s.step (.change i (.generate id entropy))).tree = t' := by
      rw [step, hvalue]
      dsimp only
      rw [Change.run, hrun]
    obtain ⟨e, ⟨⟩, -⟩ | ⟨key, hgen, -, -⟩ := generate_cases hrun
    have henters := hgen.wrote.enters htarget
    refine ⟨hgen.keyFile?_eq_none henters, key, ?_⟩
    rw [htree, keyFile?_of_generated hgen henters, if_pos rfl]

/-- After any actions on a tree, with any number of values for any of its directories: whatever is done
then, each key file stays there with its content; each key of a value is the content of its file in the
directory of the value, of 32 bytes; and no key that is made in a directory is made there again. -/
theorem key_files_permanent (t : FileTree) (actions : List Action) :
    let s := Session.after t actions
    (∀ p id content, keyFile? s.tree p id = some content →
      ∀ more, keyFile? (s.run more).tree p id = some content) ∧
    (∀ d ∈ s.values, ∃ p, s.tree.Enters d.dir p ∧ ∀ id key, d.masterKey id = .ok key →
      keyFile? s.tree p id = some key ∧ key.size = 32) ∧
    ∀ p id a, s.Makes p id a → ∀ between b, ¬(s.run (a :: between)).Makes p id b := by
  intro s
  refine ⟨fun p id content hfile more => (s.preserves_run more p).files id content hfile, ?_, ?_⟩
  · intro d hd
    obtain ⟨p, henters, hknows, hsize⟩ := Session.backed_run (s := .start t) nofun actions d hd
    refine ⟨p, henters, fun id key hkey => ?_⟩
    rw [masterKey_eq_ok_iff] at hkey
    exact ⟨hknows id key hkey, hsize id key hkey⟩
  · intro p id a ha between b hb
    obtain ⟨-, key, hfile⟩ := ha.writes_keyFile
    have hstays := ((s.step a).preserves_run between p).files id key hfile
    exact absurd (hb.writes_keyFile.1.symm.trans hstays) nofun

/-- Of two values for a directory the first makes a key that the second does not know of. Made through the
second the key would be another, but it is not made; the file stays through whatever follows. -/
theorem key_files_permanent_stale_value :
    let s := Session.after .empty [.init "keys".toUTF8 "a" ⟨Bytes.replicate 32 1, ""⟩, .load "keys".toUTF8]
    let a := Action.change 0 (.generate "b" ⟨Bytes.replicate 32 2, ""⟩)
    let b := Action.change 1 (.generate "b" ⟨Bytes.replicate 32 3, ""⟩)
    s.Makes ["keys".toUTF8] "b" a ∧ ¬(s.run [a]).Makes ["keys".toUTF8] "b" b ∧
      (s.run [a, b]).values.map (·.keys.lookup "b") = [some (Bytes.replicate 32 2), none] ∧
      ∀ more, keyFile? ((s.run [a, b]).run more).tree ["keys".toUTF8] "b" =
        some (Bytes.replicate 32 2) := by
  intro s a b
  have hmakes : s.Makes ["keys".toUTF8] "b" a :=
    .generate (d := ⟨"keys".toUTF8, [("a", Bytes.replicate 32 1)], "a"⟩) rfl rfl rfl
  obtain ⟨-, -, honce⟩ := key_files_permanent .empty
    [.init "keys".toUTF8 "a" ⟨Bytes.replicate 32 1, ""⟩, .load "keys".toUTF8]
  obtain ⟨hstays, -, -⟩ := key_files_permanent .empty
    [.init "keys".toUTF8 "a" ⟨Bytes.replicate 32 1, ""⟩, .load "keys".toUTF8, a, b]
  exact ⟨hmakes, honce _ _ a hmakes [] b, rfl, fun more => hstays _ _ _ rfl more⟩

end ColumnVault.KeyDirectory
