import ColumnVault.Proofs.Cli.Calls
import ColumnVault.Proofs.Key.Leftovers

/-! What calls leave behind. Only two commands write files, and one that makes a key and then fails leaves
all files as they are, but for a key that could not be made current. -/

namespace ColumnVault.Cli

open KeyDirectory FileTree

variable {args : List ByteArray} {t t' : FileTree} {options : Options} {c : Command} {s : Settings}
  {id : String} {setsCurrent : Bool} {e : Entropy} {f : Failure}

/-- Whether a command is there to change files. -/
def Command.writes : Command → Bool
  | .init _ => true
  | .keygen _ _ => true
  | _ => false

theorem Command.tree_of_not_writes [Zstd.Encoder] (h : c.writes = false) (s : Settings) (t : FileTree)
    (e : Entropy) : (c.run s t e).2 = t := by
  cases c <;> first | rfl | cases h

/-- Arguments that ask for no command that writes files leave them as they are. -/
theorem tree_of_not_writes [Zstd.Encoder]
    (h : ∀ options c, Call.ofArguments args = .run options c → c.writes = false) (t : FileTree)
    (e : Entropy) : (run args t e).2 = t := by
  rw [run]
  split
  · rfl
  · rfl
  · rfl
  · rfl
  · next options c hcall =>
    split
    · rfl
    · exact c.tree_of_not_writes (h options c hcall) _ t e

theorem error_of_exitCode {printed : Printed} (h : (Ending.ofPrinted printed).exitCode ≠ 0) :
    ∃ f, printed = .error f := by
  cases printed with
  | ok output => exact absurd rfl h
  | error f => exact ⟨f, rfl⟩

theorem error_of_keysInContext {α β : Type} {context : String} {r : Except KeySourceError α} {g : α → β}
    (h : (keysInContext context r).map g = .error f) : ∃ cause, r = .error cause := by
  cases r with
  | ok a => cases h
  | error cause => exact ⟨cause, rfl⟩

/-- A failure to make a key leaves all as it was, unless the key was to be made current afterwards. -/
theorem Settings.tree_of_keygen_error (h : s.keygen id setsCurrent t e = (.error f, t')) :
    t' = t ∨ setsCurrent = true ∧ KeyLeft t s.keyDir id e t' := by
  rw [keygen] at h
  split at h
  · cases h
    exact .inl rfl
  · next d hload =>
    have hload : load t s.keyDir = .ok d := keysInContext_eq_ok_iff.1 hload
    obtain ⟨hdir, -⟩ := load_eq_ok hload
    rw [← hdir] at hload ⊢
    split at h
    · next cause d₁ t₁ hgenerate =>
      cases h
      obtain ⟨_, -, -, rfl⟩ | ⟨_, -, ⟨⟩, -⟩ := generate_cases hgenerate
      exact .inl rfl
    · next d₁ t₁ hgenerate =>
      split_ifs at h with hcurrent
      swap
      · cases h
      rcases hset : KeyDirectory.setCurrent t₁ d₁ id with ⟨r, d₂, t₂⟩
      rw [hset] at h
      obtain ⟨hprinted, rfl⟩ := Prod.mk.inj h
      obtain ⟨cause, rfl⟩ := error_of_keysInContext hprinted
      exact .inr ⟨hcurrent, keyLeft_of_setCurrent hgenerate hset fun p =>
        current_ne_directory_of_load hload⟩

/-- A call that makes a key and does not end well leaves all as it was, but for a key that could not be made
current. -/
theorem tree_of_keygen_failed [Zstd.Encoder]
    (hcall : Call.ofArguments args = .run options (.keygen id setsCurrent))
    (h : (run args t e).1.exitCode ≠ 0) : (run args t e).2 = t ∨
      setsCurrent = true ∧ ∃ s, Settings.resolve t options = .ok s ∧
        KeyLeft t s.keyDir id e (run args t e).2 := by
  rw [run, hcall] at h ⊢
  dsimp only at h ⊢
  split at h
  · exact .inl rfl
  · next s hs =>
    obtain ⟨f, hf⟩ := error_of_exitCode h
    obtain htree | ⟨hcurrent, hleft⟩ := Settings.tree_of_keygen_error (Prod.ext hf rfl)
    · exact .inl htree
    · exact .inr ⟨hcurrent, s, hs, hleft⟩

/-- What changes of keys leave behind. A change of a value that fails leaves the value and all files as they
are; one that makes a key adds its file, with the bytes that were drawn, and its entry; one that makes a key
current writes `current` alone. A failure to make a directory of keys leaves directories on its way at most.
Calls that read leave all files as they are, and so does one that fails to make a key. Only where the path
of `current` is too long does the file of a key stay that was made before `current` was to be written. -/
theorem failures_leave_files [Zstd.Encoder] (t : FileTree) :
    (∀ d c e, (Change.run c t d).1 = .error e → change (t, d) c = (t, d)) ∧
    (∀ d id entropy d' t', generate t d id entropy = (.ok (), d', t') →
      (∃ key rest, entropy.draw keySize = .ok (key, rest) ∧ t.AddedIn d.dir (keyName id) key.val t' ∧
        d'.keys.Perm ((id, key.val) :: d.keys)) ∧ d.keys.lookup id = none ∧
        d'.current = d.current ∧ d'.dir = d.dir) ∧
    (∀ d id d' t', setCurrent t d id = (.ok (), d', t') →
      t.WroteIn d.dir currentName (id ++ "\n").toUTF8 t' ∧ d' = { d with current := id }) ∧
    (∀ dir id entropy e t', init t dir id entropy = (.error e, t') →
      t.Grown (t.places dir) t' ∨
        ∃ s, t.Grown (t.places dir) s ∧ KeyLeft s dir id entropy t') ∧
    (∀ args e, (∀ options c, Call.ofArguments args = .run options c → c.writes = false) →
      (run args t e).2 = t) ∧
    (∀ args options id setsCurrent e, Call.ofArguments args = .run options (.keygen id setsCurrent) →
      (run args t e).1.exitCode ≠ 0 → (run args t e).2 = t ∨
        setsCurrent = true ∧ ∃ s, Settings.resolve t options = .ok s ∧
          KeyLeft t s.keyDir id e (run args t e).2) := by
  refine ⟨fun d c e => change_of_error, fun d id entropy d' t' h => ?_, fun d id d' t' =>
    wroteIn_of_setCurrent, fun dir id entropy e t' => grown_of_init, fun args e h =>
    tree_of_not_writes h t e, fun args options id setsCurrent e => tree_of_keygen_failed⟩
  obtain ⟨key, rest, hdraw, hadded, hnone, rfl⟩ := addedIn_of_generate h
  exact ⟨⟨key, rest, hdraw, hadded, Assoc.perm_putSorted hnone⟩, hnone, rfl, rfl⟩

/-- An empty directory, under a path that leaves room for the name of a key file and not for `current`. -/
theorem init_leaves_key_file :
    let t : FileTree := ⟨[(["keys".toUTF8], .directory)], []⟩
    ∃ t', KeyDirectory.init t (padded "keys".toUTF8 4085) "k" ⟨Bytes.replicate 32 2, ""⟩ =
        (.error (.file .nameTooLong), t') ∧
      t.get? ["keys".toUTF8, "k.key".toUTF8] = none ∧
      t'.get? ["keys".toUTF8, "k.key".toUTF8] = some (.file (Bytes.replicate 32 2) true) := by
  intro t
  have henters : t.Enters (padded "keys".toUTF8 4085) ["keys".toUTF8] :=
    Enters.padded ⟨rfl, rfl⟩ (by decide) 4085
  have hfits : Fits (padded "keys".toUTF8 4085) (keyName "k") :=
    (fits_padded_iff (by decide) (plain_keyName rfl) 4084).2 (by decide)
  have hlong : maxPath < (currentPath (padded "keys".toUTF8 4085)).size := by
    rw [currentPath, size_join_padded]
    decide
  have hdir := hasDirectory_of_fits (size_padded_ne_zero (by decide) 4085) hfits henters
  have hdraw : Entropy.draw ⟨Bytes.replicate 32 2, ""⟩ keySize =
      .ok (⟨Bytes.replicate 32 2, rfl⟩, ⟨.empty, ""⟩) := rfl
  obtain ⟨t', hinit, -, key, rest, hdrawn, p, hp, hadded⟩ :=
    init_of_maxPath_lt rfl hdir henters hfits hlong rfl hdraw
  cases hdraw.symm.trans hdrawn
  rw [hp.unique henters] at hadded
  exact ⟨t', hinit, rfl, hadded.there⟩

end ColumnVault.Cli
