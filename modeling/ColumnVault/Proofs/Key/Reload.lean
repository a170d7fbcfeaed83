import ColumnVault.Proofs.Key.Changes

/-! A directory of keys under any number of values, which read it, make it and change it in any order.
When it is read again, its current key is the one that was made current last, except that the blanks at
the ends of the id are lost on the way through the file `current`. -/

namespace ColumnVault.KeyDirectory

open FileTree Text

/-! ### Sessions -/

/-- What is done to a directory: it is read, made, or changed through one of the values. -/
inductive Action where
  | load (dir : ByteArray)
  | init (dir : ByteArray) (id : String) (entropy : Entropy)
  | change (value : Nat) (c : Change)

/-- The path by which an action reaches the directory, unless a value has it. -/
def Action.path? : Action → Option ByteArray
  | .load dir => some dir
  | .init dir _ _ => some dir
  | .change .. => none

/-- The id that a change makes current. -/
def Change.made? : Change → Option String
  | .generate .. => none
  | .setCurrent id => some id

/-- The tree, the values for the directory, and the id that was made current last. -/
structure Session where
  tree : FileTree
  values : List KeyDirectory
  made : Option String

namespace Session

def start (t : FileTree) : Session := ⟨t, [], none⟩

def step (s : Session) : Action → Session
  | .load dir =>
    match KeyDirectory.load s.tree dir with
    | .ok d => { s with values := s.values ++ [d] }
    | .error _ => s
  | .init dir id entropy =>
    match KeyDirectory.init s.tree dir id entropy with
    | (.ok d, t) => ⟨t, s.values ++ [d], some id⟩
    | (.error _, t) => { s with tree := t }
  | .change i c =>
    match s.values[i]? with
    | none => s
    | some d =>
      match c.run s.tree d with
      | (.ok (), d, t) => ⟨t, s.values.set i d, c.made? <|> s.made⟩
      | (.error _, d, t) => { s with tree := t, values := s.values.set i d }

def run (s : Session) (actions : List Action) : Session :=
  actions.foldl step s

/-- The session that some actions make of a tree. -/
def after (t : FileTree) (actions : List Action) : Session :=
  (start t).run actions

end Session

/-! ### What holds along a session -/

/-- A path leads to a place, and does not pass through an entry of that place that has the name of a key
file. -/
structure LeadsTo (t : FileTree) (dir : ByteArray) (p : Place) : Prop where
  target : t.target dir = .ok p
  places : ∀ name, isKeyName name = true → p ++ [name] ∉ t.places dir

/-- A value has no key but those of the files at a place. -/
def Knows (t : FileTree) (p : Place) (d : KeyDirectory) : Prop :=
  ∀ id key, d.keys.lookup id = some key → keyFile? t p id = some key

/-- What lies under a name at a place is the file of a key, and one of some paths can reach it. -/
def IsKeyFile (paths : ByteArray → Prop) (p : Place) (t : FileTree) (name : ByteArray) : Prop :=
  ∃ id key, name = (keyName id).toUTF8 ∧ checkId id = .ok () ∧ keyFile? t p id = some key ∧
    key.size = keySize ∧ ∃ dir, paths dir ∧ Fits dir (keyName id)

/-- The file `current` at a place names an id. -/
def Names (t : FileTree) (p : Place) (id : String) : Prop :=
  ∃ isPrivate, t.get? (p ++ [currentName.toUTF8]) = some (.file (id ++ "\n").toUTF8 isPrivate)

/-- The session began with a tree and used some paths to the place. All that has the name of a key file
there is one, and the file `current` names the id that was made current last. -/
structure Sound (t : FileTree) (paths : ByteArray → Prop) (p : Place) (s : Session) : Prop where
  keeps : Keeps t s.tree
  files : ∀ name, isKeyName name = true → (s.tree.get? (p ++ [name])).isSome = true →
    IsKeyFile paths p s.tree name
  values : ∀ d ∈ s.values, paths d.dir ∧ Knows s.tree p d
  made : ∀ id, s.made = some id → (keyFile? s.tree p id).isSome = true ∧
    (∃ dir, paths dir ∧ Fits dir currentName ∧ s.tree.Enters dir p) ∧ Names s.tree p id

variable {t t' : FileTree} {paths : ByteArray → Prop} {p q : Place} {s : Session}
  {dir key : ByteArray} {id : String} {d : KeyDirectory}

theorem sound_start (h : ∀ name, isKeyName name = true → t.get? (p ++ [name]) = none) :
    Sound t paths p (.start t) := by
  refine ⟨.refl t, fun name hname hsome => ?_, nofun, nofun⟩
  rw [Session.start, h name hname] at hsome
  cases hsome

/-! ### Steps -/

/-- The second tree has all the directories of the first, and all key files of the place as they are. -/
structure Extends (p : Place) (t t' : FileTree) : Prop where
  keeps : Keeps t t'
  files : ∀ id key, keyFile? t p id = some key → keyFile? t' p id = some key

theorem Extends.knows (h : Extends p t t') (hd : Knows t p d) : Knows t' p d :=
  fun id key hkey => h.files id key (hd id key hkey)

theorem Extends.isKeyFile {name : ByteArray} (h : Extends p t t') (hname : IsKeyFile paths p t name) :
    IsKeyFile paths p t' name := by
  obtain ⟨id, key, hname, hcheck, hfile, hsize⟩ := hname
  exact ⟨id, key, hname, hcheck, h.files id key hfile, hsize⟩

theorem Sound.extends (h : Sound t paths p s) (hextends : Extends p s.tree t')
    (hnames : ∀ name, isKeyName name = true → (t'.get? (p ++ [name])).isSome = true →
      (s.tree.get? (p ++ [name])).isSome = true ∨ IsKeyFile paths p t' name)
    (hcurrent : ∀ id, s.made = some id → Names s.tree p id → Names t' p id) :
    Sound t paths p { s with tree := t' } := by
  refine ⟨h.keeps.trans hextends.keeps, fun name hname hsome => ?_, fun d hd => ?_, fun id hid => ?_⟩
  · exact (hnames name hname hsome).elim
      (fun hthere => hextends.isKeyFile (h.files name hname hthere)) id
  · exact (h.values d hd).imp_right hextends.knows
  · obtain ⟨hkey, ⟨dir, hpath, hfits, henters⟩, hname⟩ := h.made id hid
    obtain ⟨key, hkey⟩ := Option.isSome_iff_exists.1 hkey
    exact ⟨Option.isSome_iff_exists.2 ⟨key, hextends.files id key hkey⟩,
      ⟨dir, hpath, hfits, hextends.keeps.enters henters⟩, hcurrent id hid hname⟩

theorem extends_of_grown {places : List Place} (h : t.Grown places t') (p : Place) : Extends p t t' :=
  ⟨h.keeps, fun id _ hfile => (keyFile?_of_grown h p id).trans hfile⟩

theorem extends_of_wroteIn_current {text : ByteArray} (h : t.WroteIn dir currentName text t')
    (p : Place) : Extends p t t' := by
  obtain ⟨q, -, hwrote⟩ := h.wrote
  exact ⟨hwrote.keeps, fun id _ hfile => (keyFile?_of_wroteIn_current h p id).trans hfile⟩

/-- A new key is written where nothing was, so that no key file of any place is lost. -/
theorem extends_of_generated (h : Generated t d id key t') (p : Place) : Extends p t t' := by
  obtain ⟨q, hq, hwrote⟩ := h.wrote.wrote
  refine ⟨hwrote.keeps, fun c k hfile => ?_⟩
  obtain ⟨hc, isPrivate, hget⟩ := keyFile?_eq_some_iff.1 hfile
  refine keyFile?_eq_some_iff.2 ⟨hc, isPrivate, ?_⟩
  rw [hwrote.others, hget]
  intro heq
  rw [heq, h.missing q hq] at hget
  cases hget

theorem knows_generated (h : Generated t d id key t') (henters : t.Enters d.dir p) (hd : Knows t p d) :
    Knows t' p { d with keys := Assoc.putSorted key id d.keys } := by
  intro c k hkey
  rw [Assoc.lookup_putSorted] at hkey
  rw [keyFile?_of_generated h henters]
  split_ifs at hkey ⊢ with hc
  · exact hkey
  · exact hd c k hkey

theorem Sound.withValues (h : Sound t paths p s) {values : List KeyDirectory}
    (hvalues : ∀ d ∈ values, d ∈ s.values ∨ paths d.dir ∧ Knows s.tree p d) :
    Sound t paths p { s with values := values } :=
  { h with values := fun d hd => (hvalues d hd).elim (h.values d) id }

theorem Sound.addValue (h : Sound t paths p s) (hdir : paths d.dir) (hd : Knows s.tree p d) :
    Sound t paths p { s with values := s.values ++ [d] } := by
  refine h.withValues fun d' hd' => (List.mem_append.1 hd').imp_right fun hmem => ?_
  rw [List.mem_singleton.1 hmem]
  exact ⟨hdir, hd⟩

theorem Sound.setValue (h : Sound t paths p s) (hdir : paths d.dir) (hd : Knows s.tree p d) (i : Nat) :
    Sound t paths p { s with values := s.values.set i d } := by
  refine h.withValues fun d' hd' => (List.mem_or_eq_of_mem_set hd').imp_right fun heq => ?_
  rw [heq]
  exact ⟨hdir, hd⟩

section Steps
variable (hpaths : ∀ dir, paths dir → LeadsTo t dir p)
include hpaths

/-- The paths of a session lead to its place only. -/
theorem Sound.target (h : Sound t paths p s) (hdir : paths dir) : s.tree.target dir = .ok p :=
  (h.keeps.target dir).trans (hpaths dir hdir).target

theorem Sound.wroteIn_enters {name : String} {text : ByteArray} (h : Sound t paths p s)
    (hdir : paths dir) (hwrote : s.tree.WroteIn dir name text t') : s.tree.Enters dir p :=
  hwrote.enters (h.target hpaths hdir)

theorem Sound.grown (h : Sound t paths p s) (hdir : paths dir)
    (hgrown : s.tree.Grown (s.tree.places dir) t') : Sound t paths p { s with tree := t' } := by
  refine h.extends (extends_of_grown hgrown p) (fun name hname hsome => .inl ?_) fun id _ hid => ?_
  · rcases hgrown.get? (p ++ [name]) with hsame | ⟨-, -, hplace⟩
    · rwa [← hsame]
    · have hplaces := (hpaths dir hdir).places name hname
      rw [places, ← h.keeps.origin] at hplaces
      exact absurd hplace hplaces
  · obtain ⟨isPrivate, hcurrent⟩ := hid
    exact ⟨isPrivate, (hgrown.file_iff _ _).2 hcurrent⟩

theorem Sound.generated (h : Sound t paths p s) (hdir : paths d.dir)
    (hgen : Generated s.tree d id key t') : Sound t paths p { s with tree := t' } := by
  have henters := h.wroteIn_enters hpaths hdir hgen.wrote
  have hwrote := hgen.wrote.wrote_at henters
  refine h.extends (extends_of_generated hgen p) (fun name hname hsome => ?_) fun c _ hc => ?_
  · by_cases heq : name = (keyName id).toUTF8
    · right
      have hfile := keyFile?_of_generated hgen henters id
      rw [if_pos rfl] at hfile
      exact ⟨id, key, heq, hgen.checked, hfile, hgen.size, d.dir, hdir, hgen.wrote.fits⟩
    · left
      rwa [← hwrote.others _ fun h => heq (List.append_singleton_inj.1 h).2]
  · obtain ⟨isPrivate, hcurrent⟩ := hc
    have hne : currentName.toUTF8 ≠ (keyName id).toUTF8 :=
      (keyName_ne_currentName (ne_empty_of_checkId hgen.checked)).symm
    refine ⟨isPrivate, ?_⟩
    rw [hwrote.others _ fun h => hne (List.append_singleton_inj.1 h).2]
    exact hcurrent

theorem Sound.madeCurrent (h : Sound t paths p s) (hdir : paths dir)
    (hkey : (keyFile? s.tree p id).isSome = true)
    (hwrote : s.tree.WroteIn dir currentName (id ++ "\n").toUTF8 t') :
    Sound t paths p { s with tree := t', made := some id } := by
  have henters := h.wroteIn_enters hpaths hdir hwrote
  have hwrote' := hwrote.wrote_at henters
  have hforgot : Sound t paths p { s with made := none } := { h with made := nofun }
  have hmoved := hforgot.extends (extends_of_wroteIn_current hwrote p)
    (fun name hname hsome => .inl ?_) nofun
  · refine { hmoved with made := fun c hc => ?_ }
    cases hc
    refine ⟨?_, ⟨dir, hdir, hwrote.fits, hwrote'.keeps.enters henters⟩, hwrote'.written⟩
    rwa [keyFile?_of_wroteIn_current hwrote]
  · have hne : name ≠ currentName.toUTF8 := by
      rintro rfl
      rw [not_isKeyName_currentName] at hname
      cases hname
    rwa [← hwrote'.others _ fun h => hne (List.append_singleton_inj.1 h).2]

theorem Sound.load (h : Sound t paths p s) (hdir : paths dir) :
    Sound t paths p (s.step (.load dir)) := by
  rw [Session.step]
  split
  · next d hload =>
    obtain ⟨rfl, ⟨q, hq, hkeys⟩, -⟩ := load_eq_ok hload
    obtain rfl := hq.unique (hq.at_target (h.target hpaths hdir))
    exact h.addValue hdir fun id key hkey => (hkeys id).symm.trans hkey
  · exact h

theorem Sound.init (h : Sound t paths p s) (hdir : paths dir) (id : String) (entropy : Entropy) :
    Sound t paths p (s.step (.init dir id entropy)) := by
  rw [Session.step]
  rcases hr : KeyDirectory.init s.tree dir id entropy with ⟨r, t'⟩
  obtain ⟨t₁, hgrown, hmore⟩ := init_cases hr
  have h₁ := h.grown hpaths hdir hgrown
  obtain ⟨e, rfl, rfl⟩ | ⟨key, t₂, hgen, hmore⟩ := hmore
  · exact h₁
  · have h₂ := h₁.generated hpaths hdir hgen
    have henters := h₁.wroteIn_enters hpaths hdir hgen.wrote
    have hknows : Knows t₂ p ⟨dir, [(id, key)], id⟩ :=
      knows_generated hgen henters (d := ⟨dir, [], id⟩) nofun
    obtain ⟨e, rfl, rfl⟩ | ⟨hwrote, rfl⟩ := hmore
    · exact h₂
    · have hkey : keyFile? t₂ p id = some key := hknows id key List.lookup_cons_self
      have h₃ := h₂.madeCurrent hpaths hdir (by rw [hkey]; rfl) hwrote
      exact h₃.addValue hdir ((extends_of_wroteIn_current hwrote p).knows hknows)

theorem Sound.change (h : Sound t paths p s) (i : Nat) (c : Change) :
    Sound t paths p (s.step (.change i c)) := by
  rw [Session.step]
  split
  · exact h
  · next d hd =>
    obtain ⟨hdir, hknows⟩ := h.values d (List.mem_of_getElem? hd)
    rcases hr : c.run s.tree d with ⟨r, d', t'⟩
    obtain ⟨e, rfl, rfl, rfl⟩ | ⟨id, _, key, rfl, hgen, rfl, rfl⟩ |
      ⟨id, rfl, hknown, hwrote, rfl, rfl⟩ := Change.run_cases hr
    · exact h.setValue hdir hknows i
    · have henters := h.wroteIn_enters hpaths hdir hgen.wrote
      have h₁ := h.generated hpaths hdir hgen
      exact h₁.setValue (d := { d with keys := Assoc.putSorted key id d.keys }) hdir
        (knows_generated hgen henters hknows) i
    · obtain ⟨key, hkey⟩ := Option.isSome_iff_exists.1 hknown
      have h₁ := h.madeCurrent hpaths hdir (by rw [hknows id key hkey]; rfl) hwrote
      exact h₁.setValue (d := { d with current := id }) hdir
        ((extends_of_wroteIn_current hwrote p).knows hknows) i

theorem Sound.run (h : Sound t paths p s) {actions : List Action}
    (hactions : ∀ a ∈ actions, ∀ dir, a.path? = some dir → paths dir) :
    Sound t paths p (s.run actions) := by
  induction actions generalizing s with
  | nil => exact h
  | cons a rest ih =>
    rw [List.forall_mem_cons] at hactions
    refine ih ?_ hactions.2
    cases a with
    | load dir => exact h.load hpaths (hactions.1 dir rfl)
    | init dir id entropy => exact h.init hpaths (hactions.1 dir rfl) id entropy
    | change i c => exact h.change hpaths i c

end Steps

/-! ### Reading again -/

/-- A path reaches a place and all files there of which reading it makes use. -/
structure Reaches (t : FileTree) (dir : ByteArray) (p : Place) : Prop where
  enters : t.Enters dir p
  current : Fits dir currentName
  files : ∀ id, (keyFile? t p id).isSome = true → Fits dir (keyName id)

/-- A path reaches what it was used for itself. -/
theorem Sound.reaches (h : Sound t paths p s) (hmade : s.made = some id)
    (honly : ∀ dir', paths dir' → dir' = dir) : Reaches s.tree dir p := by
  obtain ⟨-, ⟨dir', hpath, hfits, henters⟩, -⟩ := h.made id hmade
  obtain rfl := honly dir' hpath
  refine ⟨henters, hfits, fun c hc => ?_⟩
  obtain ⟨key, hkey⟩ := Option.isSome_iff_exists.1 hc
  obtain ⟨hne, isPrivate, hfile⟩ := keyFile?_eq_some_iff.1 hkey
  obtain ⟨i, _, hname, -, -, -, dir', hpath', hfits'⟩ :=
    h.files (keyName c).toUTF8 (isKeyName_keyName hne) (by rw [hfile]; rfl)
  rwa [keyName_injective hname, ← honly dir' hpath']

theorem Sound.readable (h : Sound t paths p s) (hmade : s.made = some id) (hdir : dir.size ≠ 0)
    (hreaches : Reaches s.tree dir p) : Readable s.tree dir p (id ++ "\n") := by
  refine ⟨hdir, hreaches.enters, hreaches.current, (h.made id hmade).2.2, fun name hname hsome => ?_⟩
  obtain ⟨c, key, hc, hcheck, hfile, hsize, -⟩ := h.files name hname hsome
  exact ⟨c, key, hc, hcheck, hreaches.files c (by rw [hfile]; rfl), hfile, hsize⟩

theorem masterKey_eq_ok_iff : d.masterKey id = .ok key ↔ d.keys.lookup id = some key := by
  rw [masterKey]
  cases d.keys.lookup id <;> simp

/-- What reading the directory gives at the end of a session. -/
theorem Sound.load_eq (h : Sound t paths p s) (hmade : s.made = some id) (hdir : dir.size ≠ 0)
    (hreaches : Reaches s.tree dir p) :
    ∃ keys, (∀ c, keys.lookup c = keyFile? s.tree p c) ∧
      KeyDirectory.load s.tree dir = named dir keys id := by
  obtain ⟨keys, hkeys, hload⟩ := (h.readable hmade hdir hreaches).load
  exact ⟨keys, hkeys, by rw [hload, named_newline]⟩

end ColumnVault.KeyDirectory
