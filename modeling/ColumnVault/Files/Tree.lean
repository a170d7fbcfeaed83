import ColumnVault.Assoc
import ColumnVault.Error

/-! A tree of files. Names and paths are bytes, which need not be those of a text. Paths are written with
slashes and are resolved step by step, where `.` and empty steps stay and `..` goes back. A path that
begins with a slash leads from the root on, any other from the directory at which the tree is looked at. -/

namespace ColumnVault

/-- A file, with its content and whether only its owner may read it, or a directory. -/
inductive Entry where
  | directory
  | file (content : ByteArray) (isPrivate : Bool)
  deriving DecidableEq

/-- A place in the tree: the names from the root on. -/
abbrev Place := List ByteArray

/-- The entries below the root, in the order in which they are listed. -/
structure FileTree where
  entries : List (Place × Entry)
  /-- Where paths begin. -/
  start : Place
  deriving DecidableEq

namespace FileTree

def empty : FileTree := ⟨[], []⟩

/-- The longest name of an entry. -/
def maxName : Nat := 255

/-- The longest path, in bytes. -/
def maxPath : Nat := 4095

def get? (t : FileTree) (p : Place) : Option Entry :=
  if p = [] then some .directory else t.entries.lookup p

def put (t : FileTree) (p : Place) (e : Entry) : FileTree :=
  { t with entries := Assoc.put p e t.entries }

theorem get?_put {p q : Place} (h : p ≠ []) (t : FileTree) (e : Entry) :
    (t.put p e).get? q = if q = p then some e else t.get? q := by
  by_cases hq : q = []
  · subst hq
    simp [get?, Ne.symm h]
  · simp [get?, put, hq, Assoc.lookup_put]

/-- The names directly below a place. -/
def names (t : FileTree) (p : Place) : List ByteArray :=
  t.entries.filterMap fun e => if e.1.dropLast = p then e.1.getLast? else none

/-- Leaves out everything at and below a place. -/
def remove (t : FileTree) (p : Place) : FileTree :=
  { t with entries := t.entries.filter fun e => ¬ p.isPrefixOf e.1 }

/-! ### Paths -/

def slash : UInt8 := 0x2f

/-- The bytes between slashes. -/
def splitSlashes : List UInt8 → List (List UInt8)
  | [] => [[]]
  | b :: rest =>
    if b = slash then [] :: splitSlashes rest
    else
      match splitSlashes rest with
      | [] => [[b]]
      | step :: more => (b :: step) :: more

theorem splitSlashes_ne_nil (bytes : List UInt8) : splitSlashes bytes ≠ [] := by
  cases bytes with
  | nil => simp [splitSlashes]
  | cons b rest =>
    rw [splitSlashes]
    split
    · simp
    · split <;> simp

/-- What stands behind a slash is split on its own. -/
theorem splitSlashes_append_slash (before after : List UInt8) :
    splitSlashes (before ++ slash :: after) = splitSlashes before ++ splitSlashes after := by
  induction before with
  | nil => simp [splitSlashes]
  | cons b rest ih =>
    rw [List.cons_append, splitSlashes, ih, splitSlashes]
    by_cases h : b = slash
    · simp [h]
    · cases hs : splitSlashes rest with
      | nil => exact absurd hs (splitSlashes_ne_nil rest)
      | cons step more => simp [h]

/-- Bytes without a slash are one step. -/
theorem splitSlashes_of_notMem {bytes : List UInt8} (h : slash ∉ bytes) :
    splitSlashes bytes = [bytes] := by
  induction bytes with
  | nil => rfl
  | cons b rest ih =>
    rw [List.mem_cons, not_or] at h
    simp [splitSlashes, Ne.symm h.1, ih h.2]

/-- The steps of a path. -/
def steps (path : ByteArray) : List ByteArray :=
  (splitSlashes path.data.toList).map List.toByteArray

/-- Where a path begins. -/
def origin (t : FileTree) (path : ByteArray) : Place :=
  if path.data.toList.head? = some slash then [] else t.start

def dot : ByteArray := ".".toUTF8

def dotDot : ByteArray := "..".toUTF8

/-- Where one step leads from a place that is a directory. -/
def step (p : Place) (name : ByteArray) : Except FileFault Place :=
  if name.size = 0 ∨ name = dot then .ok p
  else if name = dotDot then .ok p.dropLast
  else if name.size > maxName then .error .nameTooLong
  else .ok (p ++ [name])

/-- Follows steps. All but the last have to lead to directories that exist. -/
def walk (t : FileTree) : Place → List ByteArray → Except FileFault Place
  | p, [] => .ok p
  | p, name :: rest =>
    match t.get? p with
    | none => .error .notFound
    | some (.file ..) => .error .notDirectory
    | some .directory => do t.walk (← step p name) rest

/-- The places on the way of some steps, as if each of them led to a directory. -/
def placesFrom : Place → List ByteArray → List Place
  | p, [] => [p]
  | p, name :: rest =>
    match step p name with
    | .ok q => p :: placesFrom q rest
    | .error _ => [p]

/-- The places on the way of a path. -/
def places (t : FileTree) (path : ByteArray) : List Place :=
  placesFrom (t.origin path) (steps path)

/-- Whether some bytes can be a path at all. -/
def checkPath (path : ByteArray) : Except FileFault Unit :=
  if path.data.toList.contains 0 then .error .nameHasNul
  else if path.size > maxPath then .error .nameTooLong
  else .ok ()

/-- The place of a path, whether or not there is an entry. -/
def resolve (t : FileTree) (path : ByteArray) : Except FileFault Place := do
  if path.size = 0 then throw .notFound
  checkPath path
  t.walk (t.origin path) (steps path)

/-- A path that goes on from another. -/
def join (dir name : ByteArray) : ByteArray :=
  if dir.size = 0 ∨ dir.data.toList.getLast? = some slash then dir ++ name
  else dir.push slash ++ name

/-! ### Operations -/

def find (t : FileTree) (path : ByteArray) : Except FileFault Entry := do
  match t.get? (← t.resolve path) with
  | some e => return e
  | none => throw .notFound

def has (t : FileTree) (path : ByteArray) : Bool :=
  (t.find path).isOk

def hasDirectory (t : FileTree) (path : ByteArray) : Bool :=
  match t.find path with
  | .ok .directory => true
  | _ => false

def read (t : FileTree) (path : ByteArray) : Except FileFault ByteArray := do
  match ← t.find path with
  | .file content _ => return content
  | .directory => throw .isDirectory

/-- The content of a file that has to be a text. -/
def readText (t : FileTree) (path : ByteArray) : Except FileFault String := do
  match Text.Utf8.decode (← t.read path) with
  | .ok s => return s
  | .error _ => throw .contentNotUtf8

/-- The names in a directory. -/
def list (t : FileTree) (path : ByteArray) : Except FileFault (List ByteArray) := do
  let p ← t.resolve path
  match t.get? p with
  | some .directory => return t.names p
  | some (.file ..) => throw .notDirectory
  | none => throw .notFound

/-- Makes the content of a file, which keeps its owner's privacy if it was there before. -/
def write (t : FileTree) (path content : ByteArray) : Except FileFault FileTree := do
  let p ← t.resolve path
  match t.get? p with
  | some .directory => throw .isDirectory
  | some (.file _ isPrivate) => return t.put p (.file content isPrivate)
  | none => return t.put p (.file content false)

/-- Makes a file with the given content and privacy. -/
def writeAs (t : FileTree) (path content : ByteArray) (isPrivate : Bool) :
    Except FileFault FileTree := do
  let t ← t.write path content
  return t.put (← t.resolve path) (.file content isPrivate)

/-- Follows steps and makes the directories that are missing; those made before a fault stay. -/
def makeWalk (t : FileTree) : Place → List ByteArray → Except FileFault Unit × FileTree
  | _, [] => (.ok (), t)
  | p, name :: rest =>
    match step p name with
    | .error fault => (.error fault, t)
    | .ok q =>
      match t.get? q with
      | some .directory => t.makeWalk q rest
      | some (.file ..) => (.error (if rest = [] then .exists else .notDirectory), t)
      | none => (t.put q .directory).makeWalk q rest

/-- The steps along which directories are made: all of them, unless a dot stands at their end. No
directory is made by such a name, so those are the steps before the last that leads elsewhere. -/
def makableSteps (names : List ByteArray) : List ByteArray :=
  let leads := fun (name : ByteArray) => name.size ≠ 0 ∧ name ≠ dot
  let behind := names.reverse.takeWhile (¬ leads ·)
  if dot ∈ behind then names.take (names.length - behind.length - 1) else names

/-- Makes a directory and those it lies in, where they are missing. -/
def makeDirectories (t : FileTree) (path : ByteArray) : Except FileFault Unit × FileTree :=
  if path.size = 0 then (.ok (), t)
  else
    match checkPath path with
    | .error fault => (.error fault, t)
    | .ok () =>
      match t.makeWalk (t.origin path) (makableSteps (steps path)) with
      | (.error fault, t) => (.error fault, t)
      | (.ok (), t) =>
        match t.find path with
        | .error fault => (.error fault, t)
        | .ok .directory => (.ok (), t)
        | .ok (.file ..) => (.error .exists, t)

end FileTree

end ColumnVault
