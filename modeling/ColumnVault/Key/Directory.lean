import ColumnVault.Files.Tree
import ColumnVault.Key.Source
import ColumnVault.Outcome
import ColumnVault.Text.Blank

/-! Master keys in a directory of files. Every file `<id>.key` holds one key of 32 bytes, and a file
`current` names the key for new values. -/

namespace ColumnVault

/-- The keys of a directory as they were when it was read, with the changes made through this value.
The keys are in the order of their ids. -/
structure KeyDirectory where
  dir : ByteArray
  keys : List (String × ByteArray)
  current : String
  deriving DecidableEq

namespace KeyDirectory

def keyExtension : String := "key"

def currentName : String := "current"

/-- The name of an entry before and after its last dot. A dot at the front does not count. -/
def splitExtension (name : ByteArray) : ByteArray × Option ByteArray :=
  let bytes := name.data.toList
  let after := (bytes.reverse.takeWhile (· ≠ 0x2e)).reverse
  let before := bytes.take (bytes.length - after.length - 1)
  if after.length = bytes.length ∨ before = [] then (name, none)
  else (before.toByteArray, some after.toByteArray)

/-- Whether an entry is a key by its name. -/
def isKeyName (name : ByteArray) : Bool :=
  (splitExtension name).2 = some keyExtension.toUTF8

/-- Key ids become names of files, so they must not lead elsewhere. -/
def checkId (id : String) : Except KeySourceError Unit :=
  match KeyId.check id with
  | .error fault => .error (.invalidKey (.badId fault))
  | .ok () =>
    if id = "." ∨ id = ".." ∨ id.toList.any (fun c => c = '/' ∨ c = '\\' ∨ c = '\x00') then
      .error (.invalidKey (.idNotFileName id))
    else .ok ()

def keyPath (dir : ByteArray) (id : String) : ByteArray :=
  FileTree.join dir (id ++ "." ++ keyExtension).toUTF8

def currentPath (dir : ByteArray) : ByteArray :=
  FileTree.join dir currentName.toUTF8

/-- The id that the name of a key file gives to its key. -/
def idOfName (dir name : ByteArray) : Except KeySourceError String :=
  match Text.Utf8.decode (splitExtension name).1 with
  | .error _ =>
    .error (.invalidKey (.fileNameNotUtf8 (Text.Utf8.decodeLossy (FileTree.join dir name))))
  | .ok id => do
    checkId id
    return id

def liftFile {α : Type} (r : Except FileFault α) : Except KeySourceError α :=
  match r with
  | .ok a => .ok a
  | .error fault => .error (.file fault)

/-- The key of a file whose name gives it an id. -/
def readKey (t : FileTree) (dir name : ByteArray) :
    Except KeySourceError (String × ByteArray) := do
  let id ← idOfName dir name
  let path := keyPath dir id
  let key ← liftFile (t.read path)
  if key.size ≠ keySize then throw (.invalidKey (.wrongFileSize (Text.Utf8.decodeLossy path) key.size))
  return (id, key)

/-- Reads the keys among some entries, in the order of the list. -/
def readKeys (t : FileTree) (dir : ByteArray) :
    List ByteArray → List (String × ByteArray) → Except KeySourceError (List (String × ByteArray))
  | [], keys => .ok keys
  | name :: rest, keys =>
    if isKeyName name then do
      let (id, key) ← readKey t dir name
      readKeys t dir rest (Assoc.putSorted key id keys)
    else readKeys t dir rest keys

/-- The id in the file `current`, if there is one. -/
def readCurrent (t : FileTree) (dir : ByteArray) : Except KeySourceError (Option String) :=
  let path := currentPath dir
  if ¬ t.has path then .ok none
  else do
    let id := Text.trim (← liftFile (t.readText path))
    if id = "" then throw .noDefaultKey
    return some id

/-- Reads a directory whose entries are listed in a given order. -/
def loadListed (t : FileTree) (dir : ByteArray) (names : List ByteArray) :
    Except KeySourceError KeyDirectory := do
  let keys ← readKeys t dir names []
  let current ← match ← readCurrent t dir, keys with
    | some id, _ => pure id
    | none, [(id, _)] => pure id
    | none, _ => throw .noDefaultKey
  if (keys.lookup current).isNone then throw (.keyNotFound current)
  return ⟨dir, keys, current⟩

/-- Reads a directory. -/
def load (t : FileTree) (dir : ByteArray) : Except KeySourceError KeyDirectory :=
  if t.hasDirectory dir then do
    loadListed t dir (← liftFile (t.list dir))
  else .error (.creationFailed (.noDirectory (Text.Utf8.decodeLossy dir)))

def masterKey (d : KeyDirectory) (id : String) : Except KeySourceError ByteArray :=
  match d.keys.lookup id with
  | some key => .ok key
  | none => .error (.keyNotFound id)

/-- The key for new values first, and then the others in the order of their ids. -/
def activeIds (d : KeyDirectory) : List String :=
  d.current :: (d.keys.map (·.1)).filter (· ≠ d.current)

def toSource (d : KeyDirectory) : KeySource :=
  ⟨d.activeIds, d.current, d.masterKey⟩

/-! ### Changes

A change of a value gives its result, and the value and the tree after it, whether it succeeds or not. -/

/-- What a change comes to. -/
abbrev Changed := Except KeySourceError Unit × KeyDirectory × FileTree

/-- Draws a new key and writes its file. It is active from then on, but not current. -/
def generate (t : FileTree) (d : KeyDirectory) (id : String) (entropy : Entropy) : Changed :=
  match checkId id with
  | .error e => (.error e, d, t)
  | .ok () =>
    let path := keyPath d.dir id
    if (d.keys.lookup id).isSome ∨ t.has path then
      (.error (.creationFailed (.keyExists id)), d, t)
    else
      match entropy.draw keySize with
      | .error text => (.error (.creationFailed (.entropy text)), d, t)
      | .ok (key, _) =>
        match t.writeAs path key.val true with
        | .error fault => (.error (.file fault), d, t)
        | .ok t => (.ok (), { d with keys := Assoc.putSorted key.val id d.keys }, t)

/-- Makes a key current, here and in the directory. -/
def setCurrent (t : FileTree) (d : KeyDirectory) (id : String) : Changed :=
  if (d.keys.lookup id).isNone then (.error (.keyNotFound id), d, t)
  else
    match t.write (currentPath d.dir) (id ++ "\n").toUTF8 with
    | .error fault => (.error (.file fault), d, t)
    | .ok t => (.ok (), { d with current := id }, t)

/-- Makes a directory with one new key, which is current. There is a value for it only in the end. -/
def init (t : FileTree) (dir : ByteArray) (id : String) (entropy : Entropy) :
    Except KeySourceError KeyDirectory × FileTree :=
  match t.makeDirectories dir with
  | (.error fault, t) => (.error (.file fault), t)
  | (.ok (), t) =>
    if t.has (currentPath dir) then
      (.error (.creationFailed (.alreadyInitialized (Text.Utf8.decodeLossy dir))), t)
    else
      match generate t ⟨dir, [], id⟩ id entropy with
      | (.error e, _, t) => (.error e, t)
      | (.ok (), d, t) =>
        let (r, d, t) := setCurrent t d id
        (r.map fun () => d, t)

end KeyDirectory

end ColumnVault
