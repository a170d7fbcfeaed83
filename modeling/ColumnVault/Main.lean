import ColumnVault.Cli.Run

/-! The program. It takes in the files that a call looks at, carries the call out on them, and puts
back what has changed. -/

namespace ColumnVault.Program

/-- The path of a place from the root on. -/
def pathOf (p : Place) : String :=
  "/" ++ String.intercalate "/" (p.map Text.Utf8.decodeLossy)

/-- Takes in what stands at a place. -/
def takeIn (t : FileTree) (p : Place) : IO FileTree := do
  match ← (IO.FS.realPath (pathOf p)).toBaseIO with
  | .error _ => return t
  | .ok found =>
    if ← found.isDir then return t.put p .directory
    else return t.put p (.file (← IO.FS.readBinFile found) false)

/-- Takes in what stands on the way of a path. -/
def takeInPath (t : FileTree) (path : ByteArray) : IO FileTree :=
  (t.places path).foldlM takeIn t

/-- Takes in a key directory with the entries that matter there. -/
def takeInKeys (t : FileTree) (dir : ByteArray) : IO FileTree := do
  let t ← takeInPath t dir
  match t.resolve dir with
  | .error _ => return t
  | .ok place =>
    if t.get? place = some .directory then
      let found ← IO.FS.realPath (pathOf place)
      let names := (← found.readDir).toList.map (·.fileName.toUTF8)
      let kept := names.filter fun name =>
        KeyDirectory.isKeyName name || name = KeyDirectory.currentName.toUTF8
      kept.foldlM (fun t name => takeIn t (place ++ [name])) t
    else return t

/-- Only its owner may read or write a private file. -/
def ownerOnly : IO.FileRight :=
  { user := { read := true, write := true } }

/-- Puts an entry back on its place. -/
def putBack (p : Place) : Entry → IO Unit
  | .directory => IO.FS.createDir (pathOf p)
  | .file content isPrivate => do
    IO.FS.writeBinFile (pathOf p) content
    if isPrivate then IO.setAccessRights (pathOf p) ownerOnly

/-- Puts back the entries in which a tree differs from the one before. -/
def putBackChanges (before after : FileTree) : IO Unit :=
  after.entries.forM fun (p, e) => do
    if before.get? p ≠ some e then putBack p e

/-- No call draws more random bytes. -/
def drawn : Nat := keySize + nonceSize

/-- Carries out one call and gives the exit code. -/
def call (args : List ByteArray) : IO UInt32 := do
  let here := toString (← IO.FS.realPath ".")
  let start := ((FileTree.empty.places here.toUTF8).getLast?).getD []
  let t ← takeInPath { FileTree.empty with start } ".".toUTF8
  let t ← match Cli.configPath? args with
    | some path => takeInPath t path
    | none => pure t
  let t ← match Cli.keyDir? args t with
    | some dir => takeInKeys t dir
    | none => pure t
  let random ← IO.getRandomBytes (USize.ofNat drawn)
  let (ending, after) := Cli.run args t ⟨random, "no random bytes left"⟩
  putBackChanges t after
  IO.print ending.output
  IO.eprint ending.complaint
  return ending.exitCode.toUInt32

end ColumnVault.Program

def main (args : List String) : IO UInt32 := do
  try
    ColumnVault.Program.call (args.map String.toUTF8)
  catch fault =>
    IO.eprintln s!"Error: {fault}"
    return 1
