import ColumnVault.Bytes.Hex
import ColumnVault.Cli.Help
import ColumnVault.Cli.Settings
import ColumnVault.Key.Directory
import ColumnVault.Search.Condition
import ColumnVault.Vault.Rotation

/-! Carrying out a call on a tree of files. -/

namespace ColumnVault.Cli

variable [Zstd.Encoder]

/-- Why a command does not come to its end. -/
inductive Failure where
  | report (r : Report)
  | abort (cause : Abort)
  deriving DecidableEq, Repr

/-- What a command prints, unless it fails. -/
abbrev Printed := Except Failure String

def fail {α : Type} (context : String) (causes : List String) : Except Failure α :=
  .error (.report ⟨context, causes⟩)

/-- The value of an operation, whose failure is reported in a context. -/
def inContext {α : Type} (context : String) : Outcome α → Except Failure α
  | .value a => .ok a
  | .failure e => fail context (e.message :: e.causes)
  | .abort cause => .error (.abort cause)

def keysInContext {α : Type} (context : String) : Except KeySourceError α → Except Failure α
  | .ok a => .ok a
  | .error e => fail context (e.message :: e.causes)

/-- The bytes that an argument writes, with or without blanks around. -/
def hexArgument (label value : String) : Except Failure ByteArray :=
  match Hex.decode (Text.trim value) with
  | .ok b => .ok b
  | .error fault => fail s!"{label} is not valid hex" [fault.message]

def line (s : String) : String := s ++ "\n"

def lines (l : List String) : String :=
  String.join (l.map line)

/-- Values that are missing are printed as empty. -/
def hexLine (b : Option ByteArray) : String :=
  line (Hex.encode (b.getD ByteArray.empty))

/-- The key directory as messages write it. -/
def Settings.shownKeyDir (s : Settings) : String :=
  Text.Utf8.decodeLossy s.keyDir

def Settings.loadDirectory (s : Settings) (t : FileTree) : Except Failure KeyDirectory :=
  keysInContext s!"loading keys from {s.shownKeyDir}" (KeyDirectory.load t s.keyDir)

def Settings.openVault (s : Settings) (t : FileTree) : Except Failure Vault := do
  let d ← s.loadDirectory t
  inContext "opening vault" (Outcome.ofExcept (Vault.new d.toSource s.policy))

/-! ### Commands that change files -/

def Settings.init (s : Settings) (id : String) (t : FileTree) (e : Entropy) : Printed × FileTree :=
  let (r, t) := KeyDirectory.init t s.keyDir id e
  ((keysInContext s!"initializing key directory {s.shownKeyDir}" r).map fun _ =>
    line s!"Initialized {s.shownKeyDir} with default key {id}", t)

def Settings.keygen (s : Settings) (id : String) (setCurrent : Bool) (t : FileTree) (e : Entropy) :
    Printed × FileTree :=
  match s.loadDirectory t with
  | .error f => (.error f, t)
  | .ok d =>
    match KeyDirectory.generate t d id e with
    | (.error e, _, t) => (keysInContext "generating key" (.error e), t)
    | (.ok (), d, t) =>
      if setCurrent then
        let (r, _, t) := KeyDirectory.setCurrent t d id
        ((keysInContext "setting default key" r).map fun _ => line s!"Generated key {id} (default)", t)
      else (.ok (line s!"Generated key {id}"), t)

/-! ### Commands that change nothing -/

def Settings.encrypt (s : Settings) (value : String) (hex : Bool) (id : Option String) (t : FileTree)
    (e : Entropy) : Printed := do
  let plain ← if hex then hexArgument "value" value else pure value.toUTF8
  let vault ← s.openVault t
  let sealed := match id with
    | some id => vault.encryptWithKey id (some plain)
    | none => vault.encrypt (some plain)
  return hexLine (← inContext "encrypting" (sealed.run e).1)

def Settings.decrypt (s : Settings) (envelope : String) (hex : Bool) (id : Option String) (t : FileTree) :
    Printed := do
  let envelope ← hexArgument "envelope" envelope
  let vault ← s.openVault t
  let opened := match id with
    | some id => vault.decryptWithKey id (some envelope)
    | none => vault.decrypt (some envelope)
  let plain := (← inContext "decrypting" opened).getD ByteArray.empty
  if hex then return hexLine (some plain)
  else
    match Text.Utf8.decode plain with
    | .ok text => return line text
    | .error fault => fail "plaintext is not UTF-8, use --hex" [fault.message]

/-- One line for each active key. -/
def Settings.blindIndexAll (s : Settings) (value : String) (n : Normalizer) (t : FileTree) : Printed := do
  let vault ← s.openVault t
  let normal ← inContext "" (n.apply value)
  let indexes ← inContext "computing blind indexes" (vault.blindIndexAll (some normal.toUTF8))
  return lines ((indexes.getD []).map fun (id, digest) => s!"{id} {Hex.encode digest}")

def Settings.blindIndex (s : Settings) (value : String) (n : Normalizer) (id : Option String)
    (t : FileTree) : Printed := do
  let vault ← s.openVault t
  let normal ← inContext "" (n.apply value)
  let index ← inContext "computing blind index" (match id with
    | some id => vault.blindIndexWithKey id (some normal.toUTF8)
    | none => vault.blindIndex (some normal.toUTF8))
  return lines (index.toList.map Hex.encode)

/-- The predicate, and a line for each of its parameters. A column or an offset that could not stand
in it is reported. -/
def Settings.condition (s : Settings) (column value : String) (n : Normalizer) (offset : Nat) (t : FileTree) :
    Printed := do
  let vault ← s.openVault t
  match (do Search.checkColumn column
            Search.checkOffset offset vault.activeIds.length : Except Error Unit) with
  | .error e => fail e.message e.causes
  | .ok () =>
    let c ← inContext "" (vault.conditionText column (some value) n offset)
    let shown := fun (p : Search.Parameter) =>
      match p with
      | .keyId id => id
      | .index digest => Hex.encode digest
    return lines (c.predicate ::
      c.parameters.zipIdx.map fun (p, i) => s!"${offset + i} {shown p}")

def Settings.rotate (s : Settings) (envelope : String) (t : FileTree) (e : Entropy) : Printed := do
  let envelope ← hexArgument "envelope" envelope
  let vault ← s.openVault t
  return hexLine (← inContext "rotating" ((vault.rotate (some envelope)).run e).1)

def Settings.needsRotation (s : Settings) (envelope : String) (t : FileTree) : Printed := do
  let envelope ← hexArgument "envelope" envelope
  let vault ← s.openVault t
  match Envelope.peekKeyId envelope with
  | .error e => fail s!"cannot read envelope header: {e.message}" []
  | .ok id =>
    let needed ← inContext "" (vault.needsRotation (some envelope))
    return line s!"{needed} (key {id})"

def Command.run (c : Command) (s : Settings) (t : FileTree) (e : Entropy) : Printed × FileTree :=
  match c with
  | .init id => s.init id t e
  | .keygen id setCurrent => s.keygen id setCurrent t e
  | .encrypt value hex id => (s.encrypt value hex id t e, t)
  | .decrypt envelope hex id => (s.decrypt envelope hex id t, t)
  | .blindIndex value n id all =>
    (if all then s.blindIndexAll value n t else s.blindIndex value n id t, t)
  | .condition column value n offset => (s.condition column value n offset t, t)
  | .rotate envelope => (s.rotate envelope t e, t)
  | .needsRotation envelope => (s.needsRotation envelope t, t)

/-! ### Calls -/

/-- How a call ends. -/
inductive Ending where
  | done (output : String)
  | failed (report : Report)
  | aborted (cause : Abort)
  | usage
  deriving DecidableEq, Repr

def Ending.exitCode : Ending → UInt8
  | .done _ => 0
  | .failed _ => 1
  | .usage => 2
  | .aborted _ => 101

/-- What goes to the output. -/
def Ending.output : Ending → String
  | .done output => output
  | _ => ""

/-- What is said beside the output. -/
def Ending.complaint : Ending → String
  | .done _ => ""
  | .failed r => line r.text
  | .aborted cause => line cause.message
  | .usage => overview

def Ending.ofPrinted : Printed → Ending
  | .ok output => .done output
  | .error (.report r) => .failed r
  | .error (.abort cause) => .aborted cause

/-- The configuration file that a call reads. -/
def configPath? (args : List ByteArray) : Option ByteArray :=
  match Call.ofArguments args with
  | .run options _ => options.config
  | _ => none

/-- The key directory that a call works on, if the settings say so. -/
def keyDir? (args : List ByteArray) (t : FileTree) : Option ByteArray :=
  match Call.ofArguments args with
  | .run options _ => (Settings.resolve t options).toOption.map (·.keyDir)
  | _ => none

/-- Carries out the call that some arguments make. -/
def run (args : List ByteArray) (t : FileTree) (e : Entropy) : Ending × FileTree :=
  match Call.ofArguments args with
  | .usage => (.usage, t)
  | .help (some v) => (.done v.help, t)
  | .help none => (.done overview, t)
  | .helpOnHelp => (.done helpOnHelp, t)
  | .run options command =>
    match Settings.resolve t options with
    | .error report => (.failed report, t)
    | .ok s =>
      let (printed, t) := command.run s t e
      (.ofPrinted printed, t)

end ColumnVault.Cli
