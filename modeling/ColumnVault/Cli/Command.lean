import ColumnVault.Cli.Arguments
import ColumnVault.Search.Normalizer

/-! The commands, their flags and operands, and how the arguments of a call name one of them. -/

namespace ColumnVault.Cli

/-- The name of a command. -/
inductive Verb where
  | init
  | keygen
  | encrypt
  | decrypt
  | blindIndex
  | condition
  | rotate
  | needsRotation
  deriving DecidableEq, Repr

namespace Verb

def all : List Verb :=
  [.init, .keygen, .encrypt, .decrypt, .blindIndex, .condition, .rotate, .needsRotation]

def name : Verb → String
  | .init => "init"
  | .keygen => "keygen"
  | .encrypt => "encrypt"
  | .decrypt => "decrypt"
  | .blindIndex => "blind-index"
  | .condition => "condition"
  | .rotate => "rotate"
  | .needsRotation => "needs-rotation"

def about : Verb → String
  | .init => "Create a key directory with one fresh default key"
  | .keygen => "Generate a new master key"
  | .encrypt => "Encrypt a value, printing the envelope as hex"
  | .decrypt => "Decrypt a hex envelope"
  | .blindIndex => "Compute a blind index, printed as hex"
  | .condition => "Build an equality search condition over every active key"
  | .rotate => "Re-encrypt a hex envelope under the default key"
  | .needsRotation => "Report whether a hex envelope was written under an old key"

def ofName? (name : ByteArray) : Option Verb :=
  all.find? (·.name.toUTF8 = name)

theorem ofName?_name (v : Verb) : ofName? v.name.toUTF8 = some v := by
  cases v <;> rfl

/-- The names of the operands, and what they are. -/
def operands : Verb → List (String × String)
  | .init => []
  | .keygen => [("KEY_ID", "Identifier of the new key")]
  | .encrypt => [("VALUE", "Value to encrypt")]
  | .decrypt => [("ENVELOPE", "Envelope as hex")]
  | .blindIndex => [("VALUE", "Value to index")]
  | .condition => [("COLUMN", "Column name"), ("VALUE", "Value to search for")]
  | .rotate => [("ENVELOPE", "Envelope as hex")]
  | .needsRotation => [("ENVELOPE", "Envelope as hex")]

end Verb

/-! ### Flags -/

def switch (long about : String) (short : Option Char) : Flag :=
  ⟨long, short, none, about, none⟩

/-- The normalizers that can be named. -/
def normalizerNames : List String :=
  [.identity, .email, .digits, .trim, .lowercase].filterMap Normalizer.name?

def normalizerFlag : Flag where
  long := "normalizer"
  short := some 'n'
  takes := some (.choice normalizerNames)
  about := "Normalization applied before hashing"
  initial := some "identity"

def keyIdFlag (about : String) (initial : Option String) : Flag :=
  ⟨"key-id", none, some .text, about, initial⟩

def keyDirFlag : Flag :=
  ⟨"key-dir", some 'k', some .path, "Directory holding master keys", none⟩

/-- The flags that may stand before and behind the command. -/
def commonFlags : List Flag := [
  keyDirFlag,
  ⟨"config", some 'c', some .path, "TOML configuration file", none⟩,
  ⟨"compression-threshold", none, some .count,
    "Minimum payload size, in bytes, before compression is attempted", none⟩,
  switch "no-compression" "Never compress payloads" none,
  switch "verbose" "Log at debug level" (some 'v')]

/-- The flags of one command only. -/
def Verb.flags : Verb → List Flag
  | .init => [keyIdFlag "Identifier of the first key" (some "v1")]
  | .keygen => [switch "set-current" "Make the new key the default" none]
  | .encrypt => [
    switch "hex" "Treat the value as hex-encoded bytes" none,
    keyIdFlag "Encrypt under this key instead of the default" none]
  | .decrypt => [
    switch "hex" "Print the plaintext as hex" none,
    keyIdFlag "Require the envelope to name this key" none]
  | .blindIndex => [
    normalizerFlag,
    keyIdFlag "Index under this key instead of the default" none,
    switch "all" "Index under every active key" none]
  | .condition => [
    normalizerFlag,
    ⟨"offset", none, some .count, "Number of the first positional parameter", some "1"⟩]
  | .rotate => []
  | .needsRotation => []

/-- What may stand behind a command. -/
def Verb.level (v : Verb) : Level :=
  ⟨v.flags ++ commonFlags, v.operands.length, []⟩

def helpName : String := "help"

/-- What may stand before a command. -/
def outerLevel : Level :=
  ⟨commonFlags, 0, helpName :: Verb.all.map Verb.name⟩

/-! ### Calls -/

/-- What to do. -/
inductive Command where
  | init (keyId : String)
  | keygen (keyId : String) (setCurrent : Bool)
  | encrypt (value : String) (hex : Bool) (keyId : Option String)
  | decrypt (envelope : String) (hex : Bool) (keyId : Option String)
  | blindIndex (value : String) (normalizer : Normalizer) (keyId : Option String) (all : Bool)
  | condition (column value : String) (normalizer : Normalizer) (offset : Nat)
  | rotate (envelope : String)
  | needsRotation (envelope : String)

/-- What holds for every command. -/
structure Options where
  keyDir : Option ByteArray
  config : Option ByteArray
  threshold : Option Nat
  noCompression : Bool

/-- The text of a flag, or the one that stands where it is missing. -/
def Matches.textOf (m : Matches) (f : Flag) : String :=
  (m.text? f.long <|> f.initial).getD ""

def Matches.normalizer (m : Matches) : Normalizer :=
  (Normalizer.ofName? (m.textOf normalizerFlag)).getD .initial

/-- The command with a name and the arguments behind it; none if operands are missing, or if flags
stand together that must not. -/
def Command.of? (v : Verb) (m : Matches) : Option Command :=
  match v, m.operands with
  | .init, [] => some (.init ((m.text? "key-id").getD "v1"))
  | .keygen, [id] => some (.keygen id (m.has "set-current"))
  | .encrypt, [value] => some (.encrypt value (m.has "hex") (m.text? "key-id"))
  | .decrypt, [envelope] => some (.decrypt envelope (m.has "hex") (m.text? "key-id"))
  | .blindIndex, [value] =>
    if m.has "all" ∧ m.has "key-id" then none
    else some (.blindIndex value m.normalizer (m.text? "key-id") (m.has "all"))
  | .condition, [column, value] =>
    some (.condition column value m.normalizer (((m.text? "offset").bind count?).getD 1))
  | .rotate, [envelope] => some (.rotate envelope)
  | .needsRotation, [envelope] => some (.needsRotation envelope)
  | _, _ => none

/-- The options of a call: a value behind the command counts more than one before it. -/
def Options.of (before behind : Matches) : Options where
  keyDir := behind.value? "key-dir" <|> before.value? "key-dir"
  config := behind.value? "config" <|> before.value? "config"
  threshold := (behind.text? "compression-threshold" <|>
    before.text? "compression-threshold").bind count?
  noCompression := behind.has "no-compression" || before.has "no-compression"

/-- What the arguments ask for. -/
inductive Call where
  | run (options : Options) (command : Command)
  /-- Help on a command, or on all of them. -/
  | help (verb : Option Verb)
  /-- Help on the command `help`. -/
  | helpOnHelp
  | usage

/-- The call for the arguments of the command `help`. -/
def Call.ofHelp : List ByteArray → Call
  | [] => .help none
  | [name] =>
    if name = helpName.toUTF8 then .helpOnHelp
    else
      match Verb.ofName? name with
      | some v => .help (some v)
      | none => .usage
  | _ => .usage

def Call.ofStop (verb : Option Verb) : Stop → Call
  | .usage => .usage
  | .help => .help verb

/-- The call that arguments make. -/
def Call.ofArguments (args : List ByteArray) : Call :=
  match outerLevel.read args Matches.none with
  | .error stop => .ofStop none stop
  | .ok (_, []) => .usage
  | .ok (before, name :: rest) =>
    if name = helpName.toUTF8 then .ofHelp rest
    else
      match Verb.ofName? name with
      | none => .usage
      | some v =>
        match v.level.read rest Matches.none with
        | .error stop => .ofStop (some v) stop
        | .ok (behind, _) =>
          match before.settle, behind.settle with
          | .ok before, .ok behind =>
            match Command.of? v behind with
            | some command => .run (.of before behind) command
            | none => .usage
          | _, _ => .usage

end ColumnVault.Cli
