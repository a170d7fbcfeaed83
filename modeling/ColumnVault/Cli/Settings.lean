import ColumnVault.Cli.Command
import ColumnVault.Cli.Report
import ColumnVault.Files.Tree
import ColumnVault.Packing.Settings
import ColumnVault.Toml.Document

/-! The settings of a call: flags count more than the configuration file, and that more than what is
set from the start. -/

namespace ColumnVault.Cli

structure Settings where
  keyDir : ByteArray
  policy : Policy
  deriving DecidableEq

def initialKeyDir : ByteArray := "./keys".toUTF8

/-- What a configuration file holds. -/
structure FileSettings where
  keyDir : Option String
  policy : Policy

/-- The settings in a record; none if one of them has the wrong form. -/
def FileSettings.ofData? (d : Data) : Option FileSettings := do
  match ← d.record? .file ["key_dir", "compression"] with
  | [dir, compression] =>
    return {
      keyDir := ← Data.field (fun d => d.text?.map some) none dir
      policy := ← Data.field (Policy.ofData? .file) Policy.initial compression }
  | _ => none

/-- What is said of a file that cannot be understood. -/
def notUnderstood : String := "TOML parse error"

def FileSettings.load (t : FileTree) (path : ByteArray) : Except Report FileSettings :=
  match t.readText path with
  | .error fault => .error ⟨s!"reading config {Text.Utf8.decodeLossy path}", [fault.message]⟩
  | .ok text =>
    match Toml.read? text >>= FileSettings.ofData? with
    | some s => .ok s
    | none => .error ⟨s!"parsing config {Text.Utf8.decodeLossy path}", [notUnderstood]⟩

/-- The settings for some options. -/
def Settings.resolve (t : FileTree) (o : Options) : Except Report Settings := do
  let file ← match o.config with
    | some path => FileSettings.load t path
    | none => pure ⟨none, Policy.initial⟩
  let policy := match o.threshold with
    | some n => file.policy.withThreshold n
    | none => file.policy
  return {
    keyDir := (o.keyDir <|> file.keyDir.map String.toUTF8).getD initialKeyDir
    policy := if o.noCompression then policy.withoutPacking else policy }

end ColumnVault.Cli
