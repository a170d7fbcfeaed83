import ColumnVault.Cli.Command

/-! The help texts. -/

namespace ColumnVault.Cli

def programName : String := "sealdb"

/-- The name of the value of a flag: its long name in capitals. -/
def Flag.valueName (f : Flag) : String :=
  String.ofList (f.long.toList.map fun c => if c = '-' then '_' else c.toUpper)

/-- The flag with its value. -/
def Flag.shown (f : Flag) : String :=
  let short := match f.short with
    | some c => s!"-{c}, "
    | none => "    "
  let value := if f.takes.isSome then s!" <{f.valueName}>" else ""
  s!"  {short}--{f.long}{value}"

def Flag.note (f : Flag) : String :=
  let initial := match f.initial with
    | some s => s!" [default: {s}]"
    | none => ""
  let names := match f.takes with
    | some (.choice names) => " [possible values: " ++ String.intercalate ", " names ++ "]"
    | _ => ""
  f.about ++ initial ++ names

/-- Flags are shown by their place among those of their level, and those of one place in the order of
their letters or names. -/
def Flag.sortKey (f : Flag) : String :=
  match f.short with
  | some c => s!"{c}0"
  | none => f.long

def shownBefore (a b : Flag × Nat) : Bool :=
  a.2 < b.2 || (a.2 = b.2 && a.1.sortKey ≤ b.1.sortKey)

def helpFlag : Flag := switch "help" "Print help" (some 'h')

def flagLines (flags : List (Flag × Nat)) : List String :=
  let sorted := (flags.mergeSort shownBefore).map (·.1) ++ [helpFlag]
  sorted.flatMap fun f => [f.shown, s!"          {f.note}"]

/-- Names in one column and what they are in the next. -/
def columnLines (rows : List (String × String)) : List String :=
  let width := (rows.map (·.1.length)).foldl max 0
  rows.map fun (name, about) =>
    let gap := String.ofList (List.replicate (width - name.length) ' ')
    s!"  {name}{gap}  {about}"

/-- Parts of a text with an empty line between them. -/
def paragraphs (parts : List (List String)) : String :=
  String.intercalate "\n\n" (parts.map (String.intercalate "\n")) ++ "\n"

def helpAbout : String := "Print this message or the help of the given subcommand(s)"

/-- Help on all commands. -/
def overview : String :=
  paragraphs [
    ["SealDB key management and column encryption CLI"],
    [s!"Usage: {programName} [OPTIONS] <COMMAND>"],
    "Commands:" :: columnLines
      (Verb.all.map (fun v => (v.name, v.about)) ++ [(helpName, helpAbout)]),
    "Options:" :: flagLines commonFlags.zipIdx]

/-- Help on one command. -/
def Verb.help (v : Verb) : String :=
  let operands := v.operands.map fun (name, about) => (s!"<{name}>", about)
  let usage := String.intercalate " "
    (["Usage:", programName, v.name, "[OPTIONS]"] ++ operands.map (·.1))
  paragraphs ([[v.about], [usage]] ++
    (if operands.isEmpty then [] else ["Arguments:" :: columnLines operands]) ++
    ["Options:" :: flagLines (v.flags.zipIdx ++ commonFlags.zipIdx)])

/-- Help on the command `help`. -/
def helpOnHelp : String :=
  paragraphs [
    [helpAbout],
    [s!"Usage: {programName} {helpName} [COMMAND]..."],
    "Arguments:" :: columnLines [("[COMMAND]...", "Print help for the subcommand(s)")]]

end ColumnVault.Cli
