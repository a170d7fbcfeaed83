import ColumnVault.Toml.Numbers
import ColumnVault.Toml.Strings

/-! Documents: lines that set keys of the table whose header came last. A table has one header at most,
and dotted keys add only to tables that dotted keys made. -/

namespace ColumnVault.Toml

/-- How a table came to be. -/
inductive Made where
  /-- It has a header or braces of its own. -/
  | header
  /-- A longer header leads through it. -/
  | path
  /-- A dotted key leads through it. -/
  | dotted
  deriving DecidableEq

/-- What a key of a document stands for: a value, a table that may still grow, or a list of tables of
which the last may. -/
inductive Node where
  | value (d : Data)
  | table (made : Made) (fields : List (String × Node))
  /-- A last row, and those before it from the last to the first. -/
  | tables (row : List (String × Node)) (before : List (List (String × Node)))
  deriving Inhabited

abbrev Fields := List (String × Node)

mutual

def Node.toData : Node → Data
  | .value d => d
  | .table _ fields => .table (fieldsData fields)
  | .tables row before => .list (rowsData before [.table (fieldsData row)])

def fieldsData : List (String × Node) → List (String × Data)
  | [] => []
  | (key, node) :: rest => (key, node.toData) :: fieldsData rest

/-- The data of rows from the last to the first, in front of what follows them. -/
def rowsData : List (List (String × Node)) → List Data → List Data
  | [], l => l
  | fields :: rest, l => rowsData rest (.table (fieldsData fields) :: l)

end

/-- The fields with another node for a key that is there. -/
def Fields.replace (key : String) (node : Node) (fields : Fields) : Fields :=
  fields.map fun f => if f.1 = key then (key, node) else f

/-- Changes the table at a path, and makes the tables on the way that are missing. The dotted path of
a key does not lead into tables with a header. -/
def descend (dotted : Bool) (change : Made → Fields → Option Fields) :
    (path : List String) → Made → Fields → Option Fields
  | [], made, fields => change made fields
  | key :: rest, _, fields =>
    match fields.lookup key with
    | none => do
      let new := if dotted then Made.dotted else Made.path
      let inner ← descend dotted change rest new []
      some (fields ++ [(key, .table new inner)])
    | some (.value _) => none
    | some (.tables row before) => do
      let inner ← descend dotted change rest .header row
      some (Fields.replace key (.tables inner before) fields)
    | some (.table made inner) =>
      if dotted ∧ made = .header then none
      else do
        let inner ← descend dotted change rest made inner
        some (Fields.replace key (.table made inner) fields)

/-- Sets a key behind a dotted path, which must not be set yet. -/
def insert (path : List String) (key : String) (node : Node) (made : Made) (fields : Fields) :
    Option Fields :=
  descend true (fun made fields =>
    if path ≠ [] ∧ made ≠ .dotted then none
    else if (fields.lookup key).isSome then none
    else some (fields ++ [(key, node)])) path made fields

/-- Begins a table. -/
def beginTable (path : List String) (key : String) (fields : Fields) : Option Fields :=
  descend false (fun _ fields =>
    match fields.lookup key with
    | none => some (fields ++ [(key, .table .header [])])
    | some (.table .path inner) => some (Fields.replace key (.table .header inner) fields)
    | some _ => none) path .header fields

/-- Begins the next table of a list of tables. -/
def beginRow (path : List String) (key : String) (fields : Fields) : Option Fields :=
  descend false (fun _ fields =>
    match fields.lookup key with
    | none => some (fields ++ [(key, .tables [] [])])
    | some (.tables row before) => some (Fields.replace key (.tables [] (row :: before)) fields)
    | some _ => none) path .header fields

/-! ### Keys -/

def isBare (c : Char) : Bool :=
  isDigit c || ('a' ≤ c && c ≤ 'z') || ('A' ≤ c && c ≤ 'Z') || c = '_' || c = '-'

def simpleKey (bound : Nat) : Reader String := fun cs =>
  match cs with
  | c :: _ =>
    if isQuote c then shortString bound cs
    else if isBare c then some (String.ofList (cs.takeWhile isBare), cs.dropWhile isBare)
    else none
  | [] => none

/-- Reads a key of parts with dots between them, up to `fuel` of them. -/
def key (bound : Nat) : (fuel : Nat) → Reader (List String)
  | 0, _ => none
  | fuel + 1, cs => do
    let (part, rest) ← simpleKey bound (skipBlanks cs)
    match skipBlanks rest with
    | '.' :: rest => do
      let (more, rest) ← key bound fuel rest
      some (part :: more, rest)
    | rest => some ([part], rest)

/-- Reads a key, and tells its path and its last part apart. -/
def splitKey (bound : Nat) : Reader (List String × String) := fun cs => do
  let (parts, rest) ← key bound (maxDepth - 1) cs
  let last ← parts.getLast?
  some ((parts.dropLast, last), rest)

/-! ### Values -/

/-- Reads the items of a list, behind its bracket or a comma, up to its end. -/
def items (bound : Nat) (value : Reader Data) : (fuel : Nat) → (read : List Data) → Reader (List Data)
  | 0, _, _ => none
  | fuel + 1, read, cs =>
    match skipSpace bound cs with
    | ']' :: rest => some (read.reverse, rest)
    | cs => do
      let (item, rest) ← value cs
      match skipSpace bound rest with
      | ']' :: rest => some ((item :: read).reverse, rest)
      | ',' :: rest => items bound value fuel (item :: read) rest
      | _ => none

/-- Reads a key, an equals sign and a value, and sets the key. -/
def assignment (bound : Nat) (value : Reader Data) (fields : Fields) : Reader Fields := fun cs => do
  let ((path, last), rest) ← splitKey bound cs
  let rest ← expect '=' rest
  let (d, rest) ← value (skipBlanks rest)
  some (← insert path last (.value d) .header fields, rest)

/-- Reads the fields of a table in braces, behind its brace or a comma, up to its end. -/
def pairs (bound : Nat) (value : Reader Data) : (fuel : Nat) → Fields → Reader Fields
  | 0, _, _ => none
  | fuel + 1, fields, cs => do
    let (fields, rest) ← assignment bound value fields cs
    match skipBlanks rest with
    | '\x7d' :: rest => some (fields, rest)
    | ',' :: rest => pairs bound value fuel fields rest
    | _ => none

/-- Reads a value in which lists and tables are fewer than `depth` deep. -/
def value (bound : Nat) : (depth : Nat) → Reader Data
  | 0, _ => none
  | depth + 1, cs =>
    match cs with
    | '[' :: rest =>
      if depth = 0 then none
      else (items bound (value bound depth) bound [] rest).map fun (l, rest) => (.list l, rest)
    | '\x7b' :: rest =>
      if depth = 0 then none
      else
        match skipBlanks rest with
        | '\x7d' :: rest => some (.table [], rest)
        | rest =>
          (pairs bound (value bound depth) bound [] rest).map fun (fields, rest) =>
            (.table (fieldsData fields), rest)
    | 't' :: _ => (dropLiteral? "true".toList cs).map (.bool true, ·)
    | 'f' :: _ => (dropLiteral? "false".toList cs).map (.bool false, ·)
    | c :: _ =>
      if isQuote c then (string bound cs).map fun (s, rest) => (.text s, rest)
      else number cs
    | [] => none

/-! ### Lines -/

/-- A document while it is read: its fields, and the path of the table whose header came last. -/
structure Draft where
  fields : Fields
  current : List String

/-- Reads the header of a table or of the next table of a list. -/
def header (bound : Nat) (d : Draft) : Reader Draft := fun cs =>
  match cs with
  | '[' :: '[' :: rest => do
    let ((path, last), rest) ← splitKey bound rest
    let rest ← dropLiteral? "]]".toList rest
    some (⟨← beginRow path last d.fields, path ++ [last]⟩, rest)
  | '[' :: rest => do
    let ((path, last), rest) ← splitKey bound rest
    let rest ← expect ']' rest
    some (⟨← beginTable path last d.fields, path ++ [last]⟩, rest)
  | _ => none

/-- Reads a line that sets a key of the current table. -/
def setting (bound : Nat) (d : Draft) : Reader Draft := fun cs => do
  let ((path, last), rest) ← splitKey bound cs
  let rest ← expect '=' rest
  let (v, rest) ← value bound maxDepth (skipBlanks rest)
  let fields ← descend false (insert path last (.value v)) d.current .header d.fields
  some ({ d with fields }, rest)

/-- Reads lines to the end. -/
def lines (bound : Nat) : (fuel : Nat) → Draft → List Char → Option Draft
  | 0, _, _ => none
  | fuel + 1, d, cs =>
    match skipBlanks cs with
    | [] => some d
    | '#' :: rest => do lines bound fuel d (← lineEnd? ('#' :: rest))
    | '[' :: rest => do
      let (d, rest) ← header bound d ('[' :: rest)
      lines bound fuel d (← lineEnd? rest)
    | cs =>
      match lineBreak? cs with
      | some rest => lines bound fuel d rest
      | none => do
        let (d, rest) ← setting bound d cs
        lines bound fuel d (← lineEnd? rest)

/-- The table that a text writes. A byte order mark may stand at its front. -/
def read? (s : String) : Option Data :=
  let cs := match s.toList with
    | '\uFEFF' :: rest => rest
    | cs => cs
  let bound := cs.length + 1
  (lines bound bound ⟨[], []⟩ cs).map fun d => .table (fieldsData d.fields)

end ColumnVault.Toml
