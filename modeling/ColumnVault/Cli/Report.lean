/-! Reports of what went wrong: what was being done, and why it failed, the nearest cause first. -/

namespace ColumnVault.Cli

structure Report where
  context : String
  causes : List String
  deriving DecidableEq, Repr

namespace Report

/-- Lines after the first are moved in behind a margin. -/
def indented (first margin : String) (s : String) : String :=
  first ++ String.intercalate ("\n" ++ margin) (s.splitOn "\n")

/-- A number in five columns. -/
def numbered (n : Nat) : String :=
  let digits := toString n
  String.ofList (List.replicate (5 - digits.length) ' ') ++ digits ++ ": "

/-- The causes, one to a line; more than one are numbered. -/
def causeLines : List String → List String
  | [] => []
  | [cause] => [indented "    " "    " cause]
  | causes => causes.zipIdx.map fun (cause, i) => indented (numbered i) "       " cause

def text (r : Report) : String :=
  let head := s!"Error: {r.context}"
  match causeLines r.causes with
  | [] => head
  | lines => head ++ "\n\nCaused by:\n" ++ String.intercalate "\n" lines

end Report

end ColumnVault.Cli
