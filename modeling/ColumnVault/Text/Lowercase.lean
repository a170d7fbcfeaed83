import ColumnVault.Text.CaseClass
import ColumnVault.Text.LowercaseTable

/-! Small letters for a whole text. One character has a small form of two characters, and the small
form of a sigma depends on its neighbours: at the end of a word it is the final form. -/

namespace ColumnVault.Text

/-- The small form of a character that has a single one, or the character itself. -/
def smallChar (c : Char) : Char :=
  match caseRuns.findSome? (·.small? c.toNat) with
  | some n => Char.ofNat n
  | none => c

/-- The small form of a character that does not depend on its neighbours. -/
def smallChars (c : Char) : List Char :=
  if c = '\u0130' then ['i', '\u0307'] else [smallChar c]

/-- Whether the nearest character that a word boundary does not look through has case. -/
def nearestIsCased (cs : List Char) : Bool :=
  (cs.dropWhile isCaseIgnorable).head?.any isCased

/-- A sigma is final when a letter stands before it and none after it; `before` is read from the
sigma outward. -/
def isFinalSigma (before after : List Char) : Bool :=
  nearestIsCased before && !nearestIsCased after

/-- Small forms of the characters that follow `before`, which is in reverse order. -/
def lowercaseAfter : List Char → List Char → List Char
  | _, [] => []
  | before, c :: after =>
    (if c = 'Σ' then [if isFinalSigma before after then 'ς' else 'σ'] else smallChars c) ++
      lowercaseAfter (c :: before) after

def lowercaseChars (cs : List Char) : List Char :=
  lowercaseAfter [] cs

/-- The text in small letters. -/
def lowercase (s : String) : String :=
  String.ofList (lowercaseChars s.toList)

@[simp] theorem toList_lowercase (s : String) :
    (lowercase s).toList = lowercaseChars s.toList := by
  simp [lowercase]

end ColumnVault.Text
