/-! Reading from the front of a TOML text: blanks, comments and line ends. Readers that go over lines
or items take a bound on their number as fuel; one more than the length of the text is always
enough. -/

namespace ColumnVault.Toml

/-- Reads something from the front of a text and tells what is left; none if it does not stand
there. -/
abbrev Reader (α : Type) := List Char → Option (α × List Char)

/-- How deep lists and tables may stand in one another. -/
def maxDepth : Nat := 80

def isBlank (c : Char) : Bool := c = ' ' || c = '\t'

/-- Whether a character may stand in comments and strings, where nothing else is said of it. -/
def isPlain (c : Char) : Bool :=
  c = '\t' || (' ' ≤ c && c ≠ '\x7f')

def skipBlanks (cs : List Char) : List Char := cs.dropWhile isBlank

/-- What follows a line break, if there is one. -/
def lineBreak? : List Char → Option (List Char)
  | '\n' :: rest => some rest
  | '\r' :: '\n' :: rest => some rest
  | _ => none

def skipComment : List Char → List Char
  | '#' :: rest => rest.dropWhile isPlain
  | cs => cs

/-- What follows the blanks and the comment at the end of a line. -/
def lineEnd? (cs : List Char) : Option (List Char) :=
  match skipComment (skipBlanks cs) with
  | [] => some []
  | cs => lineBreak? cs

/-- Skips blanks, line breaks and comments. -/
def skipSpace : (fuel : Nat) → List Char → List Char
  | 0, cs => cs
  | fuel + 1, cs =>
    match skipBlanks cs with
    | '#' :: rest => skipSpace fuel (rest.dropWhile isPlain)
    | cs =>
      match lineBreak? cs with
      | some rest => skipSpace fuel rest
      | none => cs

/-- Reads one given character. -/
def expect (c : Char) : List Char → Option (List Char)
  | x :: rest => if x = c then some rest else none
  | [] => none

/-- Takes the given characters off the front. -/
def dropLiteral? : (word : List Char) → List Char → Option (List Char)
  | [], cs => some cs
  | _ :: _, [] => none
  | w :: word, c :: cs => if w = c then dropLiteral? word cs else none

end ColumnVault.Toml
