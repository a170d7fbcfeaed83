import ColumnVault.Toml.Scan

/-! Strings in the four forms of TOML. Those in double quotes have escapes; those behind three quotes
go over several lines, and the first line break in them does not count. -/

namespace ColumnVault.Toml

def hexDigit? (c : Char) : Option Nat :=
  if '0' ≤ c ∧ c ≤ '9' then some (c.toNat - 48)
  else if 'a' ≤ c ∧ c ≤ 'f' then some (c.toNat - 87)
  else if 'A' ≤ c ∧ c ≤ 'F' then some (c.toNat - 55)
  else none

/-- Reads a number of `n` hexadecimal digits. -/
def hexNumber : (n acc : Nat) → Reader Nat
  | 0, acc, cs => some (acc, cs)
  | n + 1, acc, c :: cs => do hexNumber n (acc * 16 + (← hexDigit? c)) cs
  | _ + 1, _, [] => none

def codePoint (n : Nat) : Reader Char := fun cs => do
  let (value, rest) ← hexNumber n 0 cs
  if value.isValidChar then some (Char.ofNat value, rest) else none

/-- Reads what stands behind a backslash. -/
def escape : Reader Char
  | 'b' :: rest => some ('\x08', rest)
  | 't' :: rest => some ('\t', rest)
  | 'n' :: rest => some ('\n', rest)
  | 'f' :: rest => some ('\x0c', rest)
  | 'r' :: rest => some ('\r', rest)
  | '"' :: rest => some ('"', rest)
  | '\\' :: rest => some ('\\', rest)
  | 'u' :: rest => codePoint 4 rest
  | 'U' :: rest => codePoint 8 rest
  | _ => none

/-- The rest of a string of one line, behind its first quote. `content` is in reverse. -/
def lineString (quote : Char) : (fuel : Nat) → (content : List Char) → Reader String
  | 0, _, _ => none
  | _ + 1, _, [] => none
  | fuel + 1, content, c :: rest =>
    if c = quote then some (String.ofList content.reverse, rest)
    else if c = '\\' ∧ quote = '"' then do
      let (c, rest) ← escape rest
      lineString quote fuel (c :: content) rest
    else if isPlain c then lineString quote fuel (c :: content) rest
    else none

/-- Skips blanks and line breaks. -/
def skipLines : (fuel : Nat) → List Char → List Char
  | 0, cs => cs
  | fuel + 1, cs =>
    match lineBreak? (skipBlanks cs) with
    | some rest => skipLines fuel rest
    | none => skipBlanks cs

/-- What follows a backslash at the end of a line: the line break, and blanks and line breaks behind
it, do not count. -/
def continuedLine? (bound : Nat) (cs : List Char) : Option (List Char) :=
  (lineBreak? (skipBlanks cs)).map (skipLines bound)

/-- The rest of a string of several lines. Up to two quotes may stand before the three at its end. -/
def blockString (bound : Nat) (quote : Char) : (fuel : Nat) → (content : List Char) → Reader String
  | 0, _, _ => none
  | _ + 1, _, [] => none
  | fuel + 1, content, c :: rest =>
    if c = quote then
      let run := (c :: rest).takeWhile (· = quote)
      let rest := (c :: rest).dropWhile (· = quote)
      if run.length < 3 then blockString bound quote fuel (run ++ content) rest
      else
        let kept := min (run.length - 3) 2
        some (String.ofList (List.replicate kept quote ++ content).reverse,
          run.drop (kept + 3) ++ rest)
    else if c = '\\' ∧ quote = '"' then
      match continuedLine? bound rest with
      | some rest => blockString bound quote fuel content rest
      | none => do
        let (c, rest) ← escape rest
        blockString bound quote fuel (c :: content) rest
    else
      match lineBreak? (c :: rest) with
      | some rest => blockString bound quote fuel ('\n' :: content) rest
      | none => if isPlain c then blockString bound quote fuel (c :: content) rest else none

def isQuote (c : Char) : Bool := c = '"' || c = '\''

/-- Reads a string that has to be on one line. -/
def shortString (bound : Nat) : Reader String
  | c :: rest => if isQuote c then lineString c bound [] rest else none
  | [] => none

/-- Reads a string of any form. -/
def string (bound : Nat) : Reader String
  | c :: d :: e :: rest =>
    if isQuote c ∧ d = c ∧ e = c then
      blockString bound c bound [] ((lineBreak? rest).getD rest)
    else shortString bound (c :: d :: e :: rest)
  | cs => shortString bound cs

end ColumnVault.Toml
