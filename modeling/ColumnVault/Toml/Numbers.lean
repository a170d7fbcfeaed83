import ColumnVault.Data
import ColumnVault.Toml.Scan

/-! Numbers and dates. Whole numbers have their value; fractions and dates are only recognised. -/

namespace ColumnVault.Toml

def isDigit (c : Char) : Bool := '0' ≤ c && c ≤ '9'

def digitValue (c : Char) : Nat :=
  if isDigit c then c.toNat - 48
  else if 'a' ≤ c ∧ c ≤ 'f' then c.toNat - 87
  else c.toNat - 55

def isHexDigit (c : Char) : Bool :=
  isDigit c || ('a' ≤ c && c ≤ 'f') || ('A' ≤ c && c ≤ 'F')

def numberOf (base : Nat) (digits : List Char) : Nat :=
  digits.foldl (fun n c => n * base + digitValue c) 0

/-- The number that digits write, or the limit if it is larger. -/
def numberUpTo (limit base : Nat) (digits : List Char) : Nat :=
  digits.foldl (fun n c => min (n * base + digitValue c) limit) 0

/-- The rest of some digits, behind the first. -/
def moreDigits (ok : Char → Bool) : (read : List Char) → List Char → Option (List Char × List Char)
  | read, [] => some (read.reverse, [])
  | read, '_' :: c :: rest => if ok c then moreDigits ok (c :: read) rest else none
  | _, ['_'] => none
  | read, c :: rest => if ok c then moreDigits ok (c :: read) rest else some (read.reverse, c :: rest)

/-- Reads digits, between which single underscores may stand. -/
def digits (ok : Char → Bool) : Reader (List Char)
  | c :: rest => if ok c then moreDigits ok [c] rest else none
  | [] => none

/-- Reads a sign, if there is one, and tells whether it is negative. -/
def sign : List Char → Bool × List Char
  | '+' :: rest => (false, rest)
  | '-' :: rest => (true, rest)
  | cs => (false, cs)

/-- Reads decimal digits, of which the first is zero only if it is alone. -/
def decimalDigits : Reader (List Char)
  | '0' :: rest => some (['0'], rest)
  | cs => digits isDigit cs

/-! ### Whole numbers -/

/-- Whether a signed 64-bit word can hold a number. -/
def inRange (n : Int) : Bool := (Int64.ofInt n).toInt = n

/-- Reads the digits of a number of some base behind its mark. -/
def basedNumber (base : Nat) (ok : Char → Bool) : Reader Data := fun cs => do
  let (ds, rest) ← digits ok cs
  let n : Int := numberUpTo UInt64.size base ds
  if inRange n then some (.int n, rest) else none

def wholeNumber : Reader Data
  | '0' :: 'x' :: rest => basedNumber 16 isHexDigit rest
  | '0' :: 'o' :: rest => basedNumber 8 (fun c => '0' ≤ c ∧ c ≤ '7') rest
  | '0' :: 'b' :: rest => basedNumber 2 (fun c => c = '0' ∨ c = '1') rest
  | cs => do
    let (negative, cs) := sign cs
    let (ds, rest) ← decimalDigits cs
    let n : Int := numberUpTo UInt64.size 10 ds
    let n := if negative then -n else n
    if inRange n then some (.int n, rest) else none

/-! ### Fractions -/

/-- Whether a number is rounded to infinity in double precision. It is written by digits of which the
last stands for its multiple of `10 ^ e`. -/
def overflows (ds : List Char) (e : Int) : Bool :=
  let ds := ds.dropWhile (· = '0')
  let size := ds.length + e
  if ds = [] ∨ size < 300 then false
  else if size > 320 then true
  else
    let whole := numberOf 10 (ds.take size.toNat) * Nat.pow 10 (size.toNat - ds.length)
    whole ≥ 1 <<< 1024 - 1 <<< 970

/-- What reading a part of a number comes to: it may be missing, or begin and be faulty. -/
inductive Part (α : Type) where
  | missing
  | faulty
  | found (a : α) (rest : List Char)

def fractionPart : List Char → Part (List Char)
  | '.' :: rest =>
    match digits isDigit rest with
    | some (ds, rest) => .found ds rest
    | none => .faulty
  | _ => .missing

/-- The number of an exponent. Further digits of one that is larger than any that matters do not
count. -/
def exponentOf (digits : List Char) : Nat :=
  digits.foldl (fun n c => if n < 0x10000 then n * 10 + digitValue c else n) 0

def exponentPart : List Char → Part Int
  | c :: rest =>
    if c = 'e' ∨ c = 'E' then
      let (negative, rest) := sign rest
      match digits isDigit rest with
      | some (ds, rest) =>
        let n : Int := exponentOf ds
        .found (if negative then -n else n) rest
      | none => .faulty
    else .missing
  | [] => .missing

/-- A fraction with the given parts. A negative one may be too large, a positive one may not. -/
def fraction (negative : Bool) (whole part : List Char) (exponent : Int) (rest : List Char) :
    Part Unit :=
  if ¬ negative ∧ overflows (whole ++ part) (exponent - part.length) then .faulty
  else .found () rest

def float (cs : List Char) : Part Unit :=
  let (negative, cs) := sign cs
  match dropLiteral? "inf".toList cs <|> dropLiteral? "nan".toList cs with
  | some rest => .found () rest
  | none =>
    match decimalDigits cs with
    | none => .missing
    | some (whole, rest) =>
      match fractionPart rest with
      | .faulty => .faulty
      | .missing =>
        match exponentPart rest with
        | .missing => .missing
        | .faulty => .faulty
        | .found e rest => fraction negative whole [] e rest
      | .found part rest =>
        match exponentPart rest with
        | .missing => fraction negative whole part 0 rest
        | .faulty => .faulty
        | .found e rest => fraction negative whole part e rest

/-! ### Dates -/

/-- Reads a number of `n` digits from `lo` to `hi`. -/
def twoDigits (n lo hi : Nat) : Reader Nat := fun cs =>
  let ds := cs.take n
  let value := numberOf 10 ds
  if ds.length = n ∧ ds.all isDigit ∧ lo ≤ value ∧ value ≤ hi then some (value, cs.drop n) else none

def daysIn (year month : Nat) : Nat :=
  if month = 2 then
    if year % 4 = 0 ∧ (year % 100 ≠ 0 ∨ year % 400 = 0) then 29 else 28
  else if month = 4 ∨ month = 6 ∨ month = 9 ∨ month = 11 then 30
  else 31

/-- Reads a time; behind an hour and a colon it has to go on. -/
def time (cs : List Char) : Part Unit :=
  match twoDigits 2 0 23 cs with
  | some (_, ':' :: rest) =>
    let seconds : Option (List Char) := do
      let (_, rest) ← twoDigits 2 0 59 rest
      let rest ← expect ':' rest
      let (_, rest) ← twoDigits 2 0 60 rest
      match rest with
      | '.' :: d :: more => if isDigit d then some (more.dropWhile isDigit) else some rest
      | _ => some rest
    match seconds with
    | some rest => .found () rest
    | none => .faulty
  | _ => .missing

/-- Skips the offset of a time from universal time; none if there is one that is faulty. -/
def skipOffset : List Char → Option (List Char)
  | c :: rest =>
    if c = 'Z' ∨ c = 'z' then some rest
    else if c = '+' ∨ c = '-' then
      match twoDigits 2 0 23 rest with
      | some (_, ':' :: rest) => (twoDigits 2 0 59 rest).map (·.2)
      | _ => some (c :: rest)
    else some (c :: rest)
  | [] => some []

/-- What follows the time behind a date, if there is one. -/
def timeAfterDate (cs : List Char) : Option (List Char) :=
  match cs with
  | c :: rest =>
    if c = 'T' ∨ c = 't' ∨ c = ' ' then
      match time rest with
      | .missing => some cs
      | .faulty => none
      | .found () rest => skipOffset rest
    else some cs
  | [] => some []

/-- Reads a date, a time or both. Behind a year and a dash it has to go on. -/
def date (cs : List Char) : Part Unit :=
  match twoDigits 4 0 9999 cs with
  | some (year, '-' :: rest) =>
    let rest : Option (List Char) := do
      let (month, rest) ← twoDigits 2 1 12 rest
      let rest ← expect '-' rest
      let (_, rest) ← twoDigits 2 1 (daysIn year month) rest
      timeAfterDate rest
    match rest with
    | some rest => .found () rest
    | none => .faulty
  | _ => time cs

/-- Reads a date or a number. A date counts as a record of which no field is known. -/
def number : Reader Data := fun cs =>
  match date cs with
  | .faulty => none
  | .found () rest => some (.table [("date", .other)], rest)
  | .missing =>
    match float cs with
    | .faulty => none
    | .found () rest => some (.other, rest)
    | .missing => wholeNumber cs

end ColumnVault.Toml
