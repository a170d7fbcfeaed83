import ColumnVault.Bytes.Equality
import ColumnVault.Text.Utf8

/-! Reading the arguments of a program: flags, the values that some of them take, and operands. Some
arguments name a command, behind which another level begins that has flags of its own. Arguments are bytes,
of which only paths need not be those of a text. -/

namespace ColumnVault.Cli

/-- What a flag takes as its value. -/
inductive ValueKind where
  | text
  /-- A path, which is not empty. -/
  | path
  /-- A number that a 64-bit counter can hold. -/
  | count
  | choice (names : List String)
  deriving DecidableEq, Repr

structure Flag where
  long : String
  short : Option Char
  /-- What it takes; a switch takes nothing. -/
  takes : Option ValueKind
  about : String
  /-- The value that stands where the flag is missing. -/
  initial : Option String
  deriving DecidableEq, Repr

/-- A number in decimal digits, behind a plus sign or not. -/
def count? (s : String) : Option Nat :=
  let digits : List Char := match s.toList with
    | '+' :: rest => rest
    | cs => cs
  let n := digits.foldl (fun n c => n * 10 + (c.toNat - 48)) 0
  if digits ≠ [] ∧ digits.all Char.isDigit ∧ n < UInt64.size then some n else none

def ValueKind.accepts : ValueKind → ByteArray → Bool
  | .text, value => (String.fromUTF8? value).isSome
  | .path, value => value.size ≠ 0
  | .count, value => ((String.fromUTF8? value).bind count?).isSome
  | .choice names, value => (String.fromUTF8? value).any names.contains

/-- Why reading ends before the last argument. -/
inductive Stop where
  | usage
  | help
  deriving DecidableEq, Repr

/-- The flags found on one level, with their values, and the operands in order. A switch has an empty
value. -/
structure Matches where
  values : List (String × ByteArray)
  operands : List String
  /-- A flag with the argument behind it as its value, which is looked at with the next argument. -/
  pending : Option (Flag × ByteArray)
  deriving DecidableEq

namespace Matches

def none : Matches := ⟨[], [], .none⟩

def has (m : Matches) (long : String) : Bool :=
  (m.values.lookup long).isSome

def value? (m : Matches) (long : String) : Option ByteArray :=
  m.values.lookup long

/-- The value of a flag that takes a text. -/
def text? (m : Matches) (long : String) : Option String :=
  (m.value? long).bind String.fromUTF8?

/-- Adds a flag, which must not be there yet, with a value that it takes. -/
def add (m : Matches) (f : Flag) (v : ByteArray) : Except Stop Matches :=
  if m.has f.long ∨ ¬ f.takes.all (·.accepts v) then .error .usage
  else .ok { m with values := m.values ++ [(f.long, v)] }

/-- Adds the flag that is pending, if there is one. -/
def settle (m : Matches) : Except Stop Matches :=
  match m.pending with
  | .none => .ok m
  | some (f, v) => { m with pending := .none }.add f v

end Matches

/-- What may stand on one level. -/
structure Level where
  flags : List Flag
  operands : Nat
  /-- The names of the commands that end the level. -/
  commands : List String

/-- What reading one argument comes to: the flag, if any, whose value is the next argument. -/
abbrev Read := Except Stop (Matches × Option Flag)

@[match_pattern] def dash : UInt8 := 0x2d

@[match_pattern] def equals : UInt8 := 0x3d

namespace Level

/-- Reads flags of one letter each, of which every one is a single byte. The rest behind one that takes a
value is its value; an equals sign before it does not count. -/
def readShort (l : Level) : List UInt8 → Matches → Read
  | [], m => .ok (m, none)
  | b :: rest, m =>
    let c := Char.ofNat b.toNat
    if c = 'h' then .error .help
    else
      match l.flags.find? (·.short = some c) with
      | none => .error .usage
      | some f =>
        if f.takes.isNone then
          match m.add f ByteArray.empty with
          | .ok m => l.readShort rest m
          | .error stop => .error stop
        else
          match rest with
          | [] => .ok (m, some f)
          | equals :: v => do return (← m.add f v.toByteArray, none)
          | v => do return (← m.add f v.toByteArray, none)

/-- Reads a flag by its long name, with a value behind an equals sign or without. -/
def readLong (l : Level) (body : List UInt8) (m : Matches) : Read :=
  let name := (body.takeWhile (· ≠ equals)).toByteArray
  match body.dropWhile (· ≠ equals) with
  | [] =>
    if name = "help".toUTF8 then .error .help
    else
      match l.flags.find? (·.long.toUTF8 = name) with
      | none => .error .usage
      | some f =>
        if f.takes.isNone then do return (← m.add f ByteArray.empty, none) else .ok (m, some f)
  | _ :: v =>
    match l.flags.find? (·.long.toUTF8 = name) with
    | none => .error .usage
    | some f =>
      if f.takes.isNone then .error .usage else do return (← m.add f v.toByteArray, none)

/-- Whether an argument is read as flags, or as the mark behind which there are none. -/
def isFlag (arg : ByteArray) : Bool :=
  match arg.data.toList with
  | dash :: _ :: _ => true
  | _ => false

/-- Adds an operand, if it is a text and there is room for one. -/
def addOperand (l : Level) (m : Matches) (arg : ByteArray) : Except Stop Matches :=
  match String.fromUTF8? arg with
  | none => .error .usage
  | some s =>
    if m.operands.length < l.operands then .ok { m with operands := m.operands ++ [s] }
    else .error .usage

def addOperands (l : Level) : List ByteArray → Matches → Except Stop Matches
  | [], m => .ok m
  | arg :: rest, m => do l.addOperands rest (← l.addOperand m arg)

def readOne (l : Level) (arg : ByteArray) (m : Matches) : Read :=
  match arg.data.toList with
  | dash :: dash :: body => l.readLong body m
  | dash :: b :: body => l.readShort (b :: body) m
  | _ => do return (← l.addOperand m arg, none)

/-- Reads arguments from left to right, up to the first that names a command. Gives it and what
follows it. A value that stands right before them is still pending: what follows a command is read
before that value is looked at. -/
def read (l : Level) : List ByteArray → Matches → Except Stop (Matches × List ByteArray)
  | [], m => .ok (m, [])
  | arg :: rest, m =>
    if arg ∈ l.commands.map String.toUTF8 then .ok (m, arg :: rest)
    else
      match m.settle with
      | .error stop => .error stop
      | .ok m =>
        if arg = "--".toUTF8 then do return (← l.addOperands rest m, [])
        else
          match l.readOne arg m with
          | .error stop => .error stop
          | .ok (m, none) => l.read rest m
          | .ok (m, some f) =>
            match rest with
            | [] => .error .usage
            | v :: rest =>
              if isFlag v then .error .usage else l.read rest { m with pending := some (f, v) }

end Level

end ColumnVault.Cli
