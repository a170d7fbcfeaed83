import ColumnVault.Outcome
import ColumnVault.Text.Blank
import ColumnVault.Text.Lowercase

/-! Texts that are written in several ways are indexed in one form. -/

namespace ColumnVault

inductive Normalizer where
  | identity
  | email
  | digits
  | trim
  | lowercase
  /-- A transformation of the caller, which may give up with a message. -/
  | custom (transform : String → Except String String)

namespace Normalizer

/-- The normalizer that is used where none is named. -/
def initial : Normalizer := .identity

def name? : Normalizer → Option String
  | .identity => "identity"
  | .email => "email"
  | .digits => "digits"
  | .trim => "trim"
  | .lowercase => "lowercase"
  | .custom _ => none

/-- The built-in normalizer of a name. -/
def ofName? (s : String) : Option Normalizer :=
  [.identity, .email, .digits, .trim, .lowercase].find? fun n => n.name? = some s

/-- The characters of a text that are the digits 0 to 9. -/
def digitsOf (s : String) : String :=
  String.ofList (s.toList.filter fun c => '0' ≤ c ∧ c ≤ '9')

def apply : Normalizer → String → Outcome String
  | .identity, s => .value s
  | .email, s => .value (Text.lowercase (Text.trim s))
  | .digits, s => .value (digitsOf s)
  | .trim, s => .value (Text.trim s)
  | .lowercase, s => .value (Text.lowercase s)
  | .custom transform, s =>
    match transform s with
    | .ok s => .value s
    | .error text => .abort (.normalizer text)

end Normalizer

end ColumnVault
