import ColumnVault.Error
import ColumnVault.Zstd.Encode

/-! Packing of payloads before they are encrypted. The flag byte of an envelope tells how its payload
is packed. -/

namespace ColumnVault

inductive Algorithm where
  | none
  | zstd
  /-- Kept for an algorithm to come: never written, and refused when read. -/
  | reserved
  deriving DecidableEq, Repr

namespace Algorithm

def flag : Algorithm → UInt8
  | .none => 0
  | .zstd => 1
  | .reserved => 2

def ofFlag (b : UInt8) : Except Error Algorithm :=
  if b = 0 then .ok .none
  else if b = 1 then .ok .zstd
  else if b = 2 then .ok .reserved
  else .error (.unsupportedAlgorithm b)

/-- Whether payloads can be packed with it. -/
def isSupported : Algorithm → Bool
  | .zstd => true
  | _ => false

def name : Algorithm → String
  | .none => "none"
  | .zstd => "zstd"
  | .reserved => "reserved"

def ofName? (s : String) : Option Algorithm :=
  if s = "none" then some .none
  else if s = "zstd" then some .zstd
  else if s = "reserved" then some .reserved
  else Option.none

@[simp] theorem ofFlag_flag (a : Algorithm) : ofFlag a.flag = .ok a := by
  cases a <;> rfl

@[simp] theorem ofName?_name (a : Algorithm) : ofName? a.name = some a := by
  cases a <;> rfl

end Algorithm

/-- When payloads are packed. -/
structure Policy where
  enabled : Bool
  /-- Smaller payloads are left as they are. -/
  threshold : Nat
  algorithm : Algorithm
  deriving DecidableEq, Repr

namespace Policy

def defaultThreshold : Nat := 1024

def initial : Policy := ⟨true, defaultThreshold, .zstd⟩

def withThreshold (p : Policy) (n : Nat) : Policy :=
  { p with threshold := n }

def withAlgorithm (p : Policy) (a : Algorithm) : Policy :=
  { p with algorithm := a }

def withoutPacking (p : Policy) : Policy :=
  { p with enabled := false }

end Policy

namespace Packing

/-- The largest payload that is unpacked, and so the largest that is packed. -/
def maxContent : Nat := 64 * 1024 * 1024

/-- The least saving, in percent, for which a packed payload is kept. -/
def minSaving : Nat := 10

def savesEnough (plain packed : Nat) : Bool :=
  packed < plain && (plain - packed) * 100 ≥ plain * minSaving

/-- Whether a policy lets a payload be packed at all. -/
def isCandidate (policy : Policy) (size : Nat) : Bool :=
  policy.enabled && policy.threshold ≤ size && policy.algorithm.isSupported && size ≤ maxContent

/-- The bytes to encrypt for a payload, and how they are packed: packed where the policy allows it
and it saves enough, else as they are. -/
def pack [Zstd.Encoder] (policy : Policy) (data : ByteArray) : ByteArray × Algorithm :=
  if isCandidate policy data.size then
    match Zstd.Encoder.encode? data with
    | some packed =>
      if savesEnough data.size packed.size then (packed, .zstd) else (data, .none)
    | none => (data, .none)
  else (data, .none)

/-- Undoes `pack`. -/
def unpack (algorithm : Algorithm) (data : ByteArray) : Except Error ByteArray :=
  match algorithm with
  | .none => .ok data
  | .zstd =>
    match Zstd.decode maxContent data with
    | .ok content => .ok content
    | .error fault => .error (.decompressionFailed (.frame fault))
  | .reserved => .error (.unsupportedAlgorithm algorithm.flag)

end Packing

end ColumnVault
