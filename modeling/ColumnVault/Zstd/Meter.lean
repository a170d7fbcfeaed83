import ColumnVault.Zstd.Fault

/-! Handing over the content of a frame in chunks, under a limit on its size. The limit is checked
whenever a full chunk is handed over and at the end. -/

namespace ColumnVault.Zstd

/-- Why some bytes are not exactly one frame within the limit. -/
inductive ReadFault where
  | codec (fault : Fault)
  | truncated
  | trailing
  | tooLarge (limit : Nat)
  deriving DecidableEq, Repr

/-- How many bytes are handed over at a time. -/
def chunkSize : Nat := 64 * 1024

/-- Counts content: `delivered` bytes are handed over, `filling` wait in the chunk. -/
structure Meter where
  limit : Nat
  delivered : Nat
  filling : Nat

def Meter.start (limit : Nat) : Meter := ⟨limit, 0, 0⟩

/-- Hands over `n` bytes. -/
def Meter.deliver (m : Meter) (n : Nat) : Except ReadFault Meter :=
  if m.delivered + n > m.limit then .error (.tooLarge m.limit)
  else .ok { m with delivered := m.delivered + n, filling := m.filling - n }

/-- Adds `n` bytes. A chunk is handed over when it is full and more bytes come. -/
def Meter.write (m : Meter) (n : Nat) : Except ReadFault Meter :=
  let m := { m with filling := m.filling + n }
  m.deliver ((m.filling - 1) / chunkSize * chunkSize)

/-- Hands over what waits. -/
def Meter.finish (m : Meter) : Except ReadFault Meter :=
  m.deliver m.filling

def liftCodec {α : Type} (r : Except Fault α) : Except ReadFault α :=
  match r with
  | .ok a => .ok a
  | .error f => .error (.codec f)

end ColumnVault.Zstd
