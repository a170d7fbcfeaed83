import ColumnVault.Zstd.Encode.Distribution

/-! The encoder of a distribution. Its states are the cells of the decoding table, numbered from the
size of the table on. Symbols are encoded from the last to the first. -/

namespace ColumnVault.Zstd.Fse

structure Encoder where
  log : Nat
  /-- The number of cells of each symbol. -/
  cells : Array Nat
  /-- Where the states of each symbol start in `states`. -/
  starts : Array Nat
  states : Array Nat
  deriving Inhabited

def Encoder.ofCounts (c : Counts) : Encoder :=
  let cells := c.counts.map Int.natAbs
  let starts := (cells.foldl (fun (acc : Array Nat × Nat) n => (acc.1.push acc.2, acc.2 + n))
    (#[], 0)).1
  let size := 1 <<< c.log
  let states := ((spread c).toList.zipIdx.foldl
    (fun (acc : Array Nat × Array Nat) (symbol, i) =>
      let at_ := acc.2.getD symbol 0
      (acc.1.set! at_ (size + i), acc.2.set! symbol (at_ + 1)))
    (Array.replicate size size, starts)).1
  ⟨c.log, cells, starts, states⟩

/-- The encoder of a single symbol, which writes no bits. -/
def Encoder.single (symbol : Nat) : Encoder :=
  .ofCounts ⟨0, (Array.replicate symbol 0).push 1⟩

/-- The state that the last symbol leads to. -/
def Encoder.first (e : Encoder) (symbol : Nat) : Nat :=
  e.states.getD (e.starts.getD symbol 0) 0

/-- Writes a symbol before the state, and moves on to the state that stands for both. -/
def Encoder.put (e : Encoder) (symbol : Nat) (s : Sink) (state : Nat) : Sink × Nat :=
  let n := e.cells.getD symbol 1
  let most := if n = 1 then e.log else e.log - highBit (n - 1)
  let bits := if state ≥ n <<< most then most else most - 1
  (s.add state bits, e.states.getD (e.starts.getD symbol 0 + (state >>> bits) - n) 0)

/-- Writes the state that a decoder begins with. -/
def Encoder.finish (e : Encoder) (s : Sink) (state : Nat) : Sink :=
  s.add state e.log

/-- Writes symbols, given from the last to the first, with two states in turn. -/
def Encoder.alternate (e : Encoder) : (symbols : List Nat) → Sink → (now other : Nat) → Sink
  | [], s, now, other => e.finish (e.finish s now) other
  | symbol :: rest, s, now, other =>
    let (s, now) := e.put symbol s now
    e.alternate rest s other now

/-- Appends a stream of symbols, of which there must be more than two, with two states in turn. -/
def Encoder.writeTwo (e : Encoder) (symbols : List Nat) (out : ByteArray) : ByteArray :=
  match symbols.reverse with
  | last :: before :: rest =>
    (e.alternate rest (Sink.start out) (e.first last) (e.first before)).close
  | _ => out

end ColumnVault.Zstd.Fse
