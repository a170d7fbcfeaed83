import ColumnVault.Zstd.Encode.Sequences

/-! The search for earlier bytes to copy. Two tables tell where bytes with some hash were seen last:
the long table hashes eight bytes, the short one only a few. A hit of the long table is taken at once;
before one of the short table is taken, the long table is asked at the next position. The distance
used last is tried first. -/

namespace ColumnVault.Zstd

open Bytes

/-- The logs of the window and of the tables, and how many bytes the short table hashes. -/
structure Tuning where
  windowLog : Nat
  longLog : Nat
  shortLog : Nat
  shortest : Nat

/-- The tuning for data of a size that is known. Tables are no larger than the data needs. -/
def Tuning.of (size : Nat) : Tuning :=
  let t : Tuning :=
    if size ≤ 16 * 1024 then ⟨14, 15, 14, 4⟩
    else if size ≤ 128 * 1024 then ⟨17, 16, 15, 5⟩
    else if size ≤ 256 * 1024 then ⟨18, 16, 16, 4⟩
    else ⟨21, 17, 16, 5⟩
  let sizeLog := if size < 64 then 6 else highBit (size - 1) + 1
  let windowLog := min t.windowLog sizeLog
  ⟨max windowLog 10, min t.longLog (windowLog + 1), min t.shortLog windowLog, t.shortest⟩

def Tuning.window (t : Tuning) : Nat :=
  1 <<< t.windowLog

/-- The place of the eight bytes of a word in the long table. -/
@[inline] def Tuning.longHash (t : Tuning) (w : UInt64) : Nat :=
  ((w * 0xcf1bbcdcb7a56463) >>> UInt64.ofNat (64 - t.longLog)).toNat

/-- The place of the first bytes of a word in the short table. -/
@[inline] def Tuning.shortHash (t : Tuning) (w : UInt64) : Nat :=
  if t.shortest = 5 then
    (((w <<< 24) * 889523592379) >>> UInt64.ofNat (64 - t.shortLog)).toNat
  else ((w.toUInt32 * 2654435761) >>> UInt32.ofNat (32 - t.shortLog)).toNat

/-- Where the bytes of each hash were seen last: one more than the position, or zero. -/
structure Seen where
  long : Array Nat
  short : Array Nat

def Seen.empty (t : Tuning) : Seen :=
  ⟨Array.replicate (1 <<< t.longLog) 0, Array.replicate (1 <<< t.shortLog) 0⟩

/-- Notes a position in both tables. -/
def Seen.note (t : Tuning) (data : ByteArray) (i : Nat) : Seen → Seen
  | ⟨long, short⟩ =>
    let w := word64LE data i
    ⟨long.set! (t.longHash w) (i + 1), short.set! (t.shortHash w) (i + 1)⟩

/-- Notes a position in the long table. -/
def Seen.noteLong (t : Tuning) (data : ByteArray) (i : Nat) : Seen → Seen
  | ⟨long, short⟩ => ⟨long.set! (t.longHash (word64LE data i)) (i + 1), short⟩

/-- Notes a position in the short table. -/
def Seen.noteShort (t : Tuning) (data : ByteArray) (i : Nat) : Seen → Seen
  | ⟨long, short⟩ => ⟨long, short.set! (t.shortHash (word64LE data i)) (i + 1)⟩

/-- How many bytes from `i` and `j` on are equal, of `fuel` bytes at most. -/
def common (data : ByteArray) (i j : Nat) : (fuel : Nat) → (n : Nat) → Nat
  | 0, n => n
  | fuel + 1, n => if byteAt data i = byteAt data j then common data (i + 1) (j + 1) fuel (n + 1) else n

/-- How many bytes before `i` and `j` are equal, of `fuel` bytes at most. -/
def commonBefore (data : ByteArray) (i j : Nat) : (fuel : Nat) → (n : Nat) → Nat
  | 0, n => n
  | fuel + 1, n =>
    if byteAt data (i - 1) = byteAt data (j - 1) then
      commonBefore data (i - 1) (j - 1) fuel (n + 1)
    else n

/-- A part of the data that is encoded as one block: positions before `lowest` are out of reach, and
hashes are taken up to `last`. -/
structure Span where
  data : ByteArray
  tuning : Tuning
  stop : Nat
  lowest : Nat

/-- The last position at which eight bytes can be read. -/
def Span.last (p : Span) : Nat :=
  p.stop - 8

/-- The length of the match of `i` with an earlier position, of which `known` bytes are known. -/
def Span.matchLength (p : Span) (i earlier known : Nat) : Nat :=
  known + common p.data (i + known) (earlier + known) (p.stop - (i + known)) 0

/-- A match found: `length` bytes at `position` that stand `distance` before. `searched` is where the
search stood, and `ahead` the position that it would have gone to, if that may still be noted. -/
structure Hit where
  position : Nat
  length : Nat
  distance : Nat
  searched : Nat
  ahead : Option Nat
  recent : Bool

/-- Extends a match backward, but not before `anchor`. -/
def Span.extend (p : Span) (anchor position earlier length searched : Nat) (ahead : Option Nat) : Hit :=
  let n := commonBefore p.data position earlier (min (position - anchor) (earlier - p.lowest)) 0
  ⟨position - n, length + n, position - earlier, searched, ahead, false⟩

/-- A hit of the short table at `i`, unless the long table has a longer one at the next position. -/
def Span.compare (p : Span) (anchor i next seenShort seenLong : Nat) (ahead : Option Nat) : Hit :=
  let length := p.matchLength i seenShort 4
  if seenLong > p.lowest + 1 ∧ word64LE p.data (seenLong - 1) = word64LE p.data next then
    let long := p.matchLength next (seenLong - 1) 8
    if long > length then p.extend anchor next (seenLong - 1) long i ahead
    else p.extend anchor i seenShort length i ahead
  else p.extend anchor i seenShort length i ahead

/-- Searches from `i` on, by steps that grow where nothing is found. `next` is the position after
`i`, and `grow` the one from which on the step is made larger. -/
def Span.search (p : Span) (anchor recent : Nat) : (fuel : Nat) → (i next step grow hash : Nat) →
    (word : UInt64) → (long short : Array Nat) → Option Hit × Array Nat × Array Nat
  | 0, _, _, _, _, _, _, long, short => (none, long, short)
  | fuel + 1, i, next, step, grow, hash, word, long, short =>
    if next > p.last then (none, long, short)
    else
      let seenLong := long.getD hash 0
      let shortHash := p.tuning.shortHash word
      let seenShort := short.getD shortHash 0
      let long := long.set! hash (i + 1)
      let short := short.set! shortHash (i + 1)
      if recent > 0 ∧ word32LE p.data (i + 1 - recent) = word32LE p.data (i + 1) then
        let length := p.matchLength (i + 1) (i + 1 - recent) 4
        (some ⟨i + 1, length, recent, i, none, true⟩, long, short)
      else
        let ahead := if step < 4 then some next else none
        if seenLong > p.lowest ∧ word64LE p.data (seenLong - 1) = word then
          let length := p.matchLength i (seenLong - 1) 8
          (some (p.extend anchor i (seenLong - 1) length i ahead), long, short)
        else
          let nextWord := word64LE p.data next
          let nextHash := p.tuning.longHash nextWord
          if seenShort > p.lowest ∧ word32LE p.data (seenShort - 1) = word.toUInt32 then
            (some (p.compare anchor i next (seenShort - 1) (long.getD nextHash 0) ahead), long, short)
          else
            let grown := next ≥ grow
            let step := if grown then step + 1 else step
            p.search anchor recent fuel next (next + step) step (if grown then grow + 256 else grow)
              nextHash nextWord long short

/-- What was found so far: literals start at `anchor`, and `one` and `two` are the distances used
last. -/
structure Found where
  anchor : Nat
  one : Nat
  two : Nat
  sequences : Array Sequence
  literals : ByteArray

/-- Adds a match, behind the literals before it. -/
def Found.add (data : ByteArray) (position value length : Nat) : Found → Found
  | ⟨anchor, one, two, sequences, literals⟩ =>
    let n := position - anchor
    ⟨position + length, one, two, sequences.push ⟨n, value, length⟩,
      data.copySlice anchor literals literals.size n⟩

/-- Adds a hit. -/
def Found.take (data : ByteArray) (h : Hit) (f : Found) : Found :=
  if h.recent then f.add data h.position 1 h.length
  else { f with one := h.distance, two := f.one }.add data h.position (h.distance + 3) h.length

/-- Takes matches that repeat the last distance but one, as long as they follow one another. -/
def Span.repeated (p : Span) : (fuel : Nat) → Seen → Found → Seen × Found
  | 0, seen, f => (seen, f)
  | fuel + 1, seen, f =>
    let i := f.anchor
    if i ≤ p.last ∧ f.two > 0 ∧ word32LE p.data i = word32LE p.data (i - f.two) then
      let length := p.matchLength i (i - f.two) 4
      p.repeated fuel (seen.note p.tuning p.data i)
        ({ f with one := f.two, two := f.one }.add p.data i 1 length)
    else (seen, f)

/-- Notes the position that the search would have gone to. -/
def Span.noteAhead (p : Span) (h : Hit) (seen : Seen) : Seen :=
  match h.ahead with
  | some next => seen.noteLong p.tuning p.data next
  | none => seen

/-- Notes some positions in a match, of which the next literals start at `anchor`. -/
def Span.noteWithin (p : Span) (searched anchor : Nat) (seen : Seen) : Seen :=
  let seen := seen.note p.tuning p.data (searched + 2)
  let seen := seen.noteLong p.tuning p.data (anchor - 2)
  seen.noteShort p.tuning p.data (anchor - 1)

/-- Finds matches from `i` on to the end of the span. -/
def Span.run (p : Span) : (fuel : Nat) → (i : Nat) → Seen → Found → Seen × Found
  | 0, _, seen, f => (seen, f)
  | fuel + 1, i, ⟨long, short⟩, f =>
    if p.stop < 8 then (⟨long, short⟩, f)
    else
      let word := word64LE p.data i
      match p.search f.anchor f.one (p.stop - i) i (i + 1) 1 (i + 256) (p.tuning.longHash word) word
          long short with
      | (none, long, short) => (⟨long, short⟩, f)
      | (some h, long, short) =>
        let seen := p.noteAhead h ⟨long, short⟩
        let f := f.take p.data h
        if f.anchor ≤ p.last then
          let seen := p.noteWithin h.searched f.anchor seen
          let (seen, f) := p.repeated (p.stop - f.anchor) seen f
          p.run fuel f.anchor seen f
        else (seen, f)

/-- What the blocks before leave behind: what was seen, and the two distances used last. -/
structure Trail where
  seen : Seen
  one : Nat
  two : Nat

/-- The sequences of the block from `start` to `stop`, all its literals, and what it leaves behind. A
distance that reaches out of the window waits until it is of use. -/
def findMatches (t : Tuning) (data : ByteArray) (start stop : Nat) (trail : Trail) :
    Array Sequence × ByteArray × Trail :=
  let lowest := stop - t.window
  let i := if start = lowest then start + 1 else start
  let reach := i - (i - t.window)
  let ⟨seen, one, two⟩ := trail
  let (seen, f) := Span.run ⟨data, t, stop, lowest⟩ (stop - start) i seen
    ⟨start, if one > reach then 0 else one, if two > reach then 0 else two, #[], ByteArray.empty⟩
  let waitingOne := if one > reach then one else 0
  let waitingTwo := if waitingOne ≠ 0 ∧ f.one ≠ 0 then waitingOne else if two > reach then two else 0
  (f.sequences, f.literals ++ data.extract f.anchor stop,
    ⟨seen, if f.one = 0 then waitingOne else f.one, if f.two = 0 then waitingTwo else f.two⟩)

end ColumnVault.Zstd
