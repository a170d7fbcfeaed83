import ColumnVault.Zstd.Fse

/-! Lengths of the words of a prefix code: those of an optimal code, shortened to a limit where they
are too long. -/

namespace ColumnVault.Zstd.Huffman

/-- A byte value, and how often it occurs. -/
structure Leaf where
  count : Nat
  symbol : Nat
  deriving Inhabited

inductive Tree where
  | leaf (symbol : Nat)
  | node (left right : Tree)
  deriving Inhabited

/-- A tree with the sum of the counts in it. -/
abbrev Weighted := Nat × Tree

/-- Takes the lightest tree of two queues; of equal ones that of the second. -/
def lightest : List Weighted → List Weighted → Option (Weighted × List Weighted × List Weighted)
  | l :: ls, m :: ms => if l.1 < m.1 then some (l, ls, m :: ms) else some (m, l :: ls, ms)
  | l :: ls, [] => some (l, ls, [])
  | [], m :: ms => some (m, [], ms)
  | [], [] => none

/-- Joins the two lightest trees `n` times. Joined trees come to the end of the second queue. -/
def join : (n : Nat) → List Weighted → List Weighted → Option Tree
  | 0, leaves, joined => (lightest leaves joined).map (·.1.2)
  | n + 1, leaves, joined => do
    let (a, leaves, joined) ← lightest leaves joined
    let (b, leaves, joined) ← lightest leaves joined
    join n leaves (joined ++ [(a.1 + b.1, .node a.2 b.2)])

/-- The depth of each symbol. -/
def Tree.depths (depth : Nat) (depths : Array Nat) : Tree → Array Nat
  | .leaf symbol => depths.set! symbol depth
  | .node left right => right.depths (depth + 1) (left.depths (depth + 1) depths)

/-- Word lengths of leaves in the order of falling counts, while those that were too long are paid
for. `ends` tells for each distance from the limit the last, lightest leaf at that distance. -/
structure Payment where
  lengths : Array Nat
  ends : Array (Option Nat)

def Payment.lastAt (p : Payment) (distance : Nat) : Option Nat :=
  p.ends.getD distance none

/-- The distance at which a leaf gets longer: the largest one to try at which this costs no more than
doing so twice at the distance below. -/
def Payment.choose (leaves : Array Leaf) (p : Payment) : (distance : Nat) → Nat
  | 0 => 0
  | 1 => 1
  | d + 2 =>
    match p.lastAt (d + 2), p.lastAt (d + 1) with
    | none, _ => p.choose leaves (d + 1)
    | some _, none => d + 2
    | some high, some low =>
      if (leaves.getD high default).count ≤ 2 * (leaves.getD low default).count then d + 2
      else p.choose leaves (d + 1)

/-- The next distance, from one on, at which there is a leaf. -/
def Payment.next (p : Payment) : (fuel : Nat) → (distance : Nat) → Nat
  | 0, distance => distance
  | fuel + 1, distance =>
    if (p.lastAt distance).isSome then distance else p.next fuel (distance + 1)

/-- Makes the lightest leaf at a distance from the limit longer by a bit. -/
def Payment.lengthen (limit distance : Nat) (p : Payment) : Payment :=
  match p.lastAt distance with
  | none => p
  | some i =>
    let lengths := p.lengths.modify i (· + 1)
    let ends := if (p.lastAt (distance - 1)).isNone then p.ends.set! (distance - 1) (some i)
      else p.ends
    let before := if i = 0 ∨ lengths.getD (i - 1) 0 ≠ limit - distance then none else some (i - 1)
    ⟨lengths, ends.set! distance before⟩

/-- Makes leaves longer until the debt, in words of the greatest length, is paid; the result may be
paid too much. -/
def Payment.pay (leaves : Array Leaf) (limit : Nat) : (fuel : Nat) → (debt : Int) → Payment →
    Int × Payment
  | 0, debt, p => (debt, p)
  | fuel + 1, debt, p =>
    if debt ≤ 0 then (debt, p)
    else
      let distance := p.next (limit + 1) (p.choose leaves (debt.toNat.log2 + 1))
      pay leaves limit fuel (debt - (1 <<< (distance - 1) : Nat)) (p.lengthen limit distance)

/-- The last leaf, up to `i`, whose word is not of the greatest length, if there is one. -/
def lastShorter (limit : Nat) (lengths : Array Nat) : (i : Nat) → Nat
  | 0 => 0
  | i + 1 => if lengths.getD (i + 1) 0 = limit then lastShorter limit lengths i else i + 1

/-- Gives back `n` words of the greatest length that were paid too much. -/
def Payment.giveBack (limit : Nat) (p : Payment) : (n last : Nat) → Payment
  | 0, _ => p
  | n + 1, last =>
    match p.lastAt 1 with
    | none =>
      let last := lastShorter limit p.lengths last
      giveBack limit ⟨p.lengths.modify (last + 1) (· - 1), p.ends.set! 1 (some (last + 1))⟩ n last
    | some i => giveBack limit ⟨p.lengths.modify (i + 1) (· - 1), p.ends.set! 1 (some (i + 1))⟩ n last

/-- Cuts lengths, given in the order of falling counts, to a limit. -/
def cut (leaves : Array Leaf) (limit : Nat) (lengths : Array Nat) : Array Nat :=
  let longest := lengths.back?.getD 0
  if longest ≤ limit then lengths
  else
    let excess := lengths.foldl (fun n l =>
      if l > limit then n + (1 <<< (longest - limit) - 1 <<< (longest - l)) else n) 0
    let debt := excess >>> (longest - limit)
    let lengths := lengths.map (min limit)
    let last := lastShorter limit lengths (lengths.size - 1)
    let ends := (List.range (last + 1)).foldl (fun (ends : Array (Option Nat)) i =>
        let l := lengths.getD i 0
        ends.set! (limit - l) (some i))
      (Array.replicate (limit + 2) none)
    let (debt, p) := Payment.pay leaves limit (longest * lengths.size + debt) debt ⟨lengths, ends⟩
    (p.giveBack limit debt.natAbs last).lengths

/-- Moves the leaves before the last that are more frequent than it to the front, by exchanges, and
then the last one behind them. Also tells where it comes to stand. -/
def partition (leaves : Array Leaf) (pivot : Nat) : (n j i : Nat) → Array Leaf × Nat
  | 0, j, i => (leaves.swapIfInBounds i j, i)
  | n + 1, j, i =>
    if (leaves.getD j default).count > pivot then
      partition (leaves.swapIfInBounds i j) pivot n (j + 1) (i + 1)
    else partition leaves pivot n (j + 1) i

/-- Sorts leaves by falling counts. A few leaves keep the order of equal ones, but not where they are
the longer part of more leaves. -/
def sortByParts : (fuel : Nat) → (longer : Bool) → Array Leaf → List Leaf
  | 0, _, leaves => leaves.toList
  | fuel + 1, longer, leaves =>
    if ¬ longer ∧ leaves.size ≤ 8 then leaves.toList.mergeSort fun a b => a.count ≥ b.count
    else
      match leaves.back? with
      | none => []
      | some last =>
        let (parted, i) := partition leaves last.count (leaves.size - 1) 0 0
        let before := parted.extract 0 i
        let after := parted.extract (i + 1) parted.size
        let short : Bool := before.size < after.size
        sortByParts fuel (¬ short) before ++ last :: sortByParts fuel short after

/-- Small counts have a bucket each, and large ones of the same number of bits share one. -/
def bucket (count : Nat) : Nat :=
  if count < 165 then count else highBit count + 158

/-- The leaves of a count of byte values, in the order of falling counts. Of equal small counts the
lower value comes first. -/
def leavesOf (counts : Array Nat) : List Leaf :=
  let leaves := (counts.toList.zipIdx.filter (·.1 ≠ 0)).map fun (n, s) => (⟨n, s⟩ : Leaf)
  let leaves := leaves.mergeSort fun a b => bucket a.count ≥ bucket b.count
  (leaves.splitBy fun a b => bucket a.count = bucket b.count).flatMap fun part =>
    if part.any fun l => bucket l.count ≥ 164 then sortByParts part.length false part.toArray else part

/-- The word length of each byte value: none for those that do not occur, and at most `limit`. -/
def lengthsOf (counts : Array Nat) (limit : Nat) : Array Nat :=
  let leaves := leavesOf counts
  let none_ := Array.replicate counts.size 0
  match join (leaves.length - 1) (leaves.reverse.map fun l => (l.count, .leaf l.symbol)) [] with
  | none => none_
  | some tree =>
    let depths := tree.depths 0 none_
    let lengths := (leaves.map fun l => depths.getD l.symbol 0).toArray
    let lengths := cut leaves.toArray limit lengths
    (leaves.zip lengths.toList).foldl (fun acc (l, n) => acc.set! l.symbol n) none_

end ColumnVault.Zstd.Huffman
