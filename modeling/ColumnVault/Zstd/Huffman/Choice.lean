/-! Whether code words are taken in pairs. That takes longer to prepare and is faster then; it pays
where much is to be decoded from few bits. -/

namespace ColumnVault.Zstd.Huffman

/-- What a way of decoding costs: once, and for each 256 bytes. -/
structure Cost where
  start : Nat
  step : Nat

def Cost.total (c : Cost) (size : Nat) : Nat :=
  c.start + c.step * (size / 256)

/-- The costs of decoding one by one and in pairs, for content that is packed into so many sixteenths
of its size. -/
structure Estimates where
  rows : List (Cost × Cost)
  /-- In pairs has to be better by this part of its cost: a half for 1, a quarter for 2, and so on. -/
  handicap : Nat

/-- Whether some content is decoded in pairs. -/
def Estimates.choosePairs (e : Estimates) (size packed : Nat) : Bool :=
  let sixteenths := if packed ≥ size then 15 else packed * 16 / size
  match e.rows[sixteenths]? with
  | none => false
  | some (single, pair) =>
    let inPairs := pair.total size
    inPairs + inPairs >>> e.handicap < single.total size

/-- The costs in the present format. -/
def estimates : Estimates where
  rows := [
    (⟨0, 0⟩, ⟨1, 1⟩), (⟨0, 0⟩, ⟨1, 1⟩), (⟨150, 216⟩, ⟨381, 119⟩), (⟨170, 205⟩, ⟨514, 112⟩),
    (⟨177, 199⟩, ⟨539, 110⟩), (⟨197, 194⟩, ⟨644, 107⟩), (⟨221, 192⟩, ⟨735, 107⟩),
    (⟨256, 189⟩, ⟨881, 106⟩), (⟨359, 188⟩, ⟨1167, 109⟩), (⟨582, 187⟩, ⟨1570, 114⟩),
    (⟨688, 187⟩, ⟨1712, 122⟩), (⟨825, 186⟩, ⟨1965, 136⟩), (⟨976, 185⟩, ⟨2131, 150⟩),
    (⟨1180, 186⟩, ⟨2070, 175⟩), (⟨1377, 185⟩, ⟨1731, 202⟩), (⟨1412, 185⟩, ⟨1695, 202⟩)]
  handicap := 5

/-- The costs in the early formats. -/
def earlyEstimates (handicap : Nat) : Estimates where
  rows := [
    (⟨0, 0⟩, ⟨1, 1⟩), (⟨0, 0⟩, ⟨1, 1⟩), (⟨38, 130⟩, ⟨1313, 74⟩), (⟨448, 128⟩, ⟨1353, 74⟩),
    (⟨556, 128⟩, ⟨1353, 74⟩), (⟨714, 128⟩, ⟨1418, 74⟩), (⟨883, 128⟩, ⟨1437, 74⟩),
    (⟨897, 128⟩, ⟨1515, 75⟩), (⟨926, 128⟩, ⟨1613, 75⟩), (⟨947, 128⟩, ⟨1729, 77⟩),
    (⟨1107, 128⟩, ⟨2083, 81⟩), (⟨1177, 128⟩, ⟨2379, 87⟩), (⟨1242, 128⟩, ⟨2415, 93⟩),
    (⟨1349, 128⟩, ⟨2644, 106⟩), (⟨1455, 128⟩, ⟨2422, 124⟩), (⟨722, 128⟩, ⟨1891, 145⟩)]
  handicap

end ColumnVault.Zstd.Huffman
