import PackGuard.Scalar.Single

/-!
One reading of all cell channels, with its statistics over the channels that have a cell.
-/

namespace PackGuard

structure CellReading (n : Nat) where
  cells : Vector Float32 n
  least : Float32
  greatest : Float32
  mean : Float32
  connected : Nat
  pack : Float32

namespace CellReading

/-- A channel at or below this voltage has no cell. -/
def connectedThreshold : Float32 := 0.5

def isConnected (v : Float32) : Bool := connectedThreshold < v

def initial (n : Nat) : CellReading n := ⟨Vector.replicate n 0.0, 0.0, 0.0, 0.0, 0, 0.0⟩

/-- The reading of the given channels. Channels without a cell do not count; without a
measurement of the pack the cells are added up. -/
def ofCells {n : Nat} (cells : Vector Float32 n) (pack : Option Float32) : CellReading n :=
  let used := cells.toList.filter isConnected
  let sum := used.foldl (· + ·) 0.0
  if used.isEmpty then
    { cells, least := 0.0, greatest := 0.0, mean := 0.0, connected := 0, pack := pack.getD 0.0 }
  else
    { cells
      least := used.foldl Single.minNum Single.greatest
      greatest := used.foldl Single.maxNum Single.least
      mean := sum / Float32.ofNat used.length
      connected := used.length
      pack := pack.getD sum }

end CellReading
end PackGuard
