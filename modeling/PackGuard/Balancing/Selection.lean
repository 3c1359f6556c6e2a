import PackGuard.Balancing.Mask
import PackGuard.Scalar.Single

/-!
The choice of cells to bleed. In each bank the highest cell is taken first, and a cell is left out
if a direct neighbour in its bank is already taken; the last cell of a bank and the first of the
next one are no neighbours.
-/

namespace PackGuard.Balancing

def bank (cells : List Float32) (b : Nat) : List Float32 := (cells.drop (b * bankSize)).take bankSize

/-- Puts a cell, given by its place and voltage, among ranked cells, the lowest first. It goes
in front of those it is lower than or level with, so that level cells keep pack order in the end. -/
def rank (cell : Nat × Float32) : List (Nat × Float32) → List (Nat × Float32)
  | [] => [cell]
  | other :: rest => if other.2 < cell.2 then other :: rank cell rest else cell :: other :: rest

/-- The places of the cells that are not at or below a level, the highest first. -/
def candidates (level : Float32) (voltages : List Float32) : List Nat :=
  let above := voltages.zipIdx.filter fun cell => ¬ cell.1 ≤ level
  let ranked := above.foldl (fun ranked cell => rank (cell.2, cell.1) ranked) []
  ranked.reverse.map Prod.fst

/-- Takes a cell unless a direct neighbour is taken. -/
def take (taken : List Nat) (i : Nat) : List Nat :=
  if i + 1 ∈ taken ∨ (i ≠ 0 ∧ i - 1 ∈ taken) then taken else i :: taken

def selectInBank (level : Float32) (voltages : List Float32) : List Nat :=
  (candidates level voltages).foldl take []

/-- The cells to bleed: those more than `difference` above `least`, the highest first, no two
neighbours of a bank. Cells a mask has no bit for are left out. -/
def select (cells : List Float32) (least difference : Float32) : CellMask :=
  let level := least + difference
  let held := cells.take maskSize
  mask ((List.range (bankCount held.length)).flatMap fun b =>
    (selectInBank level (bank held b)).map (b * bankSize + ·))

theorem mem_take {taken : List Nat} {i j : Nat} :
    j ∈ take taken i ↔ j ∈ taken ∨ j = i ∧ i + 1 ∉ taken ∧ (i = 0 ∨ i - 1 ∉ taken) := by
  unfold take
  split <;> grind

end PackGuard.Balancing
