/-!
Sets of cells to bleed, one bit per cell. The front-end takes them bank by bank: five neighbouring
cells share a register.
-/

namespace PackGuard

/-- One bit per cell, the first cell lowest. -/
abbrev CellMask := BitVec 32

namespace Balancing

def bankSize : Nat := 5

def maskSize : Nat := 32

def bankCount (n : Nat) : Nat := (n + bankSize - 1) / bankSize

def mask (cells : List Nat) : CellMask :=
  cells.foldl (fun m i => m ||| BitVec.twoPow _ i) 0#_

def bankBits (m : CellMask) (b : Nat) : UInt8 := ⟨((m >>> (b * bankSize)).setWidth 5).setWidth 8⟩

theorem getLsbD_mask (cells : List Nat) (i : Nat) :
    (mask cells).getLsbD i = (decide (i < 32) && decide (i ∈ cells)) := by
  have general : ∀ m : CellMask,
      (cells.foldl (fun m i => m ||| BitVec.twoPow _ i) m).getLsbD i
        = (m.getLsbD i || (decide (i < 32) && decide (i ∈ cells))) := by
    induction cells with
    | nil => simp
    | cons c rest ih =>
      intro m
      rw [List.foldl_cons, ih]
      simp only [BitVec.getLsbD_or, BitVec.getLsbD_twoPow, List.mem_cons]
      grind
  simpa [mask] using general 0#_

theorem testBit_bankBits (m : CellMask) (b i : Nat) :
    (bankBits m b).toNat.testBit i = (decide (i < 5) && m.getLsbD (b * bankSize + i)) := by
  change (((m >>> (b * bankSize)).setWidth 5).setWidth 8).getLsbD i = _
  have within : i < 5 → i < 8 := by omega
  by_cases h : i < 5 <;>
    simp [h, within, BitVec.getLsbD_setWidth, BitVec.getLsbD_ushiftRight]

end Balancing
end PackGuard
