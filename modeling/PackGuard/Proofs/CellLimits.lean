import PackGuard.Proofs.TemperatureLimits

/-!
The voltage faults, judged by a reading of all cells. What is compared with a limit is the least or
the greatest voltage of the channels that have a cell. So a fault is seen if one cell shows it, and
it is recovered if no cell is short of the point of release, however many channels there are.
-/

namespace PackGuard

open Single

namespace Bound

def cellFault : Bound → FaultKind
  | upper => .cellOvervoltage
  | lower => .cellUndervoltage

variable {bound : Bound} {a limit : Float32}

theorem exceeded_of_best (finite : a.isFinite = true) (beyond : bound.Exceeded limit bound.best) :
    bound.Exceeded limit a := by
  have range := abs_le.mp (abs_value_le finite)
  have number := isNaN_of_isFinite finite
  cases bound <;> simp only [Exceeded, best, lt_iff, value_least, value_greatest] at beyond ⊢
  · exact ⟨beyond.1, number, beyond.2.2.trans_le range.1⟩
  · exact ⟨number, beyond.2.1, range.2.trans_lt beyond.2.2⟩

end Bound

def Config.voltageLimit (config : Config) : Bound → VoltageLimit
  | .upper => config.overvoltage
  | .lower => config.undervoltage

namespace CellReading

variable {n : Nat} {cells : Vector Float32 n} {bound : Bound}

def worst (reading : CellReading n) : Bound → Float32
  | .upper => reading.greatest
  | .lower => reading.least

/-- The voltages of the channels that have a cell. -/
def used (cells : Vector Float32 n) : List Float32 := cells.toList.filter isConnected

theorem mem_used {v : Float32} : v ∈ used cells ↔ v ∈ cells ∧ connectedThreshold < v := by
  rw [used, List.mem_filter, Vector.mem_toList_iff, isConnected, decide_eq_true_iff]

theorem connected_ofCells (cells : Vector Float32 n) (pack : Option Float32) :
    (ofCells cells pack).connected = (used cells).length := by
  unfold ofCells used
  dsimp only
  split
  · rename_i none
    exact (List.length_eq_zero_iff.mpr (List.isEmpty_iff.mp none)).symm
  · rfl

theorem worst_ofCells (pack : Option Float32) (bound : Bound) (some : used cells ≠ []) :
    (ofCells cells pack).worst bound = (used cells).foldl bound.worse bound.best := by
  have present : (cells.toList.filter isConnected).isEmpty = false :=
    List.isEmpty_eq_false_iff.mpr some
  simp only [ofCells, present, Bool.false_eq_true, if_false]
  cases bound <;> rfl

theorem isFinite_of_mem_used (known : ∀ v ∈ cells, v.isFinite = true ∨ v.isNaN = true)
    {v : Float32} (member : v ∈ used cells) : v.isFinite = true := by
  obtain ⟨among, connected⟩ := mem_used.mp member
  have number : v.isNaN = false := (lt_iff.mp connected).2.1
  exact (known v among).resolve_right (Bool.eq_false_iff.mp number)

variable (known : ∀ v ∈ cells, v.isFinite = true ∨ v.isNaN = true) (pack : Option Float32)
  {limit release : Float32}

include known

theorem exceeded_worst (some : used cells ≠ []) :
    bound.Exceeded limit ((ofCells cells pack).worst bound) ↔
      ∃ v ∈ used cells, bound.Exceeded limit v := by
  rw [worst_ofCells pack bound some, Bound.exceeded_foldl (Bound.isNaN_best bound)]
  refine ⟨fun h => h.elim (fun best => ?_) id, .inr⟩
  obtain ⟨v, member⟩ := List.exists_mem_of_ne_nil _ some
  exact ⟨v, member, Bound.exceeded_of_best (isFinite_of_mem_used known member) best⟩

theorem behind_worst (some : used cells ≠ []) :
    bound.Behind release ((ofCells cells pack).worst bound) ↔
      ∀ v ∈ used cells, bound.Behind release v := by
  rw [worst_ofCells pack bound some, Bound.behind_foldl (Bound.isNaN_best bound)]
  constructor
  · rintro ⟨-, all⟩ v member
    exact all v member (isNaN_of_isFinite (isFinite_of_mem_used known member))
  · intro all
    obtain ⟨v, member⟩ := List.exists_mem_of_ne_nil _ some
    exact ⟨Bound.behind_best (isFinite_of_mem_used known member) (all v member),
      fun v member _ => all v member⟩

end CellReading

section Check

variable {n : Nat} {config : Config} {bound : Bound}

theorem Status.cells_withCells (status : Status n) (config : Config) (reading : CellReading n) :
    (status.withCells config reading).cells = reading := by
  unfold withCells
  dsimp only
  split <;> rfl

theorem FaultKind.check?_cellFault (bound : Bound) (config : Config) (status : Status n)
    (report : Report) :
    bound.cellFault.check? config status report = some
      ⟨decide (0 < status.cells.connected) &&
          decide (bound.Exceeded (config.voltageLimit bound).limit (status.cells.worst bound)),
        !decide (0 < status.cells.connected) ||
          decide (bound.Behind (config.voltageLimit bound).reset (status.cells.worst bound))⟩ := by
  cases bound <;> rfl

theorem CellReading.check_cellFault {cells : Vector Float32 n}
    (known : ∀ v ∈ cells, v.isFinite = true ∨ v.isNaN = true) (pack : Option Float32)
    (bound : Bound) (config : Config) (status : Status n) (report : Report) :
    ∃ check,
      bound.cellFault.check? config (status.withCells config (.ofCells cells pack)) report =
        some check ∧
      (check.tripped = true ↔
        ∃ v ∈ used cells, bound.Exceeded (config.voltageLimit bound).limit v) ∧
      (check.recovered = true ↔
        ∀ v ∈ used cells, bound.Behind (config.voltageLimit bound).reset v) := by
  refine ⟨_, FaultKind.check?_cellFault bound config _ report, ?_, ?_⟩
  all_goals rw [Status.cells_withCells, connected_ofCells]
  all_goals rcases eq_or_ne (used cells) [] with none | some
  · simp [none]
  · simp [exceeded_worst known pack some, List.length_pos_iff.mpr some]
  · simp [none]
  · simp [behind_worst known pack some, List.length_pos_iff.mpr some]

/-- The voltage faults and the number of cells after a reading, by the channels above the threshold
for a cell. A channel that reads NaN has no cell. -/
theorem CellReading.voltages_judged_per_cell {cells : Vector Float32 n}
    (known : ∀ v ∈ cells, v.isFinite = true ∨ v.isNaN = true) (pack : Option Float32)
    (config : Config) (status : Status n) (report : Report) :
    ∃ low high,
      FaultKind.cellUndervoltage.check? config
        (status.withCells config (.ofCells cells pack)) report = some low ∧
      FaultKind.cellOvervoltage.check? config
        (status.withCells config (.ofCells cells pack)) report = some high ∧
      (low.tripped = true ↔
        ∃ v ∈ cells, connectedThreshold < v ∧ v < config.undervoltage.limit) ∧
      (low.recovered = true ↔
        ∀ v ∈ cells, connectedThreshold < v → config.undervoltage.reset < v) ∧
      (high.tripped = true ↔
        ∃ v ∈ cells, connectedThreshold < v ∧ config.overvoltage.limit < v) ∧
      (high.recovered = true ↔
        ∀ v ∈ cells, connectedThreshold < v → v < config.overvoltage.reset) ∧
      (status.withCells config (.ofCells cells pack)).cells.connected =
        cells.toList.countP fun v => connectedThreshold < v := by
  obtain ⟨low, foundLow, trippedLow, recoveredLow⟩ :=
    check_cellFault known pack .lower config status report
  obtain ⟨high, foundHigh, trippedHigh, recoveredHigh⟩ :=
    check_cellFault known pack .upper config status report
  simp only [mem_used, and_assoc, and_imp] at trippedLow recoveredLow trippedHigh recoveredHigh
  refine ⟨low, high, foundLow, foundHigh, trippedLow, recoveredLow, trippedHigh, recoveredHigh, ?_⟩
  rw [Status.cells_withCells, connected_ofCells, List.countP_eq_length_filter]
  rfl

theorem CellReading.voltages_judged_per_cell_mixed :
    ∃ low high,
      FaultKind.cellUndervoltage.check? (.ofChemistry .nmc 10.0)
        (({} : Status 4).withCells (.ofChemistry .nmc 10.0)
          (.ofCells #v[2.9, nan, 0.5, 3.6] none)) {} = some low ∧
      FaultKind.cellOvervoltage.check? (.ofChemistry .nmc 10.0)
        (({} : Status 4).withCells (.ofChemistry .nmc 10.0)
          (.ofCells #v[2.9, nan, 0.5, 3.6] none)) {} = some high ∧
      low.tripped = true ∧ low.recovered = false ∧ high.tripped = false ∧ high.recovered = true := by
  obtain ⟨low, high, foundLow, foundHigh, trippedLow, recoveredLow, trippedHigh, recoveredHigh, -⟩ :=
    @CellReading.voltages_judged_per_cell 4 #v[2.9, nan, 0.5, 3.6] (by decide +kernel) none
      (.ofChemistry .nmc 10.0) {} {}
  refine ⟨low, high, foundLow, foundHigh, trippedLow.mpr (by decide +kernel), ?_, ?_,
    recoveredHigh.mpr (by decide +kernel)⟩
  · rw [← Bool.not_eq_true, recoveredLow]
    decide +kernel
  · rw [← Bool.not_eq_true, trippedHigh]
    decide +kernel

end Check

end PackGuard
