import PackGuard.Proofs.RestedBalancing
import PackGuard.Proofs.SingleOrder

/-!
The choice of cells is the greedy one. A cell above the level is selected exactly if no neighbour in
its bank that is selected comes before it, where the higher cell comes first and of level cells the
one earlier in the pack. So a cell above the level that is left out has a selected neighbour which is
at least as high, and what is selected in a bank depends on the cells of this bank only.
-/

namespace PackGuard.Balancing

def Beside (i j : Nat) : Prop := j = i + 1 ∨ i = j + 1

instance (i j : Nat) : Decidable (Beside i j) := inferInstanceAs (Decidable (_ ∨ _))

/-- Cell `j` comes before cell `i`: it is higher, or level with it and earlier in the pack. -/
def Precedes (cells : List Float32) (j i : Nat) : Prop :=
  ∃ v w, cells[j]? = some v ∧ cells[i]? = some w ∧ (w < v ∨ v == w ∧ j < i)

section Take

variable {order : Nat → Nat → Prop} {candidates taken : List Nat} {i j : Nat}

theorem mem_take_iff_beside :
    j ∈ take taken i ↔ j ∈ taken ∨ j = i ∧ ∀ k ∈ taken, ¬Beside i k := by
  rw [mem_take]
  refine or_congr_right (and_congr_right fun _ => ⟨?_, fun free => ⟨fun above => ?_, ?_⟩⟩)
  · rintro ⟨above, below⟩ k member (rfl | rfl)
    · exact above member
    · simp [member] at below
  · exact free _ above (.inl rfl)
  · cases i with
    | zero => exact .inl rfl
    | succ i => exact .inr fun below => free i below (.inr rfl)

/-- Candidates that are tried in order are taken exactly if no neighbour that was taken comes before
them. -/
theorem mem_foldl_take (asymm : ∀ a b, order a b → ¬order b a)
    (sorted : candidates.Pairwise order) :
    i ∈ candidates.foldl take [] ↔
      i ∈ candidates ∧ ∀ j ∈ candidates.foldl take [], Beside i j → ¬order j i := by
  induction candidates using List.reverseRecOn generalizing i with
  | nil => simp
  | append_singleton tried last ih =>
    rw [List.pairwise_append] at sorted
    obtain ⟨sorted, -, before⟩ := sorted
    have before : ∀ j ∈ tried, order j last := fun j member =>
      before j member last (List.mem_singleton_self last)
    have among : ∀ j ∈ tried.foldl take [], j ∈ tried := fun j member => ((ih sorted).mp member).1
    rw [List.foldl_append, List.foldl_cons, List.foldl_nil]
    generalize tried.foldl take [] = taken at ih among ⊢
    simp only [mem_take_iff_beside, List.mem_append, List.mem_singleton]
    constructor
    · rintro (member | ⟨rfl, free⟩)
      · obtain ⟨candidate, free⟩ := (ih sorted).mp member
        refine ⟨.inl candidate, ?_⟩
        rintro j (earlier | ⟨rfl, -⟩) beside
        · exact free j earlier beside
        · exact asymm _ _ (before i candidate)
      · refine ⟨.inr rfl, ?_⟩
        rintro j (earlier | ⟨rfl, -⟩) beside
        · exact absurd beside (free j earlier)
        · simp [Beside] at beside
    · rintro ⟨candidate | rfl, free⟩
      · exact .inl ((ih sorted).mpr ⟨candidate, fun j earlier => free j (.inl earlier)⟩)
      · exact .inr ⟨rfl, fun k member beside =>
          free k (.inl member) beside (before k (among k member))⟩

end Take

section Rank

open Single

/-- Cell `a` is to stand in front of cell `b` where the lowest come first. -/
def Below (a b : Nat × Float32) : Prop := a.2 < b.2 ∨ a.2 == b.2 ∧ b.1 < a.1

theorem pairwise_rank {cell : Nat × Float32} {ranked : List (Nat × Float32)}
    (number : cell.2.isNaN = false) (numbers : ∀ other ∈ ranked, other.2.isNaN = false)
    (later : ∀ other ∈ ranked, other.1 < cell.1) (sorted : ranked.Pairwise Below) :
    (rank cell ranked).Pairwise Below := by
  induction ranked with
  | nil => simp [rank]
  | cons head rest ih =>
    simp only [List.forall_mem_cons] at numbers later
    rw [List.pairwise_cons] at sorted
    rw [rank]
    split
    case isTrue lower =>
      refine List.pairwise_cons.mpr ⟨fun other member => ?_, ih numbers.2 later.2 sorted.2⟩
      rcases mem_rank.mp member with rfl | member
      · exact .inl lower
      · exact sorted.1 other member
    case isFalse high =>
      have above : value cell.2 ≤ value head.2 := by
        rwa [not_lt_iff numbers.1 number] at high
      refine List.pairwise_cons.mpr ⟨fun other member => ?_, List.pairwise_cons.mpr sorted⟩
      have place : other.1 < cell.1 := by
        rcases List.mem_cons.mp member with rfl | member
        · exact later.1
        · exact later.2 other member
      have higher : other.2.isNaN = false ∧ value head.2 ≤ value other.2 := by
        rcases List.mem_cons.mp member with rfl | member
        · exact ⟨numbers.1, le_rfl⟩
        · refine ⟨numbers.2 other member, ?_⟩
          rcases sorted.1 other member with less | ⟨same, -⟩
          · exact (lt_iff.mp less).2.2.le
          · exact (beq_iff.mp same).2.2.le
      rcases (above.trans higher.2).lt_or_eq with less | same
      · exact .inl (lt_iff.mpr ⟨number, higher.1, less⟩)
      · exact .inr ⟨beq_iff.mpr ⟨number, higher.1, same⟩, place⟩

theorem pairwise_foldl_rank {cells : List (Float32 × Nat)} {start : List (Nat × Float32)}
    (numbers : ∀ cell ∈ cells, cell.1.isNaN = false) (ascending : cells.Pairwise (·.2 < ·.2))
    (ranked : ∀ other ∈ start, other.2.isNaN = false ∧ ∀ cell ∈ cells, other.1 < cell.2)
    (sorted : start.Pairwise Below) :
    (cells.foldl (fun ranked cell => rank (cell.2, cell.1) ranked) start).Pairwise Below := by
  induction cells generalizing start with
  | nil => exact sorted
  | cons head rest ih =>
    rw [List.pairwise_cons] at ascending
    simp only [List.forall_mem_cons] at numbers ranked
    refine ih numbers.2 ascending.2 (fun other member => ?_) ?_
    · rcases mem_rank.mp member with rfl | member
      · exact ⟨numbers.1, ascending.1⟩
      · exact ⟨(ranked other member).1, (ranked other member).2.2⟩
    · exact pairwise_rank numbers.1 (fun other member => (ranked other member).1)
        (fun other member => (ranked other member).2.1) sorted

variable {level : Float32} {voltages : List Float32}

theorem pairwise_candidates (numbers : ∀ v ∈ voltages, v.isNaN = false) :
    (candidates level voltages).Pairwise (Precedes voltages) := by
  have places : (voltages.zipIdx.filter fun cell => ¬cell.1 ≤ level).Pairwise (·.2 < ·.2) := by
    refine List.Pairwise.filter _ (List.pairwise_map.mp ?_)
    rw [List.zipIdx_map_snd]
    exact List.pairwise_lt_range'
  have found : ∀ cell ∈ voltages.zipIdx.filter fun cell => ¬cell.1 ≤ level,
      voltages[cell.2]? = some cell.1 := fun cell member =>
    List.mem_zipIdx_iff_getElem?.mp (List.mem_filter.mp member).1
  have sorted := @pairwise_foldl_rank _ []
    (fun cell member => numbers _ (List.mem_of_getElem? (found cell member))) places nofun .nil
  rw [candidates, List.pairwise_map, List.pairwise_reverse]
  refine sorted.imp_of_mem fun {a b} first second below => ?_
  have lookup : ∀ cell : Nat × Float32, cell ∈ _ → voltages[cell.1]? = some cell.2 :=
    fun cell member => found cell.swap ((mem_foldl_rank.mp member).resolve_right List.not_mem_nil)
  refine ⟨b.2, a.2, lookup b second, lookup a first, ?_⟩
  rcases below with less | ⟨same, earlier⟩
  · exact .inl less
  · refine .inr ⟨beq_iff.mpr ?_, earlier⟩
    obtain ⟨number, number', same⟩ := beq_iff.mp same
    exact ⟨number', number, same.symm⟩

theorem Precedes.asymm {cells : List Float32} {i j : Nat} (h : Precedes cells j i) :
    ¬Precedes cells i j := by
  rintro ⟨v', w', foundI, foundJ, behind⟩
  obtain ⟨v, w, foundJ', foundI', before⟩ := h
  obtain rfl : v = w' := Option.some.inj (foundJ'.symm.trans foundJ)
  obtain rfl : w = v' := Option.some.inj (foundI'.symm.trans foundI)
  simp only [lt_iff, beq_iff] at before behind
  rcases before with ⟨-, -, less⟩ | ⟨⟨-, -, same⟩, earlier⟩ <;>
    rcases behind with ⟨-, -, less'⟩ | ⟨⟨-, -, same'⟩, earlier'⟩
  · exact lt_asymm less less'
  · exact less.ne same'
  · exact less'.ne same
  · exact Nat.lt_asymm earlier earlier'

theorem mem_selectInBank (numbers : ∀ v ∈ voltages, v.isNaN = false)
    (levelled : level.isNaN = false) {i : Nat} :
    i ∈ selectInBank level voltages ↔ (∃ v, voltages[i]? = some v ∧ level < v) ∧
      ∀ j ∈ selectInBank level voltages, Beside i j → ¬Precedes voltages j i := by
  rw [selectInBank, mem_foldl_take (fun _ _ => Precedes.asymm) (pairwise_candidates numbers),
    mem_candidates]
  refine and_congr_left fun _ => exists_congr fun v => and_congr_right fun found => ?_
  exact not_le_iff (numbers v (List.mem_of_getElem? found)) levelled

end Rank

section Banks

variable {cells : List Float32} {least difference : Float32} {b i j k : Nat}

def Selected (cells : List Float32) (least difference : Float32) (i : Nat) : Prop :=
  (select cells least difference).getLsbD i = true

instance : Decidable (Selected cells least difference i) :=
  inferInstanceAs (Decidable (_ = true))

def Neighbours (i j : Nat) : Prop := Beside i j ∧ i / bankSize = j / bankSize

theorem getElem?_bank (inside : k < bankSize) :
    (bank cells b)[k]? = cells[b * bankSize + k]? := by
  rw [bank, List.getElem?_take_of_lt inside, List.getElem?_drop]

theorem getElem?_bank_mod (i : Nat) :
    (bank (cells.take maskSize) (i / bankSize))[i % bankSize]? =
      if i < maskSize then cells[i]? else none := by
  rw [getElem?_bank (Nat.mod_lt _ (by decide)), Nat.div_add_mod', List.getElem?_take]

theorem selected_iff_mem_bank :
    Selected cells least difference i ↔
      i % bankSize ∈ selectInBank (least + difference)
        (bank (cells.take maskSize) (i / bankSize)) := by
  constructor
  · intro bled
    refine mem_selectInBank_of_select (Nat.mod_lt _ (by decide)) ?_
    rwa [Nat.div_add_mod']
  · intro chosen
    have inside := lt_of_mem_selectInBank chosen
    rw [bank, List.length_take, List.length_drop, List.length_take] at inside
    simp only [bankSize, maskSize] at inside chosen
    rw [Selected, select, getLsbD_mask, Bool.and_eq_true, decide_eq_true_eq, decide_eq_true_eq,
      List.mem_flatMap]
    refine ⟨by omega, i / 5, List.mem_range.mpr ?_, List.mem_map.mpr ⟨i % 5, chosen, ?_⟩⟩
    · rw [bankCount, bankSize, List.length_take, maskSize]
      omega
    · exact Nat.div_add_mod' i 5

theorem not_selected_of_neighbours (neighbours : Neighbours i j)
    (bled : Selected cells least difference i) : ¬Selected cells least difference j := by
  intro bled'
  rw [selected_iff_mem_bank] at bled bled'
  rw [← neighbours.2] at bled'
  have apart := apart_selectInBank (least + difference)
    (bank (cells.take maskSize) (i / bankSize))
  have place := neighbours.2
  simp only [bankSize] at place bled bled' apart
  rcases neighbours.1 with above | below
  · rw [show j % 5 = i % 5 + 1 by omega] at bled'
    exact apart _ bled bled'
  · rw [show i % 5 = j % 5 + 1 by omega] at bled
    exact apart _ bled' bled

theorem lt_of_selected (bled : Selected cells least difference i) :
    i < min cells.length maskSize :=
  lt_min (lt_of_getLsbD_select bled) (BitVec.lt_of_getLsbD bled)

theorem precedes_bank (place : i / bankSize = j / bankSize) (inside : i < maskSize)
    (inside' : j < maskSize) :
    Precedes (bank (cells.take maskSize) (i / bankSize)) (j % bankSize) (i % bankSize) ↔
      Precedes cells j i := by
  have earlier : j % bankSize < i % bankSize ↔ j < i := by
    simp only [bankSize] at place ⊢
    omega
  have found : (bank (cells.take maskSize) (i / bankSize))[j % bankSize]? = cells[j]? := by
    rw [place, getElem?_bank_mod, if_pos inside']
  rw [Precedes, found, getElem?_bank_mod, if_pos inside, earlier, Precedes]

theorem selected_iff (numbers : ∀ v ∈ cells, v.isNaN = false)
    (levelled : (least + difference).isNaN = false) :
    Selected cells least difference i ↔
      i < maskSize ∧ (∃ v, cells[i]? = some v ∧ least + difference < v) ∧
      ∀ j, Neighbours i j → Selected cells least difference j → ¬Precedes cells j i := by
  have numbers' : ∀ v ∈ bank (cells.take maskSize) (i / bankSize), v.isNaN = false := by
    intro v member
    exact numbers v (List.mem_of_mem_drop (List.mem_of_mem_take member) |> List.mem_of_mem_take)
  rw [selected_iff_mem_bank, mem_selectInBank numbers' levelled, getElem?_bank_mod]
  by_cases inside : i < maskSize
  case neg => simp [inside]
  rw [if_pos inside, and_iff_right inside]
  refine and_congr_right fun _ => ⟨fun free j neighbours bled => ?_, fun free j chosen beside => ?_⟩
  · have inside' := (lt_of_selected bled).trans_le (min_le_right _ _)
    rw [← precedes_bank neighbours.2 inside inside']
    rw [selected_iff_mem_bank, ← neighbours.2] at bled
    refine free _ bled ?_
    obtain ⟨beside, place⟩ := neighbours
    simp only [Beside, bankSize] at beside place ⊢
    omega
  · have bound := lt_of_mem_selectInBank chosen
    rw [bank, List.length_take] at bound
    have narrow : j < bankSize := Nat.lt_of_lt_of_le bound (Nat.min_le_left _ _)
    obtain ⟨whole, rfl, place⟩ : ∃ whole, whole % bankSize = j ∧ i / bankSize = whole / bankSize :=
      ⟨i / bankSize * bankSize + j, by simp only [bankSize] at narrow ⊢; omega⟩
    have bled : Selected cells least difference whole := by
      rw [selected_iff_mem_bank, ← place]
      exact chosen
    rw [precedes_bank place inside ((lt_of_selected bled).trans_le (min_le_right _ _))]
    refine free whole ⟨?_, place⟩ bled
    simp only [Beside, bankSize] at beside place ⊢
    omega

theorem exists_selected_of_left_out (numbers : ∀ v ∈ cells, v.isNaN = false)
    (levelled : (least + difference).isNaN = false) {v : Float32} (inside : i < maskSize)
    (found : cells[i]? = some v) (above : least + difference < v)
    (left : ¬Selected cells least difference i) :
    ∃ j w, Neighbours i j ∧ Selected cells least difference j ∧ cells[j]? = some w ∧ v ≤ w := by
  by_contra none
  refine left ((selected_iff numbers levelled).mpr ⟨inside, ⟨v, found, above⟩, ?_⟩)
  rintro j neighbours bled ⟨w, v', found', same, before⟩
  obtain rfl : v = v' := Option.some.inj (found.symm.trans same)
  refine none ⟨j, w, neighbours, bled, found', ?_⟩
  rw [Single.le_iff]
  rcases before with higher | ⟨level, -⟩
  · obtain ⟨number, number', less⟩ := Single.lt_iff.mp higher
    exact ⟨number, number', less.le⟩
  · obtain ⟨number, number', same⟩ := Single.beq_iff.mp level
    exact ⟨number', number, same.ge⟩

theorem bankBits_select_congr {others : List Float32}
    (same : ∀ i, i / bankSize = b → cells[i]? = others[i]?) :
    bankBits (select cells least difference) b = bankBits (select others least difference) b := by
  have banks : bank (cells.take maskSize) b = bank (others.take maskSize) b := by
    refine List.ext_getElem? fun k => ?_
    by_cases inside : k < bankSize
    · rw [getElem?_bank inside, getElem?_bank inside, List.getElem?_take, List.getElem?_take,
        same _ (by simp only [bankSize] at inside ⊢; omega)]
    · rw [bank, bank, List.getElem?_take_eq_none (Nat.le_of_not_lt inside),
        List.getElem?_take_eq_none (Nat.le_of_not_lt inside)]
  refine UInt8.toNat_inj.mp (Nat.eq_of_testBit_eq fun k => ?_)
  rw [testBit_bankBits, testBit_bankBits]
  by_cases inside : k < bankSize
  case neg => simp [show ¬k < 5 from inside]
  have place : (b * bankSize + k) / bankSize = b := by
    simp only [bankSize] at inside ⊢
    omega
  have bits : Selected cells least difference (b * bankSize + k) ↔
      Selected others least difference (b * bankSize + k) := by
    rw [selected_iff_mem_bank, selected_iff_mem_bank, place, banks]
  exact congrArg _ (Bool.eq_iff_iff.mpr bits)

/-- The cells that are bled have a place in the mask, and no two of them are neighbours of a bank.
What is bled in a bank depends on the cells of this bank only. As long as all cells and the level are
numbers, a cell above the level is bled exactly if no bled neighbour in its bank comes before it, and
one that is not bled has a bled neighbour in its bank which is at least as high. -/
theorem select_greedy (cells : List Float32) (least difference : Float32) :
    (∀ i, Selected cells least difference i → i < min cells.length maskSize) ∧
    (∀ i j, Neighbours i j → Selected cells least difference i →
      ¬Selected cells least difference j) ∧
    (∀ others b, (∀ i, i / bankSize = b → cells[i]? = others[i]?) →
      bankBits (select cells least difference) b = bankBits (select others least difference) b) ∧
    ((∀ v ∈ cells, v.isNaN = false) → (least + difference).isNaN = false →
      (∀ i, Selected cells least difference i ↔
        i < maskSize ∧ (∃ v, cells[i]? = some v ∧ least + difference < v) ∧
        ∀ j, Neighbours i j → Selected cells least difference j → ¬Precedes cells j i) ∧
      (∀ i v, i < maskSize → cells[i]? = some v → least + difference < v →
        ¬Selected cells least difference i →
        ∃ j w, Neighbours i j ∧ Selected cells least difference j ∧ cells[j]? = some w ∧ v ≤ w)) :=
  ⟨fun _ => lt_of_selected, fun _ _ => not_selected_of_neighbours,
    fun _ _ => bankBits_select_congr, fun numbers levelled =>
    ⟨fun _ => selected_iff numbers levelled, fun _ _ => exists_selected_of_left_out numbers levelled⟩⟩

def tied : List Float32 := [3.0, 3.1, 3.1, 3.0, 3.2, 3.2, 3.1]

theorem select_greedy_tied :
    (∀ v ∈ tied, v.isNaN = false) ∧ ((3.0 : Float32) + 0.01).isNaN = false ∧
      ¬Selected tied 3.0 0.01 2 ∧
      (∃ j w, Neighbours 2 j ∧ Selected tied 3.0 0.01 j ∧ tied[j]? = some w ∧ 3.1 ≤ w) ∧
      ¬∃ j, Neighbours 5 j ∧ Selected tied 3.0 0.01 j := by
  have numbers : ∀ v ∈ tied, v.isNaN = false := by decide +kernel
  have levelled : ((3.0 : Float32) + 0.01).isNaN = false := by decide +kernel
  have left : ¬Selected tied 3.0 0.01 2 := by decide +kernel
  obtain ⟨-, apart, -, greedy⟩ := select_greedy tied 3.0 0.01
  refine ⟨numbers, levelled, left, ?_, ?_⟩
  · exact (greedy numbers levelled).2 2 3.1 (by decide) rfl (by decide +kernel) left
  · rintro ⟨j, neighbours, bled⟩
    exact apart 5 j neighbours (by decide +kernel) bled

end Banks

end PackGuard.Balancing
