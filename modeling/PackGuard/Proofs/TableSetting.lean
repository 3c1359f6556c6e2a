import PackGuard.Chip.Register
import PackGuard.Proofs.SingleMonotone
import PackGuard.Proofs.TableCode

/-!
Which setting of a table meets a request. A limit that may not be raised takes the last setting
within the request, one that may not be lowered the first setting that reaches it. A request for a
setting that the table has is met by that setting.
-/

namespace PackGuard.Encoding

open Single

variable {entries : List Float32} {a b target : Float32} {rounding : Rounding} {i j : ℕ}

/-- Settings as a register has them: some, no more than there are codes, all of them numbers, and
none below the one before. -/
structure Tabulated (entries : List Float32) : Prop where
  nonempty : entries ≠ []
  few : entries.length ≤ 2 ^ 16
  numbers : ∀ entry ∈ entries, entry.isNaN = false
  ascending : entries.Pairwise (· ≤ ·)

def positions (entries : List Float32) (admits : Float32 → Prop) : Set ℕ :=
  {i | ∃ inside : i < entries.length, admits entries[i]}

/-- The position on the side of a request to which it may move that is closest to it. Where no
setting lies on that side, it is the end of the table. -/
def Tightest (entries : List Float32) (target : Float32) : Rounding → ℕ → Prop
  | .up, i =>
    IsLeast (positions entries (target ≤ ·)) i ∨
      positions entries (target ≤ ·) = ∅ ∧ i + 1 = entries.length
  | .down, i | .nearest, i =>
    IsGreatest (positions entries (· ≤ target)) i ∨ positions entries (· ≤ target) = ∅ ∧ i = 0

section Search

theorem mem_positions_iff {admits : Float32 → Prop} :
    i ∈ positions entries admits ↔ ∃ entry, entries[i]? = some entry ∧ admits entry := by
  constructor
  · rintro ⟨inside, admitted⟩
    exact ⟨_, List.getElem?_eq_getElem inside, admitted⟩
  · rintro ⟨entry, found, admitted⟩
    obtain ⟨inside, rfl⟩ := List.getElem?_eq_some_iff.mp found
    exact ⟨inside, admitted⟩

theorem tightest_lastAtMost (entries : List Float32) (target : Float32) :
    Tightest entries target .down (lastAtMost entries target) := by
  have greatest : lastAtMost entries target ∈ upperBounds (positions entries (· ≤ target)) := by
    rintro i ⟨inside, fits⟩
    exact le_lastAtMost (List.getElem?_eq_getElem inside) fits
  rcases lastAtMost_cases entries target with first | fits
  · rcases Set.eq_empty_or_nonempty (positions entries (· ≤ target)) with none | ⟨i, member⟩
    · exact Or.inr ⟨none, first⟩
    · have start : i = 0 := Nat.le_zero.mp (first ▸ greatest member)
      rw [start, ← first] at member
      exact Or.inl ⟨member, greatest⟩
  · exact Or.inl ⟨mem_positions_iff.mpr fits, greatest⟩

theorem tightest_firstAtLeast (nonempty : entries ≠ []) (target : Float32) :
    Tightest entries target .up (firstAtLeast entries target) := by
  unfold firstAtLeast
  cases found : entries.findIdx? fun entry => target ≤ entry with
  | none =>
    refine Or.inr ⟨?_, Nat.sub_add_cancel (List.length_pos_iff.mpr nonempty)⟩
    apply Set.eq_empty_of_forall_notMem
    rintro i ⟨inside, reached⟩
    have missed := List.findIdx?_eq_none_iff.mp found _ (List.getElem_mem inside)
    exact of_decide_eq_false missed reached
  | some i =>
    obtain ⟨inside, reached, before⟩ := List.findIdx?_eq_some_iff_getElem.mp found
    refine Or.inl ⟨⟨inside, of_decide_eq_true reached⟩, ?_⟩
    rintro j ⟨_, reached⟩
    by_contra! less
    exact before j less (decide_eq_true reached)

theorem Tightest.lt (tightest : Tightest entries target rounding i) (nonempty : entries ≠ []) :
    i < entries.length := by
  cases rounding with
  | up =>
    rcases tightest with ⟨⟨inside, -⟩, -⟩ | ⟨-, last⟩
    · exact inside
    · omega
  | down | nearest =>
    rcases tightest with ⟨⟨inside, -⟩, -⟩ | ⟨-, first⟩
    · exact inside
    · rw [first]
      exact List.length_pos_iff.mpr nonempty

theorem Tabulated.tightest (h : Tabulated entries) (target : Float32) (rounding : Rounding) :
    Tightest entries target rounding ((table entries).quantize target rounding).toNat := by
  have fits : ∀ {i}, Tightest entries target rounding i → (UInt16.ofNat i).toNat = i :=
    fun tightest => UInt16.toNat_ofNat_of_lt' ((tightest.lt h.nonempty).trans_le h.few)
  cases rounding with
  | up =>
    have found := tightest_firstAtLeast h.nonempty target
    rwa [quantize, fits found]
  | down =>
    have found := tightest_lastAtMost entries target
    rwa [quantize, fits found]
  | nearest =>
    have found : Tightest entries target .nearest _ := tightest_lastAtMost entries target
    rwa [quantize, fits found]

theorem Tightest.mono (low : Tightest entries a rounding i) (high : Tightest entries b rounding j)
    (nonempty : entries ≠ []) (le : a ≤ b) : i ≤ j := by
  have before := low.lt nonempty
  cases rounding with
  | up =>
    rcases high with ⟨⟨inside, reached⟩, -⟩ | ⟨-, last⟩
    · have member : j ∈ positions entries (a ≤ ·) := ⟨inside, le_of_le_of_le le reached⟩
      rcases low with ⟨-, least⟩ | ⟨none, -⟩
      · exact least member
      · exact absurd none (Set.nonempty_of_mem member).ne_empty
    · omega
  | down | nearest =>
    rcases low with ⟨⟨inside, fits⟩, -⟩ | ⟨-, first⟩
    · have member : i ∈ positions entries (· ≤ b) := ⟨inside, le_of_le_of_le fits le⟩
      rcases high with ⟨-, greatest⟩ | ⟨none, -⟩
      · exact greatest member
      · exact absurd none (Set.nonempty_of_mem member).ne_empty
    · omega

end Search

section Own

variable (numbers : ∀ entry ∈ entries, entry.isNaN = false) (strict : entries.Pairwise (· < ·))

include numbers strict

theorem entry_le_iff (inside : i < entries.length) (inside' : j < entries.length) :
    entries[i] ≤ entries[j] ↔ i ≤ j := by
  constructor
  · intro le
    by_contra! less
    have more := List.pairwise_iff_getElem.mp strict j i inside' inside less
    exact absurd (le_iff.mp le).2.2 (not_le.mpr (lt_iff.mp more).2.2)
  · intro le
    have number := numbers entries[i] (List.getElem_mem inside)
    have number' := numbers entries[j] (List.getElem_mem inside')
    rw [le_iff, and_iff_right number, and_iff_right number']
    rcases le.lt_or_eq with less | rfl
    · exact (lt_iff.mp (List.pairwise_iff_getElem.mp strict i j inside inside' less)).2.2.le
    · exact le_rfl

theorem positions_le_entry (inside : i < entries.length) :
    positions entries (· ≤ entries[i]) = Set.Iic i := by
  ext j
  constructor
  · rintro ⟨inside', fits⟩
    exact (entry_le_iff numbers strict inside' inside).mp fits
  · intro le
    have inside' : j < entries.length := lt_of_le_of_lt le inside
    exact ⟨inside', (entry_le_iff numbers strict inside' inside).mpr le⟩

theorem positions_entry_le (inside : i < entries.length) :
    positions entries (entries[i] ≤ ·) = Set.Ico i entries.length := by
  ext j
  constructor
  · rintro ⟨inside', reached⟩
    exact ⟨(entry_le_iff numbers strict inside inside').mp reached, inside'⟩
  · rintro ⟨le, inside'⟩
    exact ⟨inside', (entry_le_iff numbers strict inside inside').mpr le⟩

theorem Tightest.eq_position (inside : i < entries.length)
    (tightest : Tightest entries entries[i] rounding j) : j = i := by
  cases rounding with
  | up =>
    rw [Tightest, positions_entry_le numbers strict inside] at tightest
    rcases tightest with least | ⟨none, -⟩
    · exact least.unique (isLeast_Ico inside)
    · exact absurd none (Set.nonempty_Ico.mpr inside).ne_empty
  | down | nearest =>
    rw [Tightest, positions_le_entry numbers strict inside] at tightest
    rcases tightest with greatest | ⟨none, -⟩
    · exact greatest.unique isGreatest_Iic
    · exact absurd none Set.nonempty_Iic.ne_empty

end Own

/-- A table meets requests as tightly as its settings allow, and a setting of its own exactly. -/
theorem quantize_table_tightest (h : Tabulated entries) :
    (∀ target rounding,
      Tightest entries target rounding ((table entries).quantize target rounding).toNat) ∧
    (entries.Pairwise (· < ·) → ∀ (code : UInt16) (rounding : Rounding),
      code.toNat < entries.length →
        (table entries).quantize ((table entries).value code) rounding = code) := by
  refine ⟨h.tightest, fun strict code rounding inside => ?_⟩
  have tightest := h.tightest ((table entries).value code) rounding
  rw [(value_table (List.getElem?_eq_getElem inside)).1] at tightest ⊢
  exact UInt16.toNat_inj.mp (tightest.eq_position h.numbers strict inside)

theorem quantize_table_tightest_shortCircuit :
    Tabulated Chip.shortCircuitThresholds ∧ Tightest Chip.shortCircuitThresholds 150.0 .down 4 ∧
      ∀ (code : UInt16) (rounding : Rounding), code.toNat < 8 →
        (table Chip.shortCircuitThresholds).quantize
          ((table Chip.shortCircuitThresholds).value code) rounding = code := by
  have tabulated : Tabulated Chip.shortCircuitThresholds := by constructor <;> decide +kernel
  have strict : Chip.shortCircuitThresholds.Pairwise (· < ·) := by decide +kernel
  have found : ((table Chip.shortCircuitThresholds).quantize 150.0 .down).toNat = 4 := by
    decide +kernel
  have tightest := (quantize_table_tightest tabulated).1 150.0 .down
  rw [found] at tightest
  exact ⟨tabulated, tightest, (quantize_table_tightest tabulated).2 strict⟩

end PackGuard.Encoding
