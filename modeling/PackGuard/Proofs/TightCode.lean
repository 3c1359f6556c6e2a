import PackGuard.Encoding
import PackGuard.Proofs.ExactCurve

/-!
The codes of a look-up table in exact arithmetic. The exact position of a target lies between two
neighbouring codes; rounding takes the one on the tight side, by the values, whichever way the codes
run along them.
-/

namespace PackGuard.Encoding

open Curve

variable {points : Curve ℚ} {target : ℚ} {code : UInt16}

/-- A look-up table whose values ascend, with register codes that rise or fall throughout. -/
structure Orderly (points : Curve ℚ) : Prop where
  several : 2 ≤ points.length
  values : points.Pairwise fun p q => p.1 < q.1
  codes : ∀ p ∈ points, ∃ m : ℕ, m ≤ 65535 ∧ p.2 = m
  monotone : (points.Pairwise fun p q => p.2 < q.2) ∨ points.Pairwise fun p q => q.2 < p.2

namespace Orderly

theorem ne_nil (h : Orderly points) : points ≠ [] :=
  List.ne_nil_of_length_pos (Nat.zero_lt_of_lt h.several)

def first (h : Orderly points) : ℚ × ℚ := points.head h.ne_nil

def last (h : Orderly points) : ℚ × ℚ := points.getLast h.ne_nil

def Spans (h : Orderly points) (code : UInt16) : Prop :=
  (ofCode code : ℚ) ∈ Set.uIcc h.first.2 h.last.2

/-- Of the codes between the end codes, the one of the largest value that is not above the target. -/
structure Highest (h : Orderly points) (target : ℚ) (code : UInt16) : Prop where
  spans : h.Spans code
  le : (lookup points).value code ≤ target
  greatest : ∀ other, h.Spans other → (lookup points).value other ≤ target →
    (lookup points).value other ≤ (lookup points).value code

/-- Of the codes between the end codes, the one of the smallest value that is not below the target. -/
structure Lowest (h : Orderly points) (target : ℚ) (code : UInt16) : Prop where
  spans : h.Spans code
  ge : target ≤ (lookup points).value code
  least : ∀ other, h.Spans other → target ≤ (lookup points).value other →
    (lookup points).value code ≤ (lookup points).value other

theorem rises_or_falls (h : Orderly points) : Rises points ∨ Falls points :=
  h.monotone.imp (fun rising => h.values.and rising) fun falling => h.values.and falling

theorem exists_cons (h : Orderly points) : ∃ p rest, ∃ some : rest ≠ [], points = p :: rest ∧
    h.first = p ∧ h.last = rest.getLast some := by
  cases points with
  | nil => exact absurd rfl h.ne_nil
  | cons p rest =>
    have some : rest ≠ [] := by
      rintro rfl
      exact absurd h.several (by simp)
    exact ⟨p, rest, some, rfl, rfl, List.getLast_cons some⟩

theorem first_le_last (h : Orderly points) : h.first.1 ≤ h.last.1 := by
  have values := h.values
  obtain ⟨p, rest, some, rfl, first, last⟩ := h.exists_cons
  rw [first, last]
  exact ((List.pairwise_cons.mp values).1 _ (List.getLast_mem some)).le

theorem through_position (h : Orderly points)
    (between : h.first.1 ≤ target ∧ target ≤ h.last.1) :
    Through points target (points.eval target) := by
  obtain ⟨p, rest, some, rfl, first, last⟩ := h.exists_cons
  rw [first, last] at between
  exact through_eval some (h.values.imp ne_of_lt) (Set.mem_uIcc_of_le between.1 between.2)

theorem through_value (h : Orderly points) (spans : h.Spans code) :
    Through points ((lookup points).value code) (ofCode code) := by
  have differ : points.Pairwise fun p q => p.2 ≠ q.2 :=
    h.monotone.elim (fun rising => rising.imp ne_of_lt) fun falling => falling.imp ne_of_gt
  obtain ⟨p, rest, some, rfl, first, last⟩ := h.exists_cons
  have some' : rest.map Prod.swap ≠ [] := by simpa using some
  have final : (rest.map Prod.swap).getLast some' = (rest.getLast some).swap :=
    List.getLast_map some'
  rw [Spans, first, last] at spans
  have through : Through ((p :: rest).map Prod.swap) ((ofCode code : ℚ))
      ((lookup (p :: rest)).value code) := by
    refine through_eval some' (List.pairwise_map (l := p :: rest).mpr differ) ?_
    rw [final]
    exact spans
  exact through.of_swap

end Orderly

section Codes

theorem ofCode_toCode {m : ℕ} (small : m ≤ 65535) : (ofCode (Scalar.toCode (m : ℚ)) : ℚ) = m := by
  have fits : m < UInt16.size := Nat.lt_succ_of_le small
  change (((UInt16.ofNat (min (Rat.floor ((m : ℤ) : ℚ)).toNat 65535)).toNat : ℕ) : ℚ) = m
  rw [Rat.floor_intCast, Int.toNat_natCast, min_eq_left small, UInt16.toNat_ofNat_of_lt' fits]

theorem ofCode_clampCode {m : ℕ} (small : m ≤ 65535) :
    (ofCode (clampCode (m : ℚ) 0 65535) : ℚ) = m := by
  unfold clampCode
  split
  · rename_i least
    have none : m = 0 := Nat.le_zero.mp (by exact_mod_cast (show (m : ℚ) ≤ (0 : ℕ) from least))
    rw [none]
    rfl
  split
  · rename_i greatest
    have all : 65535 ≤ m := by exact_mod_cast (show ((65535 : ℕ) : ℚ) ≤ m from greatest)
    rw [le_antisymm small all]
    rfl
  · exact ofCode_toCode small

theorem ofCode_inj {a b : UInt16} (same : (ofCode a : ℚ) = ofCode b) : a = b :=
  UInt16.toNat_inj.mp (by exact_mod_cast (show ((a.toNat : ℕ) : ℚ) = b.toNat from same))

end Codes

namespace Orderly

theorem through_ends (h : Orderly points) :
    Through points h.first.1 h.first.2 ∧ Through points h.last.1 h.last.2 := by
  obtain ⟨p, rest, some, rfl, first, last⟩ := h.exists_cons
  rw [first, last]
  exact ⟨.start some, .finish some⟩

theorem position_mem (h : Orderly points) (between : h.first.1 ≤ target ∧ target ≤ h.last.1) :
    points.eval target ∈ Set.uIcc h.first.2 h.last.2 := by
  obtain ⟨first, last⟩ := h.through_ends
  have through := h.through_position between
  rcases h.rises_or_falls with rises | falls
  · exact Set.mem_uIcc_of_le ((first.le_iff rises through).mp between.1)
      ((through.le_iff rises last).mp between.2)
  · exact Set.mem_uIcc_of_ge ((through.le_iff_ge falls last).mp between.2)
      ((first.le_iff_ge falls through).mp between.1)

theorem value_mem (h : Orderly points) (spans : h.Spans code) :
    h.first.1 ≤ (lookup points).value code ∧ (lookup points).value code ≤ h.last.1 := by
  obtain ⟨first, last⟩ := h.through_ends
  have through := h.through_value spans
  rcases h.rises_or_falls with rises | falls
  · rw [Spans, Set.uIcc_of_le ((first.le_iff rises last).mp (h.first_le_last))] at spans
    exact ⟨(first.le_iff rises through).mpr spans.1, (through.le_iff rises last).mpr spans.2⟩
  · rw [Spans, Set.uIcc_of_ge ((first.le_iff_ge falls last).mp (h.first_le_last))] at spans
    exact ⟨(first.le_iff_ge falls through).mpr spans.2, (through.le_iff_ge falls last).mpr spans.1⟩

theorem value_inj (h : Orderly points) {other : UInt16} (spans : h.Spans code)
    (spans' : h.Spans other) (same : (lookup points).value code = (lookup points).value other) :
    code = other := by
  have through := h.through_value spans
  rw [same] at through
  exact ofCode_inj (through.unique h.rises_or_falls (h.through_value spans'))

theorem spans_of_mem (h : Orderly points) {z : ℤ} (within : (z : ℚ) ∈ Set.uIcc h.first.2 h.last.2) :
    h.Spans (clampCode (z : ℚ) 0 65535) ∧ (ofCode (clampCode (z : ℚ) 0 65535) : ℚ) = z := by
  obtain ⟨m, m_le, first⟩ := h.codes h.first (List.head_mem h.ne_nil)
  obtain ⟨n, n_le, last⟩ := h.codes h.last (List.getLast_mem h.ne_nil)
  have kept : (ofCode (clampCode (z : ℚ) 0 65535) : ℚ) = z := by
    rw [first, last, Set.mem_uIcc] at within
    norm_cast at within
    obtain ⟨k, rfl⟩ := Int.eq_ofNat_of_zero_le (show 0 ≤ z by omega)
    exact ofCode_clampCode (by omega)
  exact ⟨by rwa [Spans, kept], kept⟩

theorem rounded_mem (h : Orderly points) {e : ℚ} (within : e ∈ Set.uIcc h.first.2 h.last.2) :
    (e.floor : ℚ) ∈ Set.uIcc h.first.2 h.last.2 ∧ (e.ceil : ℚ) ∈ Set.uIcc h.first.2 h.last.2 := by
  obtain ⟨m, -, first⟩ := h.codes h.first (List.head_mem h.ne_nil)
  obtain ⟨n, -, last⟩ := h.codes h.last (List.getLast_mem h.ne_nil)
  have ends : ∀ x : ℚ, x ∈ Set.uIcc (m : ℚ) n ↔
      (((min m n : ℕ) : ℤ) : ℚ) ≤ x ∧ x ≤ (((max m n : ℕ) : ℤ) : ℚ) := by
    intro x
    push_cast
    exact Set.mem_Icc
  simp only [first, last, ends] at within ⊢
  have below := Rat.floor_le e
  have above := Rat.le_ceil (x := e)
  have least : (((min m n : ℕ) : ℤ) : ℚ) ≤ e.floor :=
    Int.cast_le.mpr (Rat.le_floor_iff.mpr within.1)
  have greatest : (e.ceil : ℚ) ≤ (((max m n : ℕ) : ℤ) : ℚ) :=
    Int.cast_le.mpr (Rat.ceil_le_iff.mpr within.2)
  exact ⟨⟨least, below.trans within.2⟩, within.1.trans above, greatest⟩

end Orderly

def codeBelow (points : Curve ℚ) (target : ℚ) : UInt16 :=
  clampCode (Scalar.floor (points.eval target)) 0 65535

def codeAbove (points : Curve ℚ) (target : ℚ) : UInt16 :=
  clampCode (Scalar.ceil (points.eval target)) 0 65535

namespace Orderly

section Between

variable (h : Orderly points) (between : h.first.1 ≤ target ∧ target ≤ h.last.1)

include between

theorem spans_codeBelow : h.Spans (codeBelow points target) ∧
    (ofCode (codeBelow points target) : ℚ) = (points.eval target).floor :=
  h.spans_of_mem (h.rounded_mem (h.position_mem between)).1

theorem spans_codeAbove : h.Spans (codeAbove points target) ∧
    (ofCode (codeAbove points target) : ℚ) = (points.eval target).ceil :=
  h.spans_of_mem (h.rounded_mem (h.position_mem between)).2

theorem extremes_of_rises (rises : Rises points) :
    h.Highest target (codeBelow points target) ∧ h.Lowest target (codeAbove points target) := by
  have through := h.through_position between
  obtain ⟨spans, below⟩ := h.spans_codeBelow between
  obtain ⟨spans', above⟩ := h.spans_codeAbove between
  have order := fun code (spans : h.Spans code) => (h.through_value spans).le_iff rises through
  have order' := fun code (spans : h.Spans code) => through.le_iff rises (h.through_value spans)
  constructor
  · refine ⟨spans, (order _ spans).mpr (below ▸ Rat.floor_le _), fun other among le => ?_⟩
    refine ((h.through_value among).le_iff rises (h.through_value spans)).mpr ?_
    rw [below]
    exact Int.cast_le.mpr (Rat.le_floor_iff.mpr ((order other among).mp le))
  · refine ⟨spans', (order' _ spans').mpr (above ▸ Rat.le_ceil), fun other among ge => ?_⟩
    refine ((h.through_value spans').le_iff rises (h.through_value among)).mpr ?_
    rw [above]
    exact Int.cast_le.mpr (Rat.ceil_le_iff.mpr ((order' other among).mp ge))

theorem extremes_of_falls (falls : Falls points) :
    h.Highest target (codeAbove points target) ∧ h.Lowest target (codeBelow points target) := by
  have through := h.through_position between
  obtain ⟨spans, below⟩ := h.spans_codeBelow between
  obtain ⟨spans', above⟩ := h.spans_codeAbove between
  have order := fun code (spans : h.Spans code) => (h.through_value spans).le_iff_ge falls through
  have order' := fun code (spans : h.Spans code) => through.le_iff_ge falls (h.through_value spans)
  constructor
  · refine ⟨spans', (order _ spans').mpr (above ▸ Rat.le_ceil), fun other among le => ?_⟩
    refine ((h.through_value among).le_iff_ge falls (h.through_value spans')).mpr ?_
    rw [above]
    exact Int.cast_le.mpr (Rat.ceil_le_iff.mpr ((order other among).mp le))
  · refine ⟨spans, (order' _ spans).mpr (below ▸ Rat.floor_le _), fun other among ge => ?_⟩
    refine ((h.through_value spans).le_iff_ge falls (h.through_value among)).mpr ?_
    rw [below]
    exact Int.cast_le.mpr (Rat.le_floor_iff.mpr ((order' other among).mp ge))

end Between

theorem quantize_of_extremes (h : Orderly points) {low high : UInt16}
    (highest : h.Highest target low) (lowest : h.Lowest target high)
    (around : (low = codeBelow points target ∧ high = codeAbove points target) ∨
      (low = codeAbove points target ∧ high = codeBelow points target)) :
    (lookup points).quantize target .down = low ∧ (lookup points).quantize target .up = high := by
  have order := highest.le.trans lowest.ge
  have met : (lookup points).value high ≤ (lookup points).value low → high = low := fun reached =>
    h.value_inj lowest.spans highest.spans (le_antisymm reached order)
  have down : (if (lookup points).value high ≤ target then high else low) = low := by
    split
    · rename_i reached
      exact met (highest.greatest high lowest.spans reached)
    · rfl
  have up : (if target ≤ (lookup points).value low then low else high) = high := by
    split
    · rename_i reached
      exact (met (lowest.least low highest.spans reached)).symm
    · rfl
  unfold codeBelow codeAbove at around
  rcases around with ⟨below, above⟩ | ⟨above, below⟩
  · simp only [quantize, quantizeLookup, ← below, ← above, if_pos order]
    exact ⟨down, up⟩
  · by_cases same : (lookup points).value high ≤ (lookup points).value low
    · obtain rfl := met same
      simp only [quantize, quantizeLookup, ← below, ← above, if_pos order, ite_self, and_self]
    · simp only [quantize, quantizeLookup, ← below, ← above, if_neg same]
      exact ⟨down, up⟩

/-- Within the values of the table, rounding is to the tight side. -/
theorem extremes (h : Orderly points) (between : h.first.1 ≤ target ∧ target ≤ h.last.1) :
    h.Highest target ((lookup points).quantize target .down) ∧
      h.Lowest target ((lookup points).quantize target .up) := by
  rcases h.rises_or_falls with rises | falls
  · obtain ⟨highest, lowest⟩ := h.extremes_of_rises between rises
    obtain ⟨down, up⟩ := h.quantize_of_extremes highest lowest (.inl ⟨rfl, rfl⟩)
    rw [down, up]
    exact ⟨highest, lowest⟩
  · obtain ⟨highest, lowest⟩ := h.extremes_of_falls between falls
    obtain ⟨down, up⟩ := h.quantize_of_extremes highest lowest (.inr ⟨rfl, rfl⟩)
    rw [down, up]
    exact ⟨highest, lowest⟩

end Orderly

theorem roundHalfAway_natCast (m : ℕ) : Exact.roundHalfAway (m : ℚ) = m := by
  have half : ⌊(m : ℚ) + 1 / 2⌋ = m :=
    Int.floor_eq_iff.mpr ⟨by push_cast; linarith, by push_cast; linarith⟩
  rw [Exact.roundHalfAway, if_pos (Nat.cast_nonneg m)]
  exact half

theorem quantize_of_whole {m : ℕ} (small : m ≤ 65535) (whole : points.eval target = m)
    (rounding : Rounding) : (ofCode ((lookup points).quantize target rounding) : ℚ) = m := by
  have floor : (Scalar.floor (m : ℚ) : ℚ) = m := congrArg Int.cast (Rat.floor_intCast (m : ℤ))
  have ceil : (Scalar.ceil (m : ℚ) : ℚ) = m := congrArg Int.cast (Rat.ceil_intCast (m : ℤ))
  have round : (Scalar.round (m : ℚ) : ℚ) = m := congrArg Int.cast (roundHalfAway_natCast m)
  have limited : (Scalar.clamp 0.0 65535.0 (m : ℚ) : ℚ) = m := by
    refine Exact.clamp_eq (by norm_num) ?_
    norm_num
    exact small
  cases rounding with
  | down =>
    simp only [quantize, quantizeLookup, whole, floor, ceil, ite_self]
    exact ofCode_clampCode small
  | up =>
    simp only [quantize, quantizeLookup, whole, floor, ceil, ite_self]
    exact ofCode_clampCode small
  | nearest =>
    simp only [quantize, quantizeLookup, whole, round, limited]
    exact ofCode_toCode small

/-- A look-up table is rounded to the tight side: within its values to the code of the closest value
on that side, outside of them to the end code there, and what a code stands for to that code. -/
theorem quantize_tightest (h : Orderly points) (target : ℚ) :
    (h.first.1 ≤ target ∧ target ≤ h.last.1 →
      h.Highest target ((lookup points).quantize target .down) ∧
      h.Lowest target ((lookup points).quantize target .up)) ∧
    (target < h.first.1 → ∀ rounding,
      (ofCode ((lookup points).quantize target rounding) : ℚ) = h.first.2) ∧
    (h.last.1 < target → ∀ rounding,
      (ofCode ((lookup points).quantize target rounding) : ℚ) = h.last.2) ∧
    ∀ code, h.Spans code →
      (lookup points).quantize ((lookup points).value code) .down = code ∧
      (lookup points).quantize ((lookup points).value code) .up = code := by
  refine ⟨h.extremes, fun before rounding => ?_, fun beyond rounding => ?_, fun code spans => ?_⟩
  · obtain ⟨m, small, whole⟩ := h.codes h.first (List.head_mem h.ne_nil)
    rw [whole]
    refine quantize_of_whole small (Eq.trans ?_ whole) rounding
    obtain ⟨p, rest, some, rfl, first, -⟩ := h.exists_cons
    rw [first] at before ⊢
    exact eval_before some h.values before
  · obtain ⟨m, small, whole⟩ := h.codes h.last (List.getLast_mem h.ne_nil)
    rw [whole]
    refine quantize_of_whole small (Eq.trans ?_ whole) rounding
    obtain ⟨p, rest, some, rfl, -, last⟩ := h.exists_cons
    rw [last] at beyond ⊢
    exact eval_beyond some h.values beyond
  · obtain ⟨highest, lowest⟩ := h.extremes (h.value_mem spans)
    exact ⟨h.value_inj highest.spans spans
        (le_antisymm highest.le (highest.greatest code spans le_rfl)),
      h.value_inj lowest.spans spans (le_antisymm (lowest.least code spans le_rfl) lowest.ge)⟩

def thermistor : Curve ℚ := [(-40, 3435), (0, 3231), (25, 2107), (50, 1342), (80, 696)]

theorem orderly_thermistor : Orderly thermistor where
  several := by decide
  values := by decide +kernel
  codes := by
    have whole : ∀ p ∈ thermistor, p.2 = (p.2.num.toNat : ℕ) ∧ p.2.num.toNat ≤ 65535 := by
      decide +kernel
    exact fun p member => ⟨_, (whole p member).2, (whole p member).1⟩
  monotone := .inr (by decide +kernel)

theorem quantize_tightest_thermistor : ∃ h : Orderly thermistor,
    (h.first.1 ≤ 45.3 ∧ 45.3 ≤ h.last.1) ∧
    (lookup thermistor).quantize 45.3 .down = 1486 ∧
    h.Highest 45.3 ((lookup thermistor).quantize 45.3 .down) ∧
    (ofCode ((lookup thermistor).quantize 90 .up) : ℚ) = 696 := by
  have between : orderly_thermistor.first.1 ≤ 45.3 ∧ 45.3 ≤ orderly_thermistor.last.1 := by
    decide +kernel
  have beyond : orderly_thermistor.last.1 < 90 := by decide +kernel
  exact ⟨orderly_thermistor, between, by decide +kernel,
    ((quantize_tightest orderly_thermistor 45.3).1 between).1,
    (quantize_tightest orderly_thermistor 90).2.2.1 beyond .up⟩

end PackGuard.Encoding
