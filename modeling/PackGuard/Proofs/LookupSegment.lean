import PackGuard.Interpolation
import PackGuard.Proofs.SingleMonotone

/-!
Interpolation between two points of a look-up table, computed in binary32. As long as no
intermediate result overflows, it is monotone in spite of rounding. The code of a value between the
points may miss the code of the second point, by much less than a half.
-/

namespace PackGuard

namespace Curve

open Single

variable {p q : Float32 × Float32} {x y : Float32}

/-- An interpolation whose intermediate results are all finite. -/
structure Tame (p q : Float32 × Float32) (x : Float32) : Prop where
  argument : x.isFinite = true
  abscissa : p.1.isFinite = true
  ordinate : p.2.isFinite = true
  run : (q.1 - p.1).isFinite = true
  forward : 0 < value (q.1 - p.1)
  rise : (q.2 - p.2).isFinite = true
  offset : (x - p.1).isFinite = true
  product : ((q.2 - p.2) * (x - p.1)).isFinite = true
  quotient : ((q.2 - p.2) * (x - p.1) / (q.1 - p.1)).isFinite = true

namespace Tame

theorem nearest_line (h : Tame p q x) :
    Nearest (value p.2 + value ((q.2 - p.2) * (x - p.1) / (q.1 - p.1))) (line p q x) :=
  nearest_add h.ordinate h.quotient

theorem nearest_quotient (h : Tame p q x) :
    Nearest (value ((q.2 - p.2) * (x - p.1)) / value (q.1 - p.1))
      ((q.2 - p.2) * (x - p.1) / (q.1 - p.1)) :=
  nearest_div h.product h.run h.forward.ne'

theorem nearest_product (h : Tame p q x) :
    Nearest (value (q.2 - p.2) * value (x - p.1)) ((q.2 - p.2) * (x - p.1)) :=
  nearest_mul h.rise h.offset

theorem offset_le (hx : Tame p q x) (hy : Tame p q y) (le : value x ≤ value y) :
    value (x - p.1) ≤ value (y - p.1) :=
  (Rounds.sub hx.abscissa).le (fun _ _ less => sub_lt_sub_right less _) hx.argument hy.argument le

theorem quotient_le (hx : Tame p q x) (hy : Tame p q y)
    (le : value ((q.2 - p.2) * (x - p.1)) ≤ value ((q.2 - p.2) * (y - p.1))) :
    value (line p q x) ≤ value (line p q y) := by
  have quotients := (Rounds.div hx.run hx.forward.ne').le
    (fun _ _ less => div_lt_div_of_pos_right less hx.forward) hx.product hy.product le
  exact (Rounds.add hx.ordinate).le (fun _ _ less => by simpa using less) hx.quotient hy.quotient
    quotients

theorem line_le_line (hx : Tame p q x) (hy : Tame p q y) (rising : 0 < value (q.2 - p.2))
    (le : value x ≤ value y) : value (line p q x) ≤ value (line p q y) :=
  hx.quotient_le hy ((Rounds.mul hx.rise).le (fun _ _ less => mul_lt_mul_of_pos_left less rising)
    hx.offset hy.offset (hx.offset_le hy le))

theorem line_ge_line (hx : Tame p q x) (hy : Tame p q y) (falling : value (q.2 - p.2) < 0)
    (le : value x ≤ value y) : value (line p q y) ≤ value (line p q x) :=
  hy.quotient_le hx ((Rounds.mul hx.rise).ge (fun _ _ less => mul_lt_mul_of_neg_left less falling)
    hx.offset hy.offset (hx.offset_le hy le))

end Tame

theorem representable_half {d : ℚ} (h : Representable d) (least : 1 / 2 ^ 100 ≤ d) :
    Representable (d / 2) := by
  obtain ⟨z, e, small, low, high, rfl⟩ := h
  refine ⟨z, e - 1, small, ?_, by omega, ?_⟩
  · by_contra! lowest
    obtain rfl : e = -149 := by omega
    have few : (z : ℚ) ≤ 2 ^ 24 := by exact_mod_cast (abs_le.mp small).2
    have : (z : ℚ) * 2 ^ (-149 : ℤ) ≤ 2 ^ 24 * 2 ^ (-149 : ℤ) := by gcongr
    norm_num at least this
    linarith
  · rw [zpow_sub_one₀ two_ne_zero]
    ring

theorem representable_double {d : ℚ} (h : Representable d) (moderate : |d| ≤ 2 ^ 100) :
    Representable (2 * d) := by
  obtain ⟨z, e, small, low, high, rfl⟩ := h
  rcases eq_or_ne z 0 with rfl | nonzero
  · rw [Int.cast_zero, zero_mul, mul_zero]
    exact representable_zero
  · refine ⟨z, e + 1, small, by omega, ?_, ?_⟩
    · by_contra! highest
      obtain rfl : e = 104 := by omega
      have one : (1 : ℚ) ≤ |(z : ℚ)| := by exact_mod_cast Int.one_le_abs nonzero
      rw [abs_mul, abs_of_pos (by positivity : (0 : ℚ) < 2 ^ (104 : ℤ))] at moderate
      norm_num at moderate
      linarith
    · rw [zpow_add_one₀ two_ne_zero]
      ring

section Codes

def IsCode (x : Float32) : Prop := x.isFinite = true ∧ ∃ m : ℕ, m ≤ 65535 ∧ value x = m

/-- Neighbouring points of a look-up table. Their values are neither huge nor hardly different. -/
structure Segment (p q : Float32 × Float32) : Prop where
  finite : p.1.isFinite = true
  finite' : q.1.isFinite = true
  moderate : |value p.1| ≤ 2 ^ 100
  moderate' : |value q.1| ≤ 2 ^ 100
  steep : 1 / 2 ^ 100 ≤ value q.1 - value p.1
  code : IsCode p.2
  code' : IsCode q.2
  differ : value p.2 ≠ value q.2

structure Between (p q : Float32 × Float32) (x : Float32) : Prop where
  finite : x.isFinite = true
  least : value p.1 ≤ value x
  greatest : value x ≤ value q.1

theorem sub_code (h : IsCode x) (k : IsCode y) :
    (x - y).isFinite = true ∧ value (x - y) = value x - value y := by
  obtain ⟨finite, m, small, m_eq⟩ := h
  obtain ⟨finite', n, small', n_eq⟩ := k
  have difference := nearest_sub finite finite'
  have whole : value x - value y = ((m - n : ℤ) : ℚ) := by
    rw [m_eq, n_eq]
    push_cast
    rfl
  have bound : |(m - n : ℤ)| ≤ 65535 := abs_le.mpr ⟨by omega, by omega⟩
  rw [whole] at difference ⊢
  have exact := difference.eq (representable_intCast (bound.trans (by norm_num)))
  refine ⟨isFinite_of_abs_lt difference.number ?_, exact⟩
  rw [exact]
  have : |((m - n : ℤ) : ℚ)| ≤ 65535 := by exact_mod_cast bound
  exact this.trans_lt (by norm_num)

namespace Segment

variable (h : Segment p q)

include h

theorem run : (q.1 - p.1).isFinite = true ∧ 1 / 2 ^ 100 ≤ value (q.1 - p.1) ∧
    value (q.1 - p.1) ≤ 2 ^ 101 := by
  have difference := nearest_sub h.finite' h.finite
  have low := abs_le.mp h.moderate
  have high := abs_le.mp h.moderate'
  have bound : |value q.1 - value p.1| ≤ 2 ^ (101 : ℤ) := by
    rw [abs_le]
    norm_num at low high ⊢
    constructor <;> linarith
  refine ⟨difference.isFinite (bound.trans (by norm_num)), ?_, ?_⟩
  · refine difference.ge ?_ h.steep
    have := representable_two_pow (e := -100) (by norm_num) (by norm_num)
    norm_num at this ⊢
    exact this
  · have := abs_le.mp (difference.abs_value_le (representable_two_pow (by norm_num) (by norm_num))
      bound)
    norm_num at this ⊢
    exact this.2

theorem rise : ∃ w : ℤ, w ≠ 0 ∧ |w| ≤ 65535 ∧ (q.2 - p.2).isFinite = true ∧
    value (q.2 - p.2) = w ∧ value q.2 = value p.2 + w := by
  obtain ⟨finite, exact⟩ := sub_code h.code' h.code
  obtain ⟨-, m, small, m_eq⟩ := h.code
  obtain ⟨-, n, small', n_eq⟩ := h.code'
  have differ : m ≠ n := fun same => h.differ (by rw [m_eq, n_eq, same])
  refine ⟨n - m, by omega, abs_le.mpr ⟨by omega, by omega⟩, finite, ?_, ?_⟩
  · rw [exact, m_eq, n_eq]
    push_cast
    rfl
  · rw [m_eq, n_eq]
    push_cast
    ring

theorem offset (between : Between p q x) : (x - p.1).isFinite = true ∧ 0 ≤ value (x - p.1) ∧
    value (x - p.1) ≤ value (q.1 - p.1) := by
  have difference := nearest_sub between.finite h.finite
  have low := abs_le.mp h.moderate
  have high := abs_le.mp h.moderate'
  have bound : |value x - value p.1| ≤ 2 ^ (127 : ℤ) := by
    have least := between.least
    have greatest := between.greatest
    rw [abs_le]
    norm_num at low high ⊢
    constructor <;> linarith
  refine ⟨difference.isFinite bound, ?_, ?_⟩
  · exact difference.ge representable_zero (sub_nonneg.mpr between.least)
  · exact (Rounds.sub h.finite).le (fun _ _ less => sub_lt_sub_right less _) between.finite
      h.finite' between.greatest

theorem product (between : Between p q x) {w : ℤ} (nonzero : w ≠ 0) (small : |w| ≤ 65535)
    (finite : (q.2 - p.2).isFinite = true) (rise : value (q.2 - p.2) = w) :
    ((q.2 - p.2) * (x - p.1)).isFinite = true ∧
      0 ≤ w * value ((q.2 - p.2) * (x - p.1)) ∧
      |value ((q.2 - p.2) * (x - p.1))| ≤ |(w : ℚ)| * value (q.1 - p.1) * (1 + 1 / 2 ^ 24) := by
  obtain ⟨finite_run, least, greatest⟩ := h.run
  obtain ⟨finite_offset, nonneg, le⟩ := h.offset between
  have small : |(w : ℚ)| ≤ 65535 := by exact_mod_cast small
  have one : 1 ≤ |(w : ℚ)| := by exact_mod_cast Int.one_le_abs nonzero
  have nearest := nearest_mul finite finite_offset
  have nearest_run := nearest_mul finite finite_run
  rw [rise] at nearest nearest_run
  have positive : 0 < value (q.1 - p.1) := lt_of_lt_of_le (by positivity) least
  have size : ∀ t, 0 ≤ t → t ≤ value (q.1 - p.1) → |w * t| ≤ 2 ^ (127 : ℤ) := by
    intro t nonneg le
    rw [abs_mul, abs_of_nonneg nonneg]
    calc |(w : ℚ)| * t ≤ 65535 * 2 ^ 101 :=
          mul_le_mul small (le.trans greatest) nonneg (by norm_num)
      _ ≤ 2 ^ (127 : ℤ) := by norm_num
  have relative := nearest_run.relative
    (by
      rw [abs_mul, abs_of_pos positive]
      calc (2 : ℚ) ^ (-126 : ℤ) ≤ 1 * (1 / 2 ^ 100) := by norm_num
        _ ≤ |(w : ℚ)| * value (q.1 - p.1) := mul_le_mul one least (by positivity) (by positivity))
    ((size _ positive.le le_rfl).trans_lt (by norm_num))
  rw [abs_mul, abs_of_pos positive] at relative
  have largest : |value ((q.2 - p.2) * (q.1 - p.1))| ≤
      |(w : ℚ)| * value (q.1 - p.1) * (1 + 1 / 2 ^ 24) := by
    have triangle := abs_sub_abs_le_abs_sub (value ((q.2 - p.2) * (q.1 - p.1)))
      (w * value (q.1 - p.1))
    rw [abs_mul (w : ℚ), abs_of_pos positive] at triangle
    linarith
  refine ⟨nearest.isFinite (size _ nonneg le), ?_⟩
  -- the exact product may be rounded up, but not past the product at the second point
  rcases lt_or_gt_of_ne nonzero with falling | rising
  · have falling : (w : ℚ) < 0 := by exact_mod_cast falling
    have below := nearest.le representable_zero (mul_nonpos_of_nonpos_of_nonneg falling.le nonneg)
    have above := (Rounds.mul finite).ge (fun _ _ less => by
      simpa only [rise] using mul_lt_mul_of_neg_left less falling) finite_offset finite_run le
    refine ⟨mul_nonneg_of_nonpos_of_nonpos falling.le below, le_trans ?_ largest⟩
    rw [abs_of_nonpos below, abs_of_nonpos (above.trans below)]
    exact neg_le_neg above
  · have rising : (0 : ℚ) < w := by exact_mod_cast rising
    have above := nearest.ge representable_zero (mul_nonneg rising.le nonneg)
    have below := (Rounds.mul finite).le (fun _ _ less => by
      simpa only [rise] using mul_lt_mul_of_pos_left less rising) finite_offset finite_run le
    refine ⟨mul_nonneg rising.le above, le_trans ?_ largest⟩
    rw [abs_of_nonneg above, abs_of_nonneg (above.trans below)]
    exact below

theorem quotient (between : Between p q x) : ∃ w : ℤ, w ≠ 0 ∧ |w| ≤ 65535 ∧
    value (q.2 - p.2) = w ∧ value q.2 = value p.2 + w ∧ Tame p q x ∧
    0 ≤ w * value ((q.2 - p.2) * (x - p.1) / (q.1 - p.1)) ∧
    |value ((q.2 - p.2) * (x - p.1) / (q.1 - p.1))| ≤ |(w : ℚ)| + 1 / 128 := by
  obtain ⟨finite_run, least, -⟩ := h.run
  obtain ⟨w, nonzero, small, finite_rise, rise, codes⟩ := h.rise
  obtain ⟨finite_offset, -, -⟩ := h.offset between
  obtain ⟨finite, sign, bound⟩ := h.product between nonzero small finite_rise rise
  have positive : 0 < value (q.1 - p.1) := lt_of_lt_of_le (by positivity) least
  have nearest := nearest_div finite finite_run positive.ne'
  have small' : |(w : ℚ)| ≤ 65535 := by exact_mod_cast small
  have representable : Representable (|(w : ℚ)| + 1 / 128) :=
    representable_dyadic (z := |w| * 128 + 1) (k := 7) (by push_cast; ring)
      (by rw [abs_of_nonneg (by positivity)]; omega) (by norm_num)
  have size : |value ((q.2 - p.2) * (x - p.1)) / value (q.1 - p.1)| ≤ |(w : ℚ)| + 1 / 128 := by
    rw [abs_div, abs_of_pos positive, div_le_iff₀ positive]
    refine bound.trans ?_
    rw [mul_right_comm]
    refine mul_le_mul_of_nonneg_right ?_ positive.le
    linarith
  have finite_quotient := nearest.isFinite (size.trans (by norm_num; linarith))
  refine ⟨w, nonzero, small, rise, codes, ⟨between.finite, h.finite, h.code.1, finite_run, positive,
    finite_rise, finite_offset, finite, finite_quotient⟩, ?_,
    nearest.abs_value_le representable size⟩
  rcases lt_or_gt_of_ne nonzero with falling | rising
  · have falling : (w : ℚ) < 0 := by exact_mod_cast falling
    have below : value ((q.2 - p.2) * (x - p.1)) ≤ 0 := nonpos_of_mul_nonneg_right sign falling
    exact mul_nonneg_of_nonpos_of_nonpos falling.le
      (nearest.le representable_zero (div_nonpos_of_nonpos_of_nonneg below positive.le))
  · have rising : (0 : ℚ) < w := by exact_mod_cast rising
    have above : 0 ≤ value ((q.2 - p.2) * (x - p.1)) := nonneg_of_mul_nonneg_right sign rising
    exact mul_nonneg rising.le (nearest.ge representable_zero (div_nonneg above positive.le))

theorem line_rising (between : Between p q x) (rising : value p.2 < value q.2) :
    Tame p q x ∧ 0 < value (q.2 - p.2) ∧ value p.2 ≤ value (line p q x) ∧
      value (line p q x) ≤ value q.2 + 1 / 128 := by
  obtain ⟨w, -, -, rise, codes, tame, sign, bound⟩ := h.quotient between
  have positive : (0 : ℚ) < w := by linarith
  rw [abs_of_pos positive] at bound
  have added := nonneg_of_mul_nonneg_right sign positive
  obtain ⟨finite, n, small, n_eq⟩ := h.code'
  have representable : Representable (value q.2 + 1 / 128) :=
    representable_dyadic (z := n * 128 + 1) (k := 7) (by rw [n_eq]; push_cast; ring)
      (by rw [abs_of_nonneg (by positivity)]; omega) (by norm_num)
  refine ⟨tame, rise ▸ positive, ?_, ?_⟩
  · exact tame.nearest_line.ge (representable_value h.code.1) (by linarith)
  · exact tame.nearest_line.le representable (by linarith [(abs_le.mp bound).2])

theorem line_falling (between : Between p q x) (falling : value q.2 < value p.2) :
    Tame p q x ∧ value (q.2 - p.2) < 0 ∧ value (line p q x) ≤ value p.2 ∧
      value q.2 - 1 / 128 ≤ value (line p q x) := by
  obtain ⟨w, -, -, rise, codes, tame, sign, bound⟩ := h.quotient between
  have negative : (w : ℚ) < 0 := by linarith
  rw [abs_of_neg negative] at bound
  have removed := nonpos_of_mul_nonneg_right sign negative
  obtain ⟨finite, n, small, n_eq⟩ := h.code'
  have representable : Representable (value q.2 - 1 / 128) :=
    representable_dyadic (z := n * 128 - 1) (k := 7) (by rw [n_eq]; push_cast; ring)
      (by rw [abs_le]; omega) (by norm_num)
  refine ⟨tame, rise ▸ negative, ?_, ?_⟩
  · exact tame.nearest_line.le (representable_value h.code.1) (by linarith)
  · exact tame.nearest_line.ge representable (by linarith [(abs_le.mp bound).1])

end Segment

structure Within (p q : Float32 × Float32) (x : Float32) : Prop where
  code : IsCode x
  least : value p.2 ≤ value x
  greatest : value x ≤ value q.2

namespace Segment

variable (h : Segment p q) (rising : value p.2 < value q.2)

include h rising

theorem run_codes : (q.2 - p.2).isFinite = true ∧ 1 ≤ value (q.2 - p.2) ∧
    value (q.2 - p.2) ≤ 65535 := by
  obtain ⟨w, -, small, finite, exact, codes⟩ := h.rise
  rw [exact]
  have positive : 0 < w := by
    have : (0 : ℚ) < w := by linarith
    exact_mod_cast this
  have small := (abs_le.mp small).2
  exact ⟨finite, by exact_mod_cast positive, by exact_mod_cast small⟩

theorem tame_inverse (within : Within p q x) : Tame p.swap q.swap x := by
  obtain ⟨finite_codes, one, -⟩ := h.run_codes rising
  obtain ⟨finite_offset, exact⟩ := sub_code within.code h.code
  obtain ⟨finite_rise, least, greatest⟩ := h.run
  have nonneg : 0 ≤ value (x - p.2) := by linarith [within.least]
  have small : value (x - p.2) ≤ 65535 := by
    obtain ⟨-, m, -, m_eq⟩ := h.code
    obtain ⟨-, n, small, n_eq⟩ := within.code
    have : (n : ℚ) ≤ 65535 := by exact_mod_cast small
    rw [exact, m_eq, n_eq]
    linarith [Nat.cast_nonneg (α := ℚ) m]
  have product := nearest_mul finite_rise finite_offset
  have size : |value (q.1 - p.1) * value (x - p.2)| ≤ 2 ^ (127 : ℤ) := by
    rw [abs_mul, abs_of_nonneg nonneg, abs_of_nonneg (le_trans (by positivity) least)]
    calc value (q.1 - p.1) * value (x - p.2) ≤ 2 ^ 101 * 65535 :=
          mul_le_mul greatest small nonneg (by norm_num)
      _ ≤ 2 ^ (127 : ℤ) := by norm_num
  have finite_product := product.isFinite size
  have bound := product.abs_value_le (representable_two_pow (by norm_num) (by norm_num)) size
  have positive : 0 < value (q.2 - p.2) := by linarith
  have quotient := nearest_div finite_product finite_codes positive.ne'
  have finite_quotient := quotient.isFinite (by
    rw [abs_div, abs_of_pos positive, div_le_iff₀ positive]
    nlinarith)
  exact ⟨within.code.1, h.code.1, h.finite, finite_codes, positive, finite_rise, finite_offset,
    finite_product, finite_quotient⟩

theorem line_inverse_le {y : Float32} (within : Within p q x) (within' : Within p q y)
    (le : value x ≤ value y) :
    value (line p.swap q.swap x) ≤ value (line p.swap q.swap y) :=
  (h.tame_inverse rising within).line_le_line (h.tame_inverse rising within')
    (lt_of_lt_of_le (by positivity) h.run.2.1) le

theorem add_le_line_inverse (within : Within p q x) (past : value p.2 + 1 ≤ value x) {step : ℚ}
    (representable : Representable step)
    (fits : step * value (q.2 - p.2) ≤ value (q.1 - p.1)) {reached : ℚ}
    (representable' : Representable reached) (sum : reached ≤ value p.1 + step) :
    reached ≤ value (line p.swap q.swap x) := by
  have tame := h.tame_inverse rising within
  obtain ⟨-, exact⟩ := sub_code within.code h.code
  have positive : 0 < value (q.2 - p.2) := tame.forward
  have one : 1 ≤ value (x - p.2) := by linarith
  have rise : 0 ≤ value (q.1 - p.1) := le_trans (by positivity) h.run.2.1
  have product := tame.nearest_product.ge (representable_value h.run.1)
    (le_mul_of_one_le_right rise one)
  have quotient := tame.nearest_quotient.ge representable
    ((le_div_iff₀ positive).mpr (fits.trans product))
  exact tame.nearest_line.ge representable' (sum.trans (add_le_add le_rfl quotient))

theorem line_inverse_pos (within : Within p q x) (nonneg : 0 ≤ value p.1)
    (past : value p.2 + 1 ≤ value x) : 0 < value (line p.swap q.swap x) := by
  have representable := representable_two_pow (e := -116) (by norm_num) (by norm_num)
  obtain ⟨-, -, few⟩ := h.run_codes rising
  have fits : 2 ^ (-116 : ℤ) * value (q.2 - p.2) ≤ value (q.1 - p.1) := by
    refine le_trans ?_ h.run.2.1
    calc 2 ^ (-116 : ℤ) * value (q.2 - p.2) ≤ 2 ^ (-116 : ℤ) * 65535 := by gcongr
      _ ≤ 1 / 2 ^ 100 := by norm_num
  exact lt_of_lt_of_le (by positivity) (h.add_le_line_inverse rising within past representable fits
    representable (by linarith))

theorem line_inverse_pos_of_close {zero : Float32} (between : Between p q zero)
    (none : value zero = 0) (negative : value p.1 < 0)
    (close : value (line p q zero) < value p.2 + 1 / 2) (within : Within p q x)
    (past : value p.2 + 1 ≤ value x) : 0 < value (line p.swap q.swap x) := by
  obtain ⟨tame, positive, -, -⟩ := h.line_rising between rising
  obtain ⟨finite, m, small, m_eq⟩ := h.code
  have half : Representable (value p.2 + 1 / 2) :=
    representable_dyadic (z := 2 * m + 1) (k := 1) (by rw [m_eq]; push_cast; ring)
      (by rw [abs_of_nonneg (by positivity)]; omega) (by norm_num)
  have quotient : value ((q.2 - p.2) * (zero - p.1) / (q.1 - p.1)) < 1 / 2 := by
    linarith [tame.nearest_line.gt half close]
  have product : value ((q.2 - p.2) * (zero - p.1)) < value (q.1 - p.1) / 2 := by
    have half : Representable (1 / 2) := representable_dyadic (z := 1) (k := 1) (by norm_num)
      (by norm_num) (by norm_num)
    have less := tame.nearest_quotient.gt half quotient
    rw [div_lt_iff₀ tame.forward] at less
    linarith
  have fits : value (q.2 - p.2) * value (zero - p.1) < value (q.1 - p.1) / 2 :=
    tame.nearest_product.gt (representable_half (representable_value tame.run) h.run.2.1) product
  have offset : value (zero - p.1) = -value p.1 := by
    have difference := nearest_sub between.finite h.finite
    rw [none, zero_sub] at difference
    exact difference.eq (representable_value h.finite).neg
  rw [offset] at fits
  have small := (representable_value h.finite).neg
  have reached := h.add_le_line_inverse rising within past
    (representable_double small (by rw [abs_neg]; exact h.moderate)) (by linarith) small
    (by linarith)
  exact lt_of_lt_of_le (by linarith) reached

end Segment

end Codes

end Curve
end PackGuard
