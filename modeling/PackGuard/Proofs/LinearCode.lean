import PackGuard.Encoding
import PackGuard.Proofs.SingleMonotone

/-!
Requests met by equal steps, computed in binary32. The code of a request is found by a subtraction,
a division and a small tolerance, each of them rounded. It still stands for a setting on the tight
side of the request, up to a fraction of a step, unless it is the last one on that side.
-/

namespace PackGuard

namespace Encoding

open Single

variable {p : Float32}

section Byte

theorem toNat_le_two_pow (raw : UInt16) : raw.toNat ≤ 2 ^ 24 := by
  have := raw.toNat_lt
  omega

theorem value_ofCode (raw : UInt16) : Single.value (ofCode raw : Float32) = raw.toNat :=
  value_ofNat (toNat_le_two_pow raw)

theorem isNaN_ofCode (raw : UInt16) : (ofCode raw : Float32).isNaN = false :=
  (nearest_ofNat raw.toNat).number

theorem ofCode_mono {code other : UInt16} (le : code ≤ other) :
    (ofCode code : Float32) ≤ ofCode other := by
  refine le_iff.mpr ⟨isNaN_ofCode code, isNaN_ofCode other, ?_⟩
  rw [value_ofCode, value_ofCode]
  exact_mod_cast UInt16.le_iff_toNat_le.mp le

theorem toNat_toCode {z : ℤ} (number : p.isNaN = false) (whole : Single.value p = z)
    (least : 0 ≤ Single.value p) (greatest : Single.value p ≤ 65535) :
    ((Scalar.toCode p).toNat : ℚ) = Single.value p := by
  have finite := isFinite_of_abs_lt number (by
    rw [abs_of_nonneg least]
    exact greatest.trans_lt (by norm_num))
  rw [whole] at least greatest ⊢
  have nonneg : 0 ≤ z := by exact_mod_cast least
  have bounded : z ≤ 65535 := by exact_mod_cast greatest
  lift z to ℕ using nonneg
  rw [Int.cast_natCast] at whole ⊢
  exact_mod_cast toNat_toUInt16 finite whole (by omega)

theorem toNat_clampCode {least greatest : UInt16} (number : p.isNaN = false)
    (range : least ≤ greatest)
    (whole : least.toNat < Single.value p → Single.value p < greatest.toNat →
      ∃ z : ℤ, Single.value p = z) :
    ((clampCode p least greatest).toNat : ℚ) =
      max (least.toNat : ℚ) (min (greatest.toNat : ℚ) (Single.value p)) := by
  unfold clampCode
  split
  · rename_i low
    have low := (le_iff.mp low).2.2
    rw [value_ofCode] at low
    exact (max_eq_left (min_le_of_right_le low)).symm
  · rename_i above
    have above := (lt_iff.mp ((not_le_iff number (isNaN_ofCode least)).mp above)).2.2
    rw [value_ofCode] at above
    split
    · rename_i high
      have high := (le_iff.mp high).2.2
      rw [value_ofCode] at high
      have range : (least.toNat : ℚ) ≤ greatest.toNat := by
        exact_mod_cast UInt16.le_iff_toNat_le.mp range
      rw [min_eq_left high, max_eq_right range]
    · rename_i below
      have below := (lt_iff.mp ((not_le_iff (isNaN_ofCode greatest) number).mp below)).2.2
      rw [value_ofCode] at below
      obtain ⟨z, whole⟩ := whole above below
      have first : (0 : ℚ) ≤ least.toNat := Nat.cast_nonneg _
      have last : (greatest.toNat : ℚ) ≤ 65535 := by
        exact_mod_cast Nat.le_of_lt_succ greatest.toNat_lt
      rw [min_eq_right below.le, max_eq_right above.le]
      exact toNat_toCode number whole (by linarith) (by linarith)

theorem clampCode_byte (h : Whole p) :
    (clampCode p 0 0xFF).toNat ≤ 255 ∧
      (clampCode p 0 0xFF = 0 ∨ (clampCode p 0 0xFF).toNat ≤ Single.value p) ∧
      (clampCode p 0 0xFF = 0xFF ∨ Single.value p ≤ (clampCode p 0 0xFF).toNat) := by
  have code : ((clampCode p 0 0xFF).toNat : ℚ) = max 0 (min 255 (Single.value p)) := by
    refine toNat_clampCode h.1 (by decide) fun above below => h.2 (abs_lt.mpr ⟨?_, ?_⟩)
    · change (0 : ℚ) < _ at above
      linarith
    · change _ < (255 : ℚ) at below
      linarith
  refine ⟨?_, ?_, ?_⟩
  · have : ((clampCode p 0 0xFF).toNat : ℚ) ≤ 255 :=
      code.trans_le (max_le (by norm_num) (min_le_left _ _))
    exact_mod_cast this
  · rcases le_total (Single.value p) 0 with low | above
    · rw [max_eq_left (min_le_of_right_le low)] at code
      exact .inl (UInt16.toNat_inj.mp (by exact_mod_cast code))
    · exact .inr (code.trans_le (max_le above (min_le_right _ _)))
  · rcases le_total 255 (Single.value p) with high | below
    · rw [min_eq_left high, max_eq_right (by norm_num)] at code
      exact .inl (UInt16.toNat_inj.mp (by exact_mod_cast code))
    · right
      rw [code, min_eq_right below]
      exact le_max_right _ _

theorem clampCode_of_isNaN (number : p.isNaN = true) (least greatest : UInt16) :
    clampCode p least greatest = 0 := by
  have below : ¬p ≤ ofCode least := fun le => absurd ((le_iff.mp le).1 ▸ number) Bool.false_ne_true
  have above : ¬ofCode greatest ≤ p := fun le =>
    absurd ((le_iff.mp le).2.1 ▸ number) Bool.false_ne_true
  rw [clampCode, if_neg below, if_neg above]
  exact toUInt16_of_isNaN number

theorem quantize_linear_byte (offset gain target : Float32) {rounding : Rounding}
    (directed : rounding ≠ .nearest) :
    ((linear offset gain 0 0xFF).quantize target rounding).toNat ≤ 255 := by
  have byte : ∀ {x y : Float32}, (x.isNaN = false → Whole y) → (x.isNaN = true → y = x) →
      (clampCode y 0 0xFF).toNat ≤ 255 := by
    intro x y whole same
    cases number : x.isNaN with
    | false => exact (clampCode_byte (whole number)).1
    | true =>
      rw [same number, clampCode_of_isNaN number]
      decide
  cases rounding with
  | nearest => exact absurd rfl directed
  | down =>
    exact byte (x := (target - offset) / gain + tolerance) whole_floor fun number =>
      mapUnits_of_not_isFinite _ (isFinite_of_isNaN number)
  | up =>
    exact byte (x := (target - offset) / gain - tolerance) whole_ceil fun number =>
      mapUnits_of_not_isFinite _ (isFinite_of_isNaN number)

end Byte

/-- Settings in steps of a few millivolts from a few volts on, known up to rounding. -/
structure EvenSteps (offset gain : Float32) (start step : ℚ) : Prop where
  offset : Within offset start (1 / 2 ^ 20)
  gain : Within gain step (1 / 2 ^ 30)
  low : |start| ≤ 4
  coarse : 1 / 200 ≤ step
  fine : step ≤ 1 / 128

namespace EvenSteps

variable {offset gain target : Float32} {start step : ℚ}

theorem abs_value_offset_le (h : EvenSteps offset gain start step) :
    |Single.value offset| ≤ 5 := by
  have triangle := abs_sub_abs_le_abs_sub (Single.value offset) start
  have close := h.offset.close.trans (by norm_num : (1 : ℚ) / 2 ^ 20 ≤ 1)
  linarith [h.low]

theorem value_gain_pos (h : EvenSteps offset gain start step) : 0 < Single.value gain := by
  have close := abs_le.mp (h.gain.close.trans (by norm_num : (1 : ℚ) / 2 ^ 30 ≤ 1 / 1000))
  linarith [h.coarse]

theorem isFinite_difference (h : EvenSteps offset gain start step)
    (finite : target.isFinite = true) : (target - offset).isFinite = true :=
  isFinite_sub finite h.offset.finite (h.abs_value_offset_le.trans (by norm_num))

theorem nearest_position (h : EvenSteps offset gain start step) (finite : target.isFinite = true) :
    Nearest (Single.value (target - offset) / Single.value gain) ((target - offset) / gain) :=
  nearest_div (h.isFinite_difference finite) h.gain.finite h.value_gain_pos.ne'

theorem abs_scaled_sub_le (h : EvenSteps offset gain start step) {u : ℚ} (small : |u| ≤ 256) :
    |u * Single.value gain - u * step| ≤ 1 / 2 ^ 22 := by
  rw [← mul_sub, abs_mul]
  calc |u| * |Single.value gain - step| ≤ 256 * (1 / 2 ^ 30) :=
        mul_le_mul small h.gain.close (abs_nonneg _) (by norm_num)
    _ = 1 / 2 ^ 22 := by norm_num

theorem abs_scaled_le (h : EvenSteps offset gain start step) {u : ℚ} (small : |u| ≤ 256) :
    |u * Single.value gain| ≤ 8 := by
  have scaled : |u * step| ≤ 2 := by
    rw [abs_mul]
    calc |u| * |step| ≤ 256 * (1 / 128) := by
          refine mul_le_mul small ?_ (abs_nonneg _) (by norm_num)
          rw [abs_of_nonneg (by linarith [h.coarse])]
          exact h.fine
      _ = 2 := by norm_num
  linarith [abs_sub_abs_le_abs_sub (u * Single.value gain) (u * step), h.abs_scaled_sub_le small]

theorem lt_target (h : EvenSteps offset gain start step) (finite : target.isFinite = true) {u : ℚ}
    (representable : Representable u) (small : |u| ≤ 256)
    (past : u < Single.value ((target - offset) / gain)) :
    start + u * step - 1 / 2 ^ 18 < Single.value target := by
  have difference : u * Single.value gain < Single.value (target - offset) :=
    (lt_div_iff₀ h.value_gain_pos).mp ((h.nearest_position finite).lt representable past)
  obtain ⟨y, grid, least, less⟩ := exists_representable_le (h.abs_scaled_le small)
  have request := (nearest_sub finite h.offset.finite).lt grid (least.trans_lt difference)
  have scaled := abs_le.mp (h.abs_scaled_sub_le small)
  have origin := abs_le.mp h.offset.close
  linarith

theorem target_lt (h : EvenSteps offset gain start step) (finite : target.isFinite = true) {u : ℚ}
    (representable : Representable u) (small : |u| ≤ 256)
    (short : Single.value ((target - offset) / gain) < u) :
    Single.value target < start + u * step + 1 / 2 ^ 18 := by
  have difference : Single.value (target - offset) < u * Single.value gain :=
    (div_lt_iff₀ h.value_gain_pos).mp ((h.nearest_position finite).gt representable short)
  obtain ⟨y, grid, least, less⟩ := exists_le_representable (h.abs_scaled_le small)
  have request := (nearest_sub finite h.offset.finite).gt grid (difference.trans_le least)
  have scaled := abs_le.mp (h.abs_scaled_sub_le small)
  have origin := abs_le.mp h.offset.close
  linarith

end EvenSteps

section Tolerance

variable {x : Float32} {z : ℤ}

theorem isFinite_tolerance : (tolerance : Float32).isFinite = true := by decide +kernel

theorem value_tolerance : Single.value (tolerance : Float32) = 8589935 / 2 ^ 33 := by decide +kernel

theorem value_add_tolerance_of_infinite (number : x.isNaN = false) (infinite : x.isFinite = false) :
    Single.value (x + (tolerance : Float32)) = Single.value x := by
  rw [Single.value, add_of_infinite number infinite isFinite_tolerance, Single.value]

theorem value_sub_tolerance_of_infinite (number : x.isNaN = false) (infinite : x.isFinite = false) :
    Single.value (x - (tolerance : Float32)) = Single.value x := by
  rw [Single.value, sub_of_infinite number infinite isFinite_tolerance, Single.value]

theorem lt_of_le_add_tolerance (number : x.isNaN = false) (small : |z| ≤ 256)
    (h : z ≤ Single.value (x + (tolerance : Float32))) : (z : ℚ) - 1 / 64 < Single.value x := by
  cases finite : x.isFinite with
  | true =>
    have representable : Representable ((z : ℚ) - 1 / 128) :=
      representable_dyadic (z := 128 * z - 1) (k := 7) (by push_cast; ring)
        (by rw [abs_le] at small ⊢; omega) (by norm_num)
    have sum := (nearest_add finite isFinite_tolerance).lt representable (by linarith)
    rw [value_tolerance] at sum
    linarith
  | false =>
    rw [value_add_tolerance_of_infinite number finite] at h
    linarith

theorem lt_of_add_tolerance_lt (number : x.isNaN = false) (small : |z| ≤ 256)
    (h : Single.value (x + (tolerance : Float32)) < z) : Single.value x < z := by
  cases finite : x.isFinite with
  | true =>
    have representable := representable_intCast (small.trans (by norm_num))
    have sum := (nearest_add finite isFinite_tolerance).gt representable h
    rw [value_tolerance] at sum
    linarith
  | false => rwa [value_add_tolerance_of_infinite number finite] at h

theorem lt_of_sub_tolerance_le (number : x.isNaN = false) (small : |z| ≤ 256)
    (h : Single.value (x - (tolerance : Float32)) ≤ z) : Single.value x < (z : ℚ) + 1 / 64 := by
  cases finite : x.isFinite with
  | true =>
    have representable : Representable ((z : ℚ) + 1 / 128) :=
      representable_dyadic (z := 128 * z + 1) (k := 7) (by push_cast; ring)
        (by rw [abs_le] at small ⊢; omega) (by norm_num)
    have difference := (nearest_sub finite isFinite_tolerance).gt representable (by linarith)
    rw [value_tolerance] at difference
    linarith
  | false =>
    rw [value_sub_tolerance_of_infinite number finite] at h
    linarith

theorem lt_of_lt_sub_tolerance (number : x.isNaN = false) (small : |z| ≤ 256)
    (h : z < Single.value (x - (tolerance : Float32))) : z < Single.value x := by
  cases finite : x.isFinite with
  | true =>
    have representable := representable_intCast (small.trans (by norm_num))
    have difference := (nearest_sub finite isFinite_tolerance).lt representable h
    rw [value_tolerance] at difference
    linarith
  | false => rwa [value_sub_tolerance_of_infinite number finite] at h

theorem isNaN_add_tolerance (number : x.isNaN = false) :
    (x + (tolerance : Float32)).isNaN = false := (Isotone.shift isFinite_tolerance).number number

theorem isNaN_sub_tolerance (number : x.isNaN = false) :
    (x - (tolerance : Float32)).isNaN = false := (Isotone.sub isFinite_tolerance).number number

end Tolerance

section Linear

variable {offset gain target : Float32} {start step : ℚ} {z : ℤ}

namespace EvenSteps

theorem of_le_floor (h : EvenSteps offset gain start step) (finite : target.isFinite = true)
    (range : 0 ≤ z ∧ z ≤ 255)
    (reached : z ≤ Single.value (floor ((target - offset) / gain + tolerance))) :
    start + z * step < Single.value target + step / 32 := by
  have small : |z| ≤ 255 := by rw [abs_le]; omega
  have point : |(z : ℚ) - 1 / 64| ≤ 256 := by
    have : (0 : ℚ) ≤ z ∧ (z : ℚ) ≤ 255 := by exact_mod_cast range
    rw [abs_le]
    constructor <;> linarith
  have representable : Representable ((z : ℚ) - 1 / 64) :=
    representable_dyadic (z := 64 * z - 1) (k := 6) (by push_cast; ring)
      (by rw [abs_le]; omega) (by norm_num)
  have position := lt_of_le_add_tolerance (h.nearest_position finite).number
    (small.trans (by norm_num)) ((le_floor_iff (small.trans_lt (by norm_num))).mp reached)
  linarith [h.lt_target finite representable point position, h.coarse]

theorem of_floor_lt (h : EvenSteps offset gain start step) (finite : target.isFinite = true)
    (range : 0 ≤ z ∧ z ≤ 256)
    (missed : Single.value (floor ((target - offset) / gain + tolerance)) < z) :
    Single.value target < start + z * step + step / 32 := by
  have small : |z| ≤ 256 := by rw [abs_le]; omega
  have position := lt_of_add_tolerance_lt (h.nearest_position finite).number small
    (lt_of_not_ge (mt (le_floor_iff (small.trans_lt (by norm_num))).mpr (not_le.mpr missed)))
  linarith [h.target_lt finite (representable_intCast (small.trans (by norm_num)))
    (by exact_mod_cast small) position, h.coarse]

theorem of_ceil_le (h : EvenSteps offset gain start step) (finite : target.isFinite = true)
    (range : 0 ≤ z ∧ z ≤ 255)
    (reached : Single.value (ceil ((target - offset) / gain - tolerance)) ≤ z) :
    Single.value target - step / 32 < start + z * step := by
  have small : |z| ≤ 255 := by rw [abs_le]; omega
  have point : |(z : ℚ) + 1 / 64| ≤ 256 := by
    have : (0 : ℚ) ≤ z ∧ (z : ℚ) ≤ 255 := by exact_mod_cast range
    rw [abs_le]
    constructor <;> linarith
  have representable : Representable ((z : ℚ) + 1 / 64) :=
    representable_dyadic (z := 64 * z + 1) (k := 6) (by push_cast; ring)
      (by rw [abs_le]; omega) (by norm_num)
  have position := lt_of_sub_tolerance_le (h.nearest_position finite).number
    (small.trans (by norm_num)) ((ceil_le_iff (small.trans_lt (by norm_num))).mp reached)
  linarith [h.target_lt finite representable point position, h.coarse]

theorem of_lt_ceil (h : EvenSteps offset gain start step) (finite : target.isFinite = true)
    (range : -1 ≤ z ∧ z ≤ 255)
    (missed : z < Single.value (ceil ((target - offset) / gain - tolerance))) :
    start + z * step - step / 32 < Single.value target := by
  have small : |z| ≤ 256 := by rw [abs_le]; omega
  have position := lt_of_lt_sub_tolerance (h.nearest_position finite).number small
    (lt_of_not_ge (mt (ceil_le_iff (small.trans_lt (by norm_num))).mpr (not_le.mpr missed)))
  linarith [h.lt_target finite (representable_intCast (small.trans (by norm_num)))
    (by exact_mod_cast small) position, h.coarse]

end EvenSteps

/-- The code for an upper limit is the last one that stands for no more, within the register. -/
theorem quantize_linear_down (h : EvenSteps offset gain start step)
    (finite : target.isFinite = true) :
    let raw := (linear offset gain 0 0xFF).quantize target .down
    raw.toNat ≤ 255 ∧ (raw = 0 ∨ start + raw.toNat * step < Single.value target + step / 32) ∧
      (raw = 0xFF ∨ Single.value target < start + (raw.toNat + 1) * step + step / 32) := by
  intro raw
  have number := isNaN_add_tolerance (h.nearest_position finite).number
  obtain ⟨small, reached, missed⟩ := clampCode_byte (whole_floor number)
  change raw.toNat ≤ 255 at small
  refine ⟨small, ?_, ?_⟩
  · refine reached.imp_right fun reached => ?_
    have := h.of_le_floor (z := raw.toNat) finite (by omega) (by exact_mod_cast reached)
    exact_mod_cast this
  · refine missed.imp_right fun missed => ?_
    have := h.of_floor_lt (z := raw.toNat + 1) finite (by omega)
      (lt_of_le_of_lt missed (by push_cast; exact lt_add_one _))
    exact_mod_cast this

theorem quantize_linear_up (h : EvenSteps offset gain start step)
    (finite : target.isFinite = true) :
    let raw := (linear offset gain 0 0xFF).quantize target .up
    raw.toNat ≤ 255 ∧ (raw = 0xFF ∨ Single.value target - step / 32 < start + raw.toNat * step) ∧
      (raw = 0 ∨ start + (raw.toNat - 1) * step - step / 32 < Single.value target) := by
  intro raw
  have number := isNaN_sub_tolerance (h.nearest_position finite).number
  obtain ⟨small, missed, reached⟩ := clampCode_byte (whole_ceil number)
  change raw.toNat ≤ 255 at small
  refine ⟨small, ?_, ?_⟩
  · refine reached.imp_right fun reached => ?_
    have := h.of_ceil_le (z := raw.toNat) finite (by omega) (by exact_mod_cast reached)
    exact_mod_cast this
  · refine missed.imp_right fun missed => ?_
    have := h.of_lt_ceil (z := raw.toNat - 1) finite (by omega)
      (lt_of_lt_of_le (by push_cast; exact sub_one_lt _) missed)
    push_cast at this
    exact this

theorem within_value_linear (h : EvenSteps offset gain start step) {raw : UInt16}
    (small : raw.toNat ≤ 255) :
    Within ((linear offset gain 0 0xFF).value raw) (start + raw.toNat * step) (1 / 2 ^ 19) := by
  have code : (raw.toNat : ℚ) ≤ 255 := by exact_mod_cast small
  have finite : (ofCode raw : Float32).isFinite = true := isFinite_ofNat (toNat_le_two_pow raw)
  have positive : (0 : ℚ) < step := by linarith [h.coarse]
  have range : (raw.toNat : ℚ) * step ≤ 255 * (1 / 128) :=
    mul_le_mul code h.fine positive.le (by norm_num)
  have product := Within.scale finite h.gain (e := -23) (by norm_num) (by norm_num) (by
    rw [value_ofCode, Nat.abs_cast, abs_of_nonneg (by positivity)]
    norm_num
    linarith)
  rw [value_ofCode, Nat.abs_cast] at product
  have error : (raw.toNat : ℚ) * (1 / 2 ^ 30) + 2 ^ (-23 : ℤ) / 2 ≤ 1 / 2 ^ 21 := by
    norm_num
    linarith
  have sum := h.offset.add (product.mono error) (e := -20) (by norm_num) (by norm_num) (by
    have triangle := abs_add_le start (raw.toNat * step)
    rw [abs_of_nonneg (by positivity : 0 ≤ raw.toNat * step)] at triangle
    norm_num
    linarith [h.low])
  exact sum.mono (by norm_num)

end Linear

end Encoding
end PackGuard
