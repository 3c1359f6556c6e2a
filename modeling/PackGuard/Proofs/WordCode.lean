import PackGuard.Proofs.LinearCode

/-!
Register codes of 16 bits for exact positions. A position is rounded down, up or to the nearest
whole number, and limited to the codes there are. What matters of a code is which codes it reaches.
-/

namespace PackGuard

open Single

variable {x : Float32} {m : ℕ}

section Zero

theorem Single.isNaN_zero : (0.0 : Float32).isNaN = false := by decide +kernel

theorem Single.value_zero : value (0.0 : Float32) = 0 := by decide +kernel

theorem Single.pos_iff : 0.0 < x ↔ 0 < value x := by
  rw [lt_iff, value_zero]
  refine ⟨fun less => less.2.2, fun positive => ⟨isNaN_zero, ?_, positive⟩⟩
  by_contra none
  rw [Bool.not_eq_false] at none
  change x.toModel.unpack.isNaN = true at none
  rw [value] at positive
  cases unpacked : x.toModel.unpack <;> rw [unpacked] at none positive <;> first
    | exact lt_irrefl _ positive
    | cases none

end Zero

section Rounding

theorem Single.Nearest.intCast_le_iff {N z : ℤ} (h : Nearest N x) (small : |z| < 2 ^ 24) :
    z ≤ value x ↔ z ≤ N := by
  have bounds := abs_lt.mp small
  constructor
  · intro reached
    by_contra! less
    have representable := representable_intCast (z := z - 1) (by rw [abs_le]; omega)
    have below := h.le representable (by exact_mod_cast Int.le_sub_one_of_lt less)
    push_cast at below
    linarith
  · intro le
    exact h.ge (representable_intCast small.le) (by exact_mod_cast le)

theorem le_round_iff (number : x.isNaN = false) (positive : 0 < m) (small : m ≤ 65535) :
    (m : ℚ) ≤ value (Single.round x) ↔ (m : ℚ) - 1 / 2 ≤ value x := by
  have one : (1 : ℚ) ≤ m := by exact_mod_cast positive
  cases finite : x.isFinite with
  | true =>
    obtain ⟨k, units, same⟩ := units?_of_isFinite finite
    have rounded : Single.round x = Float32.ofInt (roundUnits k) := by
      rw [Single.round, mapUnits, units]
    have one_step : (0 : ℚ) < ((1 <<< 149 : ℕ) : ℚ) := by norm_num
    rw [rounded, ← Int.cast_natCast (R := ℚ) m,
      (nearest_ofInt _).intCast_le_iff (by rw [Nat.abs_cast]; omega), same, Int.cast_natCast,
      le_div_iff₀ one_step, roundUnits]
    split
    · rw [Int.le_ediv_iff_mul_le (by decide)]
      have whole : (m : ℤ) * (2 * Single.one) ≤ 2 * k + Single.one ↔
          ((m * (2 * (1 <<< 149 : ℕ)) : ℕ) : ℚ) ≤ 2 * k + (1 <<< 149 : ℕ) := by
        rw [Single.one]
        exact_mod_cast Iff.rfl
      rw [whole]
      push_cast
      constructor <;> intro <;> linarith
    · rename_i negative
      have unit : 0 ≤ Single.one := by decide
      have least : 0 ≤ (2 * -k + Single.one) / (2 * Single.one) :=
        Int.ediv_nonneg (by omega) (by decide)
      have below : (k : ℚ) < 0 := by exact_mod_cast not_le.mp negative
      exact iff_of_false (by omega) (not_le.mpr (below.trans (mul_pos (by linarith) one_step)))
  | false =>
    rw [Single.round, mapUnits_of_not_isFinite _ finite]
    refine ⟨fun reached => by linarith, fun reached => ?_⟩
    by_contra! less
    have bound : (m : ℚ) ≤ 65535 := by exact_mod_cast small
    have finite' := isFinite_of_abs_lt number (abs_lt.mpr ⟨by norm_num; linarith,
      by norm_num; linarith⟩)
    rw [finite] at finite'
    cases finite'

theorem le_ceil {z : ℤ} (small : |z| < 2 ^ 24) (le : z ≤ value x) : z ≤ value (ceil x) := by
  cases finite : x.isFinite with
  | true =>
    rw [(nearest_ceil finite).intCast_le_iff small]
    exact_mod_cast le.trans (Int.le_ceil _)
  | false => rwa [ceil, mapUnits_of_not_isFinite _ finite]

end Rounding

section Word

theorem toNat_le_lastCode (code : UInt16) : code.toNat ≤ 65535 := Nat.le_of_lt_succ code.toNat_lt

theorem toNat_succ {code : UInt16} (more : code.toNat < 65535) :
    (code + 1).toNat = code.toNat + 1 := by
  rw [UInt16.toNat_add]
  exact Nat.mod_eq_of_lt (Nat.succ_lt_succ more)

theorem toNat_max (a b : UInt16) : (max a b).toNat = max a.toNat b.toNat := by
  change (if a ≤ b then b else a).toNat = _
  split <;> rename_i le <;> rw [UInt16.le_iff_toNat_le] at le <;> omega

/-- A number without a fraction, unless it is far beyond all codes. -/
def Integral (p : Float32) : Prop :=
  p.isNaN = false ∧ (|value p| < 2 ^ 24 → ∃ z : ℤ, value p = z)

theorem integral_mapUnits (choose : ℤ → ℤ) (number : x.isNaN = false) :
    Integral (mapUnits choose x) := by
  cases finite : x.isFinite with
  | true =>
    obtain ⟨k, units, -⟩ := units?_of_isFinite finite
    rw [mapUnits, units]
    have nearest := nearest_ofInt (choose k)
    exact ⟨nearest.number, fun small => ⟨choose k, eq_of_nearest_intCast nearest small⟩⟩
  | false =>
    rw [mapUnits_of_not_isFinite _ finite]
    refine ⟨number, fun small => ?_⟩
    rw [isFinite_of_abs_lt number (small.trans (by norm_num))] at finite
    cases finite

variable {p : Float32}

theorem toNat_toCode_of_integral (h : Integral p) (least : 0 ≤ value p)
    (greatest : value p ≤ 65535) : ((Scalar.toCode p).toNat : ℚ) = value p := by
  obtain ⟨z, whole⟩ := h.2 (by
    rw [abs_of_nonneg least]
    linarith)
  exact Encoding.toNat_toCode h.1 whole least greatest

theorem value_lastCode : value (65535.0 : Float32) = 65535 := by decide +kernel

theorem le_toNat_clamp_iff (h : Integral p) (positive : 0 < m) (small : m ≤ 65535) :
    m ≤ (Scalar.toCode (Scalar.clamp 0.0 65535.0 p)).toNat ↔ (m : ℚ) ≤ value p := by
  have one : (1 : ℚ) ≤ m := by exact_mod_cast positive
  have last : (m : ℚ) ≤ 65535 := by exact_mod_cast small
  have full : (65535.0 : Float32).isNaN = false := by decide +kernel
  unfold Scalar.clamp
  split
  · rename_i low
    have low := (lt_iff.mp low).2.2
    rw [value_zero] at low
    have code : (Scalar.toCode (0.0 : Float32)).toNat = 0 := by decide +kernel
    rw [code]
    exact iff_of_false (by omega) (by linarith)
  · rename_i above
    have least := (not_lt_iff h.1 isNaN_zero).mp above
    rw [value_zero] at least
    split
    · rename_i high
      have high := (lt_iff.mp high).2.2
      rw [value_lastCode] at high
      have code : (Scalar.toCode (65535.0 : Float32)).toNat = 65535 := by decide +kernel
      rw [code]
      exact iff_of_true small (by linarith)
    · rename_i below
      have greatest := (not_lt_iff full h.1).mp below
      rw [value_lastCode] at greatest
      rw [← toNat_toCode_of_integral h least greatest, Nat.cast_le]

theorem Integral.toNat_clampCode (h : Integral p) {least greatest : UInt16}
    (range : least ≤ greatest) :
    ((Encoding.clampCode p least greatest).toNat : ℚ) =
      max (least.toNat : ℚ) (min (greatest.toNat : ℚ) (value p)) := by
  refine Encoding.toNat_clampCode h.1 range fun above below => h.2 (abs_lt.mpr ⟨?_, ?_⟩)
  · have first : (0 : ℚ) ≤ least.toNat := Nat.cast_nonneg _
    linarith
  · have last : (greatest.toNat : ℚ) ≤ 65535 := by exact_mod_cast toNat_le_lastCode greatest
    linarith

theorem le_toNat_clampCode_iff (h : Integral p) (positive : 0 < m) (small : m ≤ 65535) :
    m ≤ (Encoding.clampCode p 0 65535).toNat ↔ (m : ℚ) ≤ value p := by
  have one : (1 : ℚ) ≤ m := by exact_mod_cast positive
  have last : (m : ℚ) ≤ 65535 := by exact_mod_cast small
  rw [← Nat.cast_le (α := ℚ), h.toNat_clampCode (by decide), le_max_iff, le_min_iff]
  constructor
  · rintro (none | ⟨-, reached⟩)
    · exact absurd (one.trans none) (by norm_num)
    · exact reached
  · exact fun reached => .inr ⟨last, reached⟩

theorem le_toNat_floor_iff (number : x.isNaN = false) (positive : 0 < m) (small : m ≤ 65535) :
    m ≤ (Encoding.clampCode (Scalar.floor x) 0 65535).toNat ↔ (m : ℚ) ≤ value x := by
  have whole := le_floor_iff (x := x) (z := m) (by rw [Nat.abs_cast]; omega)
  rw [Int.cast_natCast] at whole
  rw [← whole]
  exact le_toNat_clampCode_iff (integral_mapUnits floorUnits number) positive small

theorem toNat_floor_le_toNat_ceil (number : x.isNaN = false) :
    (Encoding.clampCode (Scalar.floor x) 0 65535).toNat ≤
      (Encoding.clampCode (Scalar.ceil x) 0 65535).toNat := by
  generalize reached : (Encoding.clampCode (Scalar.floor x) 0 65535).toNat = m
  have small : m ≤ 65535 := reached ▸ toNat_le_lastCode _
  rcases Nat.eq_zero_or_pos m with rfl | positive
  · exact Nat.zero_le _
  · have least := (le_toNat_floor_iff number positive small).mp reached.ge
    refine (le_toNat_clampCode_iff (integral_mapUnits ceilUnits number) positive small).mpr ?_
    exact le_ceil (z := m) (by rw [Nat.abs_cast]; omega) least

theorem le_toNat_round_iff (number : x.isNaN = false) (positive : 0 < m) (small : m ≤ 65535) :
    m ≤ (Scalar.toCode (Scalar.clamp 0.0 65535.0 (Scalar.round x))).toNat ↔
      (m : ℚ) - 1 / 2 ≤ value x := by
  rw [← le_round_iff number positive small]
  exact le_toNat_clamp_iff (integral_mapUnits roundUnits number) positive small

end Word

end PackGuard
