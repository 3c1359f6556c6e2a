import Mathlib
import PackGuard.Scalar.Single

/-!
Binary32 numbers as rationals. A finite number is a whole multiple of a power of two, with the
exponent as low as 24 bits allow; an infinity counts as the power of two past the largest number.
Comparison is that of the rationals, except that NaN compares with nothing.
-/

namespace PackGuard.Single

open Float.Model Float.Model.UnpackedFloat

/-- The form in which a finite number is stored. -/
structure Canonical (mantissa : Nat) (exponent : Int) : Prop where
  pos : 0 < mantissa
  lt : mantissa < 2 ^ 24
  least : -149 ≤ exponent
  greatest : exponent ≤ 104
  full : 2 ^ 23 ≤ mantissa ∨ exponent = -149

def signum : Sign → ℚ
  | .positive => 1
  | .negative => -1

def unpackedValue : UnpackedFloat → ℚ
  | .finite sign mantissa exponent _ => signum sign * (mantissa * 2 ^ exponent)
  | .infinity sign => signum sign * 2 ^ (128 : ℤ)
  | .zero _ | .notANumber => 0

/-- The exact value of a number. -/
def value (x : Float32) : ℚ := unpackedValue x.toModel.unpack

def Stored : UnpackedFloat → Prop
  | .finite _ mantissa exponent _ => Canonical mantissa exponent
  | _ => True

theorem stored_unpack (x : Float32.Model) : Stored x.unpack := by
  unfold Float32.Model.unpack UnpackedFloat.unpack
  dsimp only
  have bound : (@unpackMantissa Format.binary32 x.toBits.toBitVec).toNat < 2 ^ 23 := BitVec.isLt _
  have range : (@unpackExponent Format.binary32 x.toBits.toBitVec).toNat < 2 ^ 8 := BitVec.isLt _
  split
  · split <;> trivial
  · rename_i notAll
    have notAll : (@unpackExponent Format.binary32 x.toBits.toBitVec).toNat ≠ 255 :=
      fun same => notAll (BitVec.eq_of_toNat_eq same)
    split
    · rename_i none
      split
      · trivial
      · rename_i some
        have pos : (@unpackMantissa Format.binary32 x.toBits.toBitVec).toNat ≠ 0 :=
          fun same => some (BitVec.eq_of_toNat_eq same)
        rw [none]
        exact ⟨by omega, by omega, by decide, by decide, .inr (by decide)⟩
    · rename_i some
      have some : (@unpackExponent Format.binary32 x.toBits.toBitVec).toNat ≠ 0 :=
        fun same => some (BitVec.eq_of_toNat_eq same)
      have whole : (1#1 ++ @unpackMantissa Format.binary32 x.toBits.toBitVec).toNat =
          2 ^ 23 + (@unpackMantissa Format.binary32 x.toBits.toBitVec).toNat := by
        rw [BitVec.toNat_append]
        exact (Nat.shiftLeft_add_eq_or_of_lt bound 1).symm
      change Canonical _ (((@unpackExponent Format.binary32 x.toBits.toBitVec).toNat : Int) - 150)
      rw [whole]
      exact ⟨by omega, by omega, by omega, by omega, .inl (by omega)⟩

section Magnitude

variable {m n : Nat} {e f : Int}

theorem Canonical.magnitude_pos (h : Canonical m e) : (0 : ℚ) < m * 2 ^ e :=
  mul_pos (by exact_mod_cast h.pos) (zpow_pos two_pos e)

theorem Canonical.magnitude_lt_of_exponent (h : Canonical m e) (k : Canonical n f) (less : e < f) :
    (m * 2 ^ e : ℚ) < n * 2 ^ f := by
  have small : (m : ℚ) < 2 ^ 24 := by exact_mod_cast h.lt
  have large : (2 ^ 23 : ℚ) ≤ n := by
    have least := h.least
    exact_mod_cast k.full.resolve_right (by omega)
  calc (m * 2 ^ e : ℚ) < 2 ^ 24 * 2 ^ e := by gcongr
    _ = 2 ^ 23 * 2 ^ (e + 1) := by rw [zpow_add_one₀ two_ne_zero]; ring
    _ ≤ n * 2 ^ f := by
      gcongr
      · exact one_le_two
      · exact less

theorem Canonical.magnitude_lt (h : Canonical m e) : (m * 2 ^ e : ℚ) < 2 ^ (128 : ℤ) := by
  have small : (m : ℚ) < 2 ^ 24 := by exact_mod_cast h.lt
  calc (m * 2 ^ e : ℚ) < 2 ^ 24 * 2 ^ e := by gcongr
    _ ≤ 2 ^ 24 * 2 ^ (104 : ℤ) := by
      gcongr
      · exact one_le_two
      · exact h.greatest
    _ = 2 ^ (128 : ℤ) := by norm_num

/-- Exponents decide first, since all mantissas but those of the lowest exponent are full. -/
theorem Canonical.compares (h : Canonical m e) (k : Canonical n f) :
    ((compare e f).then (compare m n)).Compares (m * 2 ^ e : ℚ) (n * 2 ^ f) := by
  rcases lt_trichotomy e f with less | rfl | more
  · rw [compare_lt_iff_lt.mpr less]
    exact h.magnitude_lt_of_exponent k less
  · rw [compare_eq_iff_eq.mpr rfl]
    have scale : (0 : ℚ) < 2 ^ e := zpow_pos two_pos e
    rcases lt_trichotomy m n with less | rfl | more
    · rw [compare_lt_iff_lt.mpr less]
      exact mul_lt_mul_of_pos_right (by exact_mod_cast less) scale
    · rw [compare_eq_iff_eq.mpr rfl]
      rfl
    · rw [compare_gt_iff_gt.mpr more]
      exact mul_lt_mul_of_pos_right (by exact_mod_cast more) scale
  · rw [compare_gt_iff_gt.mpr more]
    exact k.magnitude_lt_of_exponent h more

end Magnitude

theorem compares_neg {o : Ordering} {a b : ℚ} (h : o.Compares a b) :
    o.swap.Compares (-1 * a) (-1 * b) := by
  cases o <;> simpa [Ordering.Compares, Ordering.swap] using h

def Ordered (x y : UnpackedFloat) : Prop :=
  ∃ o : Ordering, x.compare y = some o ∧ o.Compares (unpackedValue x) (unpackedValue y)

section Ordered

variable {x y : UnpackedFloat}

theorem Ordered.less (h : x.compare y = some .lt) (k : unpackedValue x < unpackedValue y) :
    Ordered x y := ⟨.lt, h, k⟩

theorem Ordered.more (h : x.compare y = some .gt) (k : unpackedValue y < unpackedValue x) :
    Ordered x y := ⟨.gt, h, k⟩

theorem ordered_infinity (s : Sign) (hy : Stored y) (number : y ≠ .notANumber) :
    Ordered (.infinity s) y := by
  have large : (0 : ℚ) < 2 ^ (128 : ℤ) := zpow_pos two_pos _
  cases y with
  | notANumber => exact absurd rfl number
  | infinity s' =>
    cases s <;> cases s'
    case negative.positive => exact .less rfl (by simp only [unpackedValue, signum]; linarith)
    case positive.negative => exact .more rfl (by simp only [unpackedValue, signum]; linarith)
    all_goals exact ⟨.eq, rfl, rfl⟩
  | zero s' =>
    cases s
    · exact .less rfl (by simp only [unpackedValue, signum]; linarith)
    · exact .more rfl (by simp only [unpackedValue, signum]; linarith)
  | finite s' n f =>
    have pos := hy.magnitude_pos
    have below := hy.magnitude_lt
    cases s
    · exact .less rfl (by cases s' <;> simp only [unpackedValue, signum] <;> linarith)
    · exact .more rfl (by cases s' <;> simp only [unpackedValue, signum] <;> linarith)

theorem ordered_zero (s : Sign) (hy : Stored y) (number : y ≠ .notANumber) :
    Ordered (.zero s) y := by
  have large : (0 : ℚ) < 2 ^ (128 : ℤ) := zpow_pos two_pos _
  cases y with
  | notANumber => exact absurd rfl number
  | infinity s' =>
    cases s'
    · exact .more rfl (by simp only [unpackedValue, signum]; linarith)
    · exact .less rfl (by simp only [unpackedValue, signum]; linarith)
  | zero s' => exact ⟨.eq, rfl, rfl⟩
  | finite s' n f =>
    have pos := hy.magnitude_pos
    cases s'
    · exact .more rfl (by simp only [unpackedValue, signum]; linarith)
    · exact .less rfl (by simp only [unpackedValue, signum]; linarith)

theorem ordered_finite (s : Sign) {m : Nat} {e : Int} {positive : 0 < m} (hx : Canonical m e)
    (hy : Stored y) (number : y ≠ .notANumber) : Ordered (.finite s m e positive) y := by
  have pos := hx.magnitude_pos
  have below := hx.magnitude_lt
  cases y with
  | notANumber => exact absurd rfl number
  | infinity s' =>
    cases s'
    · exact .more rfl (by cases s <;> simp only [unpackedValue, signum] <;> linarith)
    · exact .less rfl (by cases s <;> simp only [unpackedValue, signum] <;> linarith)
  | zero s' =>
    cases s
    · exact .less rfl (by simp only [unpackedValue, signum]; linarith)
    · exact .more rfl (by simp only [unpackedValue, signum]; linarith)
  | finite s' n f =>
    have pos' := hy.magnitude_pos
    cases s <;> cases s'
    case negative.negative => exact ⟨_, rfl, compares_neg (hx.compares hy)⟩
    case positive.positive =>
      refine ⟨_, rfl, ?_⟩
      simpa only [unpackedValue, signum, one_mul] using hx.compares hy
    · exact .less rfl (by simp only [unpackedValue, signum]; linarith)
    · exact .more rfl (by simp only [unpackedValue, signum]; linarith)

theorem ordered_of_stored (hx : Stored x) (hy : Stored y) (number : x ≠ .notANumber)
    (number' : y ≠ .notANumber) : Ordered x y := by
  cases x with
  | notANumber => exact absurd rfl number
  | infinity s => exact ordered_infinity s hy number'
  | zero s => exact ordered_zero s hy number'
  | finite s m e => exact ordered_finite s hx hy number'

end Ordered

theorem isNaN_eq_false_iff {x : Float32} : x.isNaN = false ↔ x.toModel.unpack ≠ .notANumber := by
  change x.toModel.unpack.isNaN = false ↔ _
  cases x.toModel.unpack <;> simp [UnpackedFloat.isNaN]

theorem compare_eq_none {x y : UnpackedFloat} (h : x = .notANumber ∨ y = .notANumber) :
    x.compare y = none := by
  rcases h with rfl | rfl
  · rfl
  · cases x <;> rfl

theorem compare_cases (a b : Float32) :
    (a.isNaN = false ∧ b.isNaN = false ∧ ∃ o : Ordering,
      a.toModel.unpack.compare b.toModel.unpack = some o ∧ o.Compares (value a) (value b)) ∨
    (a.toModel.unpack.compare b.toModel.unpack = none ∧ ¬(a.isNaN = false ∧ b.isNaN = false)) := by
  rw [isNaN_eq_false_iff, isNaN_eq_false_iff]
  by_cases missing : a.toModel.unpack = .notANumber ∨ b.toModel.unpack = .notANumber
  · exact .inr ⟨compare_eq_none missing, fun ⟨number, number'⟩ => missing.elim number number'⟩
  · rw [not_or] at missing
    exact .inl ⟨missing.1, missing.2,
      ordered_of_stored (stored_unpack a.toModel) (stored_unpack b.toModel) missing.1 missing.2⟩

theorem lt_iff {a b : Float32} :
    a < b ↔ a.isNaN = false ∧ b.isNaN = false ∧ value a < value b := by
  change decide (a.toModel.unpack.lt b.toModel.unpack = true) = true ↔ _
  rw [decide_eq_true_iff, UnpackedFloat.lt, beq_iff_eq]
  rcases compare_cases a b with ⟨number, number', o, compared, compares⟩ | ⟨none, missing⟩
  · rw [compared, Option.some.injEq, compares.eq_lt, and_iff_right number, and_iff_right number']
  · rw [none]
    exact iff_of_false (by simp) fun h => missing ⟨h.1, h.2.1⟩

theorem le_iff {a b : Float32} :
    a ≤ b ↔ a.isNaN = false ∧ b.isNaN = false ∧ value a ≤ value b := by
  change decide (a.toModel.unpack.le b.toModel.unpack = true) = true ↔ _
  rw [decide_eq_true_iff, UnpackedFloat.le]
  rcases compare_cases a b with ⟨number, number', o, compared, compares⟩ | ⟨none, missing⟩
  · rw [compared, Option.any_some, Ordering.isLE_iff_ne_gt, compares.eq_gt, not_lt,
      and_iff_right number, and_iff_right number']
  · rw [none]
    exact iff_of_false (by simp) fun h => missing ⟨h.1, h.2.1⟩

theorem beq_iff {a b : Float32} :
    (a == b) = true ↔ a.isNaN = false ∧ b.isNaN = false ∧ value a = value b := by
  change a.toModel.unpack.beq b.toModel.unpack = true ↔ _
  rw [UnpackedFloat.beq, beq_iff_eq]
  rcases compare_cases a b with ⟨number, number', o, compared, compares⟩ | ⟨none, missing⟩
  · rw [compared, Option.some.injEq, compares.eq_eq, and_iff_right number, and_iff_right number']
  · rw [none]
    exact iff_of_false (by simp) fun h => missing ⟨h.1, h.2.1⟩

section Numbers

variable {a b : Float32} (number : a.isNaN = false) (number' : b.isNaN = false)

include number number'

theorem not_lt_iff : ¬a < b ↔ value b ≤ value a := by
  rw [lt_iff, number, number', and_iff_right rfl, and_iff_right rfl, not_lt]

theorem not_le_iff : ¬a ≤ b ↔ b < a := by
  rw [le_iff, lt_iff, number, number', and_iff_right rfl, and_iff_right rfl, not_le,
    and_iff_right rfl, and_iff_right rfl]

end Numbers

theorem isNaN_of_isFinite {x : Float32} (finite : x.isFinite = true) : x.isNaN = false := by
  change x.toModel.unpack.isFinite = true at finite
  change x.toModel.unpack.isNaN = false
  cases h : x.toModel.unpack <;> simp_all [UnpackedFloat.isFinite, UnpackedFloat.isNaN]

theorem isNaN_greatest : greatest.isNaN = false := by decide +kernel

theorem isNaN_least : least.isNaN = false := by decide +kernel

theorem value_greatest : value greatest = (2 ^ 24 - 1) * 2 ^ (104 : ℤ) := by decide +kernel

theorem value_least : value least = -((2 ^ 24 - 1) * 2 ^ (104 : ℤ)) := by decide +kernel

theorem abs_value_le {x : Float32} (finite : x.isFinite = true) :
    |value x| ≤ (2 ^ 24 - 1) * 2 ^ (104 : ℤ) := by
  change x.toModel.unpack.isFinite = true at finite
  have stored := stored_unpack x.toModel
  unfold value
  cases h : x.toModel.unpack with
  | notANumber | infinity => rw [h] at finite; cases finite
  | zero => simp only [unpackedValue, abs_zero]; positivity
  | finite s m e =>
    rw [h] at stored
    have whole : (m : ℚ) ≤ 2 ^ 24 - 1 := by
      have lt := stored.lt
      have : m + 1 ≤ 2 ^ 24 := lt
      have : (m : ℚ) + 1 ≤ 2 ^ 24 := by exact_mod_cast this
      linarith
    have unsigned : |signum s| = 1 := by cases s <;> simp [signum]
    have scale : (0 : ℚ) < 2 ^ e := zpow_pos two_pos e
    rw [unpackedValue, abs_mul, unsigned, one_mul, abs_of_pos stored.magnitude_pos]
    have steps : (2 ^ e : ℚ) ≤ 2 ^ (104 : ℤ) := zpow_le_zpow_right₀ one_le_two stored.greatest
    exact mul_le_mul whole steps scale.le (by norm_num)

end PackGuard.Single
