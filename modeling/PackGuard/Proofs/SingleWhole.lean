import PackGuard.Proofs.SingleRounding

/-!
Whole numbers in binary32: conversion from the integers, rounding to a whole number, and conversion
to a register code. Whole numbers of up to 24 bits are kept, larger ones are rounded.
-/

namespace PackGuard.Single

open Float.Model Float.Model.UnpackedFloat

theorem representable_intCast {z : ℤ} (small : |z| ≤ 2 ^ 24) : Representable z :=
  ⟨z, 0, small, by decide, by decide, by simp⟩

theorem representable_natCast {n : ℕ} (small : n ≤ 2 ^ 24) : Representable n := by
  have := representable_intCast (z := n) (by rw [Nat.abs_cast]; exact_mod_cast small)
  rwa [Int.cast_natCast] at this

theorem representable_zero : Representable 0 := representable_natCast (n := 0) (by norm_num)

section Finite

variable {x : Float32}

theorem representable_value (finite : x.isFinite = true) : Representable (value x) := by
  unfold value
  rcases unpack_of_isFinite finite with ⟨s, hs⟩ | ⟨s, m, e, pos, hs, h⟩ <;> rw [hs]
  · exact ⟨0, 0, by norm_num, by decide, by decide, by simp [unpackedValue]⟩
  · have magnitude : Representable (m * 2 ^ e) := by
      refine ⟨m, e, ?_, h.least, h.greatest, by rw [Int.cast_natCast]⟩
      rw [Nat.abs_cast]
      exact_mod_cast h.lt.le
    exact magnitude.signum_mul s

theorem isFinite_of_abs_lt (number : x.isNaN = false) (bound : |value x| < 2 ^ (128 : ℤ)) :
    x.isFinite = true := by
  have number := isNaN_eq_false_iff.mp number
  change x.toModel.unpack.isFinite = true
  unfold value at bound
  cases unpacked : x.toModel.unpack with
  | notANumber => exact absurd unpacked number
  | infinity s =>
    rw [unpacked, unpackedValue, abs_signum_mul, abs_of_pos (by positivity)] at bound
    exact absurd bound (lt_irrefl _)
  | zero s => rfl
  | finite s m e pos => rfl

theorem isFinite_of_abs_le {y : Float32} (number : x.isNaN = false) (finite : y.isFinite = true)
    (le : |value x| ≤ |value y|) : x.isFinite = true :=
  isFinite_of_abs_lt number ((le.trans (abs_value_le finite)).trans_lt (by norm_num))

theorem isFinite_of_between {least greatest : Float32} (number : x.isNaN = false)
    (finite : least.isFinite = true) (finite' : greatest.isFinite = true)
    (above : value least ≤ value x) (below : value x ≤ value greatest) : x.isFinite = true := by
  rcases le_max_iff.mp (abs_le_max_abs_abs above below) with low | high
  · exact isFinite_of_abs_le number finite low
  · exact isFinite_of_abs_le number finite' high

theorem unpack_neg (x : Float32) : x.neg.toModel.unpack = x.toModel.unpack.neg := by
  have stored := stored_unpack x.toModel
  change (Float32.Model.pack x.toModel.unpack.neg).unpack = x.toModel.unpack.neg
  refine unpack_pack ?_
  cases unpacked : x.toModel.unpack with
  | notANumber | infinity s | zero s => trivial
  | finite s m e pos => rwa [unpacked] at stored

theorem value_neg (x : Float32) : value x.neg = -value x := by
  rw [value, value, unpack_neg]
  cases x.toModel.unpack <;>
    simp only [UnpackedFloat.neg, unpackedValue, signum_neg, neg_mul, neg_zero]

theorem isNaN_neg (number : x.isNaN = false) : x.neg.isNaN = false := by
  rw [isNaN_eq_false_iff] at number ⊢
  rw [unpack_neg]
  cases unpacked : x.toModel.unpack with
  | notANumber => exact absurd unpacked number
  | infinity s | zero s | finite s m e pos => simp [UnpackedFloat.neg]

theorem Nearest.neg {exact : ℚ} (h : Nearest exact x) : Nearest (-exact) x.neg := by
  refine ⟨isNaN_neg h.number, fun y representable => ?_⟩
  have mirrored := h.closest (-y) representable.neg
  rw [value_neg, ← neg_sub', abs_neg]
  rwa [← neg_add', abs_neg, ← sub_neg_eq_add] at mirrored

end Finite

section Conversion

theorem nearest_ofNat (n : ℕ) : Nearest n (Float32.ofNat n) := by
  change Nearest n (Float32.ofScientific n false 0)
  unfold Float32.ofScientific
  split
  · rename_i small
    have whole : n.toUInt64.toNat = n := UInt64.toNat_ofNat_of_lt' (small.1.trans (by decide))
    have converted : Nearest n n.toUInt64.toFloat32 := by
      have rounded := nearest_normalize n.toUInt64.toNat 0 .positive
      rw [whole, zpow_zero, mul_one, Int.cast_natCast] at rounded
      change Nearest n ⟨Float32.Model.pack
        (UnpackedFloat.normalize Format.binary32 n.toUInt64.toNat 0 .positive)⟩
      rwa [whole]
    have exact := converted.eq (representable_natCast (small.1.le.trans (by norm_num)))
    have finite : n.toUInt64.toFloat32.isFinite = true := by
      refine isFinite_of_abs_lt converted.number ?_
      rw [exact, Nat.abs_cast]
      have : (n : ℚ) < 2 ^ 23 := by exact_mod_cast small.1
      exact this.trans (by norm_num)
    have product := nearest_mul finite (b := Float32.exactlyRepresentablePowersOfTen[0])
      (by decide +kernel)
    have one : value Float32.exactlyRepresentablePowersOfTen[0] = 1 := by decide +kernel
    rwa [exact, one, mul_one] at product
  · rename_i large
    have large : 2 ^ 23 ≤ n := by omega
    have shifted : ((n <<< 24 * 10 ^ 0 : ℕ) : ℚ) * 2 ^ (-24 + 0 : ℤ) = n := by
      rw [Nat.shiftLeft_eq, pow_zero, mul_one, add_zero, zpow_neg, Nat.cast_mul, mul_assoc]
      norm_num
    have unfolded : UnpackedFloat.ofScientific Format.binary32 n 0 =
        roundWithAccuracy Format.binary32 .positive (n <<< 24 * 10 ^ 0) (-24 + 0) .exact := by
      have range : ¬(0 : ℤ) < -(2 ^ 8 + n.log2) := by omega
      unfold UnpackedFloat.ofScientific
      rw [dif_neg (by omega), if_neg (by decide), if_neg range, if_pos le_rfl]
      rfl
    have rounded := nearest_roundWithAccuracy .positive (e := -24 + 0)
      (holds_exact (n <<< 24 * 10 ^ 0)) (.inl (by rw [Nat.shiftLeft_eq]; omega))
    rw [shifted, signum, one_mul, ← unfolded] at rounded
    exact rounded

theorem nearest_ofInt (z : ℤ) : Nearest z (Float32.ofInt z) := by
  cases z with
  | ofNat n => exact nearest_ofNat n
  | negSucc n =>
    have := (nearest_ofNat n.succ).neg
    rw [Int.cast_negSucc]
    exact this

theorem value_ofNat {n : ℕ} (small : n ≤ 2 ^ 24) : value (Float32.ofNat n) = n :=
  (nearest_ofNat n).eq (representable_natCast small)

theorem value_ofInt {z : ℤ} (small : |z| ≤ 2 ^ 24) : value (Float32.ofInt z) = z :=
  (nearest_ofInt z).eq (representable_intCast small)

theorem isFinite_ofNat {n : ℕ} (small : n ≤ 2 ^ 24) : (Float32.ofNat n).isFinite = true := by
  refine isFinite_of_abs_lt (nearest_ofNat n).number ?_
  rw [value_ofNat small, Nat.abs_cast]
  exact (by exact_mod_cast small : (n : ℚ) ≤ 2 ^ 24).trans_lt (by norm_num)

theorem isFinite_ofInt {z : ℤ} (small : |z| ≤ 2 ^ 24) : (Float32.ofInt z).isFinite = true := by
  refine isFinite_of_abs_lt (nearest_ofInt z).number ?_
  rw [value_ofInt small]
  exact (by exact_mod_cast small : |(z : ℚ)| ≤ 2 ^ 24).trans_lt (by norm_num)

variable {x : Float32}

theorem units?_of_isFinite (finite : x.isFinite = true) :
    ∃ k : ℤ, units? x = some k ∧ value x = k / (1 <<< 149 : ℕ) := by
  have unit : ((1 <<< 149 : ℕ) : ℚ)⁻¹ = 2 ^ (-149 : ℤ) := by
    rw [Nat.shiftLeft_eq, zpow_neg, one_mul]
    norm_cast
  unfold units? value
  rcases unpack_of_isFinite finite with ⟨s, hs⟩ | ⟨s, m, e, pos, hs, h⟩ <;> rw [hs]
  · exact ⟨0, rfl, by simp [unpackedValue]⟩
  · refine ⟨_, rfl, ?_⟩
    have aligned := shifted_value m h.least
    rw [sub_neg_eq_add] at aligned
    rw [cast_apply, Int.cast_natCast, div_eq_mul_inv, unit, mul_assoc, aligned]
    rfl

theorem nearest_floor (finite : x.isFinite = true) : Nearest (⌊value x⌋ : ℤ) (floor x) := by
  obtain ⟨k, units, same⟩ := units?_of_isFinite finite
  rw [same, Rat.floor_intCast_div_natCast, floor, mapUnits, units]
  exact nearest_ofInt _

theorem nearest_ceil (finite : x.isFinite = true) : Nearest (⌈value x⌉ : ℤ) (ceil x) := by
  obtain ⟨k, units, same⟩ := units?_of_isFinite finite
  rw [same, Rat.ceil_intCast_div_natCast, ceil, mapUnits, units]
  exact nearest_ofInt _

theorem mapUnits_of_not_isFinite (choose : ℤ → ℤ) (infinite : x.isFinite = false) :
    mapUnits choose x = x := by
  change x.toModel.unpack.isFinite = false at infinite
  unfold mapUnits units?
  cases unpacked : x.toModel.unpack with
  | notANumber | infinity s => rfl
  | zero s | finite s m e pos => rw [unpacked] at infinite; cases infinite

theorem isFinite_of_isNaN (number : x.isNaN = true) : x.isFinite = false := by
  change x.toModel.unpack.isNaN = true at number
  change x.toModel.unpack.isFinite = false
  cases unpacked : x.toModel.unpack with
  | notANumber => rfl
  | infinity s | zero s | finite s m e pos => rw [unpacked] at number; cases number

theorem toUInt16_of_isNaN (number : x.isNaN = true) : x.toUInt16 = 0 := by
  change x.toModel.unpack.isNaN = true at number
  change UInt16.ofNatClamp
    (UnpackedFloat.toInt 0 (UInt16.size - 1) x.toModel.unpack).toNat = 0
  cases unpacked : x.toModel.unpack with
  | notANumber => rfl
  | infinity s | zero s | finite s m e pos => rw [unpacked] at number; cases number

theorem roundToInt_of_whole {m n : ℕ} {e : ℤ} (whole : (m * 2 ^ e : ℚ) = n) :
    roundToInt .positive m e = n := by
  generalize left : (e - 0).toNat = k
  generalize right : (0 - (e - k)).toNat = l
  have unfolded : roundToInt .positive m e =
      ((ExtendedMantissa.ofMantissaAndAccuracy (m <<< k) .exact >>> l).mantissa : ℤ) := by
    simp only [roundToInt, decreaseExponent, shiftToExponent, left, right]
    rfl
  have kept := (holds_exact (m <<< k)).shiftRight l
  have same : ((m <<< k : ℕ) : ℚ) / 2 ^ l = n := by
    have parts : (k : ℤ) - l = e := by omega
    rw [← whole, Nat.shiftLeft_eq, ← parts, zpow_sub₀ two_ne_zero, zpow_natCast, zpow_natCast]
    push_cast
    rw [mul_div_assoc]
  rw [unfolded]
  generalize (ExtendedMantissa.ofMantissaAndAccuracy (m <<< k) .exact >>> l) = em at kept
  obtain ⟨least, less⟩ := kept.floor
  rw [same] at least less
  have least : em.mantissa ≤ n := by exact_mod_cast least
  have less : n < em.mantissa + 1 := by exact_mod_cast less
  omega

theorem toNat_toUInt16 {n : ℕ} (finite : x.isFinite = true) (whole : value x = n)
    (fits : n < 2 ^ 16) : x.toUInt16.toNat = n := by
  change (UInt16.ofNatClamp
    (UnpackedFloat.toInt 0 (UInt16.size - 1) x.toModel.unpack).toNat).toNat = n
  suffices truncated : UnpackedFloat.toInt 0 (UInt16.size - 1) x.toModel.unpack = n by
    rw [truncated, Int.toNat_natCast, UInt16.ofNatClamp, dif_pos (show n < UInt16.size from fits)]
    rfl
  unfold value at whole
  rcases unpack_of_isFinite finite with ⟨s, hs⟩ | ⟨s, m, e, pos, hs, h⟩ <;> rw [hs] at whole ⊢
  · rw [unpackedValue] at whole
    have none : n = 0 := by exact_mod_cast whole.symm
    rw [none]
    rfl
  · cases s with
    | negative =>
      have := h.magnitude_pos
      have := Nat.cast_nonneg (α := ℚ) n
      rw [unpackedValue, signum] at whole
      linarith
    | positive =>
      rw [unpackedValue, signum, one_mul] at whole
      exact roundToInt_of_whole whole

end Conversion

section Whole

variable {p x : Float32}

theorem eq_of_nearest_intCast {x : Float32} {z : ℤ} (h : Nearest z x) (small : |value x| < 2 ^ 24) :
    value x = z := by
  have bounds := abs_lt.mp small
  refine h.eq (representable_intCast (abs_le.mpr ⟨?_, ?_⟩))
  · have least : ((-2 ^ 24 : ℤ) : ℚ) < z := h.lt (representable_intCast (by norm_num))
      (by push_cast; linarith)
    exact_mod_cast least.le
  · have greatest : (z : ℚ) < (2 ^ 24 : ℤ) := h.gt (representable_intCast (by norm_num))
      (by push_cast; linarith)
    exact_mod_cast greatest.le

/-- A number without a fraction, as far as the codes of a byte reach. -/
def Whole (p : Float32) : Prop := p.isNaN = false ∧ (|value p| < 256 → ∃ z : ℤ, value p = z)

theorem Whole.of_nearest {z : ℤ} (h : Nearest z p) : Whole p :=
  ⟨h.number, fun small => ⟨z, eq_of_nearest_intCast h (small.trans (by norm_num))⟩⟩

theorem Whole.of_infinite (number : x.isNaN = false) (infinite : x.isFinite = false) : Whole x := by
  refine ⟨number, fun small => ?_⟩
  rw [isFinite_of_abs_lt number (small.trans (by norm_num))] at infinite
  cases infinite

theorem whole_floor (number : x.isNaN = false) : Whole (floor x) := by
  cases finite : x.isFinite with
  | true => exact .of_nearest (nearest_floor finite)
  | false =>
    rw [floor, mapUnits_of_not_isFinite _ finite]
    exact .of_infinite number finite

theorem whole_ceil (number : x.isNaN = false) : Whole (ceil x) := by
  cases finite : x.isFinite with
  | true => exact .of_nearest (nearest_ceil finite)
  | false =>
    rw [ceil, mapUnits_of_not_isFinite _ finite]
    exact .of_infinite number finite

theorem le_floor_iff {z : ℤ} (small : |z| < 2 ^ 24) : z ≤ value (floor x) ↔ z ≤ value x := by
  have bounds := abs_lt.mp small
  cases finite : x.isFinite with
  | true =>
    have part := nearest_floor finite
    refine ⟨fun reached => ?_, fun above => ?_⟩
    · by_contra! less
      have below : ⌊value x⌋ ≤ z - 1 := Int.le_sub_one_of_lt (Int.floor_lt.mpr less)
      have representable := representable_intCast (z := z - 1) (by rw [abs_le]; omega)
      have := part.le representable (by exact_mod_cast below)
      push_cast at this
      linarith
    · exact part.ge (representable_intCast small.le) (by exact_mod_cast Int.le_floor.mpr above)
  | false => rw [floor, mapUnits_of_not_isFinite _ finite]

theorem ceil_le_iff {z : ℤ} (small : |z| < 2 ^ 24) : value (ceil x) ≤ z ↔ value x ≤ z := by
  have bounds := abs_lt.mp small
  cases finite : x.isFinite with
  | true =>
    have part := nearest_ceil finite
    refine ⟨fun reached => ?_, fun below => ?_⟩
    · by_contra! more
      have above : z + 1 ≤ ⌈value x⌉ := Int.add_one_le_of_lt (Int.lt_ceil.mpr more)
      have representable := representable_intCast (z := z + 1) (by rw [abs_le]; omega)
      have := part.ge representable (by exact_mod_cast above)
      push_cast at this
      linarith
    · exact part.le (representable_intCast small.le) (by exact_mod_cast Int.ceil_le.mpr below)
  | false => rw [ceil, mapUnits_of_not_isFinite _ finite]

end Whole

end PackGuard.Single
