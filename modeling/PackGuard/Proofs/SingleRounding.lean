import PackGuard.Proofs.SingleOrder

/-!
Rounding to binary32. An operation computes a mantissa of 24 bits with what was shifted out of it,
rounds that, and stores it. The result is a number nearest to the exact one, where an infinity
counts as the power of two past the largest number; from that follow all bounds that are needed.
-/

namespace PackGuard.Single

open Float.Model Float.Model.UnpackedFloat

/-- The values of numbers: whole multiples of a power of two with up to 24 bits. -/
def Representable (x : ℚ) : Prop :=
  ∃ z e : ℤ, |z| ≤ 2 ^ 24 ∧ -149 ≤ e ∧ e ≤ 104 ∧ x = z * 2 ^ e

/-- The number is as close to the exact result as any other. -/
structure Nearest (exact : ℚ) (x : Float32) : Prop where
  number : x.isNaN = false
  closest : ∀ y, Representable y → |value x - exact| ≤ |y - exact|

namespace Nearest

variable {exact y : ℚ} {x : Float32}

theorem le (h : Nearest exact x) (representable : Representable y) (below : exact ≤ y) :
    value x ≤ y := by
  have close := h.closest y representable
  rw [abs_of_nonneg (sub_nonneg.mpr below)] at close
  linarith [le_abs_self (value x - exact)]

theorem ge (h : Nearest exact x) (representable : Representable y) (above : y ≤ exact) :
    y ≤ value x := by
  have close := h.closest y representable
  rw [abs_of_nonpos (sub_nonpos.mpr above)] at close
  linarith [neg_abs_le (value x - exact)]

theorem lt (h : Nearest exact x) (representable : Representable y) (below : y < value x) :
    y < exact :=
  lt_of_not_ge fun reversed => (h.le representable reversed).not_gt below

theorem gt (h : Nearest exact x) (representable : Representable y) (above : value x < y) :
    exact < y :=
  lt_of_not_ge fun reversed => (h.ge representable reversed).not_gt above

theorem eq (h : Nearest exact x) (representable : Representable exact) : value x = exact :=
  le_antisymm (h.le representable le_rfl) (h.ge representable le_rfl)

end Nearest

section Packing

theorem unpackSign_packComponents {spec : Format} {s : Sign} {e : BitVec spec.exponentBits}
    {m : BitVec spec.mantissaBitsWithoutImplicit} :
    Sign.ofBitVec (unpackSign (packComponents spec s e m)) = s := by
  have top : unpackSign (packComponents spec s e m) = s.toBitVec := by
    ext i bound
    obtain rfl : i = 0 := by omega
    simp [unpackSign, packComponents, BitVec.getLsbD_append, BitVec.getElem_append]
  rw [top]
  cases s <;> rfl

theorem unpack_pack_zero (s : Sign) : (Float32.Model.pack (.zero s)).unpack = .zero s := by
  cases s <;> rfl

theorem unpack_pack_infinity (s : Sign) :
    (Float32.Model.pack (.infinity s)).unpack = .infinity s := by
  cases s <;> rfl

theorem unpack_packComponents {s : Sign} {e : BitVec 8} {m : BitVec 23} (finite : e ≠ -1#8) :
    UnpackedFloat.unpack Format.binary32 (packComponents Format.binary32 s e m) =
      if e = 0#8 then
        if pos : 0 < m.toNat then .finite s m.toNat (-149) pos else .zero s
      else .finite s (2 ^ 23 + m.toNat) (e.toNat - 150) (by positivity) := by
  have exponent : @unpackExponent Format.binary32 (packComponents Format.binary32 s e m) = e :=
    unpackExponent_packComponents
  have mantissa : @unpackMantissa Format.binary32 (packComponents Format.binary32 s e m) = m :=
    unpackMantissa_packComponents
  have sign :
      Sign.ofBitVec (@unpackSign Format.binary32 (packComponents Format.binary32 s e m)) = s :=
    unpackSign_packComponents
  unfold UnpackedFloat.unpack
  simp only [exponent, mantissa, sign]
  rw [if_neg finite]
  split
  · rename_i none
    subst none
    split
    · rename_i none
      rw [dif_neg (by rw [none]; decide)]
    · rename_i some
      have pos : m.toNat ≠ 0 := fun same => some (BitVec.eq_of_toNat_eq same)
      rw [dif_pos (by omega), UnpackedFloat.finite.injEq]
      exact ⟨rfl, rfl, by decide⟩
  · rw [UnpackedFloat.finite.injEq]
    refine ⟨rfl, ?_, ?_⟩
    · rw [BitVec.toNat_append]
      exact (Nat.shiftLeft_add_eq_or_of_lt m.isLt 1).symm
    · change (e.toNat : ℤ) - (127 + 23) = _
      omega

theorem unpack_normal {s : Sign} {m : Nat} {e : Int} {pos : 0 < m} (h : Canonical m e)
    (full : 2 ^ 23 ≤ m) :
    UnpackedFloat.unpack Format.binary32 (packComponents Format.binary32 s
      (BitVec.ofNat 8 (e + 150).toNat) (BitVec.ofNat 23 m)) = .finite s m e pos := by
  have least := h.least
  have greatest := h.greatest
  have lt := h.lt
  have exponent : (BitVec.ofNat 8 (e + 150).toNat).toNat = (e + 150).toNat :=
    Nat.mod_eq_of_lt (by omega)
  have mantissa : (BitVec.ofNat 23 m).toNat = m - 2 ^ 23 := by
    rw [BitVec.toNat_ofNat, Nat.mod_eq_sub_mod full, Nat.mod_eq_of_lt (by omega)]
  have finite : BitVec.ofNat 8 (e + 150).toNat ≠ -1#8 := by
    intro all
    have := exponent.symm.trans (congrArg BitVec.toNat all)
    change (e + 150).toNat = 255 at this
    omega
  have normal : BitVec.ofNat 8 (e + 150).toNat ≠ 0#8 := by
    intro none
    have := exponent.symm.trans (congrArg BitVec.toNat none)
    change (e + 150).toNat = 0 at this
    omega
  rw [unpack_packComponents finite, if_neg normal, UnpackedFloat.finite.injEq, exponent, mantissa]
  exact ⟨rfl, by omega, by omega⟩

theorem unpack_subnormal {s : Sign} {m : Nat} {pos : 0 < m} (small : m < 2 ^ 23) :
    UnpackedFloat.unpack Format.binary32
      (packComponents Format.binary32 s 0#8 (BitVec.ofNat 23 m)) = .finite s m (-149) pos := by
  have mantissa : (BitVec.ofNat 23 m).toNat = m := Nat.mod_eq_of_lt small
  rw [unpack_packComponents (by decide), if_pos rfl, dif_pos (by rw [mantissa]; exact pos),
    UnpackedFloat.finite.injEq, mantissa]
  exact ⟨rfl, rfl, rfl⟩

theorem biased_eq (e : ℤ) : e + (Format.binary32.exponentBias : ℤ) +
    (Format.binary32.mantissaBitsWithoutImplicit : ℤ) = e + 150 := by
  change e + 127 + 23 = e + 150
  omega

theorem unpack_pack_finite {s : Sign} {m : Nat} {e : Int} {pos : 0 < m} (h : Canonical m e) :
    (Float32.Model.pack (.finite s m e pos)).unpack = .finite s m e pos := by
  have least := h.least
  have greatest := h.greatest
  have fits : ¬2 ^ Format.binary32.exponentBits ≤ (e + 150).toNat + 1 := by
    change ¬256 ≤ (e + 150).toNat + 1
    omega
  have bits : m.log2 + 1 = Format.binary32.mantissaBits ↔ 2 ^ 23 ≤ m := by
    change m.log2 + 1 = 24 ↔ _
    rw [← Nat.le_log2 pos.ne']
    have := (Nat.log2_lt pos.ne').mpr h.lt
    omega
  unfold Float32.Model.unpack Float32.Model.pack
  dsimp only
  simp only [UnpackedFloat.pack, biased_eq e]
  rw [if_neg fits]
  by_cases full : 2 ^ 23 ≤ m
  · rw [if_pos (bits.mpr full)]
    exact unpack_normal h full
  · obtain rfl := h.full.resolve_left full
    rw [if_neg (mt bits.mp full)]
    exact unpack_subnormal (not_le.mp full)

theorem unpack_pack_overflow {s : Sign} {m : Nat} {e : Int} {pos : 0 < m} (large : 105 ≤ e) :
    (Float32.Model.pack (.finite s m e pos)).unpack = .infinity s := by
  have packed : Float32.Model.pack (.finite s m e pos) = Float32.Model.pack (.infinity s) := by
    have beyond : 2 ^ Format.binary32.exponentBits ≤ (e + 150).toNat + 1 := by
      change 256 ≤ (e + 150).toNat + 1
      omega
    unfold Float32.Model.pack
    simp only [UnpackedFloat.pack, biased_eq e, if_pos beyond]
  rw [packed, unpack_pack_infinity]

end Packing

section Closest

theorem abs_sub_le_of_half {n N : ℤ} {y : ℚ} (close : |n - y| ≤ 1 / 2) : |n - y| ≤ |N - y| := by
  by_cases same : N = n
  · rw [same]
  · have apart : (1 : ℚ) ≤ |(N : ℚ) - n| := by exact_mod_cast Int.one_le_abs (sub_ne_zero.mpr same)
    have triangle := abs_sub_abs_le_abs_sub ((N : ℚ) - n) (y - n)
    rw [abs_sub_comm y n, show (N : ℚ) - n - (y - n) = N - y by ring] at triangle
    linarith

theorem Representable.abs_le {x : ℚ} (h : Representable x) : |x| ≤ 2 ^ (128 : ℤ) := by
  obtain ⟨z, e, bound, -, greatest, rfl⟩ := h
  have z_le : |(z : ℚ)| ≤ 2 ^ 24 := by exact_mod_cast bound
  have steps : (2 : ℚ) ^ e ≤ 2 ^ (104 : ℤ) := zpow_le_zpow_right₀ one_le_two greatest
  rw [abs_mul, abs_of_pos (zpow_pos two_pos e : (0 : ℚ) < 2 ^ e)]
  calc |(z : ℚ)| * 2 ^ e ≤ 2 ^ 24 * 2 ^ (104 : ℤ) :=
        mul_le_mul z_le steps (zpow_nonneg zero_le_two e) (by positivity)
    _ = 2 ^ (128 : ℤ) := by norm_num

theorem Representable.signum_mul {x : ℚ} (h : Representable x) (s : Sign) :
    Representable (signum s * x) := by
  obtain ⟨z, e, bound, least, greatest, rfl⟩ := h
  cases s
  · exact ⟨-z, e, by rwa [abs_neg], least, greatest, by simp [signum]⟩
  · exact ⟨z, e, bound, least, greatest, by simp [signum]⟩

theorem Representable.neg {x : ℚ} (h : Representable x) : Representable (-x) := by
  have mirrored := h.signum_mul .negative
  rwa [signum, neg_one_mul] at mirrored

theorem signum_mul_signum (s : Sign) (x : ℚ) : signum s * (signum s * x) = x := by
  cases s <;> simp [signum]

theorem abs_signum_mul (s : Sign) (x : ℚ) : |signum s * x| = |x| := by
  cases s <;> simp [signum]

theorem closest_multiple {n : Nat} {t : ℤ} {y : ℚ} (close : |(n : ℚ) - y| ≤ 1 / 2)
    (full : 2 ^ 23 ≤ y ∨ t = -149) {x : ℚ} (representable : Representable x) :
    |n * 2 ^ t - y * 2 ^ t| ≤ |x - y * 2 ^ t| := by
  have scale : (0 : ℚ) < 2 ^ t := zpow_pos two_pos t
  have multiple : ∀ N : ℤ, |n * 2 ^ t - y * 2 ^ t| ≤ |N * 2 ^ t - y * 2 ^ t| := by
    intro N
    rw [← sub_mul, ← sub_mul, abs_mul, abs_mul]
    have closer : |(n : ℚ) - y| ≤ |N - y| := by
      have := abs_sub_le_of_half (n := (n : ℤ)) (N := N) (by exact_mod_cast close)
      exact_mod_cast this
    exact mul_le_mul_of_nonneg_right closer (abs_nonneg _)
  obtain ⟨z, f, bound, least, greatest, rfl⟩ := representable
  by_cases coarse : t ≤ f
  · -- A multiple of a larger power of two.
    obtain ⟨k, rfl⟩ : ∃ k : ℕ, f = k + t := ⟨(f - t).toNat, by omega⟩
    have := multiple (z * 2 ^ k)
    push_cast at this
    rwa [mul_assoc, ← zpow_natCast, ← zpow_add₀ two_ne_zero] at this
  · -- A finer number is below the first that is full, which is a multiple.
    have least : (2 : ℚ) ^ 23 ≤ y := full.resolve_right (by omega)
    have fine : (z * 2 ^ f : ℚ) ≤ 2 ^ 23 * 2 ^ t := by
      have z_le : (z : ℚ) ≤ 2 ^ 24 := by exact_mod_cast (le_abs_self z).trans bound
      have steps : (2 : ℚ) ^ (f + 1) ≤ 2 ^ t := zpow_le_zpow_right₀ one_le_two (by omega)
      rw [zpow_add_one₀ two_ne_zero] at steps
      calc (z * 2 ^ f : ℚ) ≤ 2 ^ 24 * 2 ^ f :=
            mul_le_mul_of_nonneg_right z_le (zpow_nonneg zero_le_two f)
        _ ≤ 2 ^ 23 * 2 ^ t := by linarith
    have first := multiple (2 ^ 23)
    rw [Int.cast_pow, Int.cast_ofNat] at first
    have below : (2 : ℚ) ^ 23 * 2 ^ t ≤ y * 2 ^ t := mul_le_mul_of_nonneg_right least scale.le
    rw [abs_of_nonpos (sub_nonpos.mpr below)] at first
    rw [abs_of_nonpos (sub_nonpos.mpr (fine.trans below))]
    linarith

theorem closest_infinity {n : Nat} {t : ℤ} {y : ℚ} (close : |(n : ℚ) - y| ≤ 1 / 2)
    (full : 2 ^ 23 ≤ y ∨ t = -149) (bound : n ≤ 2 ^ 24) (beyond : (2 : ℚ) ^ (128 : ℤ) ≤ n * 2 ^ t)
    {x : ℚ} (representable : Representable x) :
    |2 ^ (128 : ℤ) - y * 2 ^ t| ≤ |x - y * 2 ^ t| := by
  by_cases past : (2 : ℚ) ^ (128 : ℤ) ≤ y * 2 ^ t
  · have x_le := (le_abs_self x).trans representable.abs_le
    rw [abs_of_nonpos (by linarith), abs_of_nonpos (by linarith)]
    linarith
  · -- Short of the power of two the mantissa was rounded up to it.
    have exact : (n : ℚ) * 2 ^ t = 2 ^ (128 : ℤ) := by
      have scale : (0 : ℚ) < 2 ^ t := zpow_pos two_pos t
      have n_le : (n : ℚ) ≤ 2 ^ 24 := by exact_mod_cast bound
      have high : (2 : ℚ) ^ (104 : ℤ) ≤ 2 ^ t := by
        have := beyond.trans (mul_le_mul_of_nonneg_right n_le scale.le)
        rw [show (2 : ℚ) ^ (128 : ℤ) = 2 ^ 24 * 2 ^ (104 : ℤ) by norm_num] at this
        exact le_of_mul_le_mul_left this (by positivity)
      have least : 104 ≤ t := (zpow_le_zpow_iff_right₀ one_lt_two).mp high
      have low : (2 : ℚ) ^ t < 2 ^ (105 : ℤ) := by
        have y_ge := mul_le_mul_of_nonneg_right (full.resolve_right (by omega)) scale.le
        have := y_ge.trans_lt (not_le.mp past)
        rw [show (2 : ℚ) ^ (128 : ℤ) = 2 ^ 23 * 2 ^ (105 : ℤ) by norm_num] at this
        exact lt_of_mul_lt_mul_left this (by positivity)
      have greatest : t < 105 := (zpow_lt_zpow_iff_right₀ one_lt_two).mp low
      obtain rfl : t = 104 := by omega
      rw [show (2 : ℚ) ^ (128 : ℤ) = 2 ^ 24 * 2 ^ (104 : ℤ) by norm_num] at beyond ⊢
      rw [le_antisymm n_le (le_of_mul_le_mul_right beyond scale)]
    rw [← exact]
    exact closest_multiple close full representable

end Closest

section Mantissa

/-- The mantissa and its two bits stand for a number, the lower bit for anything in between. -/
def Holds (em : ExtendedMantissa) (y : ℚ) : Prop :=
  if em.stickyBit then
    em.mantissa + (if em.roundBit then 1 / 2 else 0) < y ∧
      y < em.mantissa + (if em.roundBit then 1 / 2 else 0) + 1 / 2
  else y = em.mantissa + if em.roundBit then 1 / 2 else 0

variable {em : ExtendedMantissa} {y : ℚ}

theorem holds_exact (m : Nat) : Holds (.ofMantissaAndAccuracy m .exact) m := by
  simp [Holds, ExtendedMantissa.ofMantissaAndAccuracy]

theorem holds_fraction (m : Nat) {remainder divisor : Nat} (less : remainder < divisor) :
    Holds (.ofMantissaAndAccuracy m (accuracyOfFraction remainder divisor))
      (m + remainder / divisor) := by
  have positive : (0 : ℚ) < divisor := by exact_mod_cast Nat.zero_lt_of_lt less
  have below : (remainder : ℚ) / divisor < 1 := by
    rw [div_lt_one positive]
    exact_mod_cast less
  have double : (2 * remainder : ℚ) / divisor = 2 * (remainder / divisor) := mul_div_assoc _ _ _
  unfold accuracyOfFraction
  split
  · rename_i none
    rw [none, Nat.cast_zero, zero_div, add_zero]
    exact holds_exact m
  · rename_i some
    have above : (0 : ℚ) < remainder / divisor :=
      div_pos (by exact_mod_cast Nat.pos_of_ne_zero some) positive
    rcases lt_trichotomy (2 * remainder) divisor with low | half | high
    · have : (2 * remainder : ℚ) / divisor < 1 := by
        rw [div_lt_one positive]
        exact_mod_cast low
      rw [compare_lt_iff_lt.mpr low]
      simp only [Holds, ExtendedMantissa.ofMantissaAndAccuracy]
      norm_num
      constructor <;> linarith
    · have : (2 * remainder : ℚ) / divisor = 1 := by
        rw [div_eq_one_iff_eq positive.ne']
        exact_mod_cast half
      rw [compare_eq_iff_eq.mpr half]
      simp only [Holds, ExtendedMantissa.ofMantissaAndAccuracy]
      norm_num
      linarith
    · have : 1 < (2 * remainder : ℚ) / divisor := by
        rw [one_lt_div positive]
        exact_mod_cast high
      rw [compare_gt_iff_gt.mpr high]
      simp only [Holds, ExtendedMantissa.ofMantissaAndAccuracy]
      norm_num
      constructor <;> linarith

theorem Holds.shiftRightOne (h : Holds em y) : Holds em.shiftRightOne (y / 2) := by
  obtain ⟨m, r, s⟩ := em
  have parts : (m : ℚ) = 2 * (m / 2 : ℕ) + (m % 2 : ℕ) := by
    exact_mod_cast (Nat.div_add_mod m 2).symm
  rcases Nat.mod_two_eq_zero_or_one m with even | odd
  · rw [even] at parts
    cases r <;> cases s <;> simp_all [Holds, ExtendedMantissa.shiftRightOne] <;>
      (try constructor) <;> linarith
  · rw [odd] at parts
    cases r <;> cases s <;> simp_all [Holds, ExtendedMantissa.shiftRightOne] <;>
      (try constructor) <;> linarith

theorem Holds.shiftRight (h : Holds em y) (k : Nat) : Holds (em >>> k) (y / 2 ^ k) := by
  change Holds (k.repeat ExtendedMantissa.shiftRightOne em) _
  induction k with
  | zero => simpa [Nat.repeat] using h
  | succ k ih =>
    rw [Nat.repeat, pow_succ, ← div_div]
    exact ih.shiftRightOne

theorem Holds.floor (h : Holds em y) : (em.mantissa : ℚ) ≤ y ∧ y < em.mantissa + 1 := by
  obtain ⟨m, r, s⟩ := em
  cases r <;> cases s <;> simp only [Holds] at h ⊢ <;> norm_num at h ⊢ <;> constructor <;> linarith

theorem Holds.rounded (h : Holds em y) : |(em.roundedMantissa : ℚ) - y| ≤ 1 / 2 := by
  obtain ⟨m, r, s⟩ := em
  have parity : ((m % 2 : ℕ) : ℚ) = 0 ∨ ((m % 2 : ℕ) : ℚ) = 1 := by
    exact_mod_cast Nat.mod_two_eq_zero_or_one m
  rw [abs_le]
  cases r <;> cases s <;> simp only [Holds] at h <;>
    simp only [ExtendedMantissa.roundedMantissa, ExtendedMantissa.accuracy,
      Accuracy.roundToNearestEven] <;> norm_num at h ⊢
  · constructor <;> linarith
  · constructor <;> linarith
  · rcases parity with even | odd <;> constructor <;> linarith
  · constructor <;> linarith

end Mantissa

section Rounding

theorem targetExponent_eq (m : Nat) (e : ℤ) :
    Format.binary32.targetExponent (totalExponent m e) = max (m.log2 + e - 23) (-149) := by
  change max ((m.log2 : ℤ) + 1 + e - 24) (-149) = _
  congr 1
  omega

theorem shifted {m : Nat} {e : ℤ} {accuracy : Accuracy} {y : ℚ}
    (h : Holds (.ofMantissaAndAccuracy m accuracy) y) (room : 2 ^ 23 ≤ m ∨ e ≤ -149) :
    ∃ Y t, (shiftToTargetExponent Format.binary32 m e accuracy).2 = t ∧
      Holds (shiftToTargetExponent Format.binary32 m e accuracy).1 Y ∧ Y * 2 ^ t = y * 2 ^ e ∧
      Y < 2 ^ 24 ∧ -149 ≤ t ∧ (2 ^ 23 ≤ Y ∨ t = -149) := by
  have log_le : 2 ^ 23 ≤ m → 23 ≤ m.log2 := fun full => by
    rw [Nat.le_log2 (by omega)]
    exact full
  generalize shift : (max ((m.log2 : ℤ) + e - 23) (-149) - e).toNat = k
  have result : shiftToTargetExponent Format.binary32 m e accuracy =
      (ExtendedMantissa.ofMantissaAndAccuracy m accuracy >>> k, e + k) := by
    simp only [shiftToTargetExponent, targetExponent_eq, shiftToExponent, shift]
  have exponent : e + k = max ((m.log2 : ℤ) + e - 23) (-149) := by
    have : 2 ^ 23 ≤ m ∨ e ≤ -149 := room
    omega
  have mantissa : (ExtendedMantissa.ofMantissaAndAccuracy m accuracy).mantissa = m := by
    rcases accuracy with _ | _ | _ | _ <;> rfl
  obtain ⟨least, less⟩ := h.floor
  rw [mantissa] at least less
  rw [result]
  refine ⟨y / 2 ^ k, e + k, rfl, h.shiftRight k, ?_, ?_, by omega, ?_⟩
  · rw [zpow_add₀ two_ne_zero, zpow_natCast, mul_comm ((2 : ℚ) ^ e), ← mul_assoc,
      div_mul_cancel₀ _ (by positivity)]
  · rw [div_lt_iff₀ (by positivity)]
    have bound : m + 1 ≤ 2 ^ (24 + k) := by
      calc m + 1 ≤ 2 ^ (m.log2 + 1) := Nat.lt_log2_self
        _ ≤ 2 ^ (24 + k) := Nat.pow_le_pow_right (by omega) (by omega)
    rw [← pow_add]
    exact less.trans_le (by exact_mod_cast bound)
  · by_cases lowest : e + k = -149
    · exact .inr lowest
    · left
      have some : m ≠ 0 := by
        rintro rfl
        rw [Nat.log2_zero, Nat.cast_zero] at exponent shift
        omega
      have bound : 2 ^ (23 + k) ≤ m := by
        rw [← Nat.le_log2 some]
        omega
      rw [le_div_iff₀ (by positivity), ← pow_add]
      exact le_trans (by exact_mod_cast bound) least

theorem shiftToTargetExponent_of_lt {n : Nat} {t : ℤ} (bound : n < 2 ^ 24) (least : -149 ≤ t) :
    shiftToTargetExponent Format.binary32 n t .exact = (⟨n, false, false⟩, t) := by
  have log_lt : n.log2 < 24 := by
    by_cases none : n = 0
    · rw [none]
      decide
    · exact (Nat.log2_lt none).mpr bound
  have still : (max ((n.log2 : ℤ) + t - 23) (-149) - t).toNat = 0 := by omega
  simp only [shiftToTargetExponent, targetExponent_eq, shiftToExponent, still]
  rw [Nat.cast_zero, add_zero]
  rfl

theorem shiftToTargetExponent_carry {t : ℤ} (least : -149 ≤ t) :
    shiftToTargetExponent Format.binary32 (2 ^ 24) t .exact = (⟨2 ^ 23, false, false⟩, t + 1) := by
  have once : (max (((2 ^ 24).log2 : ℤ) + t - 23) (-149) - t).toNat = 1 := by
    rw [Nat.log2_two_pow]
    omega
  simp only [shiftToTargetExponent, targetExponent_eq, shiftToExponent, once]
  rfl

def stored (s : Sign) (n : Nat) (t : ℤ) : UnpackedFloat :=
  let shifted := shiftToTargetExponent Format.binary32 n t .exact
  if h : shifted.1.mantissa = 0 then .zero s
  else .finite s shifted.1.mantissa shifted.2 (Nat.pos_of_ne_zero h)

theorem roundWithAccuracy_eq (s : Sign) (m : Nat) (e : ℤ) (accuracy : Accuracy) :
    roundWithAccuracy Format.binary32 s m e accuracy =
      stored s (shiftToTargetExponent Format.binary32 m e accuracy).1.roundedMantissa
        (shiftToTargetExponent Format.binary32 m e accuracy).2 :=
  rfl

theorem unpack_stored {s : Sign} {n : Nat} {t : ℤ} (bound : n ≤ 2 ^ 24) (least : -149 ≤ t)
    (full : 2 ^ 23 ≤ n ∨ t = -149) :
    (Float32.Model.pack (stored s n t)).unpack ≠ .notANumber ∧
      (unpackedValue (Float32.Model.pack (stored s n t)).unpack = signum s * (n * 2 ^ t) ∨
        (2 : ℚ) ^ (128 : ℤ) ≤ n * 2 ^ t ∧
          unpackedValue (Float32.Model.pack (stored s n t)).unpack =
            signum s * 2 ^ (128 : ℤ)) := by
  rcases bound.lt_or_eq with less | rfl
  · have kept := shiftToTargetExponent_of_lt less least
    by_cases none : n = 0
    · have zero : stored s n t = .zero s := by
        simp only [stored, kept]
        rw [dif_pos none]
      rw [zero, unpack_pack_zero, none]
      exact ⟨by simp, .inl (by simp [unpackedValue])⟩
    · have finite : stored s n t = .finite s n t (Nat.pos_of_ne_zero none) := by
        simp only [stored, kept]
        rw [dif_neg none]
      by_cases large : 105 ≤ t
      · rw [finite, unpack_pack_overflow large]
        refine ⟨by simp, .inr ⟨?_, rfl⟩⟩
        have n_ge : (2 : ℚ) ^ 23 ≤ n := by exact_mod_cast full.resolve_right (by omega)
        have steps : (2 : ℚ) ^ (105 : ℤ) ≤ 2 ^ t := zpow_le_zpow_right₀ one_le_two large
        calc (2 : ℚ) ^ (128 : ℤ) = 2 ^ 23 * 2 ^ (105 : ℤ) := by norm_num
          _ ≤ n * 2 ^ t := mul_le_mul n_ge steps (by positivity) (by positivity)
      · rw [finite, unpack_pack_finite ⟨Nat.pos_of_ne_zero none, less, least, by omega, full⟩]
        exact ⟨by simp, .inl rfl⟩
  · have carried := shiftToTargetExponent_carry least
    have finite : stored s (2 ^ 24) t = .finite s (2 ^ 23) (t + 1) (by positivity) := by
      simp only [stored, carried]
      rw [dif_neg (by positivity)]
    have value : ((2 ^ 24 : ℕ) : ℚ) * 2 ^ t = (2 ^ 23 : ℕ) * 2 ^ (t + 1) := by
      rw [zpow_add_one₀ two_ne_zero]
      push_cast
      ring
    by_cases large : 105 ≤ t + 1
    · rw [finite, unpack_pack_overflow large]
      refine ⟨by simp, .inr ⟨?_, rfl⟩⟩
      have steps : (2 : ℚ) ^ (105 : ℤ) ≤ 2 ^ (t + 1) := zpow_le_zpow_right₀ one_le_two large
      rw [value]
      calc (2 : ℚ) ^ (128 : ℤ) = (2 ^ 23 : ℕ) * 2 ^ (105 : ℤ) := by norm_num
        _ ≤ (2 ^ 23 : ℕ) * 2 ^ (t + 1) := mul_le_mul_of_nonneg_left steps (by positivity)
    · rw [finite, unpack_pack_finite ⟨by positivity, by norm_num, by omega, by omega, .inl le_rfl⟩,
        value]
      exact ⟨by simp, .inl rfl⟩

theorem nearest_roundWithAccuracy (s : Sign) {m : Nat} {e : ℤ} {accuracy : Accuracy} {y : ℚ}
    (h : Holds (.ofMantissaAndAccuracy m accuracy) y) (room : 2 ^ 23 ≤ m ∨ e ≤ -149) :
    Nearest (signum s * (y * 2 ^ e))
      ⟨Float32.Model.pack (roundWithAccuracy Format.binary32 s m e accuracy)⟩ := by
  obtain ⟨Y, t, exponent, holds, same, less, least, full⟩ := shifted h room
  rw [roundWithAccuracy_eq, exponent, ← same]
  have close := holds.rounded
  generalize (shiftToTargetExponent Format.binary32 m e accuracy).1.roundedMantissa = n at close ⊢
  have half := abs_le.mp close
  have bound : n ≤ 2 ^ 24 := by
    have : (n : ℚ) < 2 ^ 24 + 1 := by linarith
    exact Nat.lt_succ_iff.mp (by exact_mod_cast this)
  have filled : 2 ^ 23 ≤ n ∨ t = -149 := by
    refine full.imp_left fun large => ?_
    have : (2 ^ 23 : ℚ) < n + 1 := by linarith
    exact Nat.lt_succ_iff.mp (by exact_mod_cast this)
  obtain ⟨number, value_eq⟩ := unpack_stored (s := s) bound least filled
  refine ⟨isNaN_eq_false_iff.mpr number, fun x representable => ?_⟩
  have mirrored := representable.signum_mul s
  have distance : |x - signum s * (Y * 2 ^ t)| = |signum s * x - Y * 2 ^ t| := by
    rw [← abs_signum_mul s (x - _), mul_sub, signum_mul_signum]
  rw [distance]
  rcases value_eq with kept | ⟨beyond, infinite⟩
  · rw [value, kept, ← mul_sub, abs_signum_mul]
    exact closest_multiple close full mirrored
  · rw [value, infinite, ← mul_sub, abs_signum_mul]
    exact closest_infinity close full bound beyond mirrored

theorem nearest_round (s : Sign) {m : Nat} {e : ℤ} (pos : 0 < m) :
    Nearest (signum s * (m * 2 ^ e))
      ⟨Float32.Model.pack (UnpackedFloat.round Format.binary32 s m e)⟩ := by
  generalize shift : (e - (max ((m.log2 : ℤ) + e - 23) (-149))).toNat = k
  have unfolded : UnpackedFloat.round Format.binary32 s m e =
      roundWithAccuracy Format.binary32 s (m <<< k) (e - k) .exact := by
    simp only [UnpackedFloat.round, decreaseExponent, targetExponent_eq, shift]
  have same : ((m <<< k : ℕ) : ℚ) * 2 ^ (e - k) = m * 2 ^ e := by
    rw [Nat.shiftLeft_eq, zpow_sub₀ two_ne_zero, zpow_natCast]
    push_cast
    rw [mul_assoc, mul_div_cancel₀]
    positivity
  have room : 2 ^ 23 ≤ m <<< k ∨ e - k ≤ -149 := by
    by_cases low : e - k ≤ -149
    · exact .inr low
    · left
      rw [Nat.shiftLeft_eq]
      calc 2 ^ 23 ≤ 2 ^ (m.log2 + k) := Nat.pow_le_pow_right two_pos (by omega)
        _ = 2 ^ m.log2 * 2 ^ k := pow_add ..
        _ ≤ m * 2 ^ k := Nat.mul_le_mul_right _ (Nat.log2_self_le pos.ne')
  rw [unfolded, ← same]
  exact nearest_roundWithAccuracy s (holds_exact _) room

theorem nearest_zero (s : Sign) : Nearest 0 ⟨Float32.Model.pack (.zero s)⟩ := by
  have kept := unpack_pack_zero s
  refine ⟨isNaN_eq_false_iff.mpr (by rw [kept]; simp), fun x _ => ?_⟩
  rw [value, kept, unpackedValue, sub_zero, abs_zero]
  exact abs_nonneg _

theorem nearest_normalize (z e : ℤ) (s : Sign) :
    Nearest (z * 2 ^ e) ⟨Float32.Model.pack (UnpackedFloat.normalize Format.binary32 z e s)⟩ := by
  unfold UnpackedFloat.normalize
  rcases lt_trichotomy z 0 with negative | rfl | positive
  · have magnitude : (z * 2 ^ e : ℚ) = signum .negative * ((-z).toNat * 2 ^ e) := by
      have : ((-z).toNat : ℚ) = -z := by exact_mod_cast Int.toNat_of_nonneg (by omega : 0 ≤ -z)
      rw [this, signum]
      ring
    rw [compare_lt_iff_lt.mpr negative, magnitude]
    exact nearest_round .negative (by omega)
  · rw [compare_eq_iff_eq.mpr rfl, Int.cast_zero, zero_mul]
    exact nearest_zero s
  · have magnitude : (z * 2 ^ e : ℚ) = signum .positive * (z.toNat * 2 ^ e) := by
      have : (z.toNat : ℚ) = z := by exact_mod_cast Int.toNat_of_nonneg positive.le
      rw [this, signum, one_mul]
    rw [compare_gt_iff_gt.mpr positive, magnitude]
    exact nearest_round .positive (by omega)

end Rounding

section Operations

theorem unpack_pack {x : UnpackedFloat} (h : Stored x) : (Float32.Model.pack x).unpack = x := by
  cases x with
  | notANumber => rfl
  | infinity s => exact unpack_pack_infinity s
  | zero s => exact unpack_pack_zero s
  | finite s m e pos => exact unpack_pack_finite h

theorem nearest_pack {x : UnpackedFloat} (h : Stored x) (number : x ≠ .notANumber) :
    Nearest (unpackedValue x) ⟨Float32.Model.pack x⟩ := by
  have kept := unpack_pack h
  refine ⟨isNaN_eq_false_iff.mpr (by rw [kept]; exact number), fun y _ => ?_⟩
  rw [value, kept, sub_self, abs_zero]
  exact abs_nonneg _

theorem unpack_of_isFinite {x : Float32} (finite : x.isFinite = true) :
    (∃ s, x.toModel.unpack = .zero s) ∨
      ∃ s m e pos, x.toModel.unpack = .finite s m e pos ∧ Canonical m e := by
  change x.toModel.unpack.isFinite = true at finite
  have stored := stored_unpack x.toModel
  cases unpacked : x.toModel.unpack with
  | notANumber | infinity => rw [unpacked] at finite; cases finite
  | zero s => exact .inl ⟨s, rfl⟩
  | finite s m e pos =>
    rw [unpacked] at stored
    exact .inr ⟨s, m, e, pos, rfl, stored⟩

theorem cast_apply (s : Sign) (z : ℤ) : ((s.apply z : ℤ) : ℚ) = signum s * z := by
  cases s <;> simp [Sign.apply, signum]

theorem shifted_value (m : Nat) {e least : ℤ} (above : least ≤ e) :
    ((m <<< (e - least).toNat : ℕ) : ℚ) * 2 ^ least = m * 2 ^ e := by
  obtain ⟨k, rfl⟩ : ∃ k : ℕ, e = least + k := ⟨(e - least).toNat, by omega⟩
  rw [add_sub_cancel_left, Int.toNat_natCast, Nat.shiftLeft_eq, zpow_add₀ two_ne_zero,
    zpow_natCast]
  push_cast
  ring

theorem unpackedValue_zero (s : Sign) : unpackedValue (.zero s) = 0 := rfl

theorem unpackedValue_finite (s : Sign) (m : Nat) (e : ℤ) (pos : 0 < m) :
    unpackedValue (.finite s m e pos) = signum s * (m * 2 ^ e) := rfl

theorem signum_neg (s : Sign) : signum (-s) = -signum s := by
  cases s <;> norm_num [signum, show -Sign.negative = .positive from rfl,
    show -Sign.positive = .negative from rfl]

theorem signum_mul_eq (s s' : Sign) : signum (s * s') = signum s * signum s' := by
  cases s <;> cases s'
  · exact (neg_mul_neg (1 : ℚ) 1 ▸ (mul_one 1).symm)
  · exact (mul_one (-1 : ℚ)).symm
  · exact (one_mul (-1 : ℚ)).symm
  · exact (mul_one (1 : ℚ)).symm

theorem signum_div_eq (s s' : Sign) : signum (s / s') = signum s / signum s' := by
  cases s <;> cases s'
  · exact (div_self (neg_ne_zero.mpr one_ne_zero : (-1 : ℚ) ≠ 0)).symm
  · exact (div_one (-1 : ℚ)).symm
  · exact (one_div_neg_one_eq_neg_one (R := ℚ)).symm
  · exact (div_one (1 : ℚ)).symm

variable {a b : Float32}

theorem nearest_add (finite : a.isFinite = true) (finite' : b.isFinite = true) :
    Nearest (value a + value b) (a + b) := by
  change Nearest _ ⟨Float32.Model.pack (UnpackedFloat.add Format.binary32 a.toModel.unpack
    b.toModel.unpack)⟩
  have storedA := stored_unpack a.toModel
  have storedB := stored_unpack b.toModel
  unfold value
  rcases unpack_of_isFinite finite with ⟨s, hs⟩ | ⟨s, m, e, pos, hs, -⟩ <;>
    rcases unpack_of_isFinite finite' with ⟨s', hs'⟩ | ⟨s', n, f, pos', hs', -⟩ <;>
    rw [hs] at storedA <;> rw [hs'] at storedB <;> rw [hs, hs']
  · simp only [UnpackedFloat.add, unpackedValue_zero, add_zero]
    split <;> exact nearest_zero _
  · rw [unpackedValue_zero, zero_add]
    exact nearest_pack storedB (by simp)
  · rw [unpackedValue_zero, add_zero]
    exact nearest_pack storedA (by simp)
  · have sum : unpackedValue (.finite s m e pos) + unpackedValue (.finite s' n f pos') =
        ((s.apply (m <<< (e - min e f).toNat : ℕ) + s'.apply (n <<< (f - min e f).toNat : ℕ) : ℤ)
          : ℚ) * 2 ^ min e f := by
      rw [Int.cast_add, cast_apply, cast_apply, Int.cast_natCast, Int.cast_natCast, add_mul,
        mul_assoc, mul_assoc, shifted_value m (min_le_left e f),
        shifted_value n (min_le_right e f)]
      rfl
    rw [sum]
    exact nearest_normalize _ _ _

theorem nearest_sub (finite : a.isFinite = true) (finite' : b.isFinite = true) :
    Nearest (value a - value b) (a - b) := by
  change Nearest _ ⟨Float32.Model.pack (UnpackedFloat.sub Format.binary32 a.toModel.unpack
    b.toModel.unpack)⟩
  have storedA := stored_unpack a.toModel
  have storedB := stored_unpack b.toModel
  unfold value
  rcases unpack_of_isFinite finite with ⟨s, hs⟩ | ⟨s, m, e, pos, hs, -⟩ <;>
    rcases unpack_of_isFinite finite' with ⟨s', hs'⟩ | ⟨s', n, f, pos', hs', -⟩ <;>
    rw [hs] at storedA <;> rw [hs'] at storedB <;> rw [hs, hs']
  · simp only [UnpackedFloat.sub, unpackedValue_zero, sub_zero]
    split <;> exact nearest_zero _
  · have negated : unpackedValue (.zero s) - unpackedValue (.finite s' n f pos') =
        unpackedValue (.finite (-s') n f pos') := by
      rw [unpackedValue_zero, unpackedValue_finite, unpackedValue_finite, signum_neg]
      ring
    rw [negated]
    exact nearest_pack storedB (by simp)
  · rw [unpackedValue_zero, sub_zero]
    exact nearest_pack storedA (by simp)
  · have difference : unpackedValue (.finite s m e pos) - unpackedValue (.finite s' n f pos') =
        ((s.apply (m <<< (e - min e f).toNat : ℕ) - s'.apply (n <<< (f - min e f).toNat : ℕ) : ℤ)
          : ℚ) * 2 ^ min e f := by
      rw [Int.cast_sub, cast_apply, cast_apply, Int.cast_natCast, Int.cast_natCast, sub_mul,
        mul_assoc, mul_assoc, shifted_value m (min_le_left e f),
        shifted_value n (min_le_right e f)]
      rfl
    rw [difference]
    exact nearest_normalize _ _ _

theorem nearest_mul (finite : a.isFinite = true) (finite' : b.isFinite = true) :
    Nearest (value a * value b) (a * b) := by
  change Nearest _ ⟨Float32.Model.pack (UnpackedFloat.mul Format.binary32 a.toModel.unpack
    b.toModel.unpack)⟩
  unfold value
  rcases unpack_of_isFinite finite with ⟨s, hs⟩ | ⟨s, m, e, pos, hs, h⟩ <;>
    rcases unpack_of_isFinite finite' with ⟨s', hs'⟩ | ⟨s', n, f, pos', hs', k⟩ <;>
    rw [hs, hs']
  · rw [unpackedValue_zero, zero_mul]
    exact nearest_zero _
  · rw [unpackedValue_zero, zero_mul]
    exact nearest_zero _
  · rw [unpackedValue_zero, mul_zero]
    exact nearest_zero _
  · have product : unpackedValue (.finite s m e pos) * unpackedValue (.finite s' n f pos') =
        signum (s * s') * ((m * n : ℕ) * 2 ^ (e + f)) := by
      rw [unpackedValue_finite, unpackedValue_finite, signum_mul_eq, zpow_add₀ two_ne_zero]
      push_cast
      ring
    have room : 2 ^ 23 ≤ m * n ∨ e + f ≤ -149 := by
      rcases h.full with large | least
      · exact .inl (large.trans (Nat.le_mul_of_pos_right m pos'))
      · rcases k.full with large | least'
        · exact .inl (large.trans (Nat.le_mul_of_pos_left n pos))
        · exact .inr (by omega)
    rw [product]
    exact nearest_roundWithAccuracy _ (holds_exact _) room

theorem nearest_divCore (s : Sign) {m n : Nat} {e f : ℤ} (pos : 0 < m) (pos' : 0 < n) :
    Nearest (signum s * (m * 2 ^ e / (n * 2 ^ f))) ⟨Float32.Model.pack
      (roundWithAccuracy Format.binary32 s (divCore Format.binary32 m e n f).1
        (divCore Format.binary32 m e n f).2.1 (divCore Format.binary32 m e n f).2.2)⟩ := by
  have target_le : Format.binary32.targetExponent (totalExponent m e - totalExponent n f) =
      max ((m.log2 : ℤ) + e - (n.log2 + f) - 24) (-149) := by
    change max ((m.log2 : ℤ) + 1 + e - ((n.log2 : ℤ) + 1 + f) - 24) (-149) = _
    congr 1
    omega
  simp only [divCore, target_le]
  generalize aim : min (e - f) (max ((m.log2 : ℤ) + e - (n.log2 + f) - 24) (-149)) = t
  generalize shift : (e - f - t).toNat = k
  have exponent : e - f = t + k := by omega
  have quotient : (m * 2 ^ e / (n * 2 ^ f) : ℚ) =
      ((m <<< k / n : ℕ) + ((m <<< k % n : ℕ) : ℚ) / n) * 2 ^ t := by
    have division : ((m <<< k / n : ℕ) + ((m <<< k % n : ℕ) : ℚ) / n) = (m <<< k : ℕ) / n := by
      rw [eq_div_iff (by positivity), add_mul, div_mul_cancel₀ _ (by positivity)]
      exact_mod_cast Nat.div_add_mod' (m <<< k) n
    rw [division, Nat.shiftLeft_eq, mul_div_mul_comm, ← zpow_sub₀ two_ne_zero, exponent,
      zpow_add₀ two_ne_zero, zpow_natCast]
    push_cast
    ring
  have room : 2 ^ 23 ≤ m <<< k / n ∨ t ≤ -149 := by
    by_cases low : t ≤ -149
    · exact .inr low
    · left
      rw [Nat.le_div_iff_mul_le pos', Nat.shiftLeft_eq]
      calc 2 ^ 23 * n ≤ 2 ^ 23 * 2 ^ (n.log2 + 1) :=
            Nat.mul_le_mul_left _ Nat.lt_log2_self.le
        _ = 2 ^ (23 + (n.log2 + 1)) := (pow_add ..).symm
        _ ≤ 2 ^ (m.log2 + k) := Nat.pow_le_pow_right two_pos (by omega)
        _ = 2 ^ m.log2 * 2 ^ k := pow_add ..
        _ ≤ m * 2 ^ k := Nat.mul_le_mul_right _ (Nat.log2_self_le pos.ne')
  rw [quotient]
  exact nearest_roundWithAccuracy s (holds_fraction _ (Nat.mod_lt _ pos')) room

theorem nearest_div (finite : a.isFinite = true) (finite' : b.isFinite = true)
    (nonzero : value b ≠ 0) : Nearest (value a / value b) (a / b) := by
  change Nearest _ ⟨Float32.Model.pack (UnpackedFloat.div Format.binary32 a.toModel.unpack
    b.toModel.unpack)⟩
  unfold value at nonzero ⊢
  rcases unpack_of_isFinite finite' with ⟨s', hs'⟩ | ⟨s', n, f, pos', hs', -⟩
  · rw [hs', unpackedValue_zero] at nonzero
    exact absurd rfl nonzero
  rcases unpack_of_isFinite finite with ⟨s, hs⟩ | ⟨s, m, e, pos, hs, -⟩ <;> rw [hs, hs']
  · rw [unpackedValue_zero, zero_div]
    exact nearest_zero _
  · have quotient : unpackedValue (.finite s m e pos) / unpackedValue (.finite s' n f pos') =
        signum (s / s') * (m * 2 ^ e / (n * 2 ^ f)) := by
      rw [unpackedValue_finite, unpackedValue_finite, signum_div_eq, mul_div_mul_comm]
    rw [quotient]
    exact nearest_divCore _ pos pos'

end Operations

end PackGuard.Single
