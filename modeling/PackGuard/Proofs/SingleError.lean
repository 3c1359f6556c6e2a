import PackGuard.Proofs.SingleWhole

/-!
Rounding errors in binary32. A number is known within an error of the result it stands for; the
operations add what rounding may contribute, half a step of the grid that holds the exact result.
-/

namespace PackGuard.Single

open Float.Model Float.Model.UnpackedFloat

variable {a b x : Float32} {exact i j : ℚ} {error error' : ℚ}

theorem Nearest.close (h : Nearest exact x) {e : ℤ} (least : -149 ≤ e) (greatest : e ≤ 104)
    (bound : |exact| ≤ 2 ^ (24 + e)) : |value x - exact| ≤ 2 ^ e / 2 := by
  have step : (0 : ℚ) < 2 ^ e := zpow_pos two_pos e
  obtain ⟨z, rounding⟩ : ∃ z : ℤ, |z - exact / 2 ^ e| ≤ 1 / 2 := by
    refine ⟨⌊exact / 2 ^ e + 1 / 2⌋, abs_le.mpr ⟨?_, ?_⟩⟩
    · linarith [Int.lt_floor_add_one (exact / 2 ^ e + 1 / 2)]
    · linarith [Int.floor_le (exact / 2 ^ e + 1 / 2)]
  have representable : Representable (z * 2 ^ e) := by
    refine ⟨z, e, ?_, least, greatest, rfl⟩
    have scaled : |exact / 2 ^ e| ≤ 2 ^ 24 := by
      rw [abs_div, abs_of_pos step, div_le_iff₀ step]
      rwa [zpow_add₀ two_ne_zero] at bound
    have near : |(z : ℚ)| < 2 ^ 24 + 1 := by
      linarith [abs_sub_abs_le_abs_sub (z : ℚ) (exact / 2 ^ e)]
    exact Int.lt_add_one_iff.mp (by exact_mod_cast near)
  refine (h.closest _ representable).trans ?_
  have scaled : z * 2 ^ e - exact = (z - exact / 2 ^ e) * 2 ^ e := by
    rw [sub_mul, div_mul_cancel₀ _ step.ne']
  rw [scaled, abs_mul, abs_of_pos step]
  linarith [mul_le_mul_of_nonneg_right rounding step.le]

/-- Away from underflow and overflow, the error is half a unit of the last place at most. -/
theorem Nearest.relative (h : Nearest exact x) (normal : 2 ^ (-126 : ℤ) ≤ |exact|)
    (range : |exact| < 2 ^ (128 : ℤ)) : |value x - exact| ≤ |exact| / 2 ^ 24 := by
  have positive : 0 < |exact| := lt_of_lt_of_le (by positivity) normal
  have least := Int.zpow_log_le_self Nat.one_lt_two positive
  have less := Int.lt_zpow_succ_log_self Nat.one_lt_two |exact|
  rw [Nat.cast_ofNat] at least less
  generalize Int.log 2 |exact| = m at least less
  have low : -126 < m + 1 :=
    (zpow_lt_zpow_iff_right₀ (one_lt_two : (1 : ℚ) < 2)).mp (normal.trans_lt less)
  have high : m < 128 :=
    (zpow_lt_zpow_iff_right₀ (one_lt_two : (1 : ℚ) < 2)).mp (lt_of_le_of_lt least range)
  have close := h.close (e := m - 23) (by omega) (by omega)
    (by rw [show 24 + (m - 23) = m + 1 by ring]; exact less.le)
  have scaled : (2 : ℚ) ^ (m - 23) / 2 = 2 ^ m / 2 ^ 24 := by
    rw [zpow_sub₀ two_ne_zero]
    norm_num
    ring
  rw [scaled] at close
  exact close.trans (div_le_div_of_nonneg_right least (by positivity))

theorem Nearest.lt_of_isFinite (h : Nearest exact x) (finite : x.isFinite = true) :
    exact < 2 ^ (128 : ℤ) := by
  by_contra! beyond
  have representable : Representable (2 ^ (128 : ℤ)) :=
    ⟨2 ^ 24, 104, by norm_num, by norm_num, le_rfl, by norm_num⟩
  have reached := h.ge representable beyond
  have bound := (abs_le.mp (abs_value_le finite)).2
  norm_num at reached bound
  linarith

/-- A number stands for an ideal result up to an error. -/
structure Within (x : Float32) (ideal error : ℚ) : Prop where
  finite : x.isFinite = true
  close : |value x - ideal| ≤ error

namespace Within

theorem mono (h : Within x i error) (le : error ≤ error') : Within x i error' :=
  ⟨h.finite, h.close.trans le⟩

theorem of_nearest (h : Nearest exact x) {e : ℤ} (least : -149 ≤ e) (greatest : e ≤ 103)
    (bound : |exact| ≤ 2 ^ (24 + e)) : Within x exact (2 ^ e / 2) := by
  have close := h.close least (by omega) bound
  refine ⟨isFinite_of_abs_lt h.number ?_, close⟩
  have grid : (2 : ℚ) ^ e ≤ 2 ^ (103 : ℤ) := zpow_le_zpow_right₀ one_le_two greatest
  have range : (2 : ℚ) ^ (24 + e) ≤ 2 ^ (127 : ℤ) := zpow_le_zpow_right₀ one_le_two (by omega)
  have triangle := abs_sub_abs_le_abs_sub (value x) exact
  have room : (2 : ℚ) ^ (127 : ℤ) + 2 ^ (103 : ℤ) / 2 < 2 ^ (128 : ℤ) := by norm_num
  linarith

theorem add (h : Within a i error) (k : Within b j error') {e : ℤ} (least : -149 ≤ e)
    (greatest : e ≤ 103) (bound : |i + j| + (error + error') ≤ 2 ^ (24 + e)) :
    Within (a + b) (i + j) (error + error' + 2 ^ e / 2) := by
  have inputs : |value a + value b - (i + j)| ≤ error + error' := by
    rw [add_sub_add_comm]
    exact (abs_add_le _ _).trans (add_le_add h.close k.close)
  have rounded := of_nearest (nearest_add h.finite k.finite) least greatest
    (by linarith [abs_sub_abs_le_abs_sub (value a + value b) (i + j)])
  refine ⟨rounded.finite, ?_⟩
  have triangle := abs_sub_le (value (a + b)) (value a + value b) (i + j)
  linarith [rounded.close]

theorem scale (finite : a.isFinite = true) (k : Within b j error) {e : ℤ}
    (least : -149 ≤ e) (greatest : e ≤ 103)
    (bound : |value a * j| + |value a| * error ≤ 2 ^ (24 + e)) :
    Within (a * b) (value a * j) (|value a| * error + 2 ^ e / 2) := by
  have inputs : |value a * value b - value a * j| ≤ |value a| * error := by
    rw [← mul_sub, abs_mul]
    exact mul_le_mul_of_nonneg_left k.close (abs_nonneg _)
  have rounded := of_nearest (nearest_mul finite k.finite) least greatest
    (by linarith [abs_sub_abs_le_abs_sub (value a * value b) (value a * j)])
  refine ⟨rounded.finite, ?_⟩
  have triangle := abs_sub_le (value (a * b)) (value a * value b) (value a * j)
  linarith [rounded.close]

end Within

section Grid

theorem representable_dyadic {q : ℚ} {z : ℤ} {k : ℕ} (grid : q * 2 ^ k = z) (small : |z| ≤ 2 ^ 24)
    (fine : k ≤ 149) : Representable q := by
  refine ⟨z, -k, small, by omega, by omega, ?_⟩
  rw [zpow_neg, zpow_natCast, ← grid, mul_assoc, mul_inv_cancel₀ (by positivity), mul_one]

theorem exists_representable_le {q : ℚ} (small : |q| ≤ 8) :
    ∃ y, Representable y ∧ y ≤ q ∧ q < y + 1 / 2 ^ 20 := by
  have bounds := abs_le.mp small
  have least := Int.floor_le (q * 2 ^ 20)
  have less := Int.lt_floor_add_one (q * 2 ^ 20)
  have grid : (⌊q * 2 ^ 20⌋ / 2 ^ 20 : ℚ) * 2 ^ 20 = ⌊q * 2 ^ 20⌋ :=
    div_mul_cancel₀ _ (by positivity)
  refine ⟨⌊q * 2 ^ 20⌋ / 2 ^ 20,
    representable_dyadic grid (abs_le.mpr ⟨?_, ?_⟩) (by norm_num), ?_, ?_⟩
  · exact Int.le_floor.mpr (by push_cast; linarith)
  · have : (⌊q * 2 ^ 20⌋ : ℚ) ≤ 2 ^ 24 := by linarith
    exact_mod_cast this
  · rw [div_le_iff₀ (by positivity)]
    exact least
  · rw [← add_div, lt_div_iff₀ (by positivity)]
    exact less

theorem exists_le_representable {q : ℚ} (small : |q| ≤ 8) :
    ∃ y, Representable y ∧ q ≤ y ∧ y < q + 1 / 2 ^ 20 := by
  obtain ⟨y, representable, least, less⟩ := exists_representable_le (q := -q) (by rwa [abs_neg])
  exact ⟨-y, representable.neg, by linarith, by linarith⟩

end Grid

section Overflow

theorem unpack_of_infinite (number : x.isNaN = false) (infinite : x.isFinite = false) :
    ∃ s, x.toModel.unpack = .infinity s := by
  have number := isNaN_eq_false_iff.mp number
  change x.toModel.unpack.isFinite = false at infinite
  cases unpacked : x.toModel.unpack with
  | notANumber => exact absurd unpacked number
  | infinity s => exact ⟨s, rfl⟩
  | zero s | finite s m e pos => rw [unpacked] at infinite; cases infinite

theorem infinite_cases (number : x.isNaN = false) (infinite : x.isFinite = false) :
    value x = 2 ^ (128 : ℤ) ∨ value x = -2 ^ (128 : ℤ) := by
  obtain ⟨s, unpacked⟩ := unpack_of_infinite number infinite
  rw [value, unpacked, unpackedValue]
  cases s with
  | positive => exact .inl (one_mul _)
  | negative => exact .inr (neg_one_mul _)

theorem number_of_unpack_eq (same : a.toModel.unpack = x.toModel.unpack)
    (number : x.isNaN = false) : a.isNaN = false ∧ value a = value x := by
  rw [isNaN_eq_false_iff] at number ⊢
  rw [value, value, same]
  exact ⟨number, rfl⟩

theorem add_of_infinite (number : x.isNaN = false) (infinite : x.isFinite = false)
    (finite : a.isFinite = true) : (x + a).toModel.unpack = x.toModel.unpack := by
  obtain ⟨s, hs⟩ := unpack_of_infinite number infinite
  change (Float32.Model.pack (UnpackedFloat.add Format.binary32 x.toModel.unpack
    a.toModel.unpack)).unpack = _
  rcases unpack_of_isFinite finite with ⟨t, ht⟩ | ⟨t, m, e, pos, ht, -⟩ <;> rw [hs, ht] <;>
    exact unpack_pack_infinity s

theorem sub_of_infinite (number : x.isNaN = false) (infinite : x.isFinite = false)
    (finite : a.isFinite = true) : (x - a).toModel.unpack = x.toModel.unpack := by
  obtain ⟨s, hs⟩ := unpack_of_infinite number infinite
  change (Float32.Model.pack (UnpackedFloat.sub Format.binary32 x.toModel.unpack
    a.toModel.unpack)).unpack = _
  rcases unpack_of_isFinite finite with ⟨t, ht⟩ | ⟨t, m, e, pos, ht, -⟩ <;> rw [hs, ht] <;>
    exact unpack_pack_infinity s

theorem unpack_of_pos (finite : a.isFinite = true) (positive : 0 < value a) :
    ∃ m e pos, a.toModel.unpack = .finite .positive m e pos := by
  rcases unpack_of_isFinite finite with ⟨t, ht⟩ | ⟨t, m, e, pos, ht, h⟩
  · rw [value, ht, unpackedValue_zero] at positive
    exact absurd positive (lt_irrefl _)
  · cases t with
    | positive => exact ⟨m, e, pos, ht⟩
    | negative =>
      have magnitude := h.magnitude_pos
      rw [value, ht, unpackedValue_finite, signum] at positive
      linarith

theorem mul_of_infinite (number : x.isNaN = false) (infinite : x.isFinite = false)
    (finite : a.isFinite = true) (positive : 0 < value a) :
    (x * a).toModel.unpack = x.toModel.unpack := by
  obtain ⟨s, hs⟩ := unpack_of_infinite number infinite
  obtain ⟨m, e, pos, ha⟩ := unpack_of_pos finite positive
  change (Float32.Model.pack (UnpackedFloat.mul Format.binary32 x.toModel.unpack
    a.toModel.unpack)).unpack = _
  rw [hs, ha]
  cases s <;> exact unpack_pack_infinity _

theorem div_of_infinite (number : x.isNaN = false) (infinite : x.isFinite = false)
    (finite : a.isFinite = true) (positive : 0 < value a) :
    (x / a).toModel.unpack = x.toModel.unpack := by
  obtain ⟨s, hs⟩ := unpack_of_infinite number infinite
  obtain ⟨m, e, pos, ha⟩ := unpack_of_pos finite positive
  change (Float32.Model.pack (UnpackedFloat.div Format.binary32 x.toModel.unpack
    a.toModel.unpack)).unpack = _
  rw [hs, ha]
  cases s <;> exact unpack_pack_infinity _

theorem isFinite_sub (finite : a.isFinite = true) (finite' : b.isFinite = true)
    (small : |value b| ≤ 2 ^ (102 : ℤ)) : (a - b).isFinite = true := by
  have difference := nearest_sub finite finite'
  refine isFinite_of_abs_lt difference.number ?_
  have close := difference.closest _ (representable_value finite)
  rw [sub_sub_cancel] at close
  have minuend := abs_value_le finite
  have triangle := abs_sub_abs_le_abs_sub (value (a - b)) (value a - value b)
  have sum := abs_sub (value a) (value b)
  have room : (2 ^ 24 - 1 : ℚ) * 2 ^ (104 : ℤ) + 2 ^ (102 : ℤ) + 2 ^ (102 : ℤ) < 2 ^ (128 : ℤ) := by
    norm_num
  linarith

end Overflow

end PackGuard.Single
