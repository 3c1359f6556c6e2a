import PackGuard.Proofs.SingleError

/-!
Order in binary32. Rounding keeps the order of exact results. Equal results need an argument of
their own, since of two numbers that are equally close either may be taken: an operation sees only
what a number stands for, apart from the sign of zero. So each operation is monotone in each of its
arguments. One that leaves infinities alone keeps the order of all numbers, and such operations can
be composed.
-/

namespace PackGuard.Single

open Float.Model Float.Model.UnpackedFloat

variable {a b c x y : Float32} {exact exact' : ℚ}

theorem representable_value_of_number (number : x.isNaN = false) : Representable (value x) := by
  cases finite : x.isFinite with
  | true => exact representable_value finite
  | false =>
    obtain ⟨s, infinite⟩ := unpack_of_infinite number finite
    have largest : Representable (2 ^ (128 : ℤ)) :=
      ⟨2 ^ 24, 104, by norm_num, by norm_num, le_rfl, by norm_num⟩
    rw [value, infinite, unpackedValue]
    exact largest.signum_mul s

theorem Nearest.mono (h : Nearest exact a) (k : Nearest exact' b) (less : exact < exact') :
    value a ≤ value b := by
  by_contra! reversed
  have first := sq_le_sq.mpr (h.closest _ (representable_value_of_number k.number))
  have second := sq_le_sq.mpr (k.closest _ (representable_value_of_number h.number))
  have low : value a + value b ≤ 2 * exact := by nlinarith
  have high : 2 * exact' ≤ value a + value b := by nlinarith
  linarith

theorem Nearest.abs_value_le (h : Nearest exact x) {bound : ℚ} (representable : Representable bound)
    (small : |exact| ≤ bound) : |value x| ≤ bound :=
  abs_le.mpr ⟨h.ge representable.neg (abs_le.mp small).1,
    h.le representable (abs_le.mp small).2⟩

theorem representable_two_pow {e : ℤ} (least : -149 ≤ e) (greatest : e ≤ 128) :
    Representable (2 ^ e) := by
  by_cases low : e ≤ 104
  · exact ⟨1, e, by norm_num, least, low, by simp⟩
  · refine ⟨2 ^ (e - 104).toNat, 104, ?_, by norm_num, le_rfl, ?_⟩
    · rw [abs_of_nonneg (by positivity)]
      exact pow_le_pow_right₀ (by norm_num) (by omega)
    · have parts : e = ((e - 104).toNat : ℤ) + 104 := by omega
      nth_rewrite 1 [parts]
      rw [zpow_add₀ two_ne_zero, zpow_natCast]
      push_cast
      rfl

theorem Nearest.isFinite (h : Nearest exact x) (small : |exact| ≤ 2 ^ (127 : ℤ)) :
    x.isFinite = true := by
  have bound := h.abs_value_le (representable_two_pow (by norm_num) (by norm_num)) small
  exact isFinite_of_abs_lt h.number (bound.trans_lt (by norm_num))

theorem value_le_infinity (x : Float32) : value x ≤ 2 ^ (128 : ℤ) := by
  cases number : x.isNaN with
  | true =>
    change x.toModel.unpack.isNaN = true at number
    rw [value]
    cases unpacked : x.toModel.unpack <;> rw [unpacked] at number <;> first
      | cases number
        exact (zpow_pos two_pos _).le
      | cases number
  | false => exact (abs_le.mp (representable_value_of_number number).abs_le).2

theorem add_infinite (finite : a.isFinite = true) (number : x.isNaN = false)
    (infinite : x.isFinite = false) : (a + x).toModel.unpack = x.toModel.unpack := by
  obtain ⟨s, hs⟩ := unpack_of_infinite number infinite
  change (Float32.Model.pack (UnpackedFloat.add Format.binary32 a.toModel.unpack
    x.toModel.unpack)).unpack = _
  rcases unpack_of_isFinite finite with ⟨t, ht⟩ | ⟨t, m, e, pos, ht, -⟩ <;> rw [hs, ht] <;>
    exact unpack_pack_infinity s

/-- What a number stands for determines the number, except for the sign of zero. -/
theorem unpack_eq_of_value_eq (finite : a.isFinite = true) (finite' : b.isFinite = true)
    (same : value a = value b) : a.toModel.unpack = b.toModel.unpack ∨ value a = 0 := by
  rcases unpack_of_isFinite finite with ⟨s, hs⟩ | ⟨s, m, e, pos, hs, h⟩
  · exact .inr (by rw [value, hs, unpackedValue])
  rcases unpack_of_isFinite finite' with ⟨t, ht⟩ | ⟨t, n, f, pos', ht, k⟩
  · exact .inr (by rw [same, value, ht, unpackedValue])
  left
  rw [value, value, hs, ht, unpackedValue, unpackedValue] at same
  have positive := h.magnitude_pos
  have positive' := k.magnitude_pos
  have signs : s = t := by
    cases s <;> cases t <;> first
      | rfl
      | simp only [signum] at same
        linarith
  subst signs
  have magnitudes : (m * 2 ^ e : ℚ) = n * 2 ^ f := by
    cases s <;> simp only [signum] at same <;> linarith
  have equal := (h.compares k).eq_eq.mpr magnitudes
  rw [Ordering.then_eq_eq] at equal
  obtain rfl := compare_eq_iff_eq.mp equal.1
  obtain rfl := compare_eq_iff_eq.mp equal.2
  rw [hs, ht]

/-- An operation on one number that rounds an exact result. -/
structure Rounds (f : Float32 → Float32) (exact : ℚ → ℚ) : Prop where
  nearest : ∀ x, x.isFinite = true → Nearest (exact (value x)) (f x)
  determined : ∀ x y, x.toModel.unpack = y.toModel.unpack → value (f x) = value (f y)
  zero : Representable (exact 0)

namespace Rounds

variable {f : Float32 → Float32} {exact : ℚ → ℚ}

theorem value_eq (h : Rounds f exact) (finite : x.isFinite = true) (finite' : y.isFinite = true)
    (same : value x = value y) : value (f x) = value (f y) := by
  rcases unpack_eq_of_value_eq finite finite' same with unpacked | none
  · exact h.determined x y unpacked
  · have first := h.nearest x finite
    have second := h.nearest y finite'
    rw [none] at first
    rw [← same, none] at second
    rw [first.eq h.zero, second.eq h.zero]

theorem le (h : Rounds f exact) (mono : StrictMono exact) (finite : x.isFinite = true)
    (finite' : y.isFinite = true) (le : value x ≤ value y) : value (f x) ≤ value (f y) := by
  rcases le.lt_or_eq with less | same
  · exact (h.nearest x finite).mono (h.nearest y finite') (mono less)
  · exact (h.value_eq finite finite' same).le

theorem ge (h : Rounds f exact) (anti : StrictAnti exact) (finite : x.isFinite = true)
    (finite' : y.isFinite = true) (le : value x ≤ value y) : value (f y) ≤ value (f x) := by
  rcases le.lt_or_eq with less | same
  · exact (h.nearest y finite').mono (h.nearest x finite) (anti less)
  · exact (h.value_eq finite finite' same).ge

theorem sub (finite : b.isFinite = true) : Rounds (· - b) (· - value b) where
  nearest _ finite' := nearest_sub finite' finite
  determined x y same := by
    change value ⟨Float32.Model.pack (UnpackedFloat.sub Format.binary32 x.toModel.unpack _)⟩ = _
    rw [same]
    rfl
  zero := by
    rw [zero_sub]
    exact (representable_value finite).neg

theorem add (finite : a.isFinite = true) : Rounds (a + ·) (value a + ·) where
  nearest _ finite' := nearest_add finite finite'
  determined x y same := by
    change value ⟨Float32.Model.pack (UnpackedFloat.add Format.binary32 _ x.toModel.unpack)⟩ = _
    rw [same]
    rfl
  zero := by
    rw [add_zero]
    exact representable_value finite

theorem shift (finite : b.isFinite = true) : Rounds (· + b) (· + value b) where
  nearest _ finite' := nearest_add finite' finite
  determined x y same := by
    change value ⟨Float32.Model.pack (UnpackedFloat.add Format.binary32 x.toModel.unpack _)⟩ = _
    rw [same]
    rfl
  zero := by
    rw [zero_add]
    exact representable_value finite

theorem mul (finite : a.isFinite = true) : Rounds (a * ·) (value a * ·) where
  nearest _ finite' := nearest_mul finite finite'
  determined x y same := by
    change value ⟨Float32.Model.pack (UnpackedFloat.mul Format.binary32 _ x.toModel.unpack)⟩ = _
    rw [same]
    rfl
  zero := by
    rw [mul_zero]
    exact representable_zero

theorem scale (finite : b.isFinite = true) : Rounds (· * b) (· * value b) where
  nearest _ finite' := nearest_mul finite' finite
  determined x y same := by
    change value ⟨Float32.Model.pack (UnpackedFloat.mul Format.binary32 x.toModel.unpack _)⟩ = _
    rw [same]
    rfl
  zero := by
    rw [zero_mul]
    exact representable_zero

theorem subFrom (finite : a.isFinite = true) : Rounds (a - ·) (value a - ·) where
  nearest _ finite' := nearest_sub finite finite'
  determined x y same := by
    change value ⟨Float32.Model.pack (UnpackedFloat.sub Format.binary32 _ x.toModel.unpack)⟩ = _
    rw [same]
    rfl
  zero := by
    rw [sub_zero]
    exact representable_value finite

theorem div (finite : b.isFinite = true) (nonzero : value b ≠ 0) :
    Rounds (· / b) (· / value b) where
  nearest _ finite' := nearest_div finite' finite nonzero
  determined x y same := by
    change value ⟨Float32.Model.pack (UnpackedFloat.div Format.binary32 x.toModel.unpack _)⟩ = _
    rw [same]
    rfl
  zero := by
    rw [zero_div]
    exact representable_zero

end Rounds

theorem value_sub_eq_zero_iff (finite : a.isFinite = true) (finite' : b.isFinite = true) :
    value (a - b) = 0 ↔ value a = value b := by
  have difference := nearest_sub finite finite'
  obtain ⟨k, -, k_eq⟩ := units?_of_isFinite finite
  obtain ⟨l, -, l_eq⟩ := units?_of_isFinite finite'
  have unit : ((1 <<< 149 : ℕ) : ℚ)⁻¹ = 2 ^ (-149 : ℤ) := by
    rw [Nat.shiftLeft_eq, zpow_neg, one_mul]
    norm_cast
  have exact : value a - value b = ((k - l : ℤ) : ℚ) * 2 ^ (-149 : ℤ) := by
    rw [k_eq, l_eq, ← unit]
    push_cast
    ring
  have step : (0 : ℚ) < 2 ^ (-149 : ℤ) := zpow_pos two_pos _
  have representable := representable_two_pow (e := -149) le_rfl (by norm_num)
  rw [← sub_eq_zero (a := value a)]
  constructor
  · intro zero
    by_contra apart
    have whole : k - l ≠ 0 := by
      rintro same
      rw [exact, same] at apart
      norm_num at apart
    rcases lt_or_gt_of_ne whole with below | above
    · have least : ((k - l : ℤ) : ℚ) ≤ -1 := by exact_mod_cast Int.le_sub_one_of_lt below
      have := difference.le representable.neg (by rw [exact]; nlinarith)
      linarith
    · have least : (1 : ℚ) ≤ ((k - l : ℤ) : ℚ) := by exact_mod_cast above
      have := difference.ge representable (by rw [exact]; nlinarith)
      linarith
  · intro same
    rw [same] at difference
    exact difference.eq representable_zero

section Isotone

theorem le_self_iff : x ≤ x ↔ x.isNaN = false := by
  rw [le_iff]
  exact ⟨fun le => le.1, fun number => ⟨number, number, le_rfl⟩⟩

theorem le_of_le_of_le (le : a ≤ b) (le' : b ≤ c) : a ≤ c := by
  rw [le_iff] at *
  exact ⟨le.1, le'.2.1, le.2.2.trans le'.2.2⟩

theorem abs_value_le_infinity (number : x.isNaN = false) : |value x| ≤ 2 ^ (128 : ℤ) :=
  (representable_value_of_number number).abs_le

theorem abs_value_lt_infinity (finite : x.isFinite = true) : |value x| < 2 ^ (128 : ℤ) :=
  (abs_value_le finite).trans_lt (by norm_num)

theorem ofInt_mono {k l : ℤ} (le : k ≤ l) : Float32.ofInt k ≤ Float32.ofInt l := by
  have first := nearest_ofInt k
  have second := nearest_ofInt l
  refine le_iff.mpr ⟨first.number, second.number, ?_⟩
  rcases le.lt_or_eq with less | rfl
  · exact first.mono second (by exact_mod_cast less)
  · exact le_rfl

/-- An operation that keeps the order of numbers. NaN, which is not ordered, does not arise. -/
def Isotone (f : Float32 → Float32) : Prop := ∀ ⦃x y⦄, x ≤ y → f x ≤ f y

namespace Isotone

variable {f g : Float32 → Float32}

theorem number (h : Isotone f) (number : x.isNaN = false) : (f x).isNaN = false :=
  le_self_iff.mp (h (le_self_iff.mpr number))

theorem comp (h : Isotone g) (k : Isotone f) : Isotone fun x => g (f x) := fun _ _ le => h (k le)

theorem of_finite (finite : ∀ x y, x.isFinite = true → y.isFinite = true → x ≤ y → f x ≤ f y)
    (keeps : ∀ x, x.isNaN = false → x.isFinite = false →
      (f x).isNaN = false ∧ value (f x) = value x) : Isotone f := by
  have number : ∀ x, x.isNaN = false → (f x).isNaN = false := by
    intro x number
    cases bounded : x.isFinite with
    | true => exact le_self_iff.mp (finite x x bounded bounded (le_self_iff.mpr number))
    | false => exact (keeps x number bounded).1
  intro x y le
  obtain ⟨first, second, order⟩ := le_iff.mp le
  refine le_iff.mpr ⟨number x first, number y second, ?_⟩
  have low := abs_le.mp (abs_value_le_infinity (number x first))
  have high := abs_le.mp (abs_value_le_infinity (number y second))
  cases bounded : x.isFinite with
  | true =>
    cases bounded' : y.isFinite with
    | true => exact (le_iff.mp (finite x y bounded bounded' le)).2.2
    | false =>
      have range := abs_lt.mp (abs_value_lt_infinity bounded)
      rw [(keeps y second bounded').2]
      rcases infinite_cases second bounded' with same | same <;> rw [same] at order ⊢ <;> linarith
  | false =>
    rw [(keeps x first bounded).2]
    rcases infinite_cases first bounded with same | same <;> rw [same] at order ⊢
    · cases bounded' : y.isFinite with
      | true => linarith [abs_lt.mp (abs_value_lt_infinity bounded')]
      | false => rwa [(keeps y second bounded').2]
    · exact high.1

theorem of_rounds {exact : ℚ → ℚ} (h : Rounds f exact) (mono : StrictMono exact)
    (absorbs : ∀ x, x.isNaN = false → x.isFinite = false →
      (f x).toModel.unpack = x.toModel.unpack) : Isotone f := by
  refine of_finite (fun x y finite finite' le => ?_) fun x number infinite => ?_
  · exact le_iff.mpr ⟨(h.nearest x finite).number, (h.nearest y finite').number,
      h.le mono finite finite' (le_iff.mp le).2.2⟩
  · exact number_of_unpack_eq (absorbs x number infinite) number

theorem sub (finite : b.isFinite = true) : Isotone (· - b) :=
  of_rounds (Rounds.sub finite) (fun _ _ less => sub_lt_sub_right less _)
    fun _ number infinite => sub_of_infinite number infinite finite

theorem add (finite : a.isFinite = true) : Isotone (a + ·) :=
  of_rounds (Rounds.add finite) (fun _ _ less => add_lt_add_right less _)
    fun _ number infinite => add_infinite finite number infinite

theorem shift (finite : b.isFinite = true) : Isotone (· + b) :=
  of_rounds (Rounds.shift finite) (fun _ _ less => add_lt_add_left less _)
    fun _ number infinite => add_of_infinite number infinite finite

theorem scale (finite : b.isFinite = true) (positive : 0 < value b) : Isotone (· * b) :=
  of_rounds (Rounds.scale finite) (fun _ _ less => mul_lt_mul_of_pos_right less positive)
    fun _ number infinite => mul_of_infinite number infinite finite positive

theorem div (finite : b.isFinite = true) (positive : 0 < value b) : Isotone (· / b) :=
  of_rounds (Rounds.div finite positive.ne') (fun _ _ less => div_lt_div_of_pos_right less positive)
    fun _ number infinite => div_of_infinite number infinite finite positive

theorem mapUnits {choose : ℤ → ℤ} (mono : Monotone choose) : Isotone (mapUnits choose) := by
  refine of_finite (fun x y finite finite' le => ?_) fun x number infinite => ?_
  · obtain ⟨k, units, same⟩ := units?_of_isFinite finite
    obtain ⟨l, units', same'⟩ := units?_of_isFinite finite'
    have order := (le_iff.mp le).2.2
    rw [same, same', div_le_div_iff_of_pos_right (by norm_num)] at order
    rw [Single.mapUnits, Single.mapUnits, units, units']
    exact ofInt_mono (mono (by exact_mod_cast order))
  · rw [mapUnits_of_not_isFinite _ infinite]
    exact ⟨number, rfl⟩

theorem floor : Isotone floor := mapUnits fun _ _ le => Int.ediv_le_ediv (by decide) le

theorem ceil : Isotone ceil :=
  mapUnits fun _ _ le => neg_le_neg (Int.ediv_le_ediv (by decide) (neg_le_neg le))

theorem round : Isotone round := by
  refine mapUnits fun k l le => ?_
  have unit : 0 < 2 * one := by decide
  have nonneg : ∀ {k : ℤ}, 0 ≤ k → 0 ≤ (2 * k + one) / (2 * one) := fun least =>
    Int.ediv_nonneg (by omega) unit.le
  unfold roundUnits
  split <;> split
  · exact Int.ediv_le_ediv unit (by omega)
  · omega
  · have := nonneg ‹0 ≤ l›
    have := nonneg (k := -k) (by omega)
    omega
  · exact neg_le_neg (Int.ediv_le_ediv unit (by omega))

end Isotone

end Isotone

end PackGuard.Single
