import PackGuard.Proofs.SingleMonotone
import PackGuard.Proofs.WordCode

/-!
Infinities and NaN in binary32 arithmetic. The positive infinity absorbs whatever is not negative;
NaN is passed on, and arises from zero times an infinity and zero over zero.
-/

namespace PackGuard.Single

open Float.Model Float.Model.UnpackedFloat

variable {a b x : Float32}

section Operations

variable (a b : Float32)

theorem unpack_add : (a + b).toModel.unpack = (Float32.Model.pack
    (UnpackedFloat.add Format.binary32 a.toModel.unpack b.toModel.unpack)).unpack := rfl

theorem unpack_sub : (a - b).toModel.unpack = (Float32.Model.pack
    (UnpackedFloat.sub Format.binary32 a.toModel.unpack b.toModel.unpack)).unpack := rfl

theorem unpack_mul : (a * b).toModel.unpack = (Float32.Model.pack
    (UnpackedFloat.mul Format.binary32 a.toModel.unpack b.toModel.unpack)).unpack := rfl

theorem unpack_div : (a / b).toModel.unpack = (Float32.Model.pack
    (UnpackedFloat.div Format.binary32 a.toModel.unpack b.toModel.unpack)).unpack := rfl

theorem unpack_abs :
    a.abs.toModel.unpack = (Float32.Model.pack a.toModel.unpack.abs).unpack := rfl

end Operations

section NotANumber

theorem isNaN_iff : x.isNaN = true ↔ x.toModel.unpack = .notANumber := by
  rw [← not_iff_not, Bool.not_eq_true, isNaN_eq_false_iff]

theorem unpack_pack_notANumber : (Float32.Model.pack .notANumber).unpack = .notANumber :=
  rfl

theorem isNaN_add (h : a.isNaN = true ∨ b.isNaN = true) : (a + b).isNaN = true := by
  simp only [isNaN_iff] at h ⊢
  rw [unpack_add]
  rcases h with h | h <;> rw [h]
  · exact unpack_pack_notANumber
  · cases a.toModel.unpack <;> exact unpack_pack_notANumber

theorem isNaN_sub (h : a.isNaN = true ∨ b.isNaN = true) : (a - b).isNaN = true := by
  simp only [isNaN_iff] at h ⊢
  rw [unpack_sub]
  rcases h with h | h <;> rw [h]
  · exact unpack_pack_notANumber
  · cases a.toModel.unpack <;> exact unpack_pack_notANumber

theorem isNaN_abs (h : x.isNaN = true) : x.abs.isNaN = true := by
  rw [isNaN_iff] at h ⊢
  rw [unpack_abs, h]
  exact unpack_pack_notANumber

theorem number_add (finite : a.isFinite = true) (number : b.isNaN = false) :
    (a + b).isNaN = false := (Isotone.add finite).number number

end NotANumber

section Zero

variable {s : Sign}

theorem div_of_zero (zero : a.toModel.unpack = .zero s) :
    (a / b).isNaN = true ∨ ∃ t, (a / b).toModel.unpack = .zero t := by
  rw [isNaN_iff, unpack_div, zero]
  cases b.toModel.unpack with
  | notANumber | zero t => exact .inl unpack_pack_notANumber
  | infinity t | finite t m e pos => exact .inr ⟨s / t, unpack_pack_zero _⟩

theorem value_abs_zero (zero : x.toModel.unpack = .zero s) : value x.abs = 0 := by
  rw [value, unpack_abs, zero]
  exact congrArg unpackedValue (unpack_pack_zero .positive)

end Zero

section Finite

theorem isFinite_of_pack {u : UnpackedFloat}
    (finite : (Float32.Model.pack u).unpack.isFinite = true) : u.isFinite = true := by
  cases u with
  | notANumber =>
    rw [unpack_pack_notANumber] at finite
    exact finite
  | infinity s =>
    rw [unpack_pack_infinity] at finite
    exact finite
  | zero | finite => rfl

theorem isFinite_of_mul (finite : (a * b).isFinite = true) :
    a.isFinite = true ∧ b.isFinite = true := by
  have result := isFinite_of_pack
    (u := UnpackedFloat.mul Format.binary32 a.toModel.unpack b.toModel.unpack) finite
  change a.toModel.unpack.isFinite = true ∧ b.toModel.unpack.isFinite = true
  generalize a.toModel.unpack = u at result ⊢
  generalize b.toModel.unpack = v at result ⊢
  cases u <;> cases v <;> first
    | exact ⟨rfl, rfl⟩
    | exact absurd result Bool.false_ne_true

theorem isFinite_of_sub (finite : (a - b).isFinite = true) :
    a.isFinite = true ∧ b.isFinite = true := by
  have result := isFinite_of_pack
    (u := UnpackedFloat.sub Format.binary32 a.toModel.unpack b.toModel.unpack) finite
  change a.toModel.unpack.isFinite = true ∧ b.toModel.unpack.isFinite = true
  generalize a.toModel.unpack = u at result ⊢
  generalize b.toModel.unpack = v at result ⊢
  cases u <;> cases v <;> first
    | exact ⟨rfl, rfl⟩
    | exact absurd result Bool.false_ne_true
    | rename_i s t
      cases s <;> cases t <;> exact absurd result Bool.false_ne_true

theorem isFinite_of_add (finite : (a + b).isFinite = true) :
    a.isFinite = true ∧ b.isFinite = true := by
  have result := isFinite_of_pack
    (u := UnpackedFloat.add Format.binary32 a.toModel.unpack b.toModel.unpack) finite
  change a.toModel.unpack.isFinite = true ∧ b.toModel.unpack.isFinite = true
  generalize a.toModel.unpack = u at result ⊢
  generalize b.toModel.unpack = v at result ⊢
  cases u <;> cases v <;> first
    | exact ⟨rfl, rfl⟩
    | exact absurd result Bool.false_ne_true
    | rename_i s t
      cases s <;> cases t <;> exact absurd result Bool.false_ne_true

theorem isFinite_of_div (finite : (a / b).isFinite = true) : a.isFinite = true := by
  have result := isFinite_of_pack
    (u := UnpackedFloat.div Format.binary32 a.toModel.unpack b.toModel.unpack) finite
  change a.toModel.unpack.isFinite = true
  generalize a.toModel.unpack = u at result ⊢
  generalize b.toModel.unpack = v at result ⊢
  cases u <;> cases v <;> first
    | exact rfl
    | exact absurd result Bool.false_ne_true

end Finite

section Infinity

variable {s : Sign}

theorem unpack_of_infinite_nonneg (number : x.isNaN = false) (infinite : x.isFinite = false)
    (nonneg : 0 ≤ value x) : x.toModel.unpack = .infinity .positive := by
  obtain ⟨s, unpacked⟩ := unpack_of_infinite number infinite
  cases s with
  | positive => exact unpacked
  | negative =>
    rw [value, unpacked] at nonneg
    norm_num [unpackedValue, signum] at nonneg

theorem unpack_of_infinite_pos (infinite : x.isFinite = false) (positive : 0.0 < x) :
    x.toModel.unpack = .infinity .positive :=
  unpack_of_infinite_nonneg (lt_iff.mp positive).2.1 infinite (pos_iff.mp positive).le

theorem isNaN_of_infinity (unpacked : x.toModel.unpack = .infinity s) : x.isNaN = false := by
  rw [isNaN_eq_false_iff, unpacked]
  exact nofun

theorem isFinite_of_infinity (unpacked : x.toModel.unpack = .infinity s) : x.isFinite = false := by
  change x.toModel.unpack.isFinite = false
  rw [unpacked]
  rfl

theorem value_of_infinity (unpacked : x.toModel.unpack = .infinity s) :
    value x = signum s * 2 ^ (128 : ℤ) := by
  rw [value, unpacked, unpackedValue]

theorem pos_of_infinity (unpacked : x.toModel.unpack = .infinity .positive) : 0.0 < x := by
  rw [pos_iff, value_of_infinity unpacked]
  norm_num [signum]

theorem infinity_add_infinity (ha : a.toModel.unpack = .infinity s)
    (hb : b.toModel.unpack = .infinity s) : (a + b).toModel.unpack = .infinity s := by
  rw [unpack_add, ha, hb]
  cases s <;> exact unpack_pack_infinity _

theorem infinity_add (ha : a.toModel.unpack = .infinity .positive) (number : b.isNaN = false)
    (nonneg : 0 ≤ value b) : (a + b).toModel.unpack = .infinity .positive := by
  cases bounded : b.isFinite with
  | true =>
    exact (add_of_infinite (isNaN_of_infinity ha) (isFinite_of_infinity ha) bounded).trans ha
  | false => exact infinity_add_infinity ha (unpack_of_infinite_nonneg number bounded nonneg)

theorem infinity_of_add_pos (infinite : a.isFinite = false) (positive : 0.0 < a + b) :
    a.toModel.unpack = .infinity .positive := by
  have sum := (lt_iff.mp positive).2.1
  have number : a.isNaN = false := by
    by_contra none
    rw [isNaN_add (.inl (eq_true_of_ne_false none))] at sum
    cases sum
  have number' : b.isNaN = false := by
    by_contra none
    rw [isNaN_add (.inr (eq_true_of_ne_false none))] at sum
    cases sum
  obtain ⟨s, ha⟩ := unpack_of_infinite number infinite
  cases s with
  | positive => exact ha
  | negative =>
    cases bounded : b.isFinite with
    | true =>
      have absorbed := (add_of_infinite number infinite bounded).trans ha
      rw [pos_iff, value_of_infinity absorbed] at positive
      norm_num [signum] at positive
    | false =>
      obtain ⟨t, hb⟩ := unpack_of_infinite number' bounded
      cases t with
      | positive =>
        have opposed : (a + b).toModel.unpack = .notANumber := by
          rw [unpack_add, ha, hb]
          exact unpack_pack_notANumber
        exact absurd opposed (isNaN_eq_false_iff.mp sum)
      | negative =>
        rw [pos_iff, value_of_infinity (infinity_add_infinity ha hb)] at positive
        norm_num [signum] at positive

theorem sub_infinity (finite : a.isFinite = true) (hb : b.toModel.unpack = .infinity .positive) :
    (a - b).toModel.unpack = .infinity .negative := by
  rw [unpack_sub, hb]
  rcases unpack_of_isFinite finite with ⟨t, ht⟩ | ⟨t, m, e, pos, ht, -⟩ <;> rw [ht] <;>
    exact unpack_pack_infinity .negative

theorem mul_infinity (finite : a.isFinite = true) (positive : 0 < value a)
    (hb : b.toModel.unpack = .infinity .positive) :
    (a * b).toModel.unpack = .infinity .positive := by
  obtain ⟨m, e, pos, ha⟩ := unpack_of_pos finite positive
  rw [unpack_mul, ha, hb]
  exact unpack_pack_infinity .positive

theorem isNaN_zero_mul_infinity (zero : a.toModel.unpack = .zero s)
    (hb : b.toModel.unpack = .infinity .positive) : (a * b).isNaN = true := by
  rw [isNaN_iff, unpack_mul, zero, hb]
  exact unpack_pack_notANumber

theorem div_infinity (hb : b.toModel.unpack = .infinity .positive) :
    (a / b).isNaN = true ∨ ∃ t, (a / b).toModel.unpack = .zero t := by
  rw [isNaN_iff, unpack_div, hb]
  cases a.toModel.unpack with
  | notANumber | infinity t => exact .inl unpack_pack_notANumber
  | zero t | finite t m e pos => exact .inr ⟨_, unpack_pack_zero _⟩

theorem finite_div_infinity (finite : a.isFinite = true)
    (hb : b.toModel.unpack = .infinity .positive) :
    ∃ t, (a / b).toModel.unpack = .zero t := by
  rw [unpack_div, hb]
  rcases unpack_of_isFinite finite with ⟨t, ht⟩ | ⟨t, m, e, pos, ht, -⟩ <;> rw [ht] <;>
    exact ⟨_, unpack_pack_zero _⟩

end Infinity

end PackGuard.Single
