import PackGuard.Chip.Driver
import PackGuard.Proofs.LinearCode

/-!
The voltages that the codes of the trip registers stand for, for every calibration that activation
can read from a chip. The steps that the driver computes with differ from them by rounding only.
-/

namespace PackGuard.Chip.Driver

open Single

variable {β δ : Type} [Bus β δ] {n : Nat} {d : Driver β n}

/-- The calibration is one that activation can read. -/
def Calibrated (d : Driver β n) : Prop :=
  ∃ gain1 gain2 offset : UInt8, d.gain = gainOf gain1 gain2 ∧ d.offset = offset.toInt8.toInt

section Activation

theorem exists_of_bind_ok {ε σ α γ : Type} {task : EStateM ε σ α} {next : α → EStateM ε σ γ}
    {s t : σ} {result : γ} (h : (task >>= next) s = .ok result t) :
    ∃ a u, task s = .ok a u ∧ next a u = .ok result t := by
  simp only [bind, EStateM.bind] at h
  cases done : task s with
  | ok a u =>
    rw [done] at h
    exact ⟨a, u, rfl, h⟩
  | error e u =>
    rw [done] at h
    cases h

theorem offset_of_access_ok {β δ α : Type} {task : EStateM (ChipError δ) (Link β) α} {a : α}
    {d d' : Driver β n} (h : access task d = .ok a d') : d'.offset = d.offset := by
  rw [access] at h
  cases done : task d.link <;> rw [done] at h <;> cases h
  rfl

/-- What activation reads from a chip, whatever the chip answers. -/
theorem calibrated_of_activate {d d' : Driver β n}
    (h : (activate : EStateM (ChipError δ) (Driver β n) Unit) d = .ok () d') : d'.Calibrated := by
  obtain ⟨_, _, -, h⟩ := exists_of_bind_ok h
  obtain ⟨_, _, -, h⟩ := exists_of_bind_ok h
  obtain ⟨_, _, -, h⟩ := exists_of_bind_ok h
  obtain ⟨offset, _, -, h⟩ := exists_of_bind_ok h
  obtain ⟨_, _, taken, h⟩ := exists_of_bind_ok h
  obtain ⟨gain1, _, first, h⟩ := exists_of_bind_ok h
  obtain ⟨gain2, _, second, last⟩ := exists_of_bind_ok h
  cases last
  refine ⟨gain1, gain2, offset, rfl, ?_⟩
  rw [offset_of_access_ok second, offset_of_access_ok first]
  cases taken
  rfl

end Activation

section Trip

def trip (d : Driver β n) (base code : ℕ) : ℚ :=
  (base + 16 * code) * d.gain / 10 ^ 6 + d.offset / 10 ^ 3

def tripStep (d : Driver β n) : ℚ := 16 * d.gain / 10 ^ 6

theorem trip_eq (d : Driver β n) (base code : ℕ) :
    d.trip base code = d.trip base 0 + code * d.tripStep := by
  simp only [trip, tripStep, Nat.cast_zero]
  ring

theorem tripStep_nonneg (d : Driver β n) : 0 ≤ d.tripStep := by
  rw [tripStep]
  positivity

theorem gainOf_bounds (gain1 gain2 : UInt8) :
    365 ≤ gainOf gain1 gain2 ∧ gainOf gain1 gain2 ≤ 396 := by
  have high : ((gain1 &&& 0x0C) <<< 1).toNat < 2 ^ 5 := by
    have : (gain1 &&& 0x0C).toNat ≤ 12 := by
      rw [UInt8.toNat_and]
      exact Nat.and_le_right
    rw [UInt8.toNat_shiftLeft]
    change (gain1 &&& 0x0C).toNat <<< 1 % 2 ^ 8 < 2 ^ 5
    omega
  have low : ((gain2 &&& 0xE0) >>> 5).toNat < 2 ^ 5 := by
    have := (gain2 &&& 0xE0).toNat_lt
    rw [UInt8.toNat_shiftRight]
    change (gain2 &&& 0xE0).toNat >>> 5 < 2 ^ 5
    omega
  have joined := Nat.or_lt_two_pow high low
  rw [← UInt8.toNat_or] at joined
  unfold gainOf
  omega

theorem Calibrated.gain_bounds (h : d.Calibrated) : 365 ≤ d.gain ∧ d.gain ≤ 396 := by
  obtain ⟨gain1, gain2, -, same, -⟩ := h
  exact same ▸ gainOf_bounds gain1 gain2

theorem Calibrated.abs_offset_le (h : d.Calibrated) : |d.offset| ≤ 128 := by
  obtain ⟨-, -, offset, -, same⟩ := h
  have := offset.toInt8.toInt_lt
  have := offset.toInt8.le_toInt
  rw [same, abs_le]
  omega

theorem within_microvolt : Within 1e-6 (1 / 10 ^ 6) (1 / 2 ^ 45) :=
  ⟨by decide +kernel, by
    rw [show value 1e-6 = 8796093 / 2 ^ 43 by decide +kernel, abs_le]
    constructor <;> norm_num⟩

theorem within_millivolt : Within 1e-3 (1 / 10 ^ 3) (1 / 2 ^ 34) :=
  ⟨by decide +kernel, by
    rw [show value 1e-3 = 8589935 / 2 ^ 33 by decide +kernel, abs_le]
    constructor <;> norm_num⟩

theorem within_gain (calibrated : d.Calibrated) :
    Within (d.gainNumber * 1e-6) (d.gain / 10 ^ 6) (1 / 2 ^ 35) := by
  have gain_le := calibrated.gain_bounds.2
  have exact : value d.gainNumber = d.gain := value_ofNat (by omega)
  have finite : d.gainNumber.isFinite = true := isFinite_ofNat (by omega)
  have gain_le : (d.gain : ℚ) ≤ 396 := by exact_mod_cast gain_le
  have product := Within.scale finite within_microvolt (e := -35) (by norm_num) (by norm_num) (by
    rw [exact, abs_of_nonneg (by positivity), Nat.abs_cast]
    norm_num
    linarith)
  rw [exact, Nat.abs_cast, mul_one_div] at product
  refine product.mono ?_
  norm_num
  linarith

theorem within_offset (calibrated : d.Calibrated) :
    Within (Float32.ofInt d.offset * 1e-3) (d.offset / 10 ^ 3) (1 / 2 ^ 26) := by
  have small : |d.offset| ≤ 2 ^ 24 := calibrated.abs_offset_le.trans (by norm_num)
  have exact := value_ofInt small
  have finite := isFinite_ofInt small
  have offset_le : |(d.offset : ℚ)| ≤ 128 := by exact_mod_cast calibrated.abs_offset_le
  have product := Within.scale finite within_millivolt (e := -26) (by norm_num) (by norm_num) (by
    rw [exact, abs_mul]
    norm_num
    linarith)
  rw [exact, mul_one_div] at product
  refine product.mono ?_
  norm_num
  linarith

theorem within_tripStep (calibrated : d.Calibrated) :
    Within (16.0 * (d.gainNumber * 1e-6)) d.tripStep (1 / 2 ^ 30) := by
  have gain_le : (d.gain : ℚ) ≤ 396 := by exact_mod_cast calibrated.gain_bounds.2
  have exact : value (16.0 : Float32) = 16 := by decide +kernel
  have finite : (16.0 : Float32).isFinite = true := by decide +kernel
  have product := Within.scale finite (within_gain calibrated) (e := -31) (by norm_num)
    (by norm_num) (by
      rw [exact, abs_of_nonneg (by positivity)]
      norm_num
      linarith)
  rw [exact, ← mul_div_assoc] at product
  exact product.mono (by norm_num)

theorem trip_zero (d : Driver β n) (base : ℕ) :
    d.trip base 0 = base * (d.gain / 10 ^ 6) + d.offset / 10 ^ 3 := by
  rw [trip, Nat.cast_zero, mul_zero, add_zero, mul_div_assoc]

variable {base : ℕ}

theorem base_mul_gain_le (calibrated : d.Calibrated) (low : base ≤ overvoltageBase) :
    (base : ℚ) * (d.gain / 10 ^ 6) ≤ 13 / 4 := by
  have gain_le : (d.gain : ℚ) ≤ 396 := by exact_mod_cast calibrated.gain_bounds.2
  have base_le : (base : ℚ) ≤ 8200 := by exact_mod_cast low
  calc (base : ℚ) * (d.gain / 10 ^ 6) ≤ 8200 * (396 / 10 ^ 6) :=
        mul_le_mul base_le (by linarith) (by positivity) (by norm_num)
    _ ≤ 13 / 4 := by norm_num

theorem abs_trip_zero_le (calibrated : d.Calibrated) (low : base ≤ overvoltageBase) :
    |d.trip base 0| ≤ 7 / 2 := by
  have offset := abs_le.mp calibrated.abs_offset_le
  have least : (-128 : ℚ) ≤ d.offset := by exact_mod_cast offset.1
  have greatest : (d.offset : ℚ) ≤ 128 := by exact_mod_cast offset.2
  have product_le := base_mul_gain_le calibrated low
  have nonneg : 0 ≤ (base : ℚ) * (d.gain / 10 ^ 6) := by positivity
  rw [trip_zero, abs_le]
  constructor <;> linarith

theorem within_trip_zero (calibrated : d.Calibrated) (low : base ≤ overvoltageBase) :
    Within (Float32.ofNat base * (d.gainNumber * 1e-6) + Float32.ofInt d.offset * 1e-3)
      (d.trip base 0) (1 / 2 ^ 20) := by
  have small : base ≤ 2 ^ 24 := low.trans (by decide)
  have exact := value_ofNat small
  have base_le : (base : ℚ) ≤ 8200 := by exact_mod_cast low
  have product_le := base_mul_gain_le calibrated low
  have product := Within.scale (isFinite_ofNat small) (within_gain calibrated) (e := -22)
    (by norm_num) (by norm_num) (by
      rw [exact, abs_of_nonneg (by positivity), Nat.abs_cast]
      norm_num at product_le ⊢
      linarith)
  rw [exact, Nat.abs_cast] at product
  have error : (base : ℚ) * (1 / 2 ^ 35) + 2 ^ (-22 : ℤ) / 2 ≤ 1 / 2 ^ 21 := by
    norm_num
    linarith
  have range := abs_trip_zero_le calibrated low
  rw [trip_zero] at range ⊢
  have sum := (product.mono error).add (within_offset calibrated) (e := -22) (by norm_num)
    (by norm_num) (by
      norm_num at range ⊢
      linarith)
  exact sum.mono (by norm_num)

theorem evenSteps_trip (calibrated : d.Calibrated) (low : base ≤ overvoltageBase) :
    Encoding.EvenSteps
      (Float32.ofNat base * (d.gainNumber * 1e-6) + Float32.ofInt d.offset * 1e-3)
      (16.0 * (d.gainNumber * 1e-6)) (d.trip base 0) d.tripStep where
  offset := within_trip_zero calibrated low
  gain := within_tripStep calibrated
  low := (abs_trip_zero_le calibrated low).trans (by norm_num)
  coarse := by
    have gain_ge : (365 : ℚ) ≤ d.gain := by exact_mod_cast calibrated.gain_bounds.1
    rw [tripStep]
    linarith
  fine := by
    have gain_le : (d.gain : ℚ) ≤ 396 := by exact_mod_cast calibrated.gain_bounds.2
    rw [tripStep]
    linarith

end Trip

end PackGuard.Chip.Driver
