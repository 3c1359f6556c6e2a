import PackGuard.FrontEnd.Bench
import PackGuard.Proofs.LookupCode
import PackGuard.Proofs.Programming
import PackGuard.Proofs.SingleInfinity

/-!
The code of a hysteresis, which must not collapse to zero. It is the larger one of the code for the
request and the first code of a positive value.
-/

namespace PackGuard

open Single

variable {x : Float32}

namespace Encoding

open ProtectionEncoding

section Table

variable {entries : List Float32} {code : UInt16}

theorem pos_of_ascending (ascending : entries.Pairwise (· ≤ ·)) {i j : ℕ} (le : i ≤ j)
    (inside : j < entries.length) (positive : 0.0 < entries[i]) : 0.0 < entries[j] := by
  rcases le.lt_or_eq with less | rfl
  · have more := List.pairwise_iff_getElem.mp ascending i j (by omega) inside less
    exact pos_iff.mpr ((pos_iff.mp positive).trans_le (le_iff.mp more).2.2)
  · exact positive

theorem table_pos (ascending : entries.Pairwise (· ≤ ·)) (inside : code.toNat < entries.length)
    (positive : 0.0 < (table entries).value code) {other : UInt16}
    (le : (table entries).firstPositive ≤ other) : 0.0 < (table entries).value other := by
  have entry : (table entries).value code = entries[code.toNat] := by
    simp [value, List.getElem?_eq_getElem inside]
  rw [entry] at positive
  obtain ⟨i, found⟩ : ∃ i, entries.findIdx? (fun entry => 0.0 < entry) = some i := by
    rw [← Option.isSome_iff_exists, List.findIdx?_isSome, List.any_eq_true]
    exact ⟨_, List.getElem_mem inside, by simpa using positive⟩
  obtain ⟨within, first, before⟩ := List.findIdx?_eq_some_iff_getElem.mp found
  have first : 0.0 < entries[i] := by simpa using first
  have reached : i ≤ code.toNat := by
    by_contra! less
    exact before _ less (by simpa using positive)
  have small : i < 2 ^ 16 := reached.trans_lt code.toNat_lt
  rw [firstPositive, found, Option.getD_some, UInt16.le_iff_toNat_le,
    UInt16.toNat_ofNat_of_lt' small] at le
  by_cases among : other.toNat < entries.length
  · simpa [value, List.getElem?_eq_getElem among] using pos_of_ascending ascending le among first
  · have last := pos_of_ascending ascending (Nat.le_sub_one_of_lt within) (by omega) first
    have none : entries[other.toNat]? = Option.none := List.getElem?_eq_none (not_lt.mp among)
    simpa [value, none, List.getLast?_eq_getElem?, List.getElem?_eq_getElem
      (show entries.length - 1 < entries.length by omega)] using last

end Table

section Linear

variable {offset gain : Float32} {least greatest code other : UInt16}

theorem isFinite_ofCode (code : UInt16) : (ofCode code : Float32).isFinite = true :=
  isFinite_ofNat (toNat_le_two_pow code)

theorem linear_mono (finite : offset.isFinite = true) (finite' : gain.isFinite = true)
    (positive : 0.0 < gain) (le : code ≤ other) :
    (linear offset gain least greatest).value code ≤
      (linear offset gain least greatest).value other := by
  have scaled := Isotone.scale finite' (pos_iff.mp positive)
  exact (Isotone.add finite).comp scaled (ofCode_mono le)

theorem seekPositive_pos {encoding : Encoding Float32} {steps : ℕ} {raw : UInt16}
    (numbers : ∀ code, (encoding.value code).isNaN = false)
    (fits : raw.toNat + steps < 2 ^ 16) (above : 0.0 < encoding.value code) (least : raw ≤ code)
    (greatest : code.toNat ≤ raw.toNat + steps) :
    0.0 < encoding.value (encoding.seekPositive steps raw) := by
  induction steps generalizing raw with
  | zero =>
    rw [UInt16.le_iff_toNat_le] at least
    obtain rfl : raw = code := UInt16.toNat_inj.mp (by omega)
    exact above
  | succ steps ih =>
    rw [seekPositive]
    split
    · rename_i low
      have next : (raw + 1).toNat = raw.toNat + 1 := toNat_succ (by omega)
      have past : raw ≠ code := by
        rintro rfl
        exact absurd (le_iff.mp low).2.2 (not_le.mpr (lt_iff.mp above).2.2)
      rw [UInt16.le_iff_toNat_le] at least
      have past : raw.toNat ≠ code.toNat := fun same => past (UInt16.toNat_inj.mp same)
      refine ih (by omega) ?_ (by omega)
      rw [UInt16.le_iff_toNat_le]
      omega
    · rename_i high
      exact (not_le_iff (numbers raw) isNaN_zero).mp high

theorem linear_pos (finite : offset.isFinite = true) (finite' : gain.isFinite = true)
    (positive : 0.0 < gain) (low : least ≤ code) (high : code ≤ greatest)
    (above : 0.0 < (linear offset gain least greatest).value code)
    (le : (linear offset gain least greatest).firstPositive ≤ other) :
    0.0 < (linear offset gain least greatest).value other := by
  have numbers : ∀ code, ((linear offset gain least greatest).value code).isNaN = false :=
    fun code => le_self_iff.mp (linear_mono finite finite' positive (UInt16.le_refl code))
  have first : 0.0 < (linear offset gain least greatest).value
      (linear offset gain least greatest).firstPositive := by
    have range := greatest.toNat_lt
    have order := UInt16.le_iff_toNat_le.mp (UInt16.le_trans low high)
    rw [UInt16.le_iff_toNat_le] at high
    exact seekPositive_pos numbers (by omega) above low (by omega)
  exact pos_iff.mpr
    ((pos_iff.mp first).trans_le (le_iff.mp (linear_mono finite finite' positive le)).2.2)

end Linear

section Lookup

open Curve

variable {points : Curve Float32} {m : ℕ}

theorem isCode_ofCode (code : UInt16) : IsCode (ofCode code) :=
  ⟨isFinite_ofCode code, code.toNat, toNat_le_lastCode code, value_ofCode code⟩

theorem quantize_nearest (points : Curve Float32) (x : Float32) :
    (lookup points).quantize x .nearest =
      Scalar.toCode (Scalar.clamp 0.0 65535.0 (Scalar.round (points.eval x))) := by
  simp only [quantize, quantizeLookup]

theorem quantize_up (points : Curve Float32) (x : Float32) :
    (lookup points).quantize x .up = clampCode (Scalar.floor (points.eval x)) 0 65535 ∨
      (lookup points).quantize x .up = clampCode (Scalar.ceil (points.eval x)) 0 65535 := by
  simp only [quantize, quantizeLookup]
  split <;> split <;> simp

/-- The first code for a positive value is not below the exact position of zero. If it is the code
right below that position, its value is positive. -/
theorem firstPositive_lookup (number : (points.eval 0.0).isNaN = false) :
    let below := clampCode (Scalar.floor (points.eval 0.0)) 0 65535
    below.toNat ≤ (lookup points).firstPositive.toNat ∧
      ((lookup points).firstPositive = below → below = 65535 ∨
        0.0 < (lookup points).value (lookup points).firstPositive) := by
  intro below
  have least : below.toNat ≤ ((lookup points).quantize 0.0 .up).toNat := by
    rcases quantize_up points 0.0 with same | same <;> rw [same]
    exact toNat_floor_le_toNat_ceil number
  rw [firstPositive]
  generalize (lookup points).quantize 0.0 .up = raw at least
  split
  · rename_i positive
    exact ⟨least, fun _ => .inr positive⟩
  · split
    · rename_i last
      exact ⟨least, fun same => .inl (same.symm.trans last)⟩
    · rename_i more
      have more : raw.toNat ≠ 65535 := fun same => more (UInt16.toNat_inj.mp same)
      have next := toNat_succ (lt_of_le_of_ne (toNat_le_lastCode raw) more)
      rw [next]
      refine ⟨by omega, fun same => ?_⟩
      rw [← same, next] at least
      omega

theorem quantize_falling (h : Regular points) (falling : Falling points) (some : points ≠ [])
    (number : x.isNaN = false) (nonneg : 0 ≤ Single.value x) :
    ((lookup points).quantize x .nearest).toNat ≤
      ((lookup points).quantize 0.0 .nearest).toNat := by
  obtain ⟨first, second, order⟩ := eval_falling h falling some isNaN_zero number
    (value_zero.trans_le nonneg)
  rw [quantize_nearest, quantize_nearest]
  generalize reached :
    (Scalar.toCode (Scalar.clamp 0.0 65535.0 (Scalar.round (points.eval x)))).toNat = m
  have small : m ≤ 65535 := reached ▸ toNat_le_lastCode _
  rcases Nat.eq_zero_or_pos m with rfl | positive
  · exact Nat.zero_le _
  rw [le_toNat_round_iff first positive small]
  have least := (le_toNat_round_iff second positive small).mp reached.ge
  rcases order with le | ⟨k, above, below⟩
  · exact least.trans le
  · have code : m ≤ k := by
      have : (m : ℚ) < k + 1 := by linarith
      exact Nat.le_of_lt_succ (by exact_mod_cast this)
    have : (m : ℚ) ≤ k := by exact_mod_cast code
    linarith

theorem quantize_rising (h : Regular points) (rising : Rising points) (some : points ≠ [])
    (number : x.isNaN = false) :
    ∃ s ∈ points, Single.value (ofCode ((lookup points).quantize x .nearest) : Float32) ≤
      Single.value s.2 := by
  obtain ⟨number, s, member, bound⟩ := eval_rising h rising some number
  obtain ⟨-, k, -, code⟩ := h.codes s member
  refine ⟨s, member, ?_⟩
  rw [value_ofCode, quantize_nearest, code]
  by_contra! beyond
  have beyond : k + 1 ≤
      (Scalar.toCode (Scalar.clamp 0.0 65535.0 (Scalar.round (points.eval x)))).toNat := by
    exact_mod_cast beyond
  have small : k + 1 ≤ 65535 := beyond.trans (toNat_le_lastCode _)
  have reached := (le_toNat_round_iff number k.succ_pos small).mp beyond
  rw [code] at bound
  push_cast at reached
  linarith

theorem value_pos_of_rising (h : Regular points) (rising : Rising points)
    {code code' : UInt16} (close : ((lookup points).quantize 0.0 .nearest).toNat ≤ code.toNat)
    (positive : 0.0 < (lookup points).value code) (more : code.toNat < code'.toNat)
    (bounded : ∃ s ∈ points, Single.value (ofCode code' : Float32) ≤ Single.value s.2) :
    0.0 < (lookup points).value code' := by
  have some : points ≠ [] := by
    rintro rfl
    simp at bounded
  obtain ⟨number, -⟩ := eval_rising h rising some isNaN_zero
  have last := toNat_le_lastCode code'
  have close : Single.value (points.eval 0.0) < Single.value (ofCode code : Float32) + 1 / 2 := by
    by_contra! far
    rw [value_ofCode] at far
    have reached := (le_toNat_round_iff number code.toNat.succ_pos (by omega)).mpr
      (by push_cast; linarith)
    rw [← quantize_nearest] at reached
    omega
  refine pos_iff.mpr (eval_inverse_pos h rising (by decide +kernel) value_zero (isCode_ofCode code)
    (isCode_ofCode code') close (pos_iff.mp positive) ?_ bounded)
  rw [value_ofCode, value_ofCode]
  exact_mod_cast more

theorem quantize_le_floor (number : (points.eval 0.0).isNaN = false) :
    ((lookup points).quantize 0.0 .nearest).toNat ≤
      (clampCode (Scalar.floor (points.eval 0.0)) 0 65535).toNat + 1 := by
  rw [quantize_nearest]
  generalize reached :
    (Scalar.toCode (Scalar.clamp 0.0 65535.0 (Scalar.round (points.eval 0.0)))).toNat = m
  have small : m ≤ 65535 := reached ▸ toNat_le_lastCode _
  rcases Nat.lt_or_ge m 2 with few | many
  · omega
  have least := (le_toNat_round_iff number (by omega) small).mp reached.ge
  have below := (le_toNat_floor_iff number (m := m - 1) (by omega) (by omega)).mpr (by
    rw [Nat.cast_pred (by omega)]
    linarith)
  omega

theorem lookup_pos (h : Regular points) (monotone : Rising points ∨ Falling points)
    (number : x.isNaN = false) (nonneg : 0 ≤ Single.value x)
    (zero : 0.0 < (lookup points).value (hysteresisCode (lookup points) 0.0)) :
    0.0 < (lookup points).value (hysteresisCode (lookup points) x) := by
  rcases eq_or_ne points [] with rfl | some
  · exact zero
  have number_zero : (points.eval 0.0).isNaN = false := by
    rcases monotone with rising | falling
    · exact (eval_rising h rising some isNaN_zero).1
    · exact (eval_falling h falling some isNaN_zero isNaN_zero le_rfl).1
  obtain ⟨least, exact⟩ := firstPositive_lookup number_zero
  have close := quantize_le_floor number_zero
  have codes := fun x : Float32 => toNat_max ((lookup points).quantize x .nearest)
    (lookup points).firstPositive
  have final := toNat_le_lastCode ((lookup points).quantize 0.0 .nearest)
  -- either the request has the first positive code, or a larger one that it shares with zero where
  -- codes fall
  rcases le_or_gt ((lookup points).quantize x .nearest).toNat
    (lookup points).firstPositive.toNat with first | beyond
  · have code : hysteresisCode (lookup points) x = (lookup points).firstPositive :=
      UInt16.toNat_inj.mp ((codes x).trans (max_eq_right first))
    rw [code]
    rcases le_or_gt ((lookup points).quantize 0.0 .nearest).toNat
      (lookup points).firstPositive.toNat with first | beyond
    · rwa [show hysteresisCode (lookup points) 0.0 = (lookup points).firstPositive from
        UInt16.toNat_inj.mp ((codes 0.0).trans (max_eq_right first))] at zero
    · rcases exact (UInt16.toNat_inj.mp (by omega)) with last | positive
      · rw [last] at close least
        change 65535 ≤ _ at least
        omega
      · exact positive
  · have code : hysteresisCode (lookup points) x = (lookup points).quantize x .nearest :=
      UInt16.toNat_inj.mp ((codes x).trans (max_eq_left beyond.le))
    have order : (hysteresisCode (lookup points) 0.0).toNat ≤
        ((lookup points).quantize x .nearest).toNat :=
      (codes 0.0).trans_le (max_le (by omega) beyond.le)
    have reached : ((lookup points).quantize 0.0 .nearest).toNat ≤
        (hysteresisCode (lookup points) 0.0).toNat := (le_max_left _ _).trans_eq (codes 0.0).symm
    rcases order.lt_or_eq with more | same
    · rw [code]
      rcases monotone with rising | falling
      · exact value_pos_of_rising h rising reached zero more (quantize_rising h rising some number)
      · have := quantize_falling h falling some number nonneg
        omega
    · rwa [code, ← UInt16.toNat_inj.mp same]

end Lookup

/-- A register layout for a hysteresis as it should be. Tables ascend, steps are positive, and the
codes of a look-up table rise or fall. -/
def Valid : Encoding Float32 → Prop
  | table entries => entries.Pairwise (· ≤ ·)
  | linear offset gain least greatest =>
    offset.isFinite = true ∧ gain.isFinite = true ∧ 0.0 < gain ∧ least ≤ greatest
  | lookup points => Curve.Regular points ∧ (Curve.Rising points ∨ Curve.Falling points)

def Supports : Encoding Float32 → UInt16 → Prop
  | table entries, code => code.toNat < entries.length
  | linear _ _ least greatest, code => least ≤ code ∧ code ≤ greatest
  | lookup points, code => ∃ p ∈ points, ∃ q ∈ points,
    Single.value p.2 ≤ code.toNat ∧ code.toNat ≤ Single.value q.2

variable {h : Encoding Float32}

theorem firstPositive_le_hysteresisCode (h : Encoding Float32) (wanted : Float32) :
    h.firstPositive ≤ hysteresisCode h wanted := by
  rw [UInt16.le_iff_toNat_le, hysteresisCode, toNat_max]
  exact le_max_right _ _

theorem hysteresisCode_pos_iff (valid : h.Valid)
    (supported : ∃ code, h.Supports code ∧ 0.0 < h.value code) :
    (∀ wanted : Float32, wanted.isNaN = false → 0 ≤ Single.value wanted →
      0.0 < h.value (hysteresisCode h wanted)) ↔
    ∀ points, h = lookup points → 0.0 < h.value (hysteresisCode h 0.0) := by
  refine ⟨fun all _ _ => all 0.0 isNaN_zero value_zero.ge, fun zero wanted number nonneg => ?_⟩
  obtain ⟨code, supports, positive⟩ := supported
  have least := h.firstPositive_le_hysteresisCode wanted
  cases h with
  | table entries => exact table_pos valid supports positive least
  | linear offset gain low high =>
    obtain ⟨finite, finite', ascends, -⟩ := valid
    exact linear_pos finite finite' ascends supports.1 supports.2 positive least
  | lookup points => exact lookup_pos valid.1 valid.2 number nonneg (zero points rfl)

end Encoding

theorem Config.setpoint_hysteresis (config : Config) {kind : Protection}
    (cell : kind = .cellOvervoltage ∨ kind = .cellUndervoltage) :
    (config.setpoint kind).hysteresis.isNaN = false ∧
      0 ≤ Single.value (config.setpoint kind).hysteresis := by
  have limited : ∀ distance : Float32, (maxNum distance 0.0).isNaN = false ∧
      0 ≤ Single.value (maxNum distance 0.0) := by
    intro distance
    unfold maxNum
    split
    · exact ⟨isNaN_zero, value_zero.ge⟩
    · rename_i number
      rw [Bool.not_eq_true] at number
      split
      · exact ⟨isNaN_zero, value_zero.ge⟩
      · rename_i above
        exact ⟨number, value_zero.symm.trans_le ((not_lt_iff number isNaN_zero).mp above)⟩
  rcases cell with rfl | rfl <;> exact limited _

namespace Controller

variable {σ ε : Type} {n : Nat} [FrontEnd σ ε n]

def WritesPositive (kind : Protection) (h : Encoding Float32) (c : Controller σ n) : Prop :=
  ∃ codes code answer?,
    since c (c.attempt (program kind)).2 = [⟨.protect kind codes, answer?, c.moment⟩] ∧
      codes.hysteresis = some code ∧ 0.0 < h.value code

theorem writesPositive_iff {kind : Protection} {encoding : ProtectionEncoding}
    {h : Encoding Float32} {c : Controller σ n}
    (laid : FrontEnd.encoding? c.frontEnd kind = some encoding)
    (found : encoding.hysteresis = some h) :
    WritesPositive kind h c ↔
      0.0 < h.value (ProtectionEncoding.hysteresisCode h (c.config.setpoint kind).hysteresis) := by
  obtain ⟨answer?, logged⟩ := program_logged laid
  have wrote := ProtectionEncoding.hysteresis_meet encoding (c.config.setpoint kind)
  rw [found, Option.map_some] at wrote
  rw [WritesPositive, logged.since_eq]
  constructor
  · rintro ⟨codes, code, answer?, same, sent, positive⟩
    obtain ⟨-, rfl⟩ := Request.protect.inj (congrArg Entry.request (List.singleton_inj.mp same))
    obtain rfl := Option.some.inj (wrote.symm.trans sent)
    exact positive
  · intro positive
    exact ⟨_, _, answer?, rfl, wrote, positive⟩

/-- When the hysteresis of a voltage limit never collapses to zero: with a table or equal steps
always, with a look-up table exactly if it does not for a limit without a hysteresis. -/
theorem hysteresis_positive_iff {kind : Protection} {encoding : ProtectionEncoding}
    {h : Encoding Float32} {s : σ} (cell : kind = .cellOvervoltage ∨ kind = .cellUndervoltage)
    (laid : FrontEnd.encoding? s kind = some encoding) (found : encoding.hysteresis = some h)
    (valid : h.Valid) (supported : ∃ code, h.Supports code ∧ 0.0 < h.value code) :
    (∀ c : Controller σ n, c.frontEnd = s → WritesPositive kind h c) ↔
      ∀ points, h = .lookup points →
        0.0 < h.value (ProtectionEncoding.hysteresisCode h 0.0) := by
  rw [← Encoding.hysteresisCode_pos_iff valid supported]
  constructor
  · intro all
    -- a configuration without any limits asks for no hysteresis
    refine (Encoding.hysteresisCode_pos_iff valid supported).mpr fun _ _ => ?_
    have none := (writesPositive_iff laid found).mp (all (.new s (.ofChemistry .custom 10.0)) rfl)
    have zero : ((Config.ofChemistry .custom 10.0).setpoint kind).hysteresis = 0.0 := by
      rcases cell with rfl | rfl <;> decide +kernel
    rwa [show (Controller.new s (.ofChemistry .custom 10.0) : Controller σ n).config =
      .ofChemistry .custom 10.0 from rfl, zero] at none
  · rintro all c rfl
    obtain ⟨number, nonneg⟩ := c.config.setpoint_hysteresis cell
    exact (writesPositive_iff laid found).mpr (all _ number nonneg)

end Controller

namespace Bench

def halfVolt (rising : Bool) : Curve Float32 :=
  if rising then [(0.0, 0.0), (0.5, 10.0)] else [(0.0, 10.0), (0.5, 0.0)]

theorem valid_halfVolt (rising : Bool) : (Encoding.lookup (halfVolt rising)).Valid := by
  have zero : Curve.IsCode 0.0 := ⟨by decide +kernel, 0, by decide, by decide +kernel⟩
  have ten : Curve.IsCode 10.0 := ⟨by decide +kernel, 10, by decide, by decide +kernel⟩
  cases rising
  · refine ⟨⟨by decide +kernel, by decide +kernel, ?_, by decide +kernel⟩, .inr ?_⟩
    · rintro p (_ | ⟨_, _ | ⟨_, ⟨⟩⟩⟩)
      exacts [ten, zero]
    · unfold Curve.Falling
      decide +kernel
  · refine ⟨⟨by decide +kernel, by decide +kernel, ?_, by decide +kernel⟩, .inl ?_⟩
    · rintro p (_ | ⟨_, _ | ⟨_, ⟨⟩⟩⟩)
      exacts [zero, ten]
    · unfold Curve.Rising
      decide +kernel

theorem supported_halfVolt (rising : Bool) : ∃ code,
    (Encoding.lookup (halfVolt rising)).Supports code ∧
      0.0 < (Encoding.lookup (halfVolt rising)).value code := by
  refine ⟨5, ?_, by cases rising <;> decide +kernel⟩
  cases rising
  · exact ⟨_, List.mem_cons_of_mem _ List.mem_cons_self, _, List.mem_cons_self, by decide +kernel,
      by decide +kernel⟩
  · exact ⟨_, List.mem_cons_self, _, List.mem_cons_of_mem _ List.mem_cons_self, by decide +kernel,
      by decide +kernel⟩

def releasing (rising : Bool) : ProtectionEncoding :=
  ⟨.linear 0.0 0.05 20 110, none, some (.lookup (halfVolt rising))⟩

def limited (rising : Bool) : Controller (Bench 1) 1 :=
  .new
    { uniform 1 3.6 with
      protections := fun
        | .cellOvervoltage => some (releasing rising)
        | _ => none }
    (.ofChemistry .nmc 10.0)

end Bench

namespace Controller

theorem hysteresis_positive_halfVolt :
    (Encoding.lookup (Bench.halfVolt true)).Valid ∧
      WritesPositive .cellOvervoltage (.lookup (Bench.halfVolt true)) (Bench.limited true) := by
  have valid := Bench.valid_halfVolt true
  have all := (hysteresis_positive_iff (.inl rfl)
    (rfl : FrontEnd.encoding? (Bench.limited true).frontEnd .cellOvervoltage =
      some (Bench.releasing true)) rfl valid (Bench.supported_halfVolt true)).mpr
    fun _ _ => by decide +kernel
  exact ⟨valid, all (Bench.limited true) rfl⟩

/-- Where codes fall, the code past the one of zero stands for a negative value, and the larger one
of two codes for the smaller value. A hysteresis of a fifth of a volt is then programmed as zero. -/
theorem hysteresis_not_always_positive :
    ¬∀ (c : Controller (Bench 1) 1) (kind : Protection) (encoding : ProtectionEncoding)
        (h : Encoding Float32), kind = .cellOvervoltage ∨ kind = .cellUndervoltage →
      c.frontEnd.protections kind = some encoding → encoding.hysteresis = some h → h.Valid →
      (∃ code, h.Supports code ∧ 0.0 < h.value code) → WritesPositive kind h c := by
  intro always
  have positive := always (Bench.limited false) .cellOvervoltage (Bench.releasing false) _
    (.inl rfl) rfl rfl (Bench.valid_halfVolt false) (Bench.supported_halfVolt false)
  rw [writesPositive_iff (rfl : FrontEnd.encoding? (Bench.limited false).frontEnd .cellOvervoltage =
    some (Bench.releasing false)) rfl] at positive
  exact absurd positive (by decide +kernel)

end Controller
end PackGuard
