import PackGuard.Proofs.CellLimits
import PackGuard.Proofs.HysteresisCode

/-!
The band between a cell voltage limit and its point of release, as programming leaves it behind.
The hysteresis may be infinite, which still leaves the release on its side. It is no number only
with steps of infinite size that start at code zero; then there is no release.
-/

namespace PackGuard

open Single

namespace Bound

variable {bound : Bound} {limit release hysteresis v : Float32}

def Keeps : Bound → (limit release : Float32) → Prop
  | upper, limit, release => release ≤ limit
  | lower, limit, release => limit ≤ release

instance : ∀ (bound : Bound) (limit release : Float32), Decidable (bound.Keeps limit release)
  | upper, limit, release => inferInstanceAs (Decidable (release ≤ limit))
  | lower, limit, release => inferInstanceAs (Decidable (limit ≤ release))

theorem keeps_release (finite : limit.isFinite = true) (number : hysteresis.isNaN = false)
    (nonneg : 0 ≤ value hysteresis) : bound.Keeps limit (bound.release limit hysteresis) := by
  have representable := representable_value finite
  have range := abs_le.mp representable.abs_le
  cases bounded : hysteresis.isFinite with
  | true =>
    cases bound
    · have difference := nearest_sub finite bounded
      exact le_iff.mpr ⟨difference.number, isNaN_of_isFinite finite,
        difference.le representable (sub_le_self _ nonneg)⟩
    · have sum := nearest_add finite bounded
      exact le_iff.mpr ⟨isNaN_of_isFinite finite, sum.number,
        sum.ge representable (le_add_of_nonneg_right nonneg)⟩
  | false =>
    have infinite := unpack_of_infinite_nonneg number bounded nonneg
    cases bound
    · have difference := sub_infinity finite infinite
      refine le_iff.mpr ⟨isNaN_of_infinity difference, isNaN_of_isFinite finite, ?_⟩
      rw [release, value_of_infinity difference, signum, neg_one_mul]
      exact range.1
    · have sum := (add_infinite finite number bounded).trans infinite
      refine le_iff.mpr ⟨isNaN_of_isFinite finite, isNaN_of_infinity sum, ?_⟩
      rw [release, value_of_infinity sum, signum, one_mul]
      exact range.2

theorem isNaN_release (none : hysteresis.isNaN = true) :
    (bound.release limit hysteresis).isNaN = true := by
  cases bound
  · exact isNaN_sub (.inr none)
  · exact isNaN_add (.inr none)

theorem not_keeps_of_isNaN (none : release.isNaN = true) : ¬bound.Keeps limit release := by
  cases bound <;> simp only [Keeps, le_iff, none] <;> simp

/-- No voltage is both beyond a limit and back behind the release, if there is one. -/
theorem not_behind_of_exceeded (band : bound.Keeps limit release ∨ release.isNaN = true)
    (beyond : bound.Exceeded limit v) : ¬bound.Behind release v := by
  intro behind
  cases bound <;> simp only [Keeps, Exceeded, Behind, le_iff, lt_iff] at band beyond behind
  · rcases band with keeps | none
    · linarith [keeps.2.2, beyond.2.2, behind.2.2]
    · rw [none] at behind
      exact absurd behind.2.1 (by decide)
  · rcases band with keeps | none
    · linarith [keeps.2.2, beyond.2.2, behind.2.2]
    · rw [none] at behind
      exact absurd behind.1 (by decide)

def cellProtection : Bound → Protection
  | upper => .cellOvervoltage
  | lower => .cellUndervoltage

theorem cellProtection_cases (bound : Bound) :
    bound.cellProtection = .cellOvervoltage ∨ bound.cellProtection = .cellUndervoltage := by
  cases bound <;> simp [cellProtection]

end Bound

namespace Encoding

def Ascends : Encoding Float32 → Prop
  | table entries => entries.Pairwise (· ≤ ·)
  | linear _ gain least greatest => 0.0 < gain ∧ least ≤ greatest
  | lookup _ => False

/-- Equal steps of infinite size from code zero on. That code stands for no number. -/
def Groundless : Encoding Float32 → Prop
  | linear _ gain least _ => gain.isFinite = false ∧ least = 0
  | _ => False

section Linear

variable {offset gain : Float32} {least greatest code other : UInt16}

theorem step_infinite (infinite : gain.isFinite = false) (positive : 0.0 < gain)
    (some : code ≠ 0) : (ofCode code * gain).toModel.unpack = .infinity .positive := by
  refine mul_infinity (isFinite_ofCode code) ?_ (unpack_of_infinite_pos infinite positive)
  rw [value_ofCode]
  have : code.toNat ≠ 0 := fun zero => some (UInt16.toNat_inj.mp zero)
  exact_mod_cast Nat.pos_of_ne_zero this

theorem steps_nonneg (positive : 0.0 < gain) (some : gain.isFinite = true ∨ code ≠ 0) :
    (ofCode code * gain).isNaN = false ∧ 0 ≤ Single.value (ofCode code * gain) := by
  cases bounded : gain.isFinite with
  | true =>
    have product := nearest_mul (isFinite_ofCode code) bounded
    have positive := pos_iff.mp positive
    rw [value_ofCode] at product
    exact ⟨product.number, product.ge representable_zero (by positivity)⟩
  | false =>
    have product := step_infinite bounded positive (some.resolve_left (by simp [bounded]))
    exact ⟨isNaN_of_infinity product, (pos_iff.mp (pos_of_infinity product)).le⟩

theorem linear_pos_of_infinite (positive : 0.0 < gain)
    (infinite : offset.isFinite = false ∨ gain.isFinite = false)
    (above : 0.0 < (linear offset gain least greatest).value code)
    (some : gain.isFinite = true ∨ other ≠ 0) :
    0.0 < (linear offset gain least greatest).value other := by
  obtain ⟨number, nonneg⟩ := steps_nonneg positive some
  cases bounded : offset.isFinite with
  | false => exact pos_of_infinity (infinity_add (infinity_of_add_pos bounded above) number nonneg)
  | true =>
    have infinite := infinite.resolve_left (by simp [bounded])
    have step := step_infinite infinite positive (some.resolve_left (by simp [infinite]))
    exact pos_of_infinity ((add_infinite bounded number (isFinite_of_infinity step)).trans step)

theorem seekPositive_of_not_le {encoding : Encoding Float32} {raw : UInt16}
    (high : ¬encoding.value raw ≤ 0.0) (steps : ℕ) : encoding.seekPositive steps raw = raw := by
  cases steps with
  | zero => rfl
  | succ steps => rw [seekPositive, if_neg high]

theorem linear_hysteresis_pos (positive : 0.0 < gain) (low : least ≤ code) (high : code ≤ greatest)
    (above : 0.0 < (linear offset gain least greatest).value code)
    (grounded : gain.isFinite = true ∨ least ≠ 0)
    (le : (linear offset gain least greatest).firstPositive ≤ other) :
    0.0 < (linear offset gain least greatest).value other := by
  by_cases finite : offset.isFinite = true ∧ gain.isFinite = true
  · exact linear_pos finite.1 finite.2 positive low high above le
  have infinite : offset.isFinite = false ∨ gain.isFinite = false := by
    simpa [-not_and, not_and_or] using finite
  refine linear_pos_of_infinite positive infinite above (grounded.imp_right fun some zero => ?_)
  -- the first code is positive itself, so the search for one ends there
  have first := linear_pos_of_infinite positive infinite above (.inr some)
  have stops : (linear offset gain least greatest).firstPositive = least :=
    seekPositive_of_not_le (fun le => absurd (le_iff.mp le).2.2 (not_le.mpr (lt_iff.mp first).2.2)) _
  rw [stops, zero, UInt16.le_iff_toNat_le] at le
  exact some (UInt16.toNat_inj.mp (Nat.le_zero.mp le))

theorem isNaN_value_zero (infinite : gain.isFinite = false) (positive : 0.0 < gain) :
    ((linear offset gain least greatest).value 0).isNaN = true :=
  isNaN_add (.inr (isNaN_zero_mul_infinity (s := .positive) rfl
    (unpack_of_infinite_pos infinite positive)))

theorem quantize_infinite (infinite : gain.isFinite = false) (positive : 0.0 < gain)
    (target : Float32) : (linear offset gain 0 greatest).quantize target .nearest = 0 := by
  simp only [quantize]
  rcases div_infinity (a := target - offset) (unpack_of_infinite_pos infinite positive) with
    none | ⟨s, zero⟩
  · rw [show Scalar.round ((target - offset) / gain) = (target - offset) / gain from
      mapUnits_of_not_isFinite _ (isFinite_of_isNaN none)]
    exact clampCode_of_isNaN none _ _
  · have units : units? ((target - offset) / gain) = Option.some 0 := by rw [units?, zero]
    have rounded : Scalar.round ((target - offset) / gain) = Float32.ofInt 0 := by
      change mapUnits roundUnits _ = _
      rw [mapUnits, units]
      rfl
    rw [rounded, clampCode, if_pos (by decide +kernel)]

end Linear

open ProtectionEncoding

variable {h : Encoding Float32}

theorem hysteresisCode_pos (ascends : h.Ascends) (grounded : ¬h.Groundless)
    (supported : ∃ code, h.Supports code ∧ 0.0 < h.value code) (wanted : Float32) :
    0.0 < h.value (hysteresisCode h wanted) := by
  obtain ⟨code, supports, positive⟩ := supported
  have least := h.firstPositive_le_hysteresisCode wanted
  cases h with
  | table entries => exact table_pos ascends supports positive least
  | linear offset gain low high =>
    refine linear_hysteresis_pos ascends.1 supports.1 supports.2 positive ?_ least
    rwa [Groundless, not_and_or, Bool.not_eq_false] at grounded
  | lookup points => exact ascends.elim

theorem isNaN_hysteresis (ascends : h.Ascends) (groundless : h.Groundless) (wanted : Float32) :
    (h.value (hysteresisCode h wanted)).isNaN = true := by
  cases h with
  | table entries | lookup points => exact groundless.elim
  | linear offset gain low high =>
    obtain ⟨infinite, rfl⟩ := groundless
    have none : ((linear offset gain 0 high).value 0).isNaN = true :=
      isNaN_value_zero infinite ascends.1
    have first : (linear offset gain 0 high).firstPositive = 0 :=
      seekPositive_of_not_le (fun le => absurd ((le_iff.mp le).1 ▸ none) Bool.false_ne_true) _
    rwa [hysteresisCode, quantize_infinite infinite ascends.1, first]

end Encoding

namespace Config

variable (config : Config) (bound : Bound)

theorem voltageLimit_store (achieved : Achieved) :
    (config.store bound.cellProtection achieved).voltageLimit bound =
      (config.voltageLimit bound).store achieved := by
  cases bound <;> rfl

end Config

namespace ProtectionEncoding

variable {encoding : ProtectionEncoding} {bound : Bound}

/-- The settings of the hysteresis ascend, and one of them is positive. Without any, the release is
left to the fault monitor. -/
def Releases (encoding : ProtectionEncoding) : Prop :=
  ∀ h, encoding.hysteresis = some h →
    h.Ascends ∧ ∃ code, h.Supports code ∧ 0.0 < h.value code

/-- The code of the hysteresis stands for a number, whatever is asked for. -/
def Grounded (encoding : ProtectionEncoding) : Prop :=
  ∀ h, encoding.hysteresis = some h → ¬h.Groundless

theorem band_meet (releases : encoding.Releases) (config : Config)
    (finite : (encoding.threshold.apply (config.voltageLimit bound).limit
      bound.rounding).2.isFinite = true) :
    let achieved := (encoding.meet (config.setpoint bound.cellProtection)).2
    (encoding.Grounded ∧ bound.Keeps achieved.limit achieved.reset) ∨
      (¬encoding.Grounded ∧ achieved.reset.isNaN = true) := by
  intro achieved
  have limit : achieved.limit = (encoding.threshold.apply (config.voltageLimit bound).limit
      bound.rounding).2 := by
    cases bound <;> rfl
  have reset : achieved.reset = bound.release achieved.limit
      (achieved.hysteresis.getD (config.setpoint bound.cellProtection).hysteresis) := by
    cases bound <;> rfl
  rw [← limit] at finite
  rw [reset]
  cases found : encoding.hysteresis with
  | none =>
    have wanted : achieved.hysteresis = none := by simp [achieved, meet, found]
    obtain ⟨number, nonneg⟩ := config.setpoint_hysteresis bound.cellProtection_cases
    rw [wanted]
    exact .inl ⟨by simp [Grounded, found], Bound.keeps_release finite number nonneg⟩
  | some h =>
    have code : achieved.hysteresis = some
        (h.value (hysteresisCode h (config.setpoint bound.cellProtection).hysteresis)) := by
      simp [achieved, meet, found]
    obtain ⟨ascends, supported⟩ := releases h found
    rw [code, Option.getD_some]
    by_cases groundless : h.Groundless
    · exact .inr ⟨fun grounded => grounded h found groundless,
        Bound.isNaN_release (Encoding.isNaN_hysteresis ascends groundless _)⟩
    · have positive := Encoding.hysteresisCode_pos ascends groundless supported
        (config.setpoint bound.cellProtection).hysteresis
      refine .inl ⟨fun h' found' => ?_, Bound.keeps_release finite (lt_iff.mp positive).2.1
        (pos_iff.mp positive).le⟩
      rw [found, Option.some.injEq] at found'
      rwa [← found']

end ProtectionEncoding

namespace Controller

variable {σ ε : Type} {n : Nat} [FrontEnd σ ε n] {c d : Controller σ n} {bound : Bound}
  {encoding : ProtectionEncoding}

theorem voltageLimit_of_program
    (laid : FrontEnd.encoding? c.frontEnd bound.cellProtection = some encoding)
    (done : program bound.cellProtection c = .ok () d) :
    d.config.voltageLimit bound = (c.config.voltageLimit bound).store
      (encoding.meet (c.config.setpoint bound.cellProtection)).2 := by
  rcases program_cases (rfl : FrontEnd.encoding? c.frontEnd bound.cellProtection = _) with
    ⟨missing, -⟩ | ⟨d', turn, ended⟩ | ⟨e, d', -, ended⟩
  · rw [laid] at missing
    cases missing
  · obtain rfl : d' = d := by
      rw [ended] at done
      exact (EStateM.Result.ok.inj done).2
    rw [turn.config_eq, Config.achieve, laid, ← Config.voltageLimit_store]
  · rw [ended] at done
    cases done

/-- Programming a cell voltage limit leaves its release on the near side, unless the hysteresis has
steps of infinite size from code zero on. A fault is never tripped and recovered at once. -/
theorem program_band
    (laid : FrontEnd.encoding? c.frontEnd bound.cellProtection = some encoding)
    (finite : (encoding.threshold.apply (c.config.voltageLimit bound).limit
      bound.rounding).2.isFinite = true)
    (releases : encoding.Releases) (done : program bound.cellProtection c = .ok () d) :
    (bound.Keeps (d.config.voltageLimit bound).limit (d.config.voltageLimit bound).reset ↔
      encoding.Grounded) ∧
    ∀ (status : Status n) (report : Report) (check : Check),
      bound.cellFault.check? d.config status report = some check →
        ¬(check.tripped = true ∧ check.recovered = true) := by
  have band := ProtectionEncoding.band_meet releases c.config finite
  have stored := voltageLimit_of_program laid done
  rw [stored]
  refine ⟨?_, ?_⟩
  · rcases band with ⟨grounded, keeps⟩ | ⟨groundless, none⟩
    · exact iff_of_true keeps grounded
    · exact iff_of_false (Bound.not_keeps_of_isNaN none) groundless
  · intro status report check found
    rw [FaultKind.check?_cellFault, Option.some.injEq] at found
    subst found
    rw [stored]
    simp only [Bool.and_eq_true, Bool.or_eq_true, Bool.not_eq_true', decide_eq_true_iff,
      decide_eq_false_iff_not]
    rintro ⟨⟨connected, beyond⟩, recovered⟩
    exact Bound.not_behind_of_exceeded (band.imp And.right And.right) beyond
      (recovered.resolve_left (not_not_intro connected))

end Controller

namespace Bench

def banded (h : Encoding Float32) (release : Float32) : Controller (Bench 1) 1 :=
  .new
    { uniform 1 3.6 with
      protections := fun
        | .cellOvervoltage => some ⟨.linear 0.0 0.05 20 110, none, some h⟩
        | _ => none }
    { Config.ofChemistry .nmc 10.0 with overvoltage := ⟨4.25, release, 2000⟩ }

def tenths : Encoding Float32 := .table [0.0, 0.1, 0.2]

def endless : Encoding Float32 := .linear 0.0 (Float32.ofBits 0x7f800000) 0 20

end Bench

namespace Controller

theorem program_band_table : ∃ d,
    program .cellOvervoltage (Bench.banded Bench.tenths nan) = .ok () d ∧
      d.config.overvoltage.reset ≤ d.config.overvoltage.limit := by
  have releases : (ProtectionEncoding.mk (.linear 0.0 0.05 20 110) none
      (some Bench.tenths)).Releases := by
    rintro h ⟨⟩
    refine ⟨?_, 1, ?_, by decide +kernel⟩
    · unfold Bench.tenths Encoding.Ascends
      decide +kernel
    · unfold Bench.tenths Encoding.Supports
      decide
  have grounded : (ProtectionEncoding.mk (.linear 0.0 0.05 20 110) none
      (some Bench.tenths)).Grounded := by
    rintro h ⟨⟩
    exact id
  have band := @program_band (Bench 1) BenchError 1 _ (Bench.banded Bench.tenths nan) _ .upper _ rfl
    (by decide +kernel) releases rfl
  exact ⟨_, rfl, band.1.mpr grounded⟩

/-- With steps of infinite size the code zero is chosen, and the release is no number. -/
theorem band_not_always_kept :
    ¬∀ (c d : Controller (Bench 1) 1) (bound : Bound) (encoding : ProtectionEncoding),
      c.frontEnd.protections bound.cellProtection = some encoding →
      (encoding.threshold.apply (c.config.voltageLimit bound).limit
        bound.rounding).2.isFinite = true →
      encoding.Releases → program bound.cellProtection c = .ok () d →
      bound.Keeps (d.config.voltageLimit bound).limit (d.config.voltageLimit bound).reset := by
  intro always
  have releases : (ProtectionEncoding.mk (.linear 0.0 0.05 20 110) none
      (some Bench.endless)).Releases := by
    rintro h ⟨⟩
    exact ⟨⟨by decide +kernel, by decide⟩, 1, ⟨by decide, by decide⟩, by decide +kernel⟩
  have keeps := always (Bench.banded Bench.endless 4.05) _ .upper _ rfl (by decide +kernel) releases
    rfl
  exact absurd keeps (by decide +kernel)

end Controller
end PackGuard
