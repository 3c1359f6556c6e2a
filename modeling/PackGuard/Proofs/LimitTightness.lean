import PackGuard.Chip.Device
import PackGuard.Proofs.Programming
import PackGuard.Proofs.TableCode
import PackGuard.Proofs.TripThreshold

/-!
Programming a threshold does not loosen it, as far as the register reaches. For every calibration of
the chip the setting that is written is as tight as the request, up to a step of the register; only
if no setting is, the tightest one is written. What the configuration keeps is that setting.
-/

namespace PackGuard

open Single

namespace Controller

variable {σ ε : Type} {n : Nat} [FrontEnd σ ε n]

theorem program_succeeded {kind : Protection} {c : Controller σ n}
    (done : (c.attempt (program kind)).1 = true) :
    ∃ encoding, FrontEnd.encoding? c.frontEnd kind = some encoding ∧
      (c.attempt (program kind)).2.journal =
        ⟨.protect kind (encoding.meet (c.config.setpoint kind)).1, some (), c.moment⟩ :: c.journal ∧
      (c.attempt (program kind)).2.config =
        c.config.store kind (encoding.meet (c.config.setpoint kind)).2 := by
  rw [attempt, program_eq] at done ⊢
  cases found : FrontEnd.encoding? c.frontEnd kind with
  | none =>
    rw [found] at done
    cases done
  | some encoding =>
    rw [found] at done
    dsimp only at done ⊢
    cases served : FrontEnd.perform (.protect kind (encoding.meet (c.config.setpoint kind)).1)
      c.frontEnd with
    | ok _ s => exact ⟨encoding, rfl, rfl, rfl⟩
    | error e s =>
      rw [served] at done
      cases done

end Controller

structure Config.LimitsFinite (config : Config) : Prop where
  overvoltage : config.overvoltage.limit.isFinite = true
  undervoltage : config.undervoltage.limit.isFinite = true
  shortCircuit : config.shortCircuit.limit.isFinite = true
  dischargeOvercurrent : config.dischargeOvercurrent.limit.isFinite = true
  shunt : config.shunt.isFinite = true

namespace Chip.Driver

variable {β δ : Type} [Bus β δ] {n : Nat} {d : Driver β n}

section Programming

/-- What a code of a threshold stands for, in volts, or in millivolts across the shunt. -/
def threshold (d : Driver β n) : Protection → ℕ → ℚ
  | .cellOvervoltage, code => d.trip overvoltageBase code
  | .cellUndervoltage, code => d.trip undervoltageBase code
  | .shortCircuit, code => Encoding.millivolts shortCircuitThresholds code
  | .dischargeOvercurrent, code => Encoding.millivolts overcurrentThresholds code
  | _, _ => 0

/-- A code is as tight as the configuration asks, for voltages up to a step of the register. -/
def Tight (d : Driver β n) (config : Config) (kind : Protection) (code : ℕ) : Prop :=
  match kind with
  | .cellOvervoltage => d.threshold kind code < value config.overvoltage.limit + d.tripStep
  | .cellUndervoltage => value config.undervoltage.limit - d.tripStep < d.threshold kind code
  | .shortCircuit =>
    Encoding.NotAbove config.shortCircuit.limit config.shunt (d.threshold kind code)
  | .dischargeOvercurrent =>
    Encoding.NotAbove config.dischargeOvercurrent.limit config.shunt (d.threshold kind code)
  | _ => False

/-- The next code on the loose side is past the request, for voltages up to a part of a step. -/
def Loosest (d : Driver β n) (config : Config) (kind : Protection) (code : ℕ) : Prop :=
  match kind with
  | .cellOvervoltage =>
    value config.overvoltage.limit < d.threshold kind (code + 1) + d.tripStep / 32
  | .cellUndervoltage =>
    d.threshold kind (code - 1) - d.tripStep / 32 < value config.undervoltage.limit
  | .shortCircuit =>
    value (config.shortCircuit.limit * config.shunt) < d.threshold kind (code + 1)
  | .dischargeOvercurrent =>
    value (config.dischargeOvercurrent.limit * config.shunt) < d.threshold kind (code + 1)
  | _ => False

/-- A limit is what a code stands for: for currents exactly, for voltages up to rounding. -/
def Reports (d : Driver β n) (kind : Protection) (code : ℕ) (limit : Float32) : Prop :=
  match kind with
  | .cellOvervoltage | .cellUndervoltage => Within limit (d.threshold kind code) (1 / 2 ^ 19)
  | .shortCircuit | .dischargeOvercurrent =>
    limit.isFinite = true ∧ value limit = d.threshold kind code
  | _ => False

def greatestCode : Protection → ℕ
  | .shortCircuit => Field.shortCircuitThreshold.mask.toNat
  | .dischargeOvercurrent => Field.overcurrentThreshold.mask.toNat
  | _ => 0xFF

def tightestCode : Protection → ℕ
  | .cellUndervoltage => 0xFF
  | _ => 0

def loosestCode : Protection → ℕ
  | .cellUndervoltage => 0
  | kind => greatestCode kind

/-- A code fits its register, and it is the loosest that is as tight as requested; if no code is, it
is the tightest one. The limit that is reported is what the code stands for. -/
structure Settled (d : Driver β n) (config : Config) (kind : Protection) (code : UInt16)
    (limit : Float32) : Prop where
  fits : code.toNat ≤ greatestCode kind
  tight : d.Tight config kind code.toNat ∨
    code.toNat = tightestCode kind ∧ ∀ other ≤ greatestCode kind, ¬d.Tight config kind other
  loosest : d.Loosest config kind code.toNat ∨ code.toNat = loosestCode kind
  reported : d.Reports kind code.toNat limit

theorem calibrated_of_enterMode {c : Controller (Driver β n) n}
    (done : (c.attempt (Controller.command (.enterMode .active))).1 = true) :
    (c.attempt (Controller.command (.enterMode .active))).2.frontEnd.Calibrated := by
  simp only [Controller.attempt, Controller.command] at done ⊢
  cases served : FrontEnd.perform (.enterMode .active) c.frontEnd with
  | ok _ d => exact calibrated_of_activate served
  | error e d =>
    rw [served] at done
    cases done

variable {config : Config} {kind : Protection}

theorem tight_tightestCode {other : ℕ} (fits : other ≤ greatestCode kind)
    (tight : d.Tight config kind other) : d.Tight config kind (tightestCode kind) := by
  have step := d.tripStep_nonneg
  cases kind
  case cellOvervoltage =>
    have above : 0 ≤ other * d.tripStep := by positivity
    refine lt_of_le_of_lt ?_ tight
    change d.trip overvoltageBase 0 ≤ d.trip overvoltageBase other
    rw [trip_eq d overvoltageBase other]
    linarith
  case cellUndervoltage =>
    have below : (other : ℚ) * d.tripStep ≤ (0xFF : ℕ) * d.tripStep :=
      mul_le_mul_of_nonneg_right (by exact_mod_cast fits) step
    refine lt_of_lt_of_le tight ?_
    change d.trip undervoltageBase other ≤ d.trip undervoltageBase 0xFF
    rw [trip_eq d undervoltageBase other, trip_eq d undervoltageBase 0xFF]
    linarith
  case shortCircuit =>
    have least : ∀ code ≤ 7, Encoding.millivolts shortCircuitThresholds 0 ≤
      Encoding.millivolts shortCircuitThresholds code := by decide +kernel
    exact tight.mono (least other fits)
  case dischargeOvercurrent =>
    have least : ∀ code ≤ 15, Encoding.millivolts overcurrentThresholds 0 ≤
      Encoding.millivolts overcurrentThresholds code := by decide +kernel
    exact tight.mono (least other fits)
  all_goals exact tight

theorem tight_or_unmet {code : ℕ} (h : d.Tight config kind code ∨ code = tightestCode kind) :
    d.Tight config kind code ∨
      code = tightestCode kind ∧ ∀ other ≤ greatestCode kind, ¬d.Tight config kind other := by
  by_cases tight : d.Tight config kind code
  · exact .inl tight
  · have tightest := h.resolve_left tight
    exact .inr ⟨tightest, fun other fits met => tight (tightest ▸ tight_tightestCode fits met)⟩

theorem settled_overvoltage (calibrated : d.Calibrated) (finite : config.LimitsFinite) :
    let encoding := d.tripEncoding overvoltageBase
    let code := encoding.quantize config.overvoltage.limit .down
    d.Settled config .cellOvervoltage code (encoding.value code) := by
  intro encoding code
  have steps := evenSteps_trip calibrated (le_refl overvoltageBase)
  obtain ⟨fits, tight, loosest⟩ := Encoding.quantize_linear_down steps finite.overvoltage
  have reported := Encoding.within_value_linear steps fits
  rw [← trip_eq] at tight reported
  refine ⟨fits, tight_or_unmet ?_, ?_, reported⟩
  · rcases tight with first | tight
    · exact .inr (congrArg UInt16.toNat first)
    · exact .inl (tight.trans_le (by linarith [d.tripStep_nonneg]))
  · rcases loosest with last | loosest
    · exact .inr (congrArg UInt16.toNat last)
    · left
      change _ < d.trip overvoltageBase (code.toNat + 1) + d.tripStep / 32
      rw [trip_eq, Nat.cast_add_one]
      exact loosest

theorem settled_undervoltage (calibrated : d.Calibrated) (finite : config.LimitsFinite) :
    let encoding := d.tripEncoding undervoltageBase
    let code := encoding.quantize config.undervoltage.limit .up
    d.Settled config .cellUndervoltage code (encoding.value code) := by
  intro encoding code
  have steps := evenSteps_trip calibrated (by decide : undervoltageBase ≤ overvoltageBase)
  obtain ⟨fits, tight, loosest⟩ := Encoding.quantize_linear_up steps finite.undervoltage
  have reported := Encoding.within_value_linear steps fits
  rw [← trip_eq] at tight reported
  refine ⟨fits, tight_or_unmet ?_, ?_, reported⟩
  · rcases tight with last | tight
    · exact .inr (congrArg UInt16.toNat last)
    · exact .inl (lt_of_le_of_lt (by linarith [d.tripStep_nonneg]) tight)
  · by_cases first : code.toNat = 0
    · exact .inr first
    · left
      have loosest := loosest.resolve_left fun none => first (congrArg UInt16.toNat none)
      change d.trip undervoltageBase (code.toNat - 1) - d.tripStep / 32 < _
      rw [trip_eq, Nat.cast_pred (Nat.pos_of_ne_zero first)]
      exact loosest

theorem whole_shortCircuitThresholds : ∀ entry ∈ shortCircuitThresholds,
    entry.isFinite = true ∧ ∃ m : ℕ, m ≤ 200 ∧ value entry = m := by decide +kernel

theorem whole_overcurrentThresholds : ∀ entry ∈ overcurrentThresholds,
    entry.isFinite = true ∧ ∃ m : ℕ, m ≤ 200 ∧ value entry = m := by decide +kernel

theorem settled_of_encoding (calibrated : d.Calibrated) (finite : config.LimitsFinite)
    {encoding : ProtectionEncoding} (found : d.encoding? kind = some encoding) :
    d.Settled config kind (encoding.meet (config.setpoint kind)).1.threshold
      (encoding.meet (config.setpoint kind)).2.limit := by
  cases kind <;> cases found
  case cellOvervoltage => exact settled_overvoltage calibrated finite
  case cellUndervoltage => exact settled_undervoltage calibrated finite
  case shortCircuit =>
    obtain ⟨less, tight, loosest, reported⟩ := Encoding.quantize_table_down (by decide)
      (by decide) whole_shortCircuitThresholds finite.shortCircuit finite.shunt
    exact ⟨Nat.le_of_lt_succ less, tight_or_unmet tight, loosest.symm.imp_right Nat.succ.inj,
      reported⟩
  case dischargeOvercurrent =>
    obtain ⟨less, tight, loosest, reported⟩ := Encoding.quantize_table_down (by decide)
      (by decide) whole_overcurrentThresholds finite.dischargeOvercurrent finite.shunt
    exact ⟨Nat.le_of_lt_succ less, tight_or_unmet tight, loosest.symm.imp_right Nat.succ.inj,
      reported⟩

/-- Whenever a limit is programmed, the code that was sent to the chip is as tight as requested, up
to a step of the register, and no tighter than need be. If no code is as tight, it is the tightest
one. The configuration then holds what the code stands for. -/
theorem program_not_looser {c : Controller (Driver β n) n}
    (calibrated : c.frontEnd.Calibrated) (finite : c.config.LimitsFinite)
    (done : (c.attempt (Controller.program kind)).1 = true) :
    ∃ codes achieved,
      (c.attempt (Controller.program kind)).2.journal =
        ⟨.protect kind codes, some (), c.moment⟩ :: c.journal ∧
      (c.attempt (Controller.program kind)).2.config = c.config.store kind achieved ∧
      c.frontEnd.Settled c.config kind codes.threshold achieved.limit := by
  obtain ⟨encoding, found, journal, config⟩ := Controller.program_succeeded done
  exact ⟨_, _, journal, config, settled_of_encoding calibrated finite found⟩

def inactive : Controller (Driver Device 1) 1 :=
  .new (.new 1 {} 1.0 3435.0) (.ofChemistry .lto 10.0)

def titanate : Controller (Driver Device 1) 1 :=
  (inactive.attempt (Controller.command (.enterMode .active))).2

theorem calibrated_titanate : titanate.frontEnd.Calibrated := by
  have done : (inactive.attempt (Controller.command (.enterMode .active))).1 = true := by
    decide +kernel
  rw [titanate]
  exact calibrated_of_enterMode done

theorem limitsFinite_titanate : titanate.config.LimitsFinite := by
  constructor <;> decide +kernel

theorem program_not_looser_titanate :
    ∃ codes achieved,
      (titanate.attempt (Controller.program .cellUndervoltage)).2.journal =
        ⟨.protect .cellUndervoltage codes, some (), titanate.moment⟩ :: titanate.journal ∧
      (titanate.attempt (Controller.program .cellUndervoltage)).2.config =
        titanate.config.store .cellUndervoltage achieved ∧
      titanate.frontEnd.Settled titanate.config .cellUndervoltage codes.threshold achieved.limit :=
  program_not_looser calibrated_titanate limitsFinite_titanate (by decide +kernel)

/-- A request below the lowest threshold is met by that threshold: cells that are full at 2.85 V are
protected from 2.99 V on. -/
theorem program_not_always_tight :
    ¬∀ (c : Controller (Driver Device 1) 1) (kind : Protection),
      c.frontEnd.Calibrated → c.config.LimitsFinite → 0.0 < c.config.shunt →
      (c.attempt (Controller.program kind)).1 = true →
      ∃ codes,
        (c.attempt (Controller.program kind)).2.journal =
          ⟨.protect kind codes, some (), c.moment⟩ :: c.journal ∧
        c.frontEnd.Tight c.config kind codes.threshold.toNat := by
  intro always
  have done : (titanate.attempt (Controller.program .cellOvervoltage)).1 = true := by
    decide +kernel
  obtain ⟨codes, journal, tight⟩ := always titanate .cellOvervoltage calibrated_titanate
    limitsFinite_titanate (by decide +kernel) done
  obtain ⟨encoding, found, journal', -⟩ := Controller.program_succeeded done
  cases found
  have same := congrArg Entry.request (List.cons.inj (journal.symm.trans journal')).1
  obtain ⟨-, same⟩ := Request.protect.inj same
  have code : codes.threshold = 0 := by
    rw [same]
    decide +kernel
  rw [code] at tight
  change titanate.frontEnd.trip overvoltageBase 0 <
    value titanate.config.overvoltage.limit + titanate.frontEnd.tripStep at tight
  exact absurd tight (by decide +kernel)

end Programming

end Chip.Driver
end PackGuard
