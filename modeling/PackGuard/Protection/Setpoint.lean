import PackGuard.Config
import PackGuard.Protection.Kind

/-!
From a configured limit to register codes and back. A `Setpoint` is what the configuration asks
of a protection; `ProtectionEncoding.meet` picks the codes that come closest on the tight side,
and `Config.store` keeps what they achieve.
-/

namespace PackGuard

/-- The side of a limit. An upper limit may only be lowered, a lower limit only raised. -/
inductive Bound where
  | upper
  | lower
  deriving DecidableEq, Repr

structure Setpoint where
  limit : Float32
  delay : Float32
  /-- The distance between the limit and the point of release. -/
  hysteresis : Float32
  bound : Bound

structure Achieved where
  limit : Float32
  delay : Option Float32
  reset : Float32
  /-- The hysteresis of the front-end, if it has one. -/
  hysteresis : Option Float32

namespace Bound

def rounding : Bound → Rounding
  | upper => .down
  | lower => .up

def release (bound : Bound) (limit hysteresis : Float32) : Float32 :=
  match bound with
  | upper => limit - hysteresis
  | lower => limit + hysteresis

end Bound

namespace ProtectionEncoding

/-- The code of a hysteresis, which is never rounded to zero. -/
def hysteresisCode (encoding : Encoding Float32) (wanted : Float32) : UInt16 :=
  max (encoding.quantize wanted .nearest) encoding.firstPositive

def meet (encoding : ProtectionEncoding) (wanted : Setpoint) : ProtectionCodes × Achieved :=
  let (threshold, limit) := encoding.threshold.apply wanted.limit wanted.bound.rounding
  let delay := encoding.delay.map fun e => e.apply wanted.delay .nearest
  let hysteresis := encoding.hysteresis.map fun e =>
    let raw := hysteresisCode e wanted.hysteresis
    (raw, e.value raw)
  ({ threshold, delay := delay.map Prod.fst, hysteresis := hysteresis.map Prod.fst },
    { limit
      delay := delay.map Prod.snd
      reset := wanted.bound.release limit ((hysteresis.map Prod.snd).getD wanted.hysteresis)
      hysteresis := hysteresis.map Prod.snd })

end ProtectionEncoding

/-- A delay as a whole number of its unit, within 32 bits. -/
def wholeDelay (delay : Float32) : Nat := (Single.truncate 0 4294967295 (Single.round delay)).toNat

namespace CurrentLimit

/-- The setpoint of a current limit, measured across the shunt. -/
def setpoint (limit : CurrentLimit) (shunt : Float32) : Setpoint :=
  ⟨limit.limit * shunt, Float32.ofNat limit.delay, 0.0, .upper⟩

def store (limit : CurrentLimit) (shunt : Float32) (achieved : Achieved) : CurrentLimit :=
  ⟨achieved.limit / shunt, (achieved.delay.map wholeDelay).getD limit.delay⟩

end CurrentLimit

namespace VoltageLimit

/-- The setpoint of a voltage limit. The point of release keeps its distance, which counts as zero
on the wrong side of the limit. -/
def setpoint (limit : VoltageLimit) (bound : Bound) : Setpoint :=
  let distance := match bound with
    | .upper => limit.limit - limit.reset
    | .lower => limit.reset - limit.limit
  ⟨limit.limit, Float32.ofNat limit.delay, Single.maxNum distance 0.0, bound⟩

def store (limit : VoltageLimit) (achieved : Achieved) : VoltageLimit :=
  ⟨achieved.limit, achieved.reset, (achieved.delay.map wholeDelay).getD limit.delay⟩

end VoltageLimit

namespace Config

def setpoint (config : Config) : Protection → Setpoint
  | .cellOvervoltage => config.overvoltage.setpoint .upper
  | .cellUndervoltage => config.undervoltage.setpoint .lower
  | .shortCircuit => config.shortCircuit.setpoint config.shunt
  | .dischargeOvercurrent => config.dischargeOvercurrent.setpoint config.shunt
  | .chargeOvercurrent => config.chargeOvercurrent.setpoint config.shunt
  | .dischargeOvertemperature => ofTemperature config.discharging.greatest .upper
  | .dischargeUndertemperature => ofTemperature config.discharging.least .lower
  | .chargeOvertemperature => ofTemperature config.charging.greatest .upper
  | .chargeUndertemperature => ofTemperature config.charging.least .lower
where
  /-- A temperature limit has no delay, and shares one hysteresis with the others. -/
  ofTemperature (limit : Float32) (bound : Bound) : Setpoint :=
    ⟨limit, 0.0, config.temperatureHysteresis, bound⟩

def store (config : Config) (kind : Protection) (achieved : Achieved) : Config :=
  match kind with
  | .cellOvervoltage => { config with overvoltage := config.overvoltage.store achieved }
  | .cellUndervoltage => { config with undervoltage := config.undervoltage.store achieved }
  | .shortCircuit => { config with shortCircuit := config.shortCircuit.store config.shunt achieved }
  | .dischargeOvercurrent =>
    { config with dischargeOvercurrent := config.dischargeOvercurrent.store config.shunt achieved }
  | .chargeOvercurrent =>
    { config with chargeOvercurrent := config.chargeOvercurrent.store config.shunt achieved }
  | .dischargeOvertemperature =>
    { shared with discharging := { shared.discharging with greatest := achieved.limit } }
  | .dischargeUndertemperature =>
    { shared with discharging := { shared.discharging with least := achieved.limit } }
  | .chargeOvertemperature =>
    { shared with charging := { shared.charging with greatest := achieved.limit } }
  | .chargeUndertemperature =>
    { shared with charging := { shared.charging with least := achieved.limit } }
where
  /-- A temperature protection with a hysteresis of its own sets the common one. -/
  shared : Config :=
    { config with
      temperatureHysteresis := achieved.hysteresis.getD config.temperatureHysteresis }

end Config
end PackGuard
