import PackGuard.Encoding
import PackGuard.Scalar.Single

/-!
The protections a front-end may carry out by itself, and how it lays out their registers.
-/

namespace PackGuard

/-- The protections. Thresholds are in volts, in millivolts across the shunt, or in degrees
Celsius. -/
inductive Protection where
  | cellOvervoltage
  | cellUndervoltage
  | shortCircuit
  | dischargeOvercurrent
  | chargeOvercurrent
  | chargeOvertemperature
  | chargeUndertemperature
  | dischargeOvertemperature
  | dischargeUndertemperature
  deriving DecidableEq, Repr

structure ProtectionEncoding where
  threshold : Encoding Float32
  /-- Missing if the delay cannot be chosen. -/
  delay : Option (Encoding Float32)
  /-- How far behind the threshold the protection is released; missing if that is left to the
  fault monitor. -/
  hysteresis : Option (Encoding Float32)

structure ProtectionCodes where
  threshold : UInt16
  delay : Option UInt16
  hysteresis : Option UInt16
  deriving DecidableEq, Repr

end PackGuard
