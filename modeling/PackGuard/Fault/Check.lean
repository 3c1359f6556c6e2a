import PackGuard.Config
import PackGuard.FrontEnd.Basic
import PackGuard.Status

/-!
Faults as the measurements show them: whether the limit is exceeded, and whether the measurement
is back behind the point of release. Between the two neither holds.
-/

namespace PackGuard

structure Check where
  tripped : Bool
  /-- The point of release is reached. -/
  recovered : Bool
  deriving DecidableEq, Repr

namespace Check

def plain (tripped : Bool) : Check := ⟨tripped, !tripped⟩

def above (sensed : Bool) (value limit release : Float32) : Check :=
  ⟨sensed && limit < value, !sensed || value < release⟩

def below (sensed : Bool) (value limit release : Float32) : Check :=
  ⟨sensed && value < limit, !sensed || release < value⟩

end Check

namespace FaultKind

variable {n : Nat}

/-- Judges a fault by the measurements. Some faults only the front-end can see. Switch positions
tell nothing during an alert, when the front-end opens the switches by itself. -/
def check? (kind : FaultKind) (config : Config) (status : Status n) (report : Report) :
    Option Check :=
  let cells := status.cells
  let celled : Bool := 0 < cells.connected
  let temperatures := status.temperatures
  let sensed : Bool := 0 < temperatures.count
  let hysteresis := config.temperatureHysteresis
  let owned := report.alerts.isEmpty
  match kind with
  | cellUndervoltage =>
    some (.below celled cells.least config.undervoltage.limit config.undervoltage.reset)
  | cellOvervoltage =>
    some (.above celled cells.greatest config.overvoltage.limit config.overvoltage.reset)
  | dischargeOvercurrent => some (.plain (status.current < -config.dischargeOvercurrent.limit))
  | chargeOvercurrent => some (.plain (config.chargeOvercurrent.limit < status.current))
  | dischargeOvertemperature => some <|
    .above sensed temperatures.greatest config.discharging.greatest
      (config.discharging.greatest - hysteresis)
  | dischargeUndertemperature => some <|
    .below sensed temperatures.least config.discharging.least
      (config.discharging.least + hysteresis)
  | chargeOvertemperature => some <|
    .above sensed temperatures.greatest config.charging.greatest
      (config.charging.greatest - hysteresis)
  | chargeUndertemperature => some <|
    .below sensed temperatures.least config.charging.least (config.charging.least + hysteresis)
  | dischargeSwitchStuckOff =>
    some (.plain (owned && status.state.discharging && !report.discharging))
  | chargeSwitchStuckOn => some (.plain (owned && !status.state.charging && report.charging))
  | shortCircuit | openWire | internalOvertemperature | cellFailure | switchOvertemperature => none

end FaultKind
end PackGuard
