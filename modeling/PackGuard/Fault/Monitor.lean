import PackGuard.Fault.Check
import PackGuard.Fault.Tracker

/-!
The trackers of all faults and alerts, what each of them sees in a cycle, and what they report.
-/

namespace PackGuard

namespace FaultKind

/-- Whether a confirmed fault is cleared without waiting for the measurement, to see whether it
comes back. -/
def retriesBlindly : FaultKind → Bool
  | shortCircuit | dischargeOvercurrent | chargeOvercurrent | openWire | cellFailure
  | internalOvertemperature | switchOvertemperature => true
  | _ => false

/-- How long a confirmed fault waits between attempts to clear it, in seconds. -/
def retryWindow : FaultKind → Nat
  | shortCircuit | dischargeOvercurrent | chargeOvercurrent => 60
  | openWire | cellFailure | internalOvertemperature | switchOvertemperature => 10
  | _ => 1

/-- How long a fault judged by the measurements has to last, in milliseconds. -/
def delay (kind : FaultKind) (config : Config) : Nat :=
  match kind with
  | cellUndervoltage => config.undervoltage.delay
  | cellOvervoltage => config.overvoltage.delay
  | dischargeOvercurrent => config.dischargeOvercurrent.delay
  | chargeOvercurrent => config.chargeOvercurrent.delay
  | _ => 0

def pace (kind : FaultKind) (config : Config) : Pace := ⟨kind.delay config, kind.retryWindow⟩

/-- What a cycle shows of a fault that stands at `phase`. A fault detected by the front-end is
seen in its report. Any other is judged by the measurements: by the limit as long as it is not
reported, and by the point of release from then on. -/
def sighting? {n : Nat} (kind : FaultKind) (hardware : FaultSet) (config : Config)
    (status : Status n) (report : Report) (phase : Phase) : Option Sighting :=
  let check := kind.check? config status report
  let recovered := kind.retriesBlindly || (check.map Check.recovered).getD true
  if kind ∈ hardware then some ⟨kind ∈ report.faults, true, recovered⟩
  else check.map fun found =>
    ⟨if phase.flagged then !found.recovered else found.tripped, false, recovered⟩

end FaultKind

namespace Alert

def pace : Alert → Pace
  | notReady => ⟨0, 3⟩
  | overridden => ⟨0, 10⟩

def sighting (alert : Alert) (report : Report) : Sighting := ⟨alert ∈ report.alerts, true, true⟩

end Alert

structure Monitor where
  faults : Table FaultKind Tracker := .const {}
  alerts : Table Alert Tracker := .const {}

namespace Monitor

def phase (monitor : Monitor) (kind : FaultKind) : Phase := (monitor.faults.get kind).phase

def faultSet (monitor : Monitor) : FaultSet := .filterAll fun kind => (monitor.phase kind).flagged

def alertSet (monitor : Monitor) : AlertSet :=
  .filterAll fun alert => (monitor.alerts.get alert).phase.flagged

def trackFault (monitor : Monitor) (kind : FaultKind) (tracker : Tracker) : Monitor :=
  { monitor with faults := monitor.faults.set kind tracker }

def trackAlert (monitor : Monitor) (alert : Alert) (tracker : Tracker) : Monitor :=
  { monitor with alerts := monitor.alerts.set alert tracker }

end Monitor
end PackGuard
