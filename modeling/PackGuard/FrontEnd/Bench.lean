import PackGuard.FrontEnd.Basic

/-!
A front-end on the bench: it answers with the values it was set to, and refuses what it is told to
refuse. A request that is refused changes nothing.
-/

namespace PackGuard

inductive RequestKind where
  | readCells
  | readCurrent
  | readTemperatures
  | readReport
  | clear
  | protect
  | setSwitch
  | balance
  | enterMode
  deriving DecidableEq, Repr

def Request.kind : Request → RequestKind
  | readCells => .readCells
  | readCurrent => .readCurrent
  | readTemperatures => .readTemperatures
  | readReport => .readReport
  | clear .. => .clear
  | protect .. => .protect
  | setSwitch .. => .setSwitch
  | balance .. => .balance
  | enterMode .. => .enterMode

inductive BenchError where
  | refused
  deriving DecidableEq, Repr

structure Bench (n : Nat) where
  cells : Vector Float32 n
  /-- A measurement of the whole pack, if there is one. -/
  pack : Option Float32 := none
  /-- The pack current in milliamperes. -/
  current : Int := 0
  sensors : List Float32 := [25.0, 25.0]
  chipTemperature : Float32 := 30.0
  report : Report := {}
  stickyFaults : FaultSet := ∅
  stickyAlerts : AlertSet := ∅
  hardware : FaultSet
  protections : Protection → Option ProtectionEncoding := fun _ => none
  refusedKinds : List RequestKind := []
  /-- The requests to refuse, by their number since the count was started. -/
  refusedRequests : List Nat := []
  requestCount : Nat := 0

namespace Bench

variable {n : Nat}

def defaultHardware : FaultSet :=
  {.cellUndervoltage, .cellOvervoltage, .shortCircuit, .dischargeOvercurrent, .openWire}

def uniform (n : Nat) (voltage : Float32) : Bench n :=
  { cells := Vector.replicate n voltage, hardware := defaultHardware }

def restart (refusedRequests : List Nat) (b : Bench n) : Bench n :=
  { b with refusedRequests, requestCount := 0 }

def setSwitch (switch : Switch) (closed : Bool) (b : Bench n) : Bench n :=
  match switch with
  | .charge => { b with report := { b.report with charging := closed } }
  | .discharge => { b with report := { b.report with discharging := closed } }
  | .precharge => b

def answer (b : Bench n) : (request : Request) → request.Answer n × Bench n
  | .readCells => (.ofCells b.cells b.pack, b)
  | .readCurrent => (b.current, b)
  | .readTemperatures => (.ofSensors b.sensors b.chipTemperature, b)
  | .readReport => (b.report, b)
  | .clear faults alerts =>
    ((), { b with
      report :=
        { b.report with
          faults := b.report.faults \ (faults \ b.stickyFaults)
          alerts := b.report.alerts \ (alerts \ b.stickyAlerts) } })
  | .protect .. => ((), b)
  | .setSwitch switch closed => ((), b.setSwitch switch closed)
  | .balance .. => ((), b)
  | .enterMode .active => ((), b)
  | .enterMode .off => ((), (b.setSwitch .charge false).setSwitch .discharge false)

def refuses (b : Bench n) (request : Request) : Bool :=
  b.requestCount ∈ b.refusedRequests || request.kind ∈ b.refusedKinds

def perform (request : Request) : EStateM BenchError (Bench n) (request.Answer n) := fun b =>
  let counted := { b with requestCount := b.requestCount + 1 }
  if b.refuses request then .error .refused counted
  else
    let (answer, after) := counted.answer request
    .ok answer after

instance : FrontEnd (Bench n) BenchError n where
  perform := perform
  hardwareFaults b := b.hardware
  encoding? b := b.protections
  startupDelay _ := 0

end Bench
end PackGuard
