import PackGuard.Controller.Balancing
import PackGuard.Controller.Charge
import PackGuard.Controller.Faults
import PackGuard.Controller.Protection
import PackGuard.Controller.Switching

/-!
The control cycle: measurements, faults, switches, balancing and charge, in this order. Failed
readings keep the previous values; several failed cycles in a row are reported.
-/

namespace PackGuard.Controller

variable {σ ε : Type} {n : Nat} [FrontEnd σ ε n]

/-- The number of failed cycles in a row from which the front-end counts as unresponsive. -/
def failureLimit : Nat := 5

def greatestCount : Nat := 255

def readCells : EStateM ε (Controller σ n) Unit := do
  let reading ← command .readCells
  modify fun c => { c with status := c.status.withCells c.config reading }

def readCurrent (now : Nat) : EStateM ε (Controller σ n) Unit := do
  let current ← command .readCurrent
  modify fun c => { c with status := c.status.withCurrent c.config current now }

def readTemperatures : EStateM ε (Controller σ n) Unit := do
  let reading ← command .readTemperatures
  modify fun c => { c with status := c.status.withTemperatures reading }

def readReport : EStateM ε (Controller σ n) Unit := do
  let report ← command .readReport
  modify fun c => { c with report }

/-- Counts the failed cycles in a row. The front-end counts as unresponsive from the limit on, and
then until a cycle is complete. -/
def noteCycle (complete : Bool) (c : Controller σ n) : Controller σ n :=
  let failedCycles := if complete then 0 else min (c.failedCycles + 1) greatestCount
  let unresponsive := !complete && (c.status.unresponsive || failureLimit ≤ failedCycles)
  { c with failedCycles, status := { c.status with unresponsive } }

def refresh (now : Nat) (c : Controller σ n) : Bool × Controller σ n :=
  let (cells, c) := c.attempt readCells
  let (current, c) := c.attempt (readCurrent now)
  let (temperatures, c) := c.attempt readTemperatures
  let (report, c) := c.attempt readReport
  let complete := cells && current && temperatures && report
  (complete, c.noteCycle complete)

def tick (now : Nat) (c : Controller σ n) : Controller σ n :=
  let c := (c.refresh now).2
  let c := c.handleFaults now
  let c := (c.attempt (updateState now)).2
  let c := (c.attempt (balance now)).2
  c.updateCharge now

/-- Activates the front-end, programs all protections, and estimates the charge from a first
measurement, complete or not. -/
def start (now : Nat) : EStateM (ControlError ε) (Controller σ n) Unit := do
  ask (.enterMode .active)
  programAll
  modify fun c => (c.refresh now).2.resetCharge .estimate

def shutDown : EStateM ε (Controller σ n) Unit := do
  command (.enterMode .off)
  modify fun c => { c with status := { c.status with state := .off } }

def enableCharge (on : Bool) (c : Controller σ n) : Controller σ n :=
  { c with status := { c.status with chargeEnabled := on } }

def enableDischarge (on : Bool) (c : Controller σ n) : Controller σ n :=
  { c with status := { c.status with dischargeEnabled := on } }

end PackGuard.Controller
