import PackGuard.Controller.Basic

/-!
One cycle of the fault monitor: every fault and then every alert is moved by what the cycle shows
of it, and those that are due are cleared. Failed attempts come round again in the next window.
-/

namespace PackGuard.Controller

variable {σ ε : Type} {n : Nat} [FrontEnd σ ε n]

/-- Looks after one fault. Only a fault that the front-end detects by itself has to be cleared
there. -/
def superviseFault (hardware : FaultSet) (now : Nat) (c : Controller σ n) (kind : FaultKind) :
    Controller σ n :=
  match kind.sighting? hardware c.config c.status c.report (c.monitor.phase kind) with
  | none => c
  | some seen =>
    let (tracker, due) := (c.monitor.faults.get kind).advance (kind.pace c.config) seen now
    let c := { c with monitor := c.monitor.trackFault kind tracker }
    if ¬ due then c
    else
      let (cleared, c) := if kind ∈ hardware then c.attempt (command (.clear {kind} ∅)) else (true, c)
      if cleared then { c with monitor := c.monitor.trackFault kind tracker.attempted } else c

def restoreSwitch (switch : Switch) (wanted : Bool) (c : Controller σ n) : Controller σ n :=
  if wanted then (c.attempt (command (.setSwitch switch true))).2 else c

def restoreSwitches (c : Controller σ n) : Controller σ n :=
  let c := c.restoreSwitch .discharge (c.status.state.discharging && c.status.dischargeAllowed)
  c.restoreSwitch .charge (c.status.state.charging && c.status.chargeAllowed)

def superviseAlert (now : Nat) (c : Controller σ n) (alert : Alert) : Controller σ n :=
  let (tracker, due) := (c.monitor.alerts.get alert).advance alert.pace (alert.sighting c.report) now
  let c := { c with monitor := c.monitor.trackAlert alert tracker }
  if ¬ due then c
  else
    let (cleared, c) := c.attempt (command (.clear ∅ {alert}))
    if cleared then
      restoreSwitches { c with monitor := c.monitor.trackAlert alert tracker.attempted }
    else c

def superviseFaults (now : Nat) (c : Controller σ n) : Controller σ n :=
  FaultKind.all.foldl (superviseFault (FrontEnd.hardwareFaults c.frontEnd) now) c

def reportFaults (c : Controller σ n) : Controller σ n :=
  { c with status := { c.status with faults := c.monitor.faultSet } }

def superviseAlerts (now : Nat) (c : Controller σ n) : Controller σ n :=
  Alert.all.foldl (superviseAlert now) c

def reportAlerts (now : Nat) (c : Controller σ n) : Controller σ n :=
  { c with
    status :=
      { c.status with
        alerts := c.monitor.alertSet
        lastFault := if c.status.faults.isEmpty then c.status.lastFault else now } }

/-- Moves all faults and alerts by one cycle and reports them in the status. -/
def handleFaults (now : Nat) (c : Controller σ n) : Controller σ n :=
  (((c.superviseFaults now).reportFaults).superviseAlerts now).reportAlerts now

end PackGuard.Controller
