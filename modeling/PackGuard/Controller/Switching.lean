import PackGuard.Controller.Basic
import PackGuard.Switching

/-!
One step of the switches. The state changes only after all commands have gone through, so a failed
step is taken again in the next cycle.
-/

namespace PackGuard.Controller

variable {σ ε : Type} {n : Nat} [FrontEnd σ ε n]

def ready (c : Controller σ n) (now : Nat) : Bool := c.readyAt ≤ now

def nextState (c : Controller σ n) : PackState :=
  c.status.state.next c.status.chargeAllowed c.status.dischargeAllowed

def operate (commands : List (Switch × Bool)) : EStateM ε (Controller σ n) Unit :=
  commands.forM fun (switch, closed) => command (.setSwitch switch closed)

def updateState (now : Nat) : EStateM ε (Controller σ n) Unit := do
  let c ← get
  if c.ready now then
    operate (c.status.state.commands c.nextState)
    modify fun d => { d with status := { d.status with state := c.nextState } }

end PackGuard.Controller
