import PackGuard.Controller.Basic
import PackGuard.Protection.Setpoint

/-!
Programming the protections. The configuration changes only after the front-end has accepted the
codes, so after a failure it still holds the request.
-/

namespace PackGuard

/-- The temperature protections, in the order in which they are programmed. -/
def Protection.temperatures : List Protection :=
  [dischargeOvertemperature, dischargeUndertemperature, chargeOvertemperature,
    chargeUndertemperature]

namespace Controller

variable {σ ε : Type} {n : Nat} [FrontEnd σ ε n]

def program (kind : Protection) : EStateM (ControlError ε) (Controller σ n) Unit := do
  let c ← get
  match FrontEnd.encoding? c.frontEnd kind with
  | none => throw .notSupported
  | some encoding =>
    let (codes, achieved) := encoding.meet (c.config.setpoint kind)
    ask (.protect kind codes)
    modify fun c => { c with config := c.config.store kind achieved }

def programIfSupported (kind : Protection) : EStateM (ControlError ε) (Controller σ n) Unit :=
  tryCatch (program kind) fun
    | .notSupported => pure ()
    | e => throw e

/-- Programs the temperature protections that the front-end has. Each of them may change the
hysteresis, which the next one then asks for. -/
def programTemperatures : EStateM (ControlError ε) (Controller σ n) Unit := do
  if (← get).config.temperaturesAcceptable then
    Protection.temperatures.forM programIfSupported
  else throw .invalidConfig

/-- Programs all protections. Overcurrent of the charger may be left to the fault monitor. -/
def programAll : EStateM (ControlError ε) (Controller σ n) Unit := do
  program .cellOvervoltage
  program .cellUndervoltage
  program .shortCircuit
  program .dischargeOvercurrent
  programIfSupported .chargeOvercurrent
  programTemperatures

end Controller
end PackGuard
