import PackGuard.Charge.OpenCircuit
import PackGuard.Controller.Basic
import PackGuard.Measurement

/-!
The state of charge of the pack: counted from the current, or set anew.
-/

namespace PackGuard

inductive ChargeReset where
  /-- To a percentage; one outside the range is not believed. -/
  | percent (value : Float32)
  | estimate

namespace Controller

variable {σ ε : Type} {n : Nat} [FrontEnd σ ε n]

def integrate (current : Float32) (now : Nat) (c : Controller σ n) : Controller σ n :=
  { c with
    status :=
      { c.status with
        charge := c.status.charge.integrate c.config.capacity current c.lastIntegration now }
    lastIntegration := some now }

def updateCharge (now : Nat) (c : Controller σ n) : Controller σ n :=
  c.integrate c.status.current now

def sampleCurrent (now : Nat) : EStateM ε (Controller σ n) Unit := do
  let current ← command .readCurrent
  modify fun c => updateCharge now { c with status := c.status.withCurrent c.config current now }

def resetPercent (how : ChargeReset) (c : Controller σ n) : Float32 :=
  let estimate := c.config.percentAt c.status.cells.mean
  match how with
  | .percent value => if 0.0 ≤ value ∧ value ≤ 100.0 then value else estimate
  | .estimate => estimate

/-- Sets the state of charge and drops the charge not yet counted. -/
def resetCharge (how : ChargeReset) (c : Controller σ n) : Controller σ n :=
  { c with status := { c.status with charge := ⟨c.resetPercent how, 0.0⟩ } }

end Controller
end PackGuard
