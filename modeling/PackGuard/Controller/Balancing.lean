import PackGuard.Balancing.Selection
import PackGuard.Controller.Basic

/-!
The balancing switches. They are written when the choice of cells changes, and again after a
failure, until the status and the switches are known to agree.
-/

namespace PackGuard

namespace Balancing

variable {n : Nat}

/-- Whether cells may be bled: the pack has rested long enough, and its cells are high enough and
far enough apart. -/
def allowed (config : Config) (status : Status n) (now : Nat) : Bool :=
  config.balancing.enabled
    && 0 < status.cells.connected
    && config.balancing.idleDelay * 1000 ≤ now - status.lastLoad
    && config.balancing.leastVoltage < status.cells.greatest
    && config.balancing.difference < status.cells.greatest - status.cells.least

def wanted (config : Config) (status : Status n) (now : Nat) : CellMask :=
  if allowed config status now then
    select status.cells.cells.toList status.cells.least config.balancing.difference
  else 0

end Balancing

namespace Controller

variable {σ ε : Type} {n : Nat} [FrontEnd σ ε n]

def writeBanks (m : CellMask) : EStateM ε (Controller σ n) Unit :=
  (List.range (Balancing.bankCount n)).forM fun b => command (.balance b (Balancing.bankBits m b))

/-- Brings the balancing switches up to date. When that fails all banks are switched off. A clock
that ran backwards counts as load. -/
def balance (now : Nat) : EStateM ε (Controller σ n) Unit := fun c =>
  let c := { c with status := { c.status with lastLoad := min c.status.lastLoad now } }
  let wanted := Balancing.wanted c.config c.status now
  if wanted = c.status.balancing ∧ ¬ c.balancingUnknown then .ok () c
  else
    match writeBanks wanted c with
    | .ok _ c =>
      .ok () { c with status := { c.status with balancing := wanted }, balancingUnknown := false }
    | .error e c =>
      let (off, c) := c.attempt (writeBanks 0)
      .error e { c with status := { c.status with balancing := 0 }, balancingUnknown := !off }

end Controller
end PackGuard
