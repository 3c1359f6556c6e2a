import PackGuard.Balancing.Mask
import PackGuard.Charge.Counter
import PackGuard.Fault.Kind
import PackGuard.Reading.Cells
import PackGuard.Reading.Temperatures

/-!
The live status of a pack: the latest measurements, what follows from them, and what the pack is
allowed to do.
-/

namespace PackGuard

inductive PackState where
  | off
  | chargeOnly
  | dischargeOnly
  | normal
  deriving DecidableEq, Repr, Inhabited

namespace PackState

def charging : PackState → Bool
  | chargeOnly | normal => true
  | off | dischargeOnly => false

def discharging : PackState → Bool
  | dischargeOnly | normal => true
  | off | chargeOnly => false

end PackState

structure Status (n : Nat) where
  state : PackState := .off
  chargeEnabled : Bool := true
  dischargeEnabled : Bool := true
  cells : CellReading n := .initial n
  /-- The pack current in amperes, positive while charging. -/
  current : Float32 := 0.0
  temperatures : TemperatureReading := .initial
  full : Bool := false
  empty : Bool := false
  charge : ChargeLevel Float32 := ⟨0.0, 0.0⟩
  balancing : CellMask := 0
  /-- When the pack was last under load, in milliseconds. -/
  lastLoad : Nat := 0
  /-- When a fault was last reported, in milliseconds. -/
  lastFault : Nat := 0
  faults : FaultSet := ∅
  alerts : AlertSet := ∅
  /-- The front-end has not answered properly for several cycles. -/
  unresponsive : Bool := false

namespace Status

variable {n : Nat}

def chargeAllowed (status : Status n) : Bool :=
  !status.faults.blocksCharging && !status.full && status.chargeEnabled

def dischargeAllowed (status : Status n) : Bool :=
  !status.faults.blocksDischarging && !status.empty && status.dischargeEnabled

end Status
end PackGuard
