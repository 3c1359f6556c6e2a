import PackGuard.Flags

/-!
The faults a pack can have, the alerts a front-end can raise, and which of them forbid a current
direction.
-/

namespace PackGuard

inductive FaultKind where
  | cellUndervoltage
  | cellOvervoltage
  | shortCircuit
  | dischargeOvercurrent
  | chargeOvercurrent
  | openWire
  | dischargeUndertemperature
  | dischargeOvertemperature
  | chargeUndertemperature
  | chargeOvertemperature
  | internalOvertemperature
  | cellFailure
  /-- The discharge switch does not conduct though it should. -/
  | dischargeSwitchStuckOff
  /-- The charge switch conducts though it should not. -/
  | chargeSwitchStuckOn
  | switchOvertemperature
  deriving DecidableEq, Repr, Inhabited

namespace FaultKind

def index : FaultKind → Fin 15
  | cellUndervoltage => 0
  | cellOvervoltage => 1
  | shortCircuit => 2
  | dischargeOvercurrent => 3
  | chargeOvercurrent => 4
  | openWire => 5
  | dischargeUndertemperature => 6
  | dischargeOvertemperature => 7
  | chargeUndertemperature => 8
  | chargeOvertemperature => 9
  | internalOvertemperature => 10
  | cellFailure => 11
  | dischargeSwitchStuckOff => 12
  | chargeSwitchStuckOn => 13
  | switchOvertemperature => 14

def all : List FaultKind :=
  [cellUndervoltage, cellOvervoltage, shortCircuit, dischargeOvercurrent, chargeOvercurrent,
    openWire, dischargeUndertemperature, dischargeOvertemperature, chargeUndertemperature,
    chargeOvertemperature, internalOvertemperature, cellFailure, dischargeSwitchStuckOff,
    chargeSwitchStuckOn, switchOvertemperature]

instance : Enumerated FaultKind where
  size := 15
  index := index
  all := all
  index_injective a b := by cases a <;> cases b <;> decide
  mem_all a := by cases a <;> decide
  nodup_all := by decide

def blocksCharging : FaultKind → Bool
  | cellOvervoltage | chargeOvercurrent | openWire | chargeUndertemperature
  | chargeOvertemperature | internalOvertemperature | cellFailure => true
  | _ => false

def blocksDischarging : FaultKind → Bool
  | cellUndervoltage | shortCircuit | dischargeOvercurrent | openWire
  | dischargeUndertemperature | dischargeOvertemperature | internalOvertemperature
  | cellFailure => true
  | _ => false

end FaultKind

/-- Conditions of the front-end, outside the faults, in which it opens the switches by itself. -/
inductive Alert where
  /-- An internal fault of the chip, or a measurement part that does not answer. -/
  | notReady
  /-- The alert line is driven from outside. -/
  | overridden
  deriving DecidableEq, Repr, Inhabited

namespace Alert

def index : Alert → Fin 2
  | notReady => 0
  | overridden => 1

def all : List Alert := [notReady, overridden]

instance : Enumerated Alert where
  size := 2
  index := index
  all := all
  index_injective a b := by cases a <;> cases b <;> decide
  mem_all a := by cases a <;> decide
  nodup_all := by decide

end Alert

abbrev FaultSet := FlagSet FaultKind

abbrev AlertSet := FlagSet Alert

def FaultSet.blocksCharging (faults : FaultSet) : Bool := faults.any FaultKind.blocksCharging

def FaultSet.blocksDischarging (faults : FaultSet) : Bool := faults.any FaultKind.blocksDischarging

end PackGuard
