import PackGuard.Scalar.Single

/-!
The configuration of a pack. Limits are requests until they have been programmed; from then on
they are what the front-end achieved. Voltages are in volts, currents in amperes, temperatures in
degrees Celsius.
-/

namespace PackGuard

inductive Chemistry where
  /-- Voltages are left to the application. -/
  | custom
  | lfp
  /-- Lithium nickel manganese cobalt oxide. -/
  | nmc
  /-- The same for a higher charge voltage. -/
  | nmcHighVoltage
  | lto
  deriving DecidableEq, Repr

structure CurrentLimit where
  limit : Float32
  /-- How long the limit may be exceeded; microseconds for a short circuit, else milliseconds. -/
  delay : Nat

structure VoltageLimit where
  limit : Float32
  /-- The voltage behind which the fault is released. -/
  reset : Float32
  /-- How long the limit may be exceeded, in milliseconds. -/
  delay : Nat

structure TemperatureWindow where
  greatest : Float32
  least : Float32

structure BalancingPolicy where
  enabled : Bool
  /-- How long the pack has to rest first, in seconds. -/
  idleDelay : Nat
  idleCurrent : Float32
  /-- The voltage the highest cell has to exceed. -/
  leastVoltage : Float32
  /-- The difference between cells that is left alone. -/
  difference : Float32

structure Config where
  /-- The resistance of the current shunt, in milliohms. -/
  shunt : Float32
  /-- The nominal capacity, in ampere hours. -/
  capacity : Float32
  shortCircuit : CurrentLimit
  dischargeOvercurrent : CurrentLimit
  chargeOvercurrent : CurrentLimit
  overvoltage : VoltageLimit
  fullVoltage : Float32
  undervoltage : VoltageLimit
  emptyVoltage : Float32
  discharging : TemperatureWindow
  charging : TemperatureWindow
  /-- How far a temperature has to be back within its limit. -/
  temperatureHysteresis : Float32
  balancing : BalancingPolicy
  /-- The open circuit voltage at evenly spaced charge levels, from full to empty. -/
  openCircuit : Option (List Float32)

namespace Chemistry

/-- The open circuit voltage of a chemistry at 100, 95, … 0 percent. -/
def openCircuit : Chemistry → Option (List Float32)
  | lfp => some
    [3.392, 3.314, 3.309, 3.308, 3.304, 3.296, 3.283, 3.275, 3.271, 3.268, 3.265, 3.264, 3.262,
      3.252, 3.240, 3.226, 3.213, 3.190, 3.177, 3.132, 2.833]
  | nmc => some
    [4.198, 4.135, 4.089, 4.056, 4.026, 3.993, 3.962, 3.924, 3.883, 3.858, 3.838, 3.819, 3.803,
      3.787, 3.764, 3.745, 3.726, 3.702, 3.684, 3.588, 2.800]
  | custom | nmcHighVoltage | lto => none

/-- The cell voltages that separate the states of a cell, from high to low. -/
structure Voltages where
  overvoltage : Float32
  full : Float32
  overvoltageReset : Float32
  leastBalanced : Float32
  undervoltageReset : Float32
  empty : Float32
  undervoltage : Float32

def voltages : Chemistry → Voltages
  | custom => ⟨0.0, 0.0, 0.0, 0.0, 0.0, 0.0, 0.0⟩
  | lfp => ⟨3.80, 3.55, 3.40, 3.30, 3.10, 2.80, 2.50⟩
  | nmc => ⟨4.25, 4.20, 4.05, 3.80, 3.50, 3.20, 3.00⟩
  | nmcHighVoltage => ⟨4.35, 4.30, 4.15, 3.80, 3.50, 3.20, 3.00⟩
  | lto => ⟨2.85, 2.80, 2.70, 2.50, 2.10, 2.00, 1.90⟩

end Chemistry

namespace Config

/-- The limits for a chemistry and a capacity. Current is limited to the current that empties
the pack in an hour, short circuits to twice that. -/
def ofChemistry (chemistry : Chemistry) (capacity : Float32) : Config :=
  let volts := chemistry.voltages
  { shunt := 1.0
    capacity
    shortCircuit := ⟨capacity * 2.0, 200⟩
    dischargeOvercurrent := ⟨capacity, 320⟩
    chargeOvercurrent := ⟨capacity, 320⟩
    overvoltage := ⟨volts.overvoltage, volts.overvoltageReset, 2000⟩
    fullVoltage := volts.full
    undervoltage := ⟨volts.undervoltage, volts.undervoltageReset, 2000⟩
    emptyVoltage := volts.empty
    discharging := ⟨45.0, -20.0⟩
    charging := ⟨45.0, 0.0⟩
    temperatureHysteresis := 5.0
    balancing :=
      { enabled := true
        idleDelay := 1800
        idleCurrent := 0.1
        leastVoltage := volts.leastBalanced
        difference := 0.01 }
    openCircuit := chemistry.openCircuit }

/-- Lowers the current limits to what the board can carry. The short circuit limit follows at
twice the discharge limit. -/
def capCurrent (config : Config) (greatest : Float32) : Config :=
  let discharge := Single.minNum config.dischargeOvercurrent.limit greatest
  { config with
    dischargeOvercurrent.limit := discharge
    chargeOvercurrent.limit := Single.minNum config.chargeOvercurrent.limit greatest
    shortCircuit.limit := discharge * 2.0 }

def leastTemperatureWindow : Float32 := 20.0

def temperaturesAcceptable (config : Config) : Bool :=
  0.0 ≤ config.discharging.greatest && 0.0 ≤ config.charging.greatest
    && config.discharging.least + leastTemperatureWindow ≤ config.discharging.greatest
    && config.charging.least + leastTemperatureWindow ≤ config.charging.greatest

end Config
end PackGuard
