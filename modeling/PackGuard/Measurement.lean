import PackGuard.Config
import PackGuard.Status

/-!
What a measurement changes in the status of a pack.
-/

namespace PackGuard.Status

variable {n : Nat}

/-- Whether a flag with hysteresis holds: set beyond one threshold, released behind another, and
kept in between. -/
def latch (set release before : Bool) : Bool := if set then true else if release then false else before

/-- Takes over a cell reading. A pack becomes full at the full voltage and stays so down to the
overvoltage reset; empty is the same at the other end. Nothing is known without a cell. -/
def withCells (status : Status n) (config : Config) (reading : CellReading n) : Status n :=
  let status := { status with cells := reading }
  if reading.connected = 0 then status
  else
    { status with
      full := latch (config.fullVoltage ≤ reading.greatest)
        (reading.greatest < config.overvoltage.reset) status.full
      empty := latch (reading.least ≤ config.emptyVoltage)
        (config.undervoltage.reset < reading.least) status.empty }

/-- Takes over a current in milliamperes. Above the idle current the pack is under load. -/
def withCurrent (status : Status n) (config : Config) (milliamperes : Int) (now : Nat) : Status n :=
  let current := Float32.ofInt milliamperes / 1000.0
  { status with
    current
    lastLoad := if config.balancing.idleCurrent < current.abs then now else status.lastLoad }

def withTemperatures (status : Status n) (reading : TemperatureReading) : Status n :=
  { status with temperatures := reading }

end PackGuard.Status
