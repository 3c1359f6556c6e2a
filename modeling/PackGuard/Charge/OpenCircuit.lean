import PackGuard.Config
import PackGuard.Interpolation

/-!
The state of charge of a resting pack, read off the cell voltage.
-/

namespace PackGuard.Config

/-- The charge level at each voltage of an open circuit curve: evenly spaced from full to empty. -/
def chargeCurve (voltages : List Float32) : Curve Float32 :=
  let step := 100.0 / Float32.ofNat (voltages.length - 1)
  voltages.zipIdx.map fun point => (point.1, 100.0 - Float32.ofNat point.2 * step)

/-- The state of charge at a cell voltage, in percent. Without a curve of at least two points it
is linear between empty and full. -/
def percentAt (config : Config) (voltage : Float32) : Float32 :=
  let flat : Curve Float32 := [(config.emptyVoltage, 0.0), (config.fullVoltage, 100.0)]
  match config.openCircuit with
  | some voltages => if 2 ≤ voltages.length then (chargeCurve voltages).eval voltage else flat.eval voltage
  | none => flat.eval voltage

end PackGuard.Config
