import PackGuard.Scalar.Single

/-!
One reading of the temperature sensors, with its statistics.
-/

namespace PackGuard

/-- A reading of up to three battery sensors and of the chip, in degrees Celsius. -/
structure TemperatureReading where
  /-- The battery sensors, the first `count` of them valid. -/
  sensors : Vector Float32 3
  count : Nat
  least : Float32
  greatest : Float32
  mean : Float32
  chip : Float32

namespace TemperatureReading

def capacity : Nat := 3

def initial : TemperatureReading := ⟨Vector.replicate 3 0.0, 0, 0.0, 0.0, 0.0, 0.0⟩

/-- The reading of the given sensors, those beyond the third dropped. -/
def ofSensors (sensors : List Float32) (chip : Float32) : TemperatureReading :=
  let used := sensors.take capacity
  if used.isEmpty then { initial with chip }
  else
    { sensors := Vector.ofFn fun i => used[i.val]?.getD 0.0
      count := used.length
      least := used.foldl Single.minNum Single.greatest
      greatest := used.foldl Single.maxNum Single.least
      mean := used.foldl (· + ·) Single.negZero / Float32.ofNat used.length
      chip }

end TemperatureReading
end PackGuard
