import PackGuard.Scalar.Single

/-!
The natural logarithm of a binary32 number. It is computed in fixed point, with `places` binary
places, from `ln y = 2 artanh ((y - 1) / (y + 1))` for `y` in `[1, 2)` and `ln 2 = 2 artanh (1 / 3)`,
and rounded once at the end, which leaves far more places than the nearest binary32 number needs.
-/

namespace PackGuard.Single.Logarithm

open Float.Model (UnpackedFloat Format)

def places : Nat := 160

/-- The sum `z / k + z³ / (k + 2) + …` of the given number of terms, for a first power `power`
of `z` and the square of `z`. -/
def oddPowers (square : Nat) : (terms power k : Nat) → Nat
  | 0, _, _ => 0
  | terms + 1, power, k =>
    power / k + oddPowers square terms ((power * square) >>> places) (k + 2)

def artanh (numerator denominator : Nat) : Nat :=
  let z := (numerator <<< places) / denominator
  oddPowers ((z * z) >>> places) 60 z 1

def two : Nat := 2 * artanh 1 3

/-- The logarithm of `mantissa * 2 ^ exponent` in units of `2 ^ -places`. -/
def fixed (mantissa : Nat) (exponent : Int) : Int :=
  let k := Nat.log2 mantissa
  let one := 1 <<< k
  (2 * artanh (mantissa - one) (mantissa + one) : Nat) + (exponent + k) * two

def ofFixed (x : Int) : Float32 :=
  let sign : UnpackedFloat.Sign := if x < 0 then .negative else .positive
  ⟨Float32.Model.pack (.roundWithAccuracy .binary32 sign x.natAbs (-places) .exact)⟩

end Logarithm

def log (x : Float32) : Float32 :=
  match x.toModel.unpack with
  | .finite .positive mantissa exponent _ => Logarithm.ofFixed (Logarithm.fixed mantissa exponent)
  | .zero _ => negInfinity
  | .infinity .positive => x
  | .finite .negative .. | .infinity .negative | .notANumber => nan

end PackGuard.Single
