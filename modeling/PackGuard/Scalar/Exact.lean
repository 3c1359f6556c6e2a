import PackGuard.Scalar.Basic

/-!
The rationals as a `Scalar`: what settings and charge are before any rounding of the arithmetic.
-/

namespace PackGuard.Exact

def roundHalfAway (q : Rat) : Int :=
  if 0 ≤ q then (q + 1 / 2).floor else -(-q + 1 / 2).floor

instance : Scalar Rat where
  ofNat n := n
  abs q := if 0 ≤ q then q else -q
  floor q := q.floor
  ceil q := q.ceil
  round q := roundHalfAway q
  toCode q := UInt16.ofNat (min q.floor.toNat 65535)
  decideLe := inferInstance
  decideLt := inferInstance

theorem clamp_eq {least greatest x : Rat} (above : least ≤ x) (below : x ≤ greatest) :
    Scalar.clamp least greatest x = x := by
  rw [Scalar.clamp, if_neg (Rat.not_lt.mpr above), if_neg (Rat.not_lt.mpr below)]

end PackGuard.Exact
