import PackGuard.Scalar.Basic

/-!
Binary32 as a `Scalar`. Every finite number is a whole number of units of `2 ^ -149`, the spacing
of the smallest numbers, and `units?` is that number: whole parts, order and exact values are
read off it in the integers. Infinities and NaN have no units and pass through rounding unchanged.
-/

namespace PackGuard.Single

/-- The exact value of a finite number, in units of `2 ^ -149`. -/
def units? (x : Float32) : Option Int :=
  match x.toModel.unpack with
  | .finite sign mantissa exponent _ => some (sign.apply (mantissa <<< (exponent + 149).toNat : Nat))
  | .zero _ => some 0
  | .infinity _ | .notANumber => none

def one : Int := (1 <<< 149 : Nat)

def greatest : Float32 := Float32.ofBits 0x7f7fffff

def least : Float32 := Float32.ofBits 0xff7fffff

def nan : Float32 := Float32.ofBits 0x7fc00000

def negInfinity : Float32 := Float32.ofBits 0xff800000

/-- Zero with a minus sign, the neutral element of addition. -/
def negZero : Float32 := Float32.ofBits 0x80000000

def floorUnits (x : Int) : Int := x / one

def ceilUnits (x : Int) : Int := -(-x / one)

def roundUnits (x : Int) : Int :=
  if 0 ≤ x then (2 * x + one) / (2 * one) else -((2 * -x + one) / (2 * one))

/-- Replaces a finite number by a whole number chosen from its units. -/
def mapUnits (choose : Int → Int) (x : Float32) : Float32 :=
  match units? x with
  | some k => Float32.ofInt (choose k)
  | none => x

def floor (x : Float32) : Float32 := mapUnits floorUnits x

def ceil (x : Float32) : Float32 := mapUnits ceilUnits x

def round (x : Float32) : Float32 := mapUnits roundUnits x

/-- The whole part toward zero, limited to a range. NaN counts as zero, an infinity as the end
of the range on its side. -/
def truncate (least greatest : Int) (x : Float32) : Int :=
  match units? x with
  | some k => max least (min greatest (k.tdiv one))
  | none => if x.isNaN then 0 else if x < 0.0 then least else greatest

/-- The smaller number, or the other one if one is NaN. Of two zeros the first. -/
def minNum (a b : Float32) : Float32 :=
  if a.isNaN then b else if b < a then b else a

/-- The larger number, or the other one if one is NaN. Of two zeros the first. -/
def maxNum (a b : Float32) : Float32 :=
  if a.isNaN then b else if a < b then b else a

instance : Scalar Float32 where
  ofNat := Float32.ofNat
  abs := Float32.abs
  floor := floor
  ceil := ceil
  round := round
  toCode := Float32.toUInt16
  decideLe := inferInstance
  decideLt := inferInstance

end PackGuard.Single
