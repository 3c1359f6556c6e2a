/-!
The arithmetic that settings and charge are computed in. It is written once for every `Scalar`:
binary32 is what the pack computes with, and the rationals say what it computes up to rounding.
-/

namespace PackGuard

/-- A number type with the operations of the quantiser and the coulomb counter. Results are
rounded where the type is coarser than the rationals. -/
class Scalar (α : Type) extends Add α, Sub α, Mul α, Div α, LE α, LT α, OfScientific α where
  ofNat : Nat → α
  abs : α → α
  floor : α → α
  ceil : α → α
  /-- The nearest whole number, a half away from zero. -/
  round : α → α
  /-- The whole part, limited to what a 16 bit register code can hold. -/
  toCode : α → UInt16
  decideLe : ∀ a b : α, Decidable (a ≤ b)
  decideLt : ∀ a b : α, Decidable (a < b)

namespace Scalar

variable {α : Type} [Scalar α]

instance (a b : α) : Decidable (a ≤ b) := decideLe a b

instance (a b : α) : Decidable (a < b) := decideLt a b

/-- Limits a number to a range. A number that compares with neither end is kept. -/
def clamp (least greatest x : α) : α :=
  if x < least then least else if greatest < x then greatest else x

end Scalar
end PackGuard
