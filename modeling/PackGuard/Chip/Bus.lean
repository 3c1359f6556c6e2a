/-!
The two-wire bus a chip is attached to.
-/

namespace PackGuard.Chip

/-- A type of buses, with devices at addresses of seven bits, that fail with errors of type `δ`. -/
class Bus (β : Type) (δ : outParam Type) where
  write : (address : UInt8) → (bytes : List UInt8) → EStateM δ β Unit
  writeRead : (address : UInt8) → (bytes : List UInt8) → (count : Nat) →
    EStateM δ β (Vector UInt8 count)

def addressByte (address : UInt8) (reading : Bool) : UInt8 :=
  (address <<< 1) ||| (if reading then 1 else 0)

end PackGuard.Chip
