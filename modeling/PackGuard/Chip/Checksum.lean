/-!
The checksum of the chip's bus: the remainder of the message, as a polynomial over two elements,
modulo `x⁸ + x² + x + 1`. Bytes are taken with their most significant bit first.
-/

namespace PackGuard.Chip.Checksum

/-- The polynomial without its leading term. -/
def polynomial : UInt8 := 0x07

/-- Multiplies a remainder by `x`. -/
def shift (r : UInt8) : UInt8 := if r &&& 0x80 = 0 then r <<< 1 else (r <<< 1) ^^^ polynomial

def absorb (r byte : UInt8) : UInt8 := Nat.repeat shift 8 (r ^^^ byte)

def ofBytes (message : List UInt8) : UInt8 := message.foldl absorb 0

theorem ofBytes_concat (message : List UInt8) (byte : UInt8) :
    ofBytes (message ++ [byte]) = absorb (ofBytes message) byte := by
  simp [ofBytes]

end PackGuard.Chip.Checksum
