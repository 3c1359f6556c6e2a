import PackGuard.Chip.Bus
import PackGuard.Chip.Checksum
import PackGuard.Chip.Register

/-!
Access to the registers of a chip. Chips come at two addresses, with and without checksums; `probe`
finds out which. With checksums, each byte of an answer is followed by its checksum, and an answer
that does not match is asked for again.
-/

namespace PackGuard.Chip

inductive ChipError (δ : Type) where
  | bus (cause : δ)
  /-- No answer matched its checksums. -/
  | checksum
  | notDetected
  deriving DecidableEq, Repr

structure Link (β : Type) where
  bus : β
  address : UInt8 := 0x08
  /-- The chip expects checksums. -/
  checked : Bool := true

/-- An answer with checksums: bytes and their checksums in turn. -/
abbrev Frame (count : Nat) := Vector UInt8 (2 * count)

namespace Frame

variable {count : Nat}

def bytes (frame : Frame count) : Vector UInt8 count := Vector.ofFn fun i => frame[2 * i.val]

/-- The checksum that belongs to a byte. The first one covers the address too. -/
def expected (address : UInt8) (frame : Frame count) (i : Fin count) : UInt8 :=
  let byte := frame[2 * i.val]
  Checksum.ofBytes (if i.val = 0 then [addressByte address true, byte] else [byte])

def intact (address : UInt8) (frame : Frame count) : Bool :=
  (List.finRange count).all fun i => frame[2 * i.val + 1] == frame.expected address i

end Frame

namespace Link

variable {β δ : Type} [Bus β δ]

def attempts : Nat := 10

def writing (link : Link β) (register : Register) (value : UInt8) : List UInt8 :=
  if link.checked then
    [register, value, Checksum.ofBytes [addressByte link.address false, register, value]]
  else [register, value]

def write (register : Register) (value : UInt8) : EStateM (ChipError δ) (Link β) Unit := fun link =>
  match Bus.write link.address (link.writing register value) link.bus with
  | .ok _ bus => .ok () { link with bus }
  | .error e bus => .error (.bus e) { link with bus }

def fetch (register : Register) (count : Nat) :
    EStateM (ChipError δ) (Link β) (Vector UInt8 count) := fun link =>
  match Bus.writeRead link.address [register] count link.bus with
  | .ok answer bus => .ok answer { link with bus }
  | .error e bus => .error (.bus e) { link with bus }

/-- Asks for an answer with checksums until one is intact. -/
def fetchIntact (register : Register) (count : Nat) :
    (attempts : Nat) → EStateM (ChipError δ) (Link β) (Vector UInt8 count)
  | 0 => throw .checksum
  | attempts + 1 => do
    let frame : Frame count ← fetch register (2 * count)
    if frame.intact (← get).address then return frame.bytes
    else fetchIntact register count attempts

def read (register : Register) (count : Nat) :
    EStateM (ChipError δ) (Link β) (Vector UInt8 count) := do
  if (← get).checked then fetchIntact register count attempts else fetch register count

def readByte (register : Register) : EStateM (ChipError δ) (Link β) UInt8 := do
  return (← read register 1)[0]

/-- Reads two registers as a word, the high byte first. -/
def readWord (register : Register) : EStateM (ChipError δ) (Link β) UInt16 := do
  let bytes ← read register 2
  return (bytes[0].toUInt16 <<< 8) ||| bytes[1].toUInt16

def readWords (register : Register) :
    (count : Nat) → EStateM (ChipError δ) (Link β) (Vector UInt16 count)
  | 0 => return #v[]
  | count + 1 => do
    let words ← readWords register count
    let word ← readWord (register + 2 * UInt8.ofNat count)
    return words.push word

def candidates : List (UInt8 × Bool) := [(0x08, true), (0x08, false), (0x18, true), (0x18, false)]

/-- Tries one way to speak to the chip: writes a register and reads it back. -/
def answers (address : UInt8) (checked : Bool) : EStateM (ChipError δ) (Link β) Bool := do
  modify fun link => { link with address, checked }
  tryCatch
    (do
      write Register.counterConfig counterSetup
      return (← readByte Register.counterConfig) == counterSetup)
    fun _ => return false

def probeAmong : List (UInt8 × Bool) → EStateM (ChipError δ) (Link β) Unit
  | [] => throw .notDetected
  | (address, checked) :: rest => do
    if ← answers address checked then return () else probeAmong rest

def probe : EStateM (ChipError δ) (Link β) Unit := probeAmong candidates

end Link
end PackGuard.Chip
