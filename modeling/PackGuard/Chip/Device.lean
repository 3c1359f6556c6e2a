import PackGuard.Chip.Bus
import PackGuard.Chip.Checksum
import PackGuard.Chip.Register

/-!
The chip as a device on the bus: 256 registers behind a register pointer, with or without
checksums. For experiments it can stop answering, refuse chosen transactions, and have its answers
corrupted on the way; it keeps a log of all transactions.
-/

namespace PackGuard.Chip

inductive DeviceError where
  | notAcknowledged
  deriving DecidableEq, Repr

structure Corruption where
  transaction : Nat
  position : Nat
  mask : UInt8

inductive Transaction where
  | write (address : UInt8) (bytes : List UInt8) (acknowledged : Bool)
  /-- A write followed by a read of `count` bytes, answered unless it failed. -/
  | writeRead (address : UInt8) (bytes : List UInt8) (count : Nat) (answer : Option (List UInt8))

structure Device where
  registers : Vector UInt8 256 := Vector.replicate 256 0
  address : UInt8 := 0x08
  /-- Writes need checksums, and answers have them. -/
  checked : Bool := true
  down : Bool := false
  /-- Status bits that come back after they are cleared. -/
  stickyStatus : UInt8 := 0
  frozen : List Register := []
  pointer : Register := 0
  /-- The transactions that fail, by their number since the log was started. -/
  failing : List Nat := []
  corruptions : List Corruption := []
  /-- The transactions since the log was started, the latest first. -/
  log : List Transaction := []

namespace Device

def get (d : Device) (r : Register) : UInt8 := d.registers.get r.toFin

def poke (d : Device) (r : Register) (value : UInt8) : Device :=
  { d with registers := d.registers.set r.toNat value r.toNat_lt }

def restart (failing : List Nat) (corruptions : List Corruption) (d : Device) : Device :=
  { d with failing, corruptions, log := [] }

/-- Writes a register by its rules: ones clear status bits, measurements cannot be written. -/
def store (d : Device) (r : Register) (value : UInt8) : Device :=
  if r = Register.status then d.poke r ((d.get r &&& ~~~value) ||| d.stickyStatus)
  else if 12 ≤ r ∨ r ∈ d.frozen then d
  else d.poke r value

def storeAll (d : Device) (bytes : List UInt8) : Device :=
  bytes.foldl (fun d value => { d.store d.pointer value with pointer := d.pointer + 1 }) d

/-- Takes in the bytes of a write. With checksums a write that does not match is ignored, apart
from the pointer. -/
def accept (d : Device) : List UInt8 → Device
  | [] => d
  | r :: data =>
    let d := { d with pointer := r }
    if d.checked then
      match data with
      | [value, sum] =>
        if sum = Checksum.ofBytes [addressByte d.address false, r, value] then d.store r value else d
      | _ => d
    else d.storeAll data

/-- The byte at a place of an answer. With checksums they alternate with the registers, the first
one covering the address too. -/
def answerByte (d : Device) (i : Nat) : UInt8 :=
  if d.checked then
    let byte := d.get (d.pointer + UInt8.ofNat (i / 2))
    if i % 2 = 0 then byte
    else Checksum.ofBytes (if i = 1 then [addressByte d.address true, byte] else [byte])
  else d.get (d.pointer + UInt8.ofNat i)

def garbled (d : Device) (transaction position : Nat) (byte : UInt8) : UInt8 :=
  let hits := d.corruptions.filter fun c => c.transaction = transaction
  (hits.filter fun c => c.position = position).foldl (fun byte c => byte ^^^ c.mask) byte

def received (d : Device) (count : Nat) : Vector UInt8 count :=
  Vector.ofFn fun i => d.garbled d.log.length i (d.answerByte i)

def advanced (d : Device) (count : Nat) : Device :=
  { d with pointer := d.pointer + UInt8.ofNat (if d.checked then (count + 1) / 2 else count) }

def acknowledges (d : Device) (address : UInt8) : Bool :=
  !d.down && address == d.address && !(d.failing.contains d.log.length)

def note (d : Device) (transaction : Transaction) : Device := { d with log := transaction :: d.log }

def write (address : UInt8) (bytes : List UInt8) : EStateM DeviceError Device Unit := fun d =>
  if d.acknowledges address then .ok () ((d.accept bytes).note (.write address bytes true))
  else .error .notAcknowledged (d.note (.write address bytes false))

def writeRead (address : UInt8) (bytes : List UInt8) (count : Nat) :
    EStateM DeviceError Device (Vector UInt8 count) := fun d =>
  if d.acknowledges address then
    let d := d.accept bytes
    let answer := d.received count
    .ok answer ((d.advanced count).note (.writeRead address bytes count (some answer.toList)))
  else .error .notAcknowledged (d.note (.writeRead address bytes count none))

instance : Bus Device DeviceError where
  write := write
  writeRead := writeRead

end Device
end PackGuard.Chip
