import PackGuard.Balancing.Mask
import PackGuard.Chip.Link
import PackGuard.FrontEnd.Basic
import PackGuard.Scalar.Logarithm

/-!
The monitoring chip as a front-end with `n` cell channels. It detects cell over- and undervoltage,
short circuits and discharge overcurrent by itself; everything else is left to the fault monitor.
-/

namespace PackGuard.Chip

structure Driver (β : Type) (n : Nat) where
  link : Link β
  /-- The resistance of the current shunt, in milliohms. -/
  shunt : Float32
  beta : Float32
  /-- The calibrated gain of the converter, in microvolts per step. -/
  gain : Nat := 365
  /-- The calibrated offset of the converter, in millivolts. -/
  offset : Int := 0

namespace Driver

variable {β δ : Type} [Bus β δ] {n : Nat}

def new (n : Nat) (bus : β) (shunt beta : Float32) : Driver β n :=
  { link := { bus }, shunt, beta }

def access {α : Type} (task : EStateM (ChipError δ) (Link β) α) :
    EStateM (ChipError δ) (Driver β n) α := fun d =>
  match task d.link with
  | .ok a link => .ok a { d with link }
  | .error e link => .error e { d with link }

def write (register : Register) (value : UInt8) : EStateM (ChipError δ) (Driver β n) Unit :=
  access (Link.write register value)

def readByte (register : Register) : EStateM (ChipError δ) (Driver β n) UInt8 :=
  access (Link.readByte register)

def update (register : Register) (change : UInt8 → UInt8) :
    EStateM (ChipError δ) (Driver β n) Unit := do
  write register (change (← readByte register))

section Conversion

variable (d : Driver β n)

def gainNumber : Float32 := Float32.ofNat d.gain

def gainOf (gain1 gain2 : UInt8) : Nat :=
  365 + (((gain1 &&& 0x0C) <<< 1) ||| ((gain2 &&& 0xE0) >>> 5)).toNat

/-- A converter word without its two highest bits. -/
def converted (word : UInt16) : Float32 := Float32.ofNat (word &&& 0x3FFF).toNat

def volts (word : UInt16) : Float32 :=
  (converted word * d.gainNumber * 1e-3 + Float32.ofInt d.offset) * 1e-3

def packVolts (connected : Nat) (word : UInt16) : Float32 :=
  (4.0 * d.gainNumber * Float32.ofNat word.toNat * 1e-3
    + Float32.ofInt (connected * d.offset)) * 1e-3

/-- Currents nearer to zero than this are noise, in milliamperes. -/
def deadband : Nat := 10

/-- The current of a counter word, in milliamperes. -/
def milliamperes (word : UInt16) : Int :=
  let current := Single.truncate (-2147483648) 2147483647
    (Float32.ofInt word.toInt16.toInt * 8.44 / d.shunt)
  if current.natAbs < deadband then 0 else current

/-- The temperature of a thermistor of ten kiloohms at 25 degrees, in series with a resistor of
the same size. -/
def celsius (word : UInt16) : Float32 :=
  let millivolts := converted word * 0.382
  let ohms := 10000.0 * millivolts / (3300.0 - millivolts)
  1.0 / (1.0 / (273.15 + 25.0) + Single.log (ohms / 10000.0) / d.beta) - 273.15

/-- The thresholds of a voltage protection. Its register holds eight bits of the converter
word; the bits around them are fixed. -/
def tripEncoding (base : Nat) : Encoding Float32 :=
  let gain := d.gainNumber * 1e-6
  .linear (Float32.ofNat base * gain + Float32.ofInt d.offset * 1e-3) (16.0 * gain) 0 0xFF

def overvoltageBase : Nat := 0x2008

def undervoltageBase : Nat := 0x1000

def encoding? : Protection → Option ProtectionEncoding
  | .cellOvervoltage =>
    some ⟨d.tripEncoding overvoltageBase, some (.table overvoltageDelays), none⟩
  | .cellUndervoltage =>
    some ⟨d.tripEncoding undervoltageBase, some (.table undervoltageDelays), none⟩
  | .shortCircuit => some ⟨.table shortCircuitThresholds, some (.table shortCircuitDelays), none⟩
  | .dischargeOvercurrent =>
    some ⟨.table overcurrentThresholds, some (.table overcurrentDelays), none⟩
  | _ => none

end Conversion

def hardwareFaults : FaultSet :=
  {.cellUndervoltage, .cellOvervoltage, .shortCircuit, .dischargeOvercurrent}

def faultBit : FaultKind → Option UInt8
  | .cellUndervoltage => some StatusBit.undervoltage
  | .cellOvervoltage => some StatusBit.overvoltage
  | .shortCircuit => some StatusBit.shortCircuit
  | .dischargeOvercurrent => some StatusBit.overcurrent
  | _ => none

def alertBit : Alert → UInt8
  | .notReady => StatusBit.notReady
  | .overridden => StatusBit.overridden

def reportOf (status control : UInt8) : Report where
  faults := .filterAll fun kind => (faultBit kind).any (hasBits status)
  alerts := .filterAll fun alert => hasBits status (alertBit alert)
  charging := hasBits control ControlBit.charge
  discharging := hasBits control ControlBit.discharge

def statusBits (faults : FaultSet) (alerts : AlertSet) : UInt8 :=
  let bits := (FaultKind.all.filter (· ∈ faults)).filterMap faultBit
    ++ (Alert.all.filter (· ∈ alerts)).map alertBit
  bits.foldl (· ||| ·) 0

/-- Switches the converters on and reads the calibration. -/
def activate : EStateM (ChipError δ) (Driver β n) Unit := do
  access Link.probe
  write Register.control1 (ControlBit.converter ||| ControlBit.externalSensors)
  write Register.control2 ControlBit.counter
  let offset ← readByte Register.offset
  modify fun d => { d with offset := offset.toInt8.toInt }
  let gain1 ← readByte Register.gain1
  let gain2 ← readByte Register.gain2
  modify fun d => { d with gain := gainOf gain1 gain2 }

def shutDown : EStateM (ChipError δ) (Driver β n) Unit := do
  write Register.control1 0
  write Register.control1 ControlBit.shutB
  write Register.control1 ControlBit.shutA

def readCells : EStateM (ChipError δ) (Driver β n) (CellReading n) := do
  let words ← access (Link.readWords Register.cells n)
  let pack ← access (Link.readWord Register.pack)
  let d ← get
  let cells := words.map d.volts
  let connected := (CellReading.ofCells cells none).connected
  return .ofCells cells (some (d.packVolts connected pack))

/-- Reads the current and releases the counter for the next one. -/
def readCurrent : EStateM (ChipError δ) (Driver β n) Int := do
  let word ← access (Link.readWord Register.current)
  write Register.status StatusBit.currentReady
  return (← get).milliamperes word

/-- Reads the thermistors, one per bank. The chip's own temperature cannot be read beside them. -/
def readTemperatures : EStateM (ChipError δ) (Driver β n) TemperatureReading := do
  let count := min (Balancing.bankCount n) TemperatureReading.capacity
  let words ← access (Link.readWords Register.sensors count)
  let d ← get
  return .ofSensors (words.toList.map d.celsius) Single.nan

def readReport : EStateM (ChipError δ) (Driver β n) Report := do
  let status ← readByte Register.status
  let control ← readByte Register.control2
  return reportOf status control

def clear (faults : FaultSet) (alerts : AlertSet) : EStateM (ChipError δ) (Driver β n) Unit := do
  let bits := statusBits faults alerts
  if bits ≠ 0 then write Register.status bits

/-- Writes the codes of a protection. Those the chip does not have are ignored. -/
def protect (kind : Protection) (codes : ProtectionCodes) :
    EStateM (ChipError δ) (Driver β n) Unit := do
  let delay := codes.delay.getD 0
  match kind with
  | .cellOvervoltage =>
    write Register.overvoltageTrip codes.threshold.toUInt8
    update Register.protect3 (Field.overvoltageDelay.set · delay)
  | .cellUndervoltage =>
    write Register.undervoltageTrip codes.threshold.toUInt8
    update Register.protect3 (Field.undervoltageDelay.set · delay)
  | .shortCircuit =>
    write Register.protect1 <| Field.shortCircuitThreshold.set
      (Field.shortCircuitDelay.set doubleRange delay) codes.threshold
  | .dischargeOvercurrent =>
    write Register.protect2 <| Field.overcurrentThreshold.set
      (Field.overcurrentDelay.set 0 delay) codes.threshold
  | _ => return ()

/-- Opens or closes a switch. The chip has none for precharging. -/
def setSwitch (switch : Switch) (closed : Bool) : EStateM (ChipError δ) (Driver β n) Unit :=
  match switch with
  | .charge => operate ControlBit.charge
  | .discharge => operate ControlBit.discharge
  | .precharge => return ()
where
  /-- Sets the bit of a switch, and drops the bits without a meaning. -/
  operate (bit : UInt8) : EStateM (ChipError δ) (Driver β n) Unit :=
    update Register.control2 fun control => setBits (control &&& ControlBit.defined2) bit closed

/-- Sets the balancing switches of a bank. Banks the chip does not have are ignored. -/
def balance (bank : Nat) (cells : UInt8) : EStateM (ChipError δ) (Driver β n) Unit := do
  if bank < Balancing.bankCount n then write (Register.balancing + UInt8.ofNat bank) (cells &&& 0x1F)

def perform : (request : Request) → EStateM (ChipError δ) (Driver β n) (request.Answer n)
  | .readCells => readCells
  | .readCurrent => readCurrent
  | .readTemperatures => readTemperatures
  | .readReport => readReport
  | .clear faults alerts => clear faults alerts
  | .protect kind codes => protect kind codes
  | .setSwitch switch closed => setSwitch switch closed
  | .balance bank cells => balance bank cells
  | .enterMode .active => activate
  | .enterMode .off => shutDown

instance : FrontEnd (Driver β n) (ChipError δ) n where
  perform := perform
  hardwareFaults _ := hardwareFaults
  encoding? := encoding?
  startupDelay _ := 10

end Driver
end PackGuard.Chip
