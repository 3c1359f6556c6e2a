/-!
The registers of the monitoring chip, their bits and fields, and the settings its protection
fields can hold. Measurements are words of two registers, the high byte first.
-/

namespace PackGuard.Chip

abbrev Register := UInt8

namespace Register

def status : Register := 0x00
/-- The balancing switches of the first bank; the other banks follow. -/
def balancing : Register := 0x01
def control1 : Register := 0x04
def control2 : Register := 0x05
def protect1 : Register := 0x06
def protect2 : Register := 0x07
def protect3 : Register := 0x08
def overvoltageTrip : Register := 0x09
def undervoltageTrip : Register := 0x0A
def counterConfig : Register := 0x0B
/-- The word of the first cell; the other cells follow. -/
def cells : Register := 0x0C
def pack : Register := 0x2A
/-- The word of the first temperature sensor; the others follow. -/
def sensors : Register := 0x2C
def current : Register := 0x32
def gain1 : Register := 0x50
def offset : Register := 0x51
def gain2 : Register := 0x59

end Register

/-! Bits of the status register, each cleared by writing a one. -/

namespace StatusBit

def overcurrent : UInt8 := 0x01
def shortCircuit : UInt8 := 0x02
def overvoltage : UInt8 := 0x04
def undervoltage : UInt8 := 0x08
def overridden : UInt8 := 0x10
def notReady : UInt8 := 0x20
def currentReady : UInt8 := 0x80

end StatusBit

/-! Bits of the control registers. -/

namespace ControlBit

def shutB : UInt8 := 0x01
def shutA : UInt8 := 0x02
def externalSensors : UInt8 := 0x08
def converter : UInt8 := 0x10
def charge : UInt8 := 0x01
def discharge : UInt8 := 0x02
def counterOnce : UInt8 := 0x20
def counter : UInt8 := 0x40
def delayDisabled : UInt8 := 0x80

/-- The bits of the second control register that have a meaning. -/
def defined2 : UInt8 := charge ||| discharge ||| counterOnce ||| counter ||| delayDisabled

end ControlBit

/-- What the counter configuration has to hold, which also tells whether a chip answers. -/
def counterSetup : UInt8 := 0x19

/-- Doubles the range of both current protections. -/
def doubleRange : UInt8 := 0x80

def hasBits (register mask : UInt8) : Bool := register &&& mask == mask

def setBits (register mask : UInt8) (on : Bool) : UInt8 :=
  if on then register ||| mask else register &&& ~~~mask

structure Field where
  shift : UInt8
  /-- The bits of the field, shifted down to the lowest place. -/
  mask : UInt8

namespace Field

def shortCircuitDelay : Field := ⟨3, 0x03⟩
def shortCircuitThreshold : Field := ⟨0, 0x07⟩
def overcurrentDelay : Field := ⟨4, 0x07⟩
def overcurrentThreshold : Field := ⟨0, 0x0F⟩
def undervoltageDelay : Field := ⟨6, 0x03⟩
def overvoltageDelay : Field := ⟨4, 0x03⟩

def get (field : Field) (register : UInt8) : UInt8 := (register >>> field.shift) &&& field.mask

/-- Replaces the code in a field; bits that do not fit are dropped. -/
def set (field : Field) (register : UInt8) (code : UInt16) : UInt8 :=
  (register &&& ~~~(field.mask <<< field.shift)) ||| ((code.toUInt8 &&& field.mask) <<< field.shift)

end Field

/-- Short circuit thresholds in the doubled range, in millivolts. -/
def shortCircuitThresholds : List Float32 := [44.0, 67.0, 89.0, 111.0, 133.0, 155.0, 178.0, 200.0]

def shortCircuitDelays : List Float32 := [70.0, 100.0, 200.0, 400.0]

/-- Overcurrent thresholds in the doubled range, in millivolts. -/
def overcurrentThresholds : List Float32 :=
  [17.0, 22.0, 28.0, 33.0, 39.0, 44.0, 50.0, 56.0, 61.0, 67.0, 72.0, 78.0, 83.0, 89.0, 94.0, 100.0]

def overcurrentDelays : List Float32 := [8.0, 20.0, 40.0, 80.0, 160.0, 320.0, 640.0, 1280.0]

def undervoltageDelays : List Float32 := [1000.0, 4000.0, 8000.0, 16000.0]

def overvoltageDelays : List Float32 := [1000.0, 2000.0, 4000.0, 8000.0]

end PackGuard.Chip
