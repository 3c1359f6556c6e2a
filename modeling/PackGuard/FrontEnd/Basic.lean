import PackGuard.Fault.Kind
import PackGuard.Protection.Kind
import PackGuard.Reading.Cells
import PackGuard.Reading.Temperatures

/-!
What the control of a pack needs of an analog front-end: a state that answers requests, each of
which may fail. Nothing above this interface knows about buses or registers.
-/

namespace PackGuard

inductive Switch where
  | charge
  | discharge
  | precharge
  deriving DecidableEq, Repr

inductive Mode where
  | active
  /-- Only a signal from outside ends this mode. -/
  | off
  deriving DecidableEq, Repr

structure Report where
  /-- Only the faults that the front-end detects by itself count. -/
  faults : FaultSet := ∅
  alerts : AlertSet := ∅
  charging : Bool := false
  discharging : Bool := false

inductive Request where
  | readCells
  | readCurrent
  | readTemperatures
  | readReport
  /-- Acknowledges faults and alerts, so that the front-end may switch on again. -/
  | clear (faults : FaultSet) (alerts : AlertSet)
  | protect (kind : Protection) (codes : ProtectionCodes)
  /-- Opens or closes a switch, which may be in that position already. -/
  | setSwitch (switch : Switch) (closed : Bool)
  /-- Sets which cells of a bank are bled, its first cell lowest. -/
  | balance (bank : Nat) (cells : UInt8)
  | enterMode (mode : Mode)

/-- What a request is answered with, in a pack of `n` cell channels. -/
abbrev Request.Answer (n : Nat) : Request → Type
  | readCells => CellReading n
  | readCurrent => Int
  | readTemperatures => TemperatureReading
  | readReport => Report
  | clear .. | protect .. | setSwitch .. | balance .. | enterMode .. => Unit

/-- A type of front-ends with `n` cell channels, which fail with errors of type `ε`. Current is
measured in milliamperes, positive while charging. -/
class FrontEnd (σ : Type) (ε : outParam Type) (n : outParam Nat) where
  /-- Carries out a request. A request that fails may change the front-end too. -/
  perform : (request : Request) → EStateM ε σ (request.Answer n)
  /-- The faults the front-end detects by itself. The others are judged by the measurements. -/
  hardwareFaults : σ → FaultSet
  /-- The register layout of a protection, missing if the front-end does not have it. -/
  encoding? : σ → Protection → Option ProtectionEncoding
  /-- How long after power-up measurements are not to be trusted, in milliseconds. -/
  startupDelay : σ → Nat

end PackGuard
