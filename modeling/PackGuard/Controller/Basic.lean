import PackGuard.Fault.Monitor

/-!
The control of a pack: its front-end, configuration and status, with the memory of each of its
tasks. A task that can fail is an `EStateM` computation on the controller, whose changes up to the
failure remain; any other task is a function.
-/

namespace PackGuard

/-- What the control knows of the pack when it makes a request. -/
structure Moment (n : Nat) where
  status : Status n
  monitor : Monitor

/-- A request that was made, with its answer unless it failed. -/
structure Entry (n : Nat) where
  request : Request
  answer? : Option (request.Answer n)
  moment : Moment n

def Entry.succeeded {n : Nat} (entry : Entry n) : Bool := entry.answer?.isSome

/-- The control of one pack with a front-end of type `σ` and `n` cell channels. -/
structure Controller (σ : Type) (n : Nat) where
  frontEnd : σ
  config : Config
  status : Status n := {}
  report : Report := {}
  monitor : Monitor := {}
  /-- No switch is operated for a change of state before this time, in milliseconds. -/
  readyAt : Nat
  /-- The balancing switches may differ from the status, because writing them failed. -/
  balancingUnknown : Bool := false
  /-- When the charge was last integrated, in milliseconds. -/
  lastIntegration : Option Nat := none
  /-- The number of measurement cycles in a row with a failure, limited to a byte. -/
  failedCycles : Nat := 0
  /-- All requests made so far, the latest first. No task looks at them. -/
  journal : List (Entry n) := []

inductive ControlError (ε : Type) where
  | frontEnd (cause : ε)
  | notSupported
  /-- The configuration cannot be meant. -/
  | invalidConfig
  deriving DecidableEq, Repr

namespace Controller

variable {σ ε : Type} {n : Nat} [FrontEnd σ ε n]

def new (frontEnd : σ) (config : Config) : Controller σ n :=
  { frontEnd, config, readyAt := FrontEnd.startupDelay frontEnd }

def moment (c : Controller σ n) : Moment n := ⟨c.status, c.monitor⟩

/-- Takes over the front-end after a request, and enters the request in the journal. -/
def record (request : Request) (answer? : Option (request.Answer n)) (frontEnd : σ)
    (c : Controller σ n) : Controller σ n :=
  { c with frontEnd, journal := ⟨request, answer?, c.moment⟩ :: c.journal }

def command (request : Request) : EStateM ε (Controller σ n) (request.Answer n) := fun c =>
  match FrontEnd.perform request c.frontEnd with
  | .ok answer frontEnd => .ok answer (c.record request (some answer) frontEnd)
  | .error e frontEnd => .error e (c.record request none frontEnd)

/-- Passes a request on from a task that may fail for other reasons too. -/
def ask (request : Request) : EStateM (ControlError ε) (Controller σ n) (request.Answer n) :=
  EStateM.adaptExcept .frontEnd (command request)

/-- Carries out a task whose failure has no consequence, and says whether it succeeded. -/
def attempt {α δ : Type} (task : EStateM δ (Controller σ n) α) (c : Controller σ n) :
    Bool × Controller σ n :=
  match task c with
  | .ok _ c => (true, c)
  | .error _ c => (false, c)

end Controller
end PackGuard
