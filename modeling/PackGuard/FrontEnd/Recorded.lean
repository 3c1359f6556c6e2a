import PackGuard.FrontEnd.Basic

/-!
A front-end with a record of everything that was asked of it and of what came of it. Recording
changes no answer, so a run of the control may be watched without being disturbed.
-/

namespace PackGuard

structure Exchange (ε : Type) (n : Nat) where
  request : Request
  outcome : Except ε (request.Answer n)

def Exchange.succeeded {ε : Type} {n : Nat} (exchange : Exchange ε n) : Bool :=
  match exchange.outcome with
  | .ok _ => true
  | .error _ => false

/-- A front-end of type `σ` with its record, the latest exchange first. -/
structure Recorded (σ ε : Type) (n : Nat) where
  frontEnd : σ
  exchanges : List (Exchange ε n) := []

namespace Recorded

variable {σ ε : Type} {n : Nat} [FrontEnd σ ε n]

def perform (request : Request) : EStateM ε (Recorded σ ε n) (request.Answer n) := fun r =>
  match FrontEnd.perform request r.frontEnd with
  | .ok answer frontEnd => .ok answer ⟨frontEnd, ⟨request, .ok answer⟩ :: r.exchanges⟩
  | .error e frontEnd => .error e ⟨frontEnd, ⟨request, .error e⟩ :: r.exchanges⟩

instance : FrontEnd (Recorded σ ε n) ε n where
  perform := perform
  hardwareFaults r := FrontEnd.hardwareFaults r.frontEnd
  encoding? r := FrontEnd.encoding? r.frontEnd
  startupDelay r := FrontEnd.startupDelay r.frontEnd

end Recorded
end PackGuard
