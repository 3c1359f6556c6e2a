import PackGuard.Scalar.Basic

/-!
Coulomb counting. Charge is collected in milliampere seconds and moved into the percentage once it
amounts to more than a tenth of a percent.
-/

namespace PackGuard

structure ChargeLevel (α : Type) where
  percent : α
  /-- The charge not yet part of `percent`, in milliampere seconds. -/
  pending : α

namespace ChargeLevel

variable {α : Type} [Scalar α]

def resolution : α := 0.1

/-- The milliampere seconds in one percent of an ampere hour. -/
def perPercent : α := 3.6e4

def add (capacity charge : α) (level : ChargeLevel α) : ChargeLevel α :=
  let pending := level.pending + charge
  let change := pending / (capacity * perPercent)
  if resolution < Scalar.abs change then
    { percent := Scalar.clamp 0.0 100.0 (level.percent + change), pending := 0.0 }
  else { level with pending }

/-- Integrates a current over the time since the last call, at `last`. The first call, and one
whose clock ran backwards, only start the clock; so does every call without a capacity. -/
def integrate (capacity current : α) (last : Option Nat) (now : Nat) (level : ChargeLevel α) :
    ChargeLevel α :=
  match last with
  | none => level
  | some start =>
    if now < start then level
    else if capacity ≤ 0.0 then level
    else level.add capacity (current * Scalar.ofNat (now - start))

end ChargeLevel
end PackGuard
