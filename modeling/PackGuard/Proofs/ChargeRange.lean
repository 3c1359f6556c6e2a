import PackGuard.Controller.Charge
import PackGuard.FrontEnd.Bench
import PackGuard.Proofs.SingleInfinity

/-!
The range of the state of charge. A percentage stays one however charge is counted and reset, and
between two resets no more than a tenth of a percent is left to be counted. Currents, capacities
and times can be anything: a current may be infinite or NaN, and a clock may run backwards.
-/

namespace PackGuard

open Single

def IsPercent (x : Float32) : Prop := 0.0 ≤ x ∧ x ≤ 100.0

instance (x : Float32) : Decidable (IsPercent x) := inferInstanceAs (Decidable (_ ∧ _))

namespace IsPercent

variable {x : Float32}

theorem value_hundred : value (100.0 : Float32) = 100 := by decide +kernel

theorem isNaN_hundred : (100.0 : Float32).isNaN = false := by decide +kernel

theorem iff_value : IsPercent x ↔ x.isNaN = false ∧ 0 ≤ value x ∧ value x ≤ 100 := by
  rw [IsPercent, le_iff, le_iff, value_zero, value_hundred]
  have zero := isNaN_zero
  have hundred := isNaN_hundred
  tauto

theorem isFinite (h : IsPercent x) : x.isFinite = true := by
  obtain ⟨number, least, greatest⟩ := iff_value.mp h
  refine isFinite_of_abs_lt number ?_
  rw [abs_of_nonneg least]
  exact greatest.trans_lt (by norm_num)

theorem zero : IsPercent 0.0 := by
  rw [iff_value, value_zero]
  exact ⟨isNaN_zero, le_rfl, by norm_num⟩

theorem hundred : IsPercent 100.0 := by
  rw [iff_value, value_hundred]
  exact ⟨isNaN_hundred, by norm_num, le_rfl⟩

theorem clamp (number : x.isNaN = false) : IsPercent (Scalar.clamp 0.0 100.0 x) := by
  rw [Scalar.clamp]
  split
  · exact zero
  · rename_i least
    split
    · exact hundred
    · rename_i greatest
      rw [not_lt_iff number isNaN_zero, value_zero] at least
      rw [not_lt_iff isNaN_hundred number, value_hundred] at greatest
      exact iff_value.mpr ⟨number, least, greatest⟩

end IsPercent

namespace ChargeLevel

variable {level : ChargeLevel Float32} {capacity charge current : Float32}

/-- So little is left to be counted that the percentage need not change. -/
def Settled (capacity : Float32) (level : ChargeLevel Float32) : Prop :=
  ¬resolution < (level.pending / (capacity * perPercent)).abs

theorem settled_of_pending_zero (zero : level.pending = 0.0) : level.Settled capacity := by
  intro more
  rw [zero] at more
  have unpacked : (0.0 : Float32).toModel.unpack = .zero .positive := rfl
  rcases div_of_zero (b := capacity * perPercent) unpacked with none | ⟨s, quotient⟩
  · have number := (lt_iff.mp more).2.1
    rw [isNaN_abs none] at number
    cases number
  · have less := (lt_iff.mp more).2.2
    rw [value_abs_zero quotient] at less
    revert less
    decide +kernel

theorem settled_add : (level.add capacity charge).Settled capacity := by
  rw [add]
  split
  · exact settled_of_pending_zero rfl
  · rename_i small
    exact small

theorem isPercent_add (h : IsPercent level.percent) :
    IsPercent (level.add capacity charge).percent := by
  rw [add]
  split
  · rename_i more
    refine IsPercent.clamp (number_add h.isFinite ?_)
    by_contra none
    have number := (lt_iff.mp more).2.1
    have missing := isNaN_abs (eq_true_of_ne_false none)
    exact Bool.false_ne_true (number.symm.trans missing)
  · exact h

theorem isPercent_integrate (last : Option Nat) (now : Nat) (h : IsPercent level.percent) :
    IsPercent (level.integrate capacity current last now).percent := by
  unfold integrate
  split
  · exact h
  · split_ifs
    · exact h
    · exact h
    · exact isPercent_add h

theorem settled_integrate {last now : Nat} (forward : last ≤ now) (positive : ¬capacity ≤ 0.0) :
    (level.integrate capacity current (some last) now).Settled capacity := by
  unfold integrate
  dsimp only
  rw [if_neg (Nat.not_lt.mpr forward), if_neg positive]
  exact settled_add

end ChargeLevel

namespace ChargeReset

def Believed : ChargeReset → Prop
  | percent value => IsPercent value
  | estimate => False

end ChargeReset

namespace Controller

variable {σ : Type} {n : Nat} {c d : Controller σ n}

/-- What becomes of a pack while its charge is counted and reset. In between everything else may
change, the configuration and the cell voltages too. A reset that is not believed has to find a
percentage at the mean cell voltage. -/
inductive Counting (c : Controller σ n) : Controller σ n → Prop
  | start : Counting c c
  | integrates {d : Controller σ n} (current : Float32) (now : Nat) (h : Counting c d) :
    Counting c (d.integrate current now)
  | resets {d : Controller σ n} (how : ChargeReset) (h : Counting c d)
    (known : ¬how.Believed → IsPercent (d.config.percentAt d.status.cells.mean)) :
    Counting c (d.resetCharge how)
  | changes {d e : Controller σ n} (h : Counting c d)
    (charge : e.status.charge = d.status.charge) (clock : e.lastIntegration = d.lastIntegration) : Counting c e

theorem isPercent_resetPercent {how : ChargeReset}
    (known : ¬how.Believed → IsPercent (c.config.percentAt c.status.cells.mean)) :
    IsPercent (c.resetPercent how) := by
  cases how with
  | percent value =>
    rw [resetPercent]
    split
    · rename_i believed
      exact believed
    · rename_i outside
      exact known outside
  | estimate => exact known id

theorem Counting.isPercent (h : Counting c d) (start : IsPercent c.status.charge.percent) :
    IsPercent d.status.charge.percent := by
  induction h with
  | start => exact start
  | integrates current now h ih => exact ChargeLevel.isPercent_integrate _ now ih
  | resets how h known ih => exact isPercent_resetPercent known
  | changes h charge clock ih => rwa [charge]

/-- Whatever is counted, and however the charge is reset, a percentage remains one. Counting over
a time in which the pack has a capacity leaves less than a tenth of a percent to be counted. -/
theorem Counting.charge_in_range (h : Counting c d) :
    (IsPercent c.status.charge.percent → IsPercent d.status.charge.percent) ∧
    ∀ (current : Float32) (last now : Nat), d.lastIntegration = some last → last ≤ now →
      ¬d.config.capacity ≤ 0.0 →
      (d.integrate current now).status.charge.Settled d.config.capacity := by
  refine ⟨h.isPercent, fun current last now clock forward positive => ?_⟩
  change (d.status.charge.integrate _ _ d.lastIntegration _).Settled _
  rw [clock]
  exact ChargeLevel.settled_integrate forward positive

theorem Counting.charge_in_range_infinite :
    ∃ c d : Controller (Bench 1) 1, Counting c d ∧ IsPercent d.status.charge.percent ∧
      ∀ current, (d.integrate current 3000).status.charge.Settled 10.0 := by
  let c : Controller (Bench 1) 1 := .new (.uniform 1 3.6) (.ofChemistry .nmc 10.0)
  let d := ((c.integrate nan 1000).integrate negInfinity 2000).resetCharge (.percent 150.0)
  have counted : Counting c d :=
    ((Counting.start.integrates nan 1000).integrates negInfinity 2000).resets _
      fun _ => by decide +kernel
  have result := counted.charge_in_range
  refine ⟨c, d, counted, result.1 (by decide +kernel), fun current => ?_⟩
  exact result.2 current 2000 3000 rfl (by decide) (by decide +kernel)

end Controller
end PackGuard
