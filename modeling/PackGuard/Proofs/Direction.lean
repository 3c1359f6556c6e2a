import PackGuard.Controller.Switching

/-!
The two directions of current, seen alike: each has a switch, is switched on in some states, and is
allowed by a part of the status. One step of the switches takes a single command, unless it switches
both directions off.
-/

namespace PackGuard

inductive Direction where
  | charge
  | discharge
  deriving DecidableEq, Repr

def Direction.switch : Direction → Switch
  | charge => .charge
  | discharge => .discharge

theorem Direction.switch_inj {d d' : Direction} : d.switch = d'.switch ↔ d = d' := by
  cases d <;> cases d' <;> decide

def PackState.conducts (state : PackState) : Direction → Bool
  | .charge => state.charging
  | .discharge => state.discharging

def FaultKind.blocks (kind : FaultKind) : Direction → Bool
  | .charge => kind.blocksCharging
  | .discharge => kind.blocksDischarging

namespace Status

variable {n : Nat}

def exhausted (status : Status n) : Direction → Bool
  | .charge => status.full
  | .discharge => status.empty

def enabled (status : Status n) : Direction → Bool
  | .charge => status.chargeEnabled
  | .discharge => status.dischargeEnabled

def allows (status : Status n) : Direction → Bool
  | .charge => status.chargeAllowed
  | .discharge => status.dischargeAllowed

theorem allows_eq_true {status : Status n} {d : Direction} :
    status.allows d = true ↔
      (∀ kind ∈ status.faults, kind.blocks d = false) ∧ status.exhausted d = false ∧
        status.enabled d = true := by
  have blocked : ∀ test : FaultKind → Bool,
      status.faults.any test = false ↔ ∀ kind ∈ status.faults, test kind = false := by
    intro test
    rw [← Bool.not_eq_true, FlagSet.any_eq_true]
    simp
  cases d <;>
    simp only [allows, chargeAllowed, dischargeAllowed, FaultSet.blocksCharging,
      FaultSet.blocksDischarging, Bool.and_eq_true, Bool.not_eq_true', blocked, FaultKind.blocks,
      exhausted, enabled, and_assoc]

end Status

namespace PackState

theorem eq_off_iff {state : PackState} : state = off ↔ ∀ d, state.conducts d = false := by
  constructor
  · rintro rfl d
    cases d <;> rfl
  · intro h
    have charge := h .charge
    have discharge := h .discharge
    cases state <;> simp_all [conducts, charging, discharging]

theorem allowed_of_conducts_next {n : Nat} {state : PackState} {status : Status n} {d : Direction}
    (h : (state.next status.chargeAllowed status.dischargeAllowed).conducts d = true) :
    status.allows d = true := by
  cases d with
  | charge => exact charging_next h
  | discharge => exact discharging_next h

theorem conducts_next_of_conducts {n : Nat} {state : PackState} {status : Status n} {d : Direction}
    (on : state.conducts d = true) :
    (state.next status.chargeAllowed status.dischargeAllowed).conducts d = status.allows d := by
  cases d <;> simp only [Status.allows] <;> generalize status.chargeAllowed = charge <;>
    generalize status.dischargeAllowed = discharge <;> revert on <;> cases state <;>
      cases charge <;> cases discharge <;> decide

theorem commands_next (state : PackState) (charge discharge : Bool) :
    (state.commands (state.next charge discharge)).length ≤ 1 ∨
      state = normal ∧ charge = false ∧ discharge = false := by
  cases state <;> cases charge <;> cases discharge <;> decide

theorem commands_next_split {state : PackState} {charge discharge : Bool}
    {done rest : List (Switch × Bool)} {command : Switch × Bool}
    (h : state.commands (state.next charge discharge) = done ++ command :: rest) :
    done = [] ∨ state = normal ∧ charge = false ∧ discharge = false ∧
      done = [(.discharge, false)] ∧ command = (.charge, false) := by
  rcases commands_next state charge discharge with short | ⟨rfl, rfl, rfl⟩
  · left
    rw [h, List.length_append, List.length_cons] at short
    exact List.length_eq_zero_iff.mp (by omega)
  · change [(Switch.discharge, false), (.charge, false)] = _ at h
    cases done with
    | nil => exact .inl rfl
    | cons first others =>
      obtain ⟨rfl, tail⟩ := List.cons.inj h
      cases others with
      | nil => exact .inr ⟨rfl, rfl, rfl, rfl, (List.cons.inj tail).1.symm⟩
      | cons second more => simp at tail

theorem conducts_of_mem_commands {before after : PackState} {d : Direction}
    (h : (d.switch, true) ∈ before.commands after) : after.conducts d = true := by
  revert h
  cases before <;> cases after <;> cases d <;> decide

theorem conducts_of_commands {before after : PackState} {switch : Switch}
    {rest : List (Switch × Bool)} {d : Direction}
    (h : before.commands after = (switch, true) :: rest) (on : before.conducts d = true) :
    after.conducts d = true := by
  revert h on
  cases before <;> cases after <;> cases d <;>
    simp [commands, conducts, charging, discharging]

end PackState
end PackGuard
