import PackGuard.FrontEnd.Basic
import PackGuard.Status

/-!
Which directions of current are switched on, and the switch commands from one state to the next.
-/

namespace PackGuard.PackState

/-- The state to go to when the given directions are allowed. From off, and up to normal, one
direction is added at a time, discharging first. -/
def next (state : PackState) (charge discharge : Bool) : PackState :=
  match state with
  | off => if discharge then dischargeOnly else if charge then chargeOnly else off
  | chargeOnly => if ¬ charge then off else if discharge then normal else chargeOnly
  | dischargeOnly => if ¬ discharge then off else if charge then normal else dischargeOnly
  | normal =>
    match charge, discharge with
    | true, true => normal
    | true, false => chargeOnly
    | false, true => dischargeOnly
    | false, false => off

/-- The commands that lead from one state to another. Switches open before others close. -/
def commands (before after : PackState) : List (Switch × Bool) :=
  (if before.discharging && !after.discharging then [(.discharge, false)] else [])
    ++ (if before.charging && !after.charging then [(.charge, false)] else [])
    ++ (if after.discharging && !before.discharging then [(.discharge, true)] else [])
    ++ (if after.charging && !before.charging then [(.charge, true)] else [])

theorem discharging_next {state : PackState} {charge discharge : Bool}
    (h : (state.next charge discharge).discharging = true) : discharge = true := by
  revert h; cases state <;> cases charge <;> cases discharge <;> decide

theorem charging_next {state : PackState} {charge discharge : Bool}
    (h : (state.next charge discharge).charging = true) : charge = true := by
  revert h; cases state <;> cases charge <;> cases discharge <;> decide

theorem commands_self (state : PackState) : state.commands state = [] := by
  cases state <;> rfl

end PackGuard.PackState
