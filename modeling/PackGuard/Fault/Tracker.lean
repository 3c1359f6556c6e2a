/-!
The life of one fault: clear, suspected, confirmed, clearing, clear. A `Tracker` holds where a
fault stands, and `advance` moves it by one sighting. A confirmed fault is to be cleared once per
retry window; whether that succeeds is up to the front-end, so `advance` only says that it is due.
-/

namespace PackGuard

inductive Phase where
  | clear
  /-- Seen, but not for long enough to be reported. -/
  | suspected
  | confirmed
  /-- Cleared, until the next reading shows whether that held. -/
  | clearing
  deriving DecidableEq, Repr, Inhabited

def Phase.flagged : Phase → Bool
  | .confirmed | .clearing => true
  | .clear | .suspected => false

structure Sighting where
  present : Bool
  /-- The front-end has waited already, so that one sighting is enough. -/
  debounced : Bool
  /-- A retry may go ahead. -/
  recovered : Bool

structure Pace where
  /-- How long a suspicion has to last, in milliseconds. -/
  delay : Nat
  /-- The length of a retry window, in seconds. -/
  window : Nat

structure Tracker where
  phase : Phase := .clear
  /-- When the fault was first suspected or last confirmed, in milliseconds. -/
  since : Nat := 0
  lastWindow : Nat := 0
  deriving DecidableEq, Repr, Inhabited

namespace Tracker

def suspect (t : Tracker) (now : Nat) : Tracker := { t with phase := .suspected, since := now }

def confirm (now : Nat) : Tracker := { phase := .confirmed, since := now, lastWindow := 0 }

def drop (t : Tracker) : Tracker := { t with phase := .clear }

def attempted (t : Tracker) : Tracker := { t with phase := .clearing }

/-- The number of whole retry windows since the fault was confirmed. -/
def windowAt (t : Tracker) (window now : Nat) : Nat := (now - t.since) / 1000 / max window 1

/-- Moves a fault by one sighting, and says whether clearing it is due. A window is used up when
it is first found completed, also if recovery then holds the attempt back. -/
def advance (pace : Pace) (seen : Sighting) (now : Nat) (t : Tracker) : Tracker × Bool :=
  match t.phase with
  | .clear =>
    if seen.present then (if seen.debounced then confirm now else t.suspect now, false)
    else (t, false)
  | .suspected =>
    if ¬ seen.present then (t.drop, false)
    else if pace.delay ≤ now - t.since then (confirm now, false)
    else (t, false)
  | .confirmed =>
    let window := t.windowAt pace.window now
    if t.lastWindow < window then ({ t with lastWindow := window }, seen.recovered) else (t, false)
  | .clearing => (if seen.present then confirm now else t.drop, false)

end Tracker
end PackGuard
