import PackGuard.Proofs.Gauge

/-!
A pack that has reached the end of a direction. From a reading that shows it on, no command closes
the switch of that direction before a reading of the cells has shown relief.
-/

namespace PackGuard

namespace CellReading

variable {n : Nat}

def exhausts (config : Config) (reading : CellReading n) : Direction → Bool
  | .charge => reading.connected ≠ 0 && config.fullVoltage ≤ reading.greatest
  | .discharge => reading.connected ≠ 0 && reading.least ≤ config.emptyVoltage

def relieves (config : Config) (reading : CellReading n) : Direction → Bool
  | .charge => reading.connected ≠ 0 && reading.greatest < config.overvoltage.reset
  | .discharge => reading.connected ≠ 0 && config.undervoltage.reset < reading.least

end CellReading

def Entry.Exhausts {n : Nat} (config : Config) (dir : Direction) (e : Entry n) : Prop :=
  ∃ reading, e.cells? = some reading ∧ reading.exhausts config dir = true

def Entry.Relieves {n : Nat} (config : Config) (dir : Direction) (e : Entry n) : Prop :=
  ∃ reading, e.cells? = some reading ∧ reading.relieves config dir = true

theorem Status.exhausted_withCells {n : Nat} (config : Config) (dir : Direction)
    (status : Status n) (reading : CellReading n) :
    (status.withCells config reading).exhausted dir =
      if reading.exhausts config dir then true
      else if reading.relieves config dir then false else status.exhausted dir := by
  by_cases connected : reading.connected = 0 <;> cases dir <;>
    simp [Status.withCells, Status.exhausted, CellReading.exhausts, CellReading.relieves, latch,
      connected]

namespace Gauge

variable {n : Nat} {config : Config} {dir : Direction}

def exhausted (config : Config) (dir : Direction) : Gauge n config Bool where
  value status := status.exhausted dir
  onCells reading v :=
    if reading.exhausts config dir then true else if reading.relieves config dir then false else v
  onCurrent _ _ v := v
  timely _ _ := True
  kept status other _ full empty _ := by cases dir <;> assumption
  withCells := Status.exhausted_withCells config dir
  withCurrent _ _ _ := by cases dir <;> rfl
  clocked _ _ _ := by cases dir <;> rfl
  timely_onCells _ _ := trivial
  timely_onCurrent _ _ := trivial

theorem take_exhausted (s : Stamped n) (v : Bool) :
    (exhausted config dir).take s v =
      match s.entry.cells? with
      | some reading =>
        if reading.exhausts config dir then true
        else if reading.relieves config dir then false
        else v
      | none => v := by
  unfold take
  cases s.entry.cells? with
  | some reading => rfl
  | none => cases s.entry.current? <;> rfl

theorem relieved_of_after {later earlier : List (Stamped n)} {s : Stamped n} {v : Bool}
    (exhausts : s.entry.Exhausts config dir)
    (free : (exhausted config dir).after (later ++ s :: earlier) v = false) :
    ∃ r ∈ later, r.entry.Relieves config dir := by
  induction later with
  | nil =>
    obtain ⟨reading, read, ends⟩ := exhausts
    change (exhausted config dir).take s _ = false at free
    rw [take_exhausted, read] at free
    simp [ends] at free
  | cons r rest ih =>
    change (exhausted config dir).take r ((exhausted config dir).after (rest ++ s :: earlier) v) =
      false at free
    have before : (exhausted config dir).after (rest ++ s :: earlier) v = false →
        ∃ r' ∈ r :: rest, r'.entry.Relieves config dir := fun free => by
      obtain ⟨r', among, relieves⟩ := ih free
      exact ⟨r', List.mem_cons_of_mem _ among, relieves⟩
    rw [take_exhausted] at free
    cases read : r.entry.cells? with
    | none =>
      rw [read] at free
      exact before free
    | some reading =>
      rw [read] at free
      dsimp only at free
      split at free
      · cases free
      · split at free
        · rename_i relieves
          exact ⟨r, List.mem_cons_self, reading, read, relieves⟩
        · exact before free

end Gauge

/-- If the request closes a switch, the status allows its direction. -/
def Entry.Permitted {n : Nat} (e : Entry n) : Prop :=
  ∀ dir : Direction, e.request = .setSwitch dir.switch true → e.moment.status.allows dir = true

namespace Entry

variable {n : Nat} {e : Entry n}

theorem permitted_of_idle (idle : e.request.operates = false) : e.Permitted := by
  intro dir asked
  rw [asked] at idle
  cases idle

theorem permitted_of_recloses (h : e.Recloses) : e.Permitted := by
  intro dir asked
  obtain ⟨dir', asked', -, allowed⟩ := h
  rw [asked] at asked'
  rwa [Direction.switch_inj.mp (Request.setSwitch.inj asked').1]

end Entry

namespace Controller

variable {σ ε : Type} {n : Nat} [FrontEnd σ ε n] {c d : Controller σ n} {now? : Option Nat}

theorem Turn.permitted {now : Nat} {ok : Bool} (turn : Turn now c ok d) :
    ∃ entries, Logged c entries d ∧ ∀ e ∈ entries, e.Permitted := by
  obtain ⟨entries, logged, held⟩ := turn.logged
  refine ⟨entries, logged, fun e member dir closes => ?_⟩
  obtain ⟨-, moment, command, among, asked⟩ := held e member
  rw [asked] at closes
  obtain ⟨switch, position⟩ := command
  obtain ⟨rfl, rfl⟩ := Request.setSwitch.inj closes
  rw [moment]
  exact PackState.allowed_of_conducts_next (PackState.conducts_of_mem_commands among)

theorem Step.permitted (step : Step now? c d) :
    ∃ entries, Logged c entries d ∧ ∀ e ∈ entries, e.Permitted := by
  cases step with
  | quiet passage =>
    obtain ⟨entries, logged, -, held⟩ := passage
    exact ⟨entries, logged, fun e member => Entry.permitted_of_idle (held e member).2⟩
  | judge passage =>
    obtain ⟨entries, logged, -, held⟩ := passage
    exact ⟨entries, ⟨logged.journal, logged.served, logged.readyAt⟩,
      fun e member => Entry.permitted_of_idle (held e member).2⟩
  | restore passage =>
    obtain ⟨entries, logged, -, held⟩ := passage
    exact ⟨entries, logged, fun e member =>
      (held e member).2.elim Entry.permitted_of_idle Entry.permitted_of_recloses⟩
  | update now => exact (turn_updateState now c).permitted
  | enableCharge | enableDischarge => exact ⟨[], ⟨rfl, .refl _, rfl⟩, by simp⟩
  | shutDown =>
    have idle : ∀ answer?, ∀ e ∈ [(⟨.enterMode .off, answer?, c.moment⟩ : Entry n)],
        e.Permitted := by
      intro answer? e member dir asked
      rw [List.mem_singleton.mp member] at asked
      cases asked
    rcases shutDown_cases c with ⟨d, ended, -, logged⟩ | ⟨d, ended, -, logged⟩ <;> rw [ended]
    · exact ⟨_, logged, idle _⟩
    · exact ⟨_, logged, idle _⟩

theorem Steps.permitted (steps : Steps now? c d) :
    ∃ entries, Logged c entries d ∧ ∀ e ∈ entries, e.Permitted := by
  induction steps with
  | refl => exact ⟨[], .refl c, by simp⟩
  | tail _ step ih =>
    obtain ⟨first, loggedFirst, heldFirst⟩ := ih
    obtain ⟨second, loggedSecond, heldSecond⟩ := step.permitted
    refine ⟨second ++ first, loggedFirst.trans loggedSecond, fun e member => ?_⟩
    exact (List.mem_append.mp member).elim (heldSecond e) (heldFirst e)

end Controller

section Course

variable {σ ε : Type} {n t : Nat} [FrontEnd σ ε n] {permitted : Nat → Operation → Prop}
  {drift : σ → σ → Prop} {s : σ} {config : Config} {made : List (Stamped n)}
  {new c : Controller σ n} {dir : Direction}

theorem Course.entry_permitted (h : Course permitted drift new t made c) :
    ∀ s ∈ made, s.entry.Permitted := by
  induction h with
  | new => simp
  | @operation t made c op _ _ ih =>
    obtain ⟨entries, logged, held⟩ := (op.steps c).permitted
    intro s member
    rcases List.mem_append.mp member with now | before
    · rw [logged.since_eq] at now
      exact held _ (Entry.mem_of_mem_stamp now)
    · exact ih s before
  | drift _ _ ih => exact ih

/-- In the journal of every course, whatever fails and at whatever times, a command that closes the
switch of a direction comes after a reading that shows the end of that direction only if a reading
between the two has shown relief. -/
theorem Course.closed_after_relief
    (h : Course (fun _ op => op.routine = true) drift (Controller.new s config) t made c)
    {later between earlier : List (Entry n)} {close extreme : Entry n}
    (split : c.journal = later ++ close :: (between ++ extreme :: earlier))
    (closes : close.request = .setSwitch dir.switch true)
    (exhausts : extreme.Exhausts config dir) : ∃ e ∈ between, e.Relieves config dir := by
  have journal : c.journal = made.map Stamped.entry := by
    rw [h.journal_eq]
    exact List.append_nil _
  obtain ⟨after, fromClose, rfl, -, closing⟩ := List.map_eq_append_iff.mp (journal.symm.trans split)
  obtain ⟨stampedClose, beforeClose, rfl, rfl, before⟩ := List.map_eq_cons_iff.mp closing
  obtain ⟨meanwhile, fromEnd, rfl, rfl, ending⟩ := List.map_eq_append_iff.mp before
  obtain ⟨stampedEnd, beforeEnd, rfl, rfl, rfl⟩ := List.map_eq_cons_iff.mp ending
  obtain ⟨-, -, -, witnessed⟩ := h.gauged (Gauge.exhausted config dir) (fun _ _ routine => routine)
    trivial fun _ _ _ _ _ => trivial
  have allowed := h.entry_permitted stampedClose (by simp) dir closes
  have free : stampedClose.entry.moment.status.exhausted dir = false :=
    (Status.allows_eq_true.mp allowed).2.1
  have shown := witnessed.value_eq
  obtain ⟨r, among, relieves⟩ := Gauge.relieved_of_after exhausts (shown.symm.trans free)
  exact ⟨r.entry, List.mem_map_of_mem among, relieves⟩

end Course

instance {n : Nat} (config : Config) (dir : Direction) (e : Entry n) :
    Decidable (e.Exhausts config dir) :=
  decidable_of_iff (e.cells?.any fun reading => reading.exhausts config dir) <| by
    rw [Option.any_eq_true]
    rfl

def Bench.topped : Controller (Bench 1) 1 :=
  (Controller.new (.uniform 1 4.22) (.ofChemistry .nmc 10.0)).tick 0

def Bench.discharged : Controller (Bench 1) 1 :=
  { topped with frontEnd := { topped.frontEnd with cells := #v[3.9] } }

theorem Course.closed_after_relief_discharged :
    ∃ later close between extreme earlier,
      (Bench.discharged.tick 1000).journal = later ++ close :: (between ++ extreme :: earlier) ∧
      close.request = .setSwitch .charge true ∧
      extreme.Exhausts (.ofChemistry .nmc 10.0) .charge ∧
      ∃ e ∈ between, e.Relieves (.ofChemistry .nmc 10.0) .charge := by
  have begun : Course (fun _ op => op.routine = true) (fun _ _ => True)
      (Controller.new (.uniform 1 4.22) (.ofChemistry .nmc 10.0)) 0 _ Bench.topped :=
    .operation (.tick 0) .new rfl
  have run : Course _ _ _ _ _ (Bench.discharged.tick 1000) :=
    .operation (c := Bench.discharged) (.tick 1000) (.drift begun trivial) rfl
  have closing : ∃ e ∈ Bench.discharged.since (Bench.discharged.tick 1000),
      e.request.sets .charge = some true := by decide +kernel
  have ended : ∃ e ∈ Bench.discharged.journal, e.Exhausts (.ofChemistry .nmc 10.0) .charge := by
    decide +kernel
  obtain ⟨close, made, sets⟩ := closing
  obtain ⟨extreme, read, exhausts⟩ := ended
  obtain ⟨entries, logged⟩ := (Controller.steps_tick 1000 Bench.discharged).logged
  rw [logged.since_eq] at made
  obtain ⟨later, middle, split⟩ := List.append_of_mem made
  obtain ⟨middle', earlier, split'⟩ := List.append_of_mem read
  have journal := logged.journal
  rw [split, split', List.append_assoc, List.cons_append, ← List.append_assoc middle] at journal
  have closes := Request.eq_setSwitch_of_sets sets
  exact ⟨later, close, _, extreme, earlier, journal, closes, exhausts,
    run.closed_after_relief journal closes exhausts⟩

end PackGuard
