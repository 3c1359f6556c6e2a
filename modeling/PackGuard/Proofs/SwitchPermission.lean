import PackGuard.Proofs.History

/-!
Whenever a switch command is made, the reported faults are those of the fault monitor; and a switch is
closed only after the startup delay, while no fault, no end of charge and no user forbids it. This
holds for every front-end.
-/

namespace PackGuard

/-- What holds when a request is made. Only an operation that is told the time closes switches. -/
structure Entry.Sanctioned {n : Nat} (readyAt : Nat) (now? : Option Nat) (e : Entry n) : Prop where
  published : e.request.operates = true → e.moment.status.faults = e.moment.monitor.faultSet
  permitted : ∀ d : Direction, e.request = .setSwitch d.switch true →
    (∃ now ∈ now?, readyAt ≤ now) ∧ e.moment.status.allows d = true

theorem Entry.Sanctioned.of_idle {n readyAt : Nat} {now? : Option Nat} {e : Entry n}
    (h : e.request.operates = false) : e.Sanctioned readyAt now? where
  published operates := by rw [h] at operates; cases operates
  permitted d asked := by rw [asked] at h; cases h

theorem Entry.Sanctioned.of_closing {n readyAt : Nat} {now? : Option Nat} {e : Entry n} {d : Direction}
    (h : e.Sanctioned readyAt now?) (asked : e.request = .setSwitch d.switch true) :
    (∃ now ∈ now?, readyAt ≤ now) ∧
    (∀ kind : FaultKind, kind.blocks d = true →
      e.moment.monitor.phase kind ≠ .confirmed ∧ e.moment.monitor.phase kind ≠ .clearing) ∧
    e.moment.status.exhausted d = false ∧ e.moment.status.enabled d = true := by
  obtain ⟨started, allowed⟩ := h.permitted d asked
  obtain ⟨unblocked, ends⟩ := Status.allows_eq_true.mp allowed
  refine ⟨started, fun kind blocks => ?_, ends⟩
  have unflagged : ¬(e.moment.monitor.phase kind).flagged = true := by
    intro flagged
    have reported : kind ∈ e.moment.status.faults := by
      rw [h.published (by rw [asked]; rfl)]
      exact FlagSet.mem_filterAll.mpr flagged
    rw [unblocked kind reported] at blocks
    cases blocks
  constructor <;> intro phase <;> exact unflagged (by rw [phase]; rfl)

theorem Monitor.faultSet_congr {m m' : Monitor} (h : m.faults = m'.faults) :
    m.faultSet = m'.faultSet := by
  simp only [faultSet, phase, h]

namespace Controller

variable {σ ε : Type} {n : Nat} [FrontEnd σ ε n] {c d : Controller σ n} {now? : Option Nat}
  {t : Nat}

/-- The reported faults are those of the monitor, and no direction is on before the startup delay is
over. -/
structure Published (t : Nat) (c : Controller σ n) : Prop where
  faults : c.status.faults = c.monitor.faultSet
  started : ∀ dir, c.status.state.conducts dir = true → c.readyAt ≤ t

theorem Published.mono {t' : Nat} (h : Published t c) (later : t ≤ t') : Published t' c :=
  ⟨h.faults, fun dir on => Nat.le_trans (h.started dir on) later⟩

theorem Published.congr (h : Published t c) (state : d.status.state = c.status.state)
    (faults : d.status.faults = c.status.faults) (trackers : d.monitor.faults = c.monitor.faults)
    (readyAt : d.readyAt = c.readyAt) : Published t d where
  faults := by rw [faults, h.faults, Monitor.faultSet_congr trackers]
  started := by rw [state, readyAt]; exact h.started

def Sanctions (t : Nat) (now? : Option Nat) (c d : Controller σ n) : Prop :=
  Published t d ∧ ∃ entries, Logged c entries d ∧ ∀ e ∈ entries, e.Sanctioned c.readyAt now?

theorem Sanctions.trans {e : Controller σ n} (h : Sanctions t now? c d)
    (k : Sanctions t now? d e) : Sanctions t now? c e := by
  obtain ⟨-, first, loggedFirst, heldFirst⟩ := h
  obtain ⟨published, second, loggedSecond, heldSecond⟩ := k
  refine ⟨published, second ++ first, loggedFirst.trans loggedSecond, ?_⟩
  intro entry member
  rcases List.mem_append.mp member with later | earlier
  · exact loggedFirst.readyAt ▸ heldSecond entry later
  · exact heldFirst entry earlier

theorem Published.of_quiet (h : Published t c)
    (passage : Passage Moment.standing (fun e => e.request.operates = false) c d) :
    Sanctions t now? c d := by
  obtain ⟨entries, logged, kept, held⟩ := passage
  have state : d.status.state = c.status.state := congrArg Standing.state kept
  have faults : d.status.faults = c.status.faults := congrArg Standing.faults kept
  have trackers : d.monitor.faults = c.monitor.faults := congrArg Standing.trackers kept
  exact ⟨h.congr state faults trackers logged.readyAt, entries, logged,
    fun e member => .of_idle (held e member).2⟩

theorem Published.of_judge (h : Published t c)
    (passage : Passage Moment.status (fun e => e.request.operates = false) c d) :
    Sanctions t now? c { d with status := { d.status with faults := d.monitor.faultSet } } := by
  obtain ⟨entries, logged, kept, held⟩ := passage
  change d.status = c.status at kept
  refine ⟨⟨rfl, ?_⟩, entries, ⟨logged.journal, logged.served, logged.readyAt⟩,
    fun e member => .of_idle (held e member).2⟩
  change ∀ dir, d.status.state.conducts dir = true → d.readyAt ≤ t
  rw [kept, logged.readyAt]
  exact h.started

theorem Published.of_restore (h : Published t c)
    (passage : Passage (fun m => (m.status, m.monitor.faults))
      (fun e => e.request.operates = false ∨ e.Recloses) c d) : Sanctions t (some t) c d := by
  obtain ⟨entries, logged, kept, held⟩ := passage
  have status : d.status = c.status := congrArg Prod.fst kept
  have trackers : d.monitor.faults = c.monitor.faults := congrArg Prod.snd kept
  refine ⟨h.congr (congrArg Status.state status) (congrArg Status.faults status) trackers
    logged.readyAt, entries, logged, fun e member => ?_⟩
  obtain ⟨same, idle | recloses⟩ := held e member
  · exact .of_idle idle
  have statusThen : e.moment.status = c.status := congrArg Prod.fst same
  have trackersThen : e.moment.monitor.faults = c.monitor.faults := congrArg Prod.snd same
  constructor
  case published =>
    intro _
    rw [statusThen, h.faults, Monitor.faultSet_congr trackersThen]
  case permitted =>
    intro dir asked
    obtain ⟨dir', asked', on, allowed⟩ := recloses
    rw [asked] at asked'
    rw [Direction.switch_inj.mp (Request.setSwitch.inj asked').1]
    rw [statusThen] at on
    exact ⟨⟨t, rfl, h.started dir' on⟩, allowed⟩

theorem Published.of_turn {ok : Bool} (h : Published t c) (turn : Turn t c ok d) :
    Published t d := by
  cases turn with
  | early => exact h
  | through ready kept logged =>
    have status : d.status = { c.status with state := c.nextState } := congrArg Moment.status kept
    have monitor : d.monitor = c.monitor := congrArg Moment.monitor kept
    refine ⟨?_, fun _ _ => ?_⟩
    · rw [status, monitor]
      exact h.faults
    · rw [logged.readyAt]
      exact of_decide_eq_true ready
  | stuck _ kept _ logged =>
    exact h.congr (congrArg (fun m => m.status.state) kept)
      (congrArg (fun m => m.status.faults) kept) (congrArg (fun m => m.monitor.faults) kept)
      logged.readyAt

theorem Published.of_updateState (h : Published t c) :
    Sanctions t (some t) c (c.attempt (updateState t)).2 := by
  have turn := turn_updateState t c
  obtain ⟨entries, logged, held⟩ := turn.logged
  refine ⟨h.of_turn turn, entries, logged, fun e member => ?_⟩
  obtain ⟨ready, moment, command, among, asked⟩ := held e member
  constructor
  case published =>
    intro _
    rw [moment]
    exact h.faults
  case permitted =>
    intro dir closes
    rw [asked] at closes
    obtain ⟨switch, position⟩ := command
    obtain ⟨rfl, rfl⟩ := Request.setSwitch.inj closes
    rw [moment]
    have on := PackState.conducts_of_mem_commands among
    exact ⟨⟨t, rfl, of_decide_eq_true ready⟩, PackState.allowed_of_conducts_next on⟩

theorem Published.of_shutDown (h : Published t c) :
    Sanctions t now? c (c.attempt shutDown).2 := by
  have sanctioned : ∀ answer?, Entry.Sanctioned c.readyAt now? ⟨.enterMode .off, answer?, c.moment⟩ :=
    fun _ => ⟨fun _ => h.faults, fun d asked => by cases asked⟩
  rcases shutDown_cases c with ⟨d, ended, kept, logged⟩ | ⟨d, ended, kept, logged⟩ <;> rw [ended]
  · have status : d.status = { c.status with state := .off } := congrArg Moment.status kept
    have monitor : d.monitor = c.monitor := congrArg Moment.monitor kept
    refine ⟨⟨?_, ?_⟩, _, logged, by simpa using sanctioned _⟩
    · rw [status, monitor]
      exact h.faults
    · rw [status]
      intro dir on
      rw [PackState.eq_off_iff.mp rfl dir] at on
      cases on
  · refine ⟨?_, _, logged, by simpa using sanctioned _⟩
    exact h.congr (congrArg (fun m => m.status.state) kept)
      (congrArg (fun m => m.status.faults) kept) (congrArg (fun m => m.monitor.faults) kept)
      logged.readyAt

theorem Step.sanctions (step : Step now? c d) (h : Published t c) (told : ∀ now ∈ now?, now = t) :
    Sanctions t now? c d := by
  cases step with
  | quiet passage => exact h.of_quiet passage
  | judge passage => exact h.of_judge passage
  | @restore now _ _ passage =>
    obtain rfl := told now rfl
    exact h.of_restore passage
  | update now =>
    obtain rfl := told now rfl
    exact h.of_updateState
  | enableCharge | enableDischarge =>
    exact ⟨⟨h.faults, h.started⟩, [], ⟨rfl, .refl _, rfl⟩, by simp⟩
  | shutDown => exact h.of_shutDown

theorem Steps.sanctions (steps : Steps now? c d) (h : Published t c)
    (told : ∀ now ∈ now?, now = t) : Sanctions t now? c d := by
  induction steps with
  | refl => exact ⟨h, [], .refl c, by simp⟩
  | tail _ step ih => exact ih.trans (step.sanctions ih.1 told)

end Controller
section History

variable {σ ε : Type} {n t : Nat} [FrontEnd σ ε n] {drift : σ → σ → Prop} {s : σ} {config : Config}
  {c : Controller σ n}

theorem Operation.sanctions (op : Operation) (h : c.Published t)
    (ordered : ∀ now ∈ op.time?, t ≤ now) :
    Controller.Sanctions (op.time?.getD t) op.time? c (op.run c) := by
  have later : t ≤ op.time?.getD t := by
    cases told : op.time? with
    | none => exact Nat.le_refl t
    | some now => exact ordered now told
  exact (op.steps c).sanctions (h.mono later) fun now told => by rw [told]; rfl

theorem History.published (h : History drift (Controller.new s config) t c) : c.Published t := by
  induction h with
  | new =>
    refine ⟨?_, fun dir on => ?_⟩
    · change (∅ : FaultSet) = Monitor.faultSet {}
      decide
    · change PackState.off.conducts dir = true at on
      rw [PackState.eq_off_iff.mp rfl dir] at on
      cases on
  | operation op _ ordered ih => exact (op.sanctions ih ordered).1
  | drift _ _ ih => exact ⟨ih.faults, ih.started⟩

/-- In every history, whatever the front-end does, switch commands are made with the faults reported
as the monitor has them, and commands to close only when nothing forbids it. -/
theorem History.switch_command_sanctioned (h : History drift (Controller.new s config) t c)
    (op : Operation) (ordered : ∀ now ∈ op.time?, t ≤ now) {e : Entry n}
    (made : e ∈ c.since (op.run c)) :
    (∀ switch position, e.request = .setSwitch switch position →
      e.moment.status.faults = e.moment.monitor.faultSet) ∧
    (e.request = .setSwitch .discharge true →
      (∃ now ∈ op.time?, FrontEnd.startupDelay s ≤ now) ∧
      (∀ kind : FaultKind, kind.blocksDischarging = true →
        e.moment.monitor.phase kind ≠ .confirmed ∧ e.moment.monitor.phase kind ≠ .clearing) ∧
      e.moment.status.empty = false ∧ e.moment.status.dischargeEnabled = true) ∧
    (e.request = .setSwitch .charge true →
      (∃ now ∈ op.time?, FrontEnd.startupDelay s ≤ now) ∧
      (∀ kind : FaultKind, kind.blocksCharging = true →
        e.moment.monitor.phase kind ≠ .confirmed ∧ e.moment.monitor.phase kind ≠ .clearing) ∧
      e.moment.status.full = false ∧ e.moment.status.chargeEnabled = true) := by
  obtain ⟨-, entries, logged, held⟩ := op.sanctions h.published ordered
  rw [logged.since_eq] at made
  have sanctioned := held e made
  rw [h.readyAt_eq] at sanctioned
  refine ⟨fun switch position asked => sanctioned.published (by rw [asked]; rfl), ?_, ?_⟩
  · exact fun asked => sanctioned.of_closing (d := .discharge) asked
  · exact fun asked => sanctioned.of_closing (d := .charge) asked

end History

theorem History.switch_command_sanctioned_blind :
    ∃ e ∈ (Bench.blindControl.tick 0).since ((Bench.blindControl.tick 0).tick 1),
      e.request = .setSwitch .charge true ∧ e.moment.status.faults = e.moment.monitor.faultSet ∧
        e.moment.monitor.phase .cellOvervoltage ≠ .confirmed := by
  have first : History (fun _ _ => False) Bench.blindControl 0 (Bench.blindControl.tick 0) :=
    .operation (.tick 0) .new (by decide)
  have closing : ∃ e ∈ (Bench.blindControl.tick 0).since ((Bench.blindControl.tick 0).tick 1),
      e.request.sets .charge = some true := by decide +kernel
  obtain ⟨e, made, sets⟩ := closing
  have asked := Request.eq_setSwitch_of_sets sets
  have sanctioned := first.switch_command_sanctioned (.tick 1) (by decide) made
  exact ⟨e, made, asked, sanctioned.1 _ _ asked, ((sanctioned.2.2 asked).2.1 _ rfl).1⟩

end PackGuard
