import PackGuard.Proofs.Confirmation
import PackGuard.Proofs.Course
import PackGuard.Proofs.SwitchSafety

/-!
A front-end that moves its switches on command only, and reports where they are. As long as faults
are judged right after a report was read, the report agrees with the state, so no switch is ever
suspected of being stuck.
-/

namespace PackGuard

def Report.closed (report : Report) : Direction → Bool
  | .charge => report.charging
  | .discharge => report.discharging

section Faithful

variable {σ ε : Type} {n : Nat} [FrontEnd σ ε n]

/-- The switches move by switch commands and the off mode only, when these are answered, and reports
tell where they are. The front-end always detects the same faults by itself. -/
structure Faithful (closed : Direction → σ → Bool) : Prop where
  answered : ∀ {request : Request} {s t : σ} {answer : request.Answer n},
    FrontEnd.perform request s = .ok answer t →
      (∀ dir, closed dir t = (request.sets dir).getD (closed dir s)) ∧
        FrontEnd.hardwareFaults t = FrontEnd.hardwareFaults s
  failed : ∀ {request : Request} {s t : σ} {e : ε}, FrontEnd.perform request s = .error e t →
    (∀ dir, closed dir t = closed dir s) ∧ FrontEnd.hardwareFaults t = FrontEnd.hardwareFaults s
  reports : ∀ {s t : σ} {report : Report}, FrontEnd.perform .readReport s = .ok report t →
    ∀ dir, report.closed dir = closed dir s

variable {closed : Direction → σ → Bool} {s t : σ} {entries : List (Entry n)}

theorem Faithful.closed_eq (law : Faithful closed) (dir : Direction) (served : Served s entries t) :
    closed dir t = Entry.position entries dir (closed dir s) := by
  induction served with
  | refl => rfl
  | answered _ _ now ih =>
    rw [Entry.position_cons, ← ih]
    exact (law.answered now).1 dir
  | failed _ _ now ih =>
    rw [Entry.position_cons, ← ih]
    exact (law.failed now).1 dir

theorem Faithful.hardwareFaults_eq (law : Faithful closed) (served : Served s entries t) :
    FrontEnd.hardwareFaults t = FrontEnd.hardwareFaults s := by
  induction served with
  | refl => rfl
  | answered _ _ now ih => exact (law.answered now).2.trans ih
  | failed _ _ now ih => exact (law.failed now).2.trans ih

end Faithful

def Request.positional : Request → Bool
  | readReport | setSwitch .. => true
  | _ => false

namespace Entry

variable {n : Nat} {dir : Direction}

/-- If the entry is a request for the report or a switch command, then it was answered. -/
def Granted (e : Entry n) : Prop := e.request.positional = true → e.succeeded = true

instance : DecidablePred (Granted (n := n)) := fun e =>
  inferInstanceAs (Decidable (e.request.positional = true → e.succeeded = true))

theorem position_of_settled {entries : List (Entry n)} {start : Bool}
    (settled : ∀ e ∈ entries, ∀ on, e.sets dir = some on → on = start) :
    position entries dir start = start := by
  induction entries with
  | nil => rfl
  | cons e rest ih =>
    rw [position_cons, ih fun e member => settled e (List.mem_cons_of_mem _ member)]
    cases sets : e.sets dir with
    | none => rfl
    | some on => exact settled e List.mem_cons_self on sets

theorem sets_of_recloses {e : Entry n} {on : Bool} (h : e.Recloses) (sets : e.sets dir = some on) :
    on = true := by
  obtain ⟨dir', asked, -⟩ := h
  rw [Entry.sets, asked] at sets
  split at sets
  · change (if dir'.switch = dir.switch then some true else none) = some on at sets
    split at sets
    · exact (Option.some.inj sets).symm
    · cases sets
  · cases sets

end Entry

namespace Controller

variable {σ ε : Type} {n : Nat} [FrontEnd σ ε n] {closed : Direction → σ → Bool}
  {c d : Controller σ n}

def Aligned (closed : Direction → σ → Bool) (c : Controller σ n) : Prop :=
  ∀ dir, closed dir c.frontEnd = c.status.state.conducts dir

def Aligns (closed : Direction → σ → Bool) (c d : Controller σ n) : Prop :=
  ∃ entries, Logged c entries d ∧
    ((∀ e ∈ entries, e.Granted) → Aligned closed c → Aligned closed d)

theorem Aligns.trans {e : Controller σ n} (h : Aligns closed c d) (k : Aligns closed d e) :
    Aligns closed c e := by
  obtain ⟨first, loggedFirst, alignedFirst⟩ := h
  obtain ⟨second, loggedSecond, alignedSecond⟩ := k
  refine ⟨second ++ first, loggedFirst.trans loggedSecond, fun granted aligned => ?_⟩
  refine alignedSecond (fun e member => granted e (List.mem_append_left _ member)) ?_
  exact alignedFirst (fun e member => granted e (List.mem_append_right _ member)) aligned

theorem Aligns.of_passage (law : Faithful closed)
    (passage : Passage (fun m => m.status.state)
      (fun e => e.request.operates = false ∨ e.Recloses) c d) : Aligns closed c d := by
  obtain ⟨entries, logged, kept, held⟩ := passage
  change d.status.state = c.status.state at kept
  refine ⟨entries, logged, fun _ aligned dir => ?_⟩
  rw [law.closed_eq dir logged.served, aligned dir, kept]
  refine Entry.position_of_settled fun e member on sets => ?_
  obtain ⟨same, idle | recloses⟩ := held e member
  · rw [Entry.sets_eq_none_of_operates dir idle] at sets
    cases sets
  · change e.moment.status.state = c.status.state at same
    rw [Entry.sets_of_recloses recloses sets, ← same]
    exact (Entry.conducts_of_recloses recloses sets).symm

theorem Turn.aligns {now : Nat} {ok : Bool} (turn : Turn now c ok d) (law : Faithful closed) :
    Aligns closed c d := by
  cases turn with
  | early => exact ⟨[], .refl c, fun _ aligned => aligned⟩
  | through _ kept logged =>
    refine ⟨_, logged, fun _ aligned dir => ?_⟩
    have state : d.status.state = c.nextState := congrArg (fun m => m.status.state) kept
    rw [law.closed_eq dir logged.served, Entry.position_commands, aligned dir, state]
    split
    · assumption
    · rfl
  | stuck _ _ _ logged =>
    refine ⟨_, logged, fun granted => ?_⟩
    cases granted _ List.mem_cons_self rfl

theorem Step.aligns {now? : Option Nat} (step : Step now? c d) (law : Faithful closed) :
    Aligns closed c d := by
  cases step with
  | quiet passage =>
    exact .of_passage law <| passage.weaken Standing.state (fun _ => rfl) fun _ _ idle => .inl idle
  | @judge _ _ d passage =>
    have judged : Aligns closed c d := .of_passage law <|
      passage.weaken Status.state (fun _ => rfl) fun _ _ idle => .inl idle
    obtain ⟨entries, logged, aligns⟩ := judged
    exact ⟨entries, ⟨logged.journal, logged.served, logged.readyAt⟩, aligns⟩
  | restore passage =>
    exact .of_passage law <| passage.weaken (fun m => m.1.state) (fun _ => rfl) fun _ _ e => e
  | update now => exact (turn_updateState now c).aligns law
  | enableCharge | enableDischarge => exact ⟨[], ⟨rfl, .refl _, rfl⟩, fun _ aligned => aligned⟩
  | shutDown =>
    rcases shutDown_cases c with ⟨d, ended, kept, logged⟩ | ⟨d, ended, kept, logged⟩ <;> rw [ended]
    · refine ⟨_, logged, fun _ _ dir => ?_⟩
      have state : d.status.state = .off := congrArg (fun m => m.status.state) kept
      rw [law.closed_eq dir logged.served, state, PackState.eq_off_iff.mp rfl dir]
      rfl
    · refine ⟨_, logged, fun _ aligned dir => ?_⟩
      have state : d.status.state = c.status.state := congrArg (fun m => m.status.state) kept
      rw [law.closed_eq dir logged.served, state]
      exact aligned dir

theorem Steps.aligns {now? : Option Nat} (steps : Steps now? c d) (law : Faithful closed) :
    Aligns closed c d := by
  induction steps with
  | refl => exact ⟨[], .refl c, fun _ aligned => aligned⟩
  | tail _ step ih => exact ih.trans (step.aligns law)

theorem reported_of_readReport (law : Faithful closed) (c : Controller σ n)
    (granted : ∀ e ∈ c.since (c.attempt readReport).2, e.Granted) (dir : Direction) :
    (c.attempt readReport).2.report.closed dir =
      closed dir (c.attempt readReport).2.frontEnd := by
  obtain ⟨report, s, asked, read⟩ | ⟨s, asked, failed⟩ :=
    attempt_reading .readReport (fun report c => { c with report }) c
  · have read : (c.attempt readReport).2 = { c.record .readReport (some report) s with report } :=
      read
    rw [read]
    cases asked.served with
    | answered _ before made =>
      cases before
      exact (law.reports made dir).trans ((law.answered made).1 dir).symm
  · have failed : (c.attempt readReport).2 = c.record .readReport none s := failed
    rw [failed, asked.since_eq] at granted
    cases granted _ List.mem_cons_self rfl

theorem reported_of_refresh (law : Faithful closed) (now : Nat) (c : Controller σ n)
    (granted : ∀ e ∈ c.since (c.refresh now).2, e.Granted) (dir : Direction) :
    (c.refresh now).2.report.closed dir = closed dir (c.refresh now).2.frontEnd := by
  obtain ⟨first, values, -⟩ := passage_values now c
  obtain ⟨complete, refreshed⟩ := refresh_eq now c
  rw [refreshed] at granted ⊢
  generalize (((c.attempt readCells).2.attempt (readCurrent now)).2.attempt readTemperatures).2 = d
    at values granted ⊢
  have reported := reported_of_readReport law d
  obtain ⟨second, asked, -⟩ := passes_readReport d
  generalize (d.attempt readReport).2 = e at asked granted reported ⊢
  have whole := values.trans asked
  have noted : Logged c (second ++ first) (e.noteCycle complete) :=
    ⟨whole.journal, whole.served, whole.readyAt⟩
  rw [noted.since_eq] at granted
  rw [asked.since_eq] at reported
  exact reported (fun e member => granted e (List.mem_append_left _ member)) dir

/-- With a report of where the switches are, and switches where the state has them, none is found
stuck. -/
theorem untripped_of_aligned {kind : FaultKind}
    (plausibility : kind = .dischargeSwitchStuckOff ∨ kind = .chargeSwitchStuckOn)
    (reported : ∀ dir, c.report.closed dir = c.status.state.conducts dir) :
    ∃ check, kind.check? c.config c.status c.report = some check ∧ check.tripped = false := by
  rcases plausibility with rfl | rfl
  · have discharging : c.report.discharging = c.status.state.discharging := reported .discharge
    exact ⟨_, rfl, by simp [Check.plain, discharging]⟩
  · have charging : c.report.charging = c.status.state.charging := reported .charge
    exact ⟨_, rfl, by simp [Check.plain, charging]⟩

theorem agrees_of_refresh (law : Faithful closed) (now : Nat) (c : Controller σ n)
    (granted : ∀ e ∈ c.since (c.refresh now).2, e.Granted) (aligned : Aligned closed c)
    (dir : Direction) :
    (c.refresh now).2.report.closed dir = (c.refresh now).2.status.state.conducts dir := by
  have reported := reported_of_refresh law now c granted dir
  obtain ⟨entries, logged, alignedThen⟩ := (step_refresh (some now) now c).aligns law
  generalize (c.refresh now).2 = measured at granted reported logged alignedThen ⊢
  rw [logged.since_eq] at granted
  exact reported.trans (alignedThen granted aligned dir)

theorem mem_since_tick {now : Nat} {e : Entry n} (member : e ∈ c.since (c.refresh now).2) :
    e ∈ c.since (c.tick now) := by
  rw [tick_eq]
  obtain ⟨first, measured⟩ := (step_refresh (some now) now c).logged
  generalize (c.refresh now).2 = d at measured member ⊢
  obtain ⟨second, rest⟩ := (steps_measured now d).logged
  rw [measured.since_eq] at member
  rw [(measured.trans rest).since_eq]
  exact List.mem_append_right _ member

theorem hardwareFaults_refresh (law : Faithful closed) (now : Nat) (c : Controller σ n) :
    FrontEnd.hardwareFaults (c.refresh now).2.frontEnd = FrontEnd.hardwareFaults c.frontEnd := by
  obtain ⟨entries, logged⟩ := (step_refresh (some now) now c).logged
  generalize (c.refresh now).2 = measured at logged ⊢
  exact law.hardwareFaults_eq logged.served

end Controller

theorem Cycle.finds_none_stuck {σ ε : Type} {n : Nat} [FrontEnd σ ε n]
    {closed : Direction → σ → Bool} (cycle : Cycle σ n) (law : Faithful closed)
    (granted : ∀ e ∈ cycle.before.since cycle.after, e.Granted)
    (aligned : Controller.Aligned closed cycle.before) {kind : FaultKind}
    (plausibility : kind = .dischargeSwitchStuckOff ∨ kind = .chargeSwitchStuckOn)
    (software : kind ∉ FrontEnd.hardwareFaults cycle.before.frontEnd)
    (clear : cycle.before.monitor.phase kind = .clear) :
    cycle.after.monitor.phase kind = .clear := by
  have agrees := Controller.agrees_of_refresh law cycle.now cycle.before
    (fun e member => granted e (Controller.mem_since_tick member)) aligned
  obtain ⟨check, found, untripped⟩ := Controller.untripped_of_aligned plausibility agrees
  have judged : kind ∉ cycle.round.hardware := by
    rw [Round.hardware, Cycle.round, Controller.hardwareFaults_refresh law]
    exact software
  rw [← Cycle.monitor_before] at clear
  rw [← Cycle.monitor_after]
  exact Round.of_untripped judged found clear untripped

def Operation.judges : Operation → Bool
  | tick _ | handleFaults _ => true
  | _ => false

namespace Controller

variable {σ ε : Type} {n : Nat} [FrontEnd σ ε n] {c d : Controller σ n}

theorem Passage.monitor_eq {κ : Type} {view : Moment n → κ} {condition : Entry n → Prop}
    (h : Passage view condition c d) (part : κ → Monitor)
    (views : ∀ m, part (view m) = m.monitor) : d.monitor = c.monitor := by
  have kept : Passage Moment.monitor condition c d := h.weaken part views fun _ _ e => e
  obtain ⟨_, _, same, -⟩ := kept
  exact same

theorem monitor_run {op : Operation} (calm : op.judges = false) (c : Controller σ n) :
    (op.run c).monitor = c.monitor := by
  cases op with
  | tick | handleFaults => cases calm
  | start now => exact (passes_start now c).monitor_eq Moment.monitor fun _ => rfl
  | refresh now => exact monitor_refresh now c
  | updateState now => exact (turn_updateState now c).monitor_eq
  | balance now => exact (passes_balance now c).monitor_eq Moment.monitor fun _ => rfl
  | sampleCurrent now => exact (passes_sampleCurrent now c).monitor_eq Moment.monitor fun _ => rfl
  | program kind => exact (passes_program kind c).monitor_eq Moment.monitor fun _ => rfl
  | programTemperatures =>
    exact (passes_programTemperatures c).monitor_eq Moment.monitor fun _ => rfl
  | programAll => exact (passes_programAll c).monitor_eq Moment.monitor fun _ => rfl
  | shutDown =>
    rcases shutDown_cases c with ⟨d, ended, kept, -⟩ | ⟨d, ended, kept, -⟩ <;>
      exact (congrArg (fun r => r.2.monitor) ended).trans (congrArg Moment.monitor kept)
  | updateCharge | resetCharge | enableCharge | enableDischarge | configure => rfl

end Controller

section Course

variable {σ ε : Type} {n t : Nat} [FrontEnd σ ε n] {closed : Direction → σ → Bool} {s : σ}
  {config : Config} {made : List (Stamped n)} {c : Controller σ n} {kind : FaultKind}

/-- The switches are where the state has them, and a fault that tells otherwise is not suspected. -/
structure Consistent (closed : Direction → σ → Bool) (kind : FaultKind) (c : Controller σ n) :
    Prop where
  aligned : Controller.Aligned closed c
  software : kind ∉ FrontEnd.hardwareFaults c.frontEnd
  clear : c.monitor.phase kind = .clear

theorem Consistent.run (h : Consistent closed kind c) (law : Faithful closed)
    (plausibility : kind = .dischargeSwitchStuckOff ∨ kind = .chargeSwitchStuckOn) {op : Operation}
    (whole : ∀ now, op ≠ .handleFaults now) (granted : ∀ e ∈ c.since (op.run c), e.Granted) :
    Consistent closed kind (op.run c) := by
  obtain ⟨entries, logged, aligns⟩ := (op.steps c).aligns law
  rw [logged.since_eq] at granted
  refine ⟨aligns granted h.aligned, ?_, ?_⟩
  · rw [law.hardwareFaults_eq logged.served]
    exact h.software
  cases calm : op.judges with
  | false =>
    rw [Controller.monitor_run calm]
    exact h.clear
  | true =>
    cases op with
    | tick now =>
      have cycle : ∀ e ∈ c.since (c.tick now), e.Granted := logged.since_eq ▸ granted
      exact Cycle.finds_none_stuck ⟨c, now⟩ law cycle h.aligned plausibility h.software h.clear
    | handleFaults now => exact absurd rfl (whole now)
    | _ => cases calm

/-- As long as reports and switch commands are granted, no switch of a faithful front-end is ever
suspected of being stuck, whatever else fails and whatever is measured. -/
theorem Course.none_stuck (law : Faithful closed)
    (plausibility : kind = .dischargeSwitchStuckOff ∨ kind = .chargeSwitchStuckOn)
    (opened : ∀ dir, closed dir s = false) (software : kind ∉ FrontEnd.hardwareFaults s)
    (h : Course (fun _ op => ∀ now, op ≠ .handleFaults now)
      (fun s t => (∀ dir, closed dir t = closed dir s) ∧
        FrontEnd.hardwareFaults t = FrontEnd.hardwareFaults s)
      (Controller.new s config) t made c)
    (granted : ∀ r ∈ made, r.entry.Granted) : c.monitor.phase kind = .clear := by
  suffices kept : Consistent closed kind c from kept.clear
  induction h with
  | new =>
    have aligned : Controller.Aligned closed (Controller.new s config) := fun dir =>
      (opened dir).trans (PackState.eq_off_iff.mp rfl dir).symm
    exact ⟨aligned, software, Cycles.phase_new s config kind⟩
  | operation op before may ih =>
    have kept := ih fun r member => granted r (List.mem_append_right _ member)
    refine kept.run law plausibility may fun e member => ?_
    exact granted _ (List.mem_append_left _ (List.mem_map_of_mem member))
  | drift before drifts ih =>
    obtain ⟨aligned, software, clear⟩ := ih granted
    obtain ⟨unmoved, same⟩ := drifts
    exact ⟨fun dir => (unmoved dir).trans (aligned dir), same ▸ software, clear⟩

end Course

namespace Bench

variable {n : Nat}

theorem hardware_answer (b : Bench n) (request : Request) :
    (b.answer request).2.hardware = b.hardware := by
  cases request with
  | setSwitch switch position => cases switch <;> rfl
  | enterMode mode => cases mode <;> rfl
  | _ => rfl

theorem faithful : Faithful (closed : Direction → Bench n → Bool) where
  answered {request _ _ _} h := by
    have served := congrArg (fun r => r.2.hardware) (answer_of_ok h)
    exact ⟨closed_of_ok h, served.symm.trans (hardware_answer _ request)⟩
  failed h := by
    refine ⟨closed_of_error h, ?_⟩
    rw [eq_of_error h]
    rfl
  reports h dir := by
    cases answer_of_ok h
    cases dir <;> rfl

def reporting : Controller (Bench 1) 1 :=
  ((Controller.new { uniform 1 3.6 with refusedKinds := [.readCells, .readCurrent] }
    (.ofChemistry .nmc 10.0)).tick 0).tick 1

def parted : Controller (Bench 1) 1 :=
  Operation.shutDown.run ((reporting.enableDischarge false).tick 2)

end Bench

theorem Course.none_stuck_parted :
    Bench.closed .discharge Bench.reporting.frontEnd = true ∧
    Bench.closed .charge Bench.reporting.frontEnd = true ∧
    Bench.closed .charge Bench.parted.frontEnd = false ∧
    (Bench.parted.tick 3).monitor.phase .dischargeSwitchStuckOff = .clear ∧
      (Bench.parted.tick 3).monitor.phase .chargeSwitchStuckOn = .clear := by
  have begun : Course (fun _ op => ∀ now, op ≠ .handleFaults now)
      (fun s t => (∀ dir, Bench.closed dir t = Bench.closed dir s) ∧
        FrontEnd.hardwareFaults t = FrontEnd.hardwareFaults s)
      (Controller.new { Bench.uniform 1 3.6 with refusedKinds := [.readCells, .readCurrent] }
        (.ofChemistry .nmc 10.0)) 1 _ Bench.reporting :=
    .operation (.tick 1) (.operation (.tick 0) .new nofun) nofun
  have run : Course _ _ _ 3 _ (Bench.parted.tick 3) :=
    .operation (.tick 3) (.operation .shutDown (.operation (.tick 2)
      (.operation (.enableDischarge false) begun nofun) nofun) nofun) nofun
  have opened : ∀ dir, Bench.closed dir { Bench.uniform 1 3.6 with
      refusedKinds := [.readCells, .readCurrent] } = false := by
    intro dir
    cases dir <;> rfl
  refine ⟨by decide +kernel, by decide +kernel, by decide +kernel, ?_, ?_⟩
  · exact run.none_stuck Bench.faithful (.inl rfl) opened (by decide +kernel) (by decide +kernel)
  · exact run.none_stuck Bench.faithful (.inr rfl) opened (by decide +kernel) (by decide +kernel)

end PackGuard
