import PackGuard.FrontEnd.Bench
import PackGuard.Proofs.FaultRound

/-!
Rounds of the fault monitor in a row, with anything in between but a change of the monitor. What is
reported disappears in two steps only: a round clears it, and the next one does not see it any more.
-/

namespace PackGuard

def FaultKind.judged : FaultKind → Bool
  | shortCircuit | openWire | internalOvertemperature | cellFailure | switchOvertemperature => false
  | _ => true

theorem FaultKind.isSome_check? {n : Nat} (kind : FaultKind) (config : Config) (status : Status n)
    (report : Report) : (kind.check? config status report).isSome = kind.judged := by
  cases kind <;> rfl

theorem FaultKind.judged_of_waits {kind : FaultKind} (waits : kind.retriesBlindly = false) :
    kind.judged = true := by
  cases kind <;> first | rfl | cases waits

structure Round (σ : Type) (n : Nat) where
  before : Controller σ n
  now : Nat

namespace Round

variable {σ ε : Type} {n : Nat} [FrontEnd σ ε n]

def after (round : Round σ n) : Controller σ n := round.before.handleFaults round.now

def entries (round : Round σ n) : List (Entry n) := round.before.since round.after

def hardware (round : Round σ n) : FaultSet := FrontEnd.hardwareFaults round.before.frontEnd

def check? (round : Round σ n) (kind : FaultKind) : Option Check :=
  kind.check? round.before.config round.before.status round.before.report

theorem exists_check (round : Round σ n) {kind : FaultKind} (judged : kind.judged = true) :
    ∃ check, round.check? kind = some check :=
  Option.isSome_iff_exists.mp ((kind.isSome_check? _ _ _).trans judged)

def next (round : Round σ n) (now : Nat) : Round σ n := ⟨(round.after.refresh now).2, now⟩

theorem monitor_next (round : Round σ n) (now : Nat) :
    (round.next now).before.monitor = round.after.monitor := by
  obtain ⟨_, _, kept, -⟩ := Controller.passage_refresh now round.after
  rw [next]
  generalize (round.after.refresh now).2 = read at kept
  generalize round.after = after at kept
  exact congrArg Moment.monitor kept

/-- A request was made in the round, and carried out. -/
def Carries (round : Round σ n) (request : Request) : Prop :=
  ∃ e ∈ round.entries, e.request = request ∧ e.succeeded = true

theorem tended_fault (round : Round σ n) {kind : FaultKind} {seen : Sighting}
    (sees : kind.sighting? round.hardware round.before.config round.before.status
      round.before.report (round.before.monitor.phase kind) = some seen) :
    Controller.Tended (kind.pace round.before.config) seen round.now
      (Controller.clearRequest round.hardware kind) round.entries
      (round.before.monitor.faults.get kind) (round.after.monitor.faults.get kind) :=
  Controller.tended_handleFaults_fault round.now round.before sees

theorem tended_alert (round : Round σ n) (alert : Alert) :
    Controller.Tended alert.pace (alert.sighting round.before.report) round.now
      (some (.clear ∅ {alert})) round.entries (round.before.monitor.alerts.get alert)
      (round.after.monitor.alerts.get alert) :=
  Controller.tended_handleFaults_alert round.now round.before alert

theorem dropped_fault {round : Round σ n} {kind : FaultKind}
    (flagged : (round.before.monitor.phase kind).flagged = true)
    (gone : (round.after.monitor.phase kind).flagged = false) :
    round.before.monitor.phase kind = .clearing ∧
      (kind ∈ round.hardware → kind ∉ round.before.report.faults) ∧
      (kind ∉ round.hardware → ∃ check, round.check? kind = some check ∧ check.recovered = true) := by
  cases sees : kind.sighting? round.hardware round.before.config round.before.status
    round.before.report (round.before.monitor.phase kind) with
  | none =>
    have kept := Controller.handleFaults_fault_of_unseen round.now round.before sees
    have same : round.after.monitor.phase kind = round.before.monitor.phase kind :=
      congrArg Tracker.phase kept
    rw [same, flagged] at gone
    cases gone
  | some seen =>
    obtain ⟨clearing, unseen⟩ := (round.tended_fault sees).of_removed flagged gone
    refine ⟨clearing, ?_, ?_⟩
    · intro detected
      rw [FaultKind.sighting?, if_pos detected] at sees
      cases sees
      simpa using unseen
    · intro judged
      rw [FaultKind.sighting?, if_neg judged, Option.map_eq_some_iff] at sees
      obtain ⟨check, found, rfl⟩ := sees
      refine ⟨check, found, ?_⟩
      simpa [flagged] using unseen

theorem cleared_fault {round : Round σ n} {kind : FaultKind}
    (seen : kind ∈ round.hardware ∨ kind.judged = true)
    (clearing : round.after.monitor.phase kind = .clearing) :
    round.before.monitor.phase kind = .confirmed ∧
      (kind ∈ round.hardware → round.Carries (.clear {kind} ∅)) ∧
      (kind.retriesBlindly = false →
        ∃ check, round.check? kind = some check ∧ check.recovered = true) := by
  have judged : ∃ present debounced, kind.sighting? round.hardware round.before.config
      round.before.status round.before.report (round.before.monitor.phase kind) =
        some ⟨present, debounced,
          kind.retriesBlindly || ((round.check? kind).map Check.recovered).getD true⟩ := by
    unfold FaultKind.sighting?
    split
    · exact ⟨_, _, rfl⟩
    · rename_i other
      obtain ⟨check, found⟩ := round.exists_check (seen.resolve_left other)
      have found' : kind.check? round.before.config round.before.status round.before.report =
        some check := found
      rw [found, found']
      exact ⟨_, _, rfl⟩
  obtain ⟨present, debounced, sees⟩ := judged
  obtain ⟨confirmed, recovered, granted⟩ := (round.tended_fault sees).of_clearing clearing
  refine ⟨confirmed, ?_, ?_⟩
  · intro detected
    exact granted _ (by simp [Controller.clearRequest, detected])
  · intro waits
    obtain ⟨check, found⟩ := round.exists_check (FaultKind.judged_of_waits waits)
    rw [waits, found] at recovered
    exact ⟨check, found, recovered⟩

end Round

section Rounds

variable {σ ε : Type} {n : Nat} [FrontEnd σ ε n]

/-- Rounds of one monitor, the latest first. The front-end detects the same faults by itself in all
of them; apart from that only the monitor is handed on. -/
inductive Rounds (hardware : FaultSet) : List (Round σ n) → Prop
  | first {round : Round σ n} (new : round.before.monitor = {})
      (detects : round.hardware = hardware) : Rounds hardware [round]
  | next {round last : Round σ n} {earlier : List (Round σ n)}
      (past : Rounds hardware (last :: earlier))
      (same : round.before.monitor = last.after.monitor)
      (detects : round.hardware = hardware) : Rounds hardware (round :: last :: earlier)

variable {hardware : FaultSet} {round : Round σ n} {earlier : List (Round σ n)}

theorem Rounds.detects (h : Rounds hardware (round :: earlier)) : round.hardware = hardware := by
  cases h <;> assumption

/-- The report of a fault ended in a round, after the one before had cleared the fault. -/
structure FaultCleared (hardware : FaultSet) (kind : FaultKind) (last round : Round σ n) :
    Prop where
  confirmed : last.before.monitor.phase kind = .confirmed
  clearing : last.after.monitor.phase kind = .clearing
  detected : kind ∈ hardware →
    last.Carries (.clear {kind} ∅) ∧ kind ∉ round.before.report.faults
  judged : kind ∉ hardware → ∃ check, round.check? kind = some check ∧ check.recovered = true
  waited : kind.retriesBlindly = false →
    ∃ check, last.check? kind = some check ∧ check.recovered = true

structure AlertCleared (alert : Alert) (last round : Round σ n) : Prop where
  confirmed : (last.before.monitor.alerts.get alert).phase = .confirmed
  clearing : (last.after.monitor.alerts.get alert).phase = .clearing
  carried : last.Carries (.clear ∅ {alert})
  unseen : alert ∉ round.before.report.alerts

theorem Rounds.fault_cleared (h : Rounds hardware (round :: earlier)) {kind : FaultKind}
    (flagged : (round.before.monitor.phase kind).flagged = true)
    (gone : (round.after.monitor.phase kind).flagged = false) :
    ∃ last rest, earlier = last :: rest ∧ FaultCleared hardware kind last round := by
  obtain ⟨clearing, unseen, recovered⟩ := Round.dropped_fault flagged gone
  cases h with
  | first new =>
    have clear : round.before.monitor.phase kind = .clear := by
      rw [new]
      exact congrArg Tracker.phase (Table.get_const _ _)
    rw [clear] at flagged
    cases flagged
  | @next _ last rest past same detects =>
    rw [detects] at unseen recovered
    have left : last.after.monitor.phase kind = .clearing := by rw [← same, clearing]
    have seen : kind ∈ last.hardware ∨ kind.judged = true := by
      rw [past.detects]
      by_cases detected : kind ∈ hardware
      · exact .inl detected
      · obtain ⟨check, found, -⟩ := recovered detected
        exact .inr ((kind.isSome_check? _ _ _).symm.trans (Option.isSome_of_eq_some found))
    obtain ⟨confirmed, carried, waited⟩ := Round.cleared_fault seen left
    rw [past.detects] at carried
    exact ⟨last, rest, rfl, confirmed, left, fun detected => ⟨carried detected, unseen detected⟩,
      recovered, waited⟩

theorem Rounds.alert_cleared (h : Rounds hardware (round :: earlier)) {alert : Alert}
    (flagged : (round.before.monitor.alerts.get alert).phase.flagged = true)
    (gone : (round.after.monitor.alerts.get alert).phase.flagged = false) :
    ∃ last rest, earlier = last :: rest ∧ AlertCleared alert last round := by
  obtain ⟨clearing, unseen⟩ := (round.tended_alert alert).of_removed flagged gone
  cases h with
  | first new =>
    have clear : (round.before.monitor.alerts.get alert).phase = .clear := by
      rw [new]
      exact congrArg Tracker.phase (Table.get_const _ _)
    rw [clear] at flagged
    cases flagged
  | @next _ last rest past same =>
    have left : (last.after.monitor.alerts.get alert).phase = .clearing := by rw [← same, clearing]
    obtain ⟨confirmed, -, granted⟩ := (last.tended_alert alert).of_clearing left
    exact ⟨last, rest, rfl, confirmed, left, granted _ rfl, by simpa [Alert.sighting] using unseen⟩

/-- Whatever is reported before a round and not after it was cleared in the round before. -/
theorem Rounds.flags_cleared (h : Rounds hardware (round :: earlier)) :
    (∀ kind, (round.before.monitor.phase kind).flagged = true →
      (round.after.monitor.phase kind).flagged = false →
      ∃ last rest, earlier = last :: rest ∧ FaultCleared hardware kind last round) ∧
    (∀ alert, (round.before.monitor.alerts.get alert).phase.flagged = true →
      (round.after.monitor.alerts.get alert).phase.flagged = false →
      ∃ last rest, earlier = last :: rest ∧ AlertCleared alert last round) :=
  ⟨fun _ => h.fault_cleared, fun _ => h.alert_cleared⟩

end Rounds

def Bench.alarmed : Round (Bench 1) 1 where
  before := ((Controller.new
    { Bench.uniform 1 3.6 with report := { faults := {.cellUndervoltage}, alerts := {.notReady} } }
    (.ofChemistry .nmc 10.0)).refresh 0).2
  now := 0

theorem Rounds.flags_cleared_alarmed :
    ∃ last rest, [Bench.alarmed.next 3000, Bench.alarmed] = last :: rest ∧
      FaultCleared Bench.defaultHardware .cellUndervoltage last
        ((Bench.alarmed.next 3000).next 4000) ∧
      AlertCleared .notReady last ((Bench.alarmed.next 3000).next 4000) := by
  have run : Rounds Bench.defaultHardware
      [(Bench.alarmed.next 3000).next 4000, Bench.alarmed.next 3000, Bench.alarmed] :=
    .next (.next (.first rfl (by decide +kernel)) (Round.monitor_next _ _) (by decide +kernel))
      (Round.monitor_next _ _) (by decide +kernel)
  obtain ⟨last, rest, ended, fault⟩ :=
    run.flags_cleared.1 .cellUndervoltage (by decide +kernel) (by decide +kernel)
  obtain ⟨_, _, ended', alert⟩ :=
    run.flags_cleared.2 .notReady (by decide +kernel) (by decide +kernel)
  obtain ⟨rfl, -⟩ := List.cons.inj (ended'.symm.trans ended)
  exact ⟨_, rest, ended, fault, alert⟩

end PackGuard
