import PackGuard.Proofs.FaultClearance

/-!
How often a round of the fault monitor asks the front-end to clear something. A fault or an alert is
asked for at most once in a round, when its tracker finds that clearing it is due, and in no other
part of the round.
-/

namespace PackGuard

/-- What the monitor keeps a tracker of. -/
inductive Concern where
  | fault (kind : FaultKind)
  | alert (alert : Alert)
  deriving DecidableEq

namespace Concern

def tracker (monitor : Monitor) : Concern → Tracker
  | fault kind => monitor.faults.get kind
  | alert raised => monitor.alerts.get raised

def window : Concern → Nat
  | fault kind => kind.retryWindow
  | alert raised => raised.pace.window

def retriesBlindly : Concern → Bool
  | fault kind => kind.retriesBlindly
  | alert _ => true

def Detected (hardware : FaultSet) : Concern → Prop
  | fault kind => kind ∈ hardware
  | alert _ => True

def clearing : Concern → FaultSet × AlertSet
  | fault kind => ({kind}, ∅)
  | alert raised => (∅, {raised})

instance (hardware : FaultSet) (concern : Concern) : Decidable (concern.Detected hardware) :=
  match concern with
  | fault kind => inferInstanceAs (Decidable (kind ∈ hardware))
  | alert _ => inferInstanceAs (Decidable True)

theorem window_pos (concern : Concern) : 0 < concern.window := by
  cases concern with
  | fault kind => cases kind <;> decide
  | alert raised => cases raised <;> decide

end Concern

namespace FlagSet

variable {κ : Type} [Enumerated κ] {a b : κ}

theorem singleton_ne_empty (a : κ) : ({a} : FlagSet κ) ≠ ∅ := by
  intro same
  have member : a ∈ ({a} : FlagSet κ) := mem_singleton.mpr rfl
  rw [same] at member
  exact notMem_empty a member

@[simp] theorem singleton_inj : ({a} : FlagSet κ) = {b} ↔ a = b := by
  constructor
  · intro same
    have member : a ∈ ({a} : FlagSet κ) := mem_singleton.mpr rfl
    rw [same] at member
    exact mem_singleton.mp member
  · exact congrArg _

end FlagSet

def Request.clears (concern : Concern) : Request → Bool
  | clear faults alerts => decide ((faults, alerts) = concern.clearing)
  | _ => false

@[simp] theorem Request.clears_fault (concern : Concern) (kind : FaultKind) :
    (clear {kind} ∅).clears concern = decide (concern = .fault kind) := by
  rw [clears, decide_eq_decide]
  cases concern with
  | fault other => simp [Concern.clearing, @eq_comm _ kind]
  | alert raised => simp [Concern.clearing, FlagSet.singleton_ne_empty]

@[simp] theorem Request.clears_alert (concern : Concern) (alert : Alert) :
    (clear ∅ {alert}).clears concern = decide (concern = .alert alert) := by
  rw [clears, decide_eq_decide]
  cases concern with
  | fault kind => simp [Concern.clearing, (FlagSet.singleton_ne_empty kind).symm]
  | alert other => simp [Concern.clearing, @eq_comm _ alert]

theorem Entry.clears_of_recloses {n : Nat} {entry : Entry n} (h : entry.Recloses)
    (concern : Concern) : entry.request.clears concern = false := by
  obtain ⟨_, asked, -⟩ := h
  rw [asked]
  rfl

namespace Tracker

variable {pace : Pace} {seen : Sighting} {now : Nat} {t : Tracker}

theorem advance_confirmed (confirmed : t.phase = .confirmed) :
    t.advance pace seen now =
      if t.lastWindow < t.windowAt pace.window now then
        ({ t with lastWindow := t.windowAt pace.window now }, seen.recovered)
      else (t, false) := by
  simp only [advance, confirmed]

theorem advance_unconfirmed (unconfirmed : t.phase ≠ .confirmed) :
    (t.advance pace seen now).2 = false ∧
      ((t.advance pace seen now).1 = confirm now ∨
        (t.advance pace seen now).1.phase ≠ .confirmed) := by
  unfold advance
  cases phase : t.phase with
  | confirmed => exact absurd phase unconfirmed
  | clear | suspected | clearing =>
    cases seen.present <;> cases seen.debounced <;> grind [suspect, drop]

end Tracker

namespace Controller

variable {σ ε : Type} {n : Nat} [FrontEnd σ ε n] {concern : Concern} {c d : Controller σ n}

def asked (concern : Concern) (c : Controller σ n) : Nat :=
  c.journal.countP fun e => e.request.clears concern

theorem Logged.asked_eq {entries : List (Entry n)} (h : Logged c entries d) (concern : Concern) :
    d.asked concern =
      entries.countP (fun e => e.request.clears concern) + c.asked concern := by
  rw [asked, h.journal, List.countP_append, asked]

theorem Passage.asked_eq {κ : Type} {view : Moment n → κ} {condition : Entry n → Prop}
    (h : Passage view condition c d)
    (others : ∀ e, condition e → e.request.clears concern = false) :
    d.asked concern = c.asked concern := by
  obtain ⟨entries, logged, -, held⟩ := h
  have none : entries.countP (fun e => e.request.clears concern) = 0 := by
    rw [List.countP_eq_zero]
    intro e member
    simp [others e (held e member).2]
  rw [logged.asked_eq, none, Nat.zero_add]

theorem asked_attempt (request : Request) (concern : Concern) (c : Controller σ n) :
    (c.attempt (command request)).2.asked concern =
      c.asked concern + if request.clears concern then 1 else 0 := by
  simp only [attempt, command]
  cases FrontEnd.perform request c.frontEnd <;> exact List.countP_cons

@[simp] theorem asked_withFault (concern : Concern) (kind : FaultKind) (t : Tracker)
    (c : Controller σ n) : (c.withFault kind t).asked concern = c.asked concern := rfl

@[simp] theorem asked_withAlert (concern : Concern) (alert : Alert) (t : Tracker)
    (c : Controller σ n) : (c.withAlert alert t).asked concern = c.asked concern := rfl

@[simp] theorem asked_restoreSwitches (concern : Concern) (c : Controller σ n) :
    c.restoreSwitches.asked concern = c.asked concern :=
  (passage_restoreSwitches c).asked_eq fun _ recloses => Entry.clears_of_recloses recloses concern

theorem asked_superviseFault_of_ne {kind : FaultKind} (apart : concern ≠ .fault kind)
    (hardware : FaultSet) (now : Nat) (c : Controller σ n) :
    (c.superviseFault hardware now kind).asked concern = c.asked concern := by
  refine (passage_superviseFault hardware now c kind).asked_eq fun e asks => ?_
  rw [asks]
  simp [apart]

theorem asked_superviseAlert_of_ne {alert : Alert} (apart : concern ≠ .alert alert) (now : Nat)
    (c : Controller σ n) : (c.superviseAlert now alert).asked concern = c.asked concern := by
  refine (passage_superviseAlert now c alert).asked_eq fun e asks => ?_
  rcases asks with asks | recloses
  · rw [asks]
    simp [apart]
  · exact Entry.clears_of_recloses recloses concern

theorem asked_superviseFault {hardware : FaultSet} {now : Nat} {kind : FaultKind} {seen : Sighting}
    (sees : kind.sighting? hardware c.config c.status c.report (c.monitor.phase kind) = some seen) :
    (c.superviseFault hardware now kind).asked (.fault kind) =
      c.asked (.fault kind) +
        if ((c.monitor.faults.get kind).advance (kind.pace c.config) seen now).2 = true ∧
          kind ∈ hardware then 1 else 0 := by
  rw [superviseFault_of_sighting now sees]
  obtain ⟨next, due⟩ := (c.monitor.faults.get kind).advance (kind.pace c.config) seen now
  cases due with
  | false => simp
  | true =>
    by_cases detected : kind ∈ hardware
    · have made := asked_attempt (.clear {kind} ∅) (.fault kind) (c.withFault kind next)
      simp only [Request.clears_fault, decide_true, if_true, asked_withFault] at made
      simp only [if_true, detected, and_self, ← made]
      split <;> rfl
    · simp [detected]

theorem asked_superviseAlert (now : Nat) (c : Controller σ n) (alert : Alert) :
    (c.superviseAlert now alert).asked (.alert alert) =
      c.asked (.alert alert) +
        if ((c.monitor.alerts.get alert).advance alert.pace (alert.sighting c.report) now).2 = true
        then 1 else 0 := by
  rw [superviseAlert_eq]
  obtain ⟨next, due⟩ :=
    (c.monitor.alerts.get alert).advance alert.pace (alert.sighting c.report) now
  cases due with
  | false => simp
  | true =>
    have made := asked_attempt (.clear ∅ {alert}) (.alert alert) (c.withAlert alert next)
    simp only [Request.clears_alert, decide_true, if_true, asked_withAlert] at made
    simp only [if_true, ← made]
    split
    · exact asked_restoreSwitches _ _
    · rfl

section Fold

variable {ι τ : Type} {step : Controller σ n → ι → Controller σ n} {part : Monitor → τ}
  {items : List ι} {i : ι}

theorem asked_foldl (others : ∀ d i, (step d i).asked concern = d.asked concern)
    (c : Controller σ n) : (items.foldl step c).asked concern = c.asked concern :=
  @foldl_keeps _ _ step (fun c d => d.asked concern = c.asked concern) items (fun _ => rfl)
    (fun h k => k.trans h) (fun d i _ => others d i) c

theorem asked_visit
    (others : ∀ d j, j ≠ i → Elsewhere part d (step d j) ∧
      (step d j).asked concern = d.asked concern)
    (nodup : items.Nodup) (member : i ∈ items) (c : Controller σ n) :
    ∃ d, Elsewhere part c d ∧ d.asked concern = c.asked concern ∧
      (items.foldl step c).asked concern = (step d i).asked concern := by
  obtain ⟨d, ⟨before, counted⟩, -, rest⟩ := @foldl_visit _ _ step
    (fun c d => Elsewhere part c d ∧ d.asked concern = c.asked concern) items
    (fun c => ⟨.refl c, rfl⟩) (fun h k => ⟨h.1.trans k.1, k.2.trans h.2⟩) i others nodup member c
  exact ⟨d, before, counted, rest⟩

end Fold

theorem asked_superviseFaults_visit (now : Nat) (c : Controller σ n) (kind : FaultKind) :
    ∃ d, Elsewhere (fun m => m.faults.get kind) c d ∧
      d.asked (.fault kind) = c.asked (.fault kind) ∧
      (c.superviseFaults now).asked (.fault kind) =
        (d.superviseFault (FrontEnd.hardwareFaults c.frontEnd) now kind).asked (.fault kind) :=
  asked_visit
    (fun d _ apart => ⟨elsewhere_superviseFault d fun _ _ faults => faults kind apart.symm,
      asked_superviseFault_of_ne (by simpa using apart.symm) _ now d⟩)
    (Enumerated.nodup_all (κ := FaultKind)) (Enumerated.mem_all kind) c

theorem asked_superviseAlerts_visit (now : Nat) (c : Controller σ n) (alert : Alert) :
    ∃ d, Elsewhere (fun m => m.alerts.get alert) c d ∧
      d.asked (.alert alert) = c.asked (.alert alert) ∧
      (c.superviseAlerts now).asked (.alert alert) =
        (d.superviseAlert now alert).asked (.alert alert) :=
  asked_visit
    (fun d _ apart => ⟨elsewhere_superviseAlert d fun _ _ alerts => alerts alert apart.symm,
      asked_superviseAlert_of_ne (by simpa using apart.symm) now d⟩)
    (Enumerated.nodup_all (κ := Alert)) (Enumerated.mem_all alert) c

theorem asked_superviseFaults_alert (now : Nat) (c : Controller σ n) (alert : Alert) :
    (c.superviseFaults now).asked (.alert alert) = c.asked (.alert alert) :=
  asked_foldl (fun d _ => asked_superviseFault_of_ne (by simp) _ now d) c

theorem asked_handleFaults_fault (now : Nat) (c : Controller σ n) (kind : FaultKind) :
    (c.handleFaults now).asked (.fault kind) = (c.superviseFaults now).asked (.fault kind) := by
  unfold handleFaults
  generalize c.superviseFaults now = judged
  exact asked_foldl (fun d _ => asked_superviseAlert_of_ne (by simp) now d) judged.reportFaults

theorem asked_handleFaults_of_unseen (now : Nat) (c : Controller σ n) {kind : FaultKind}
    (unseen : kind.sighting? (FrontEnd.hardwareFaults c.frontEnd) c.config c.status c.report
      (c.monitor.phase kind) = none) :
    (c.handleFaults now).asked (.fault kind) = c.asked (.fault kind) := by
  obtain ⟨d, before, counted, rest⟩ := asked_superviseFaults_visit now c kind
  rw [asked_handleFaults_fault, rest,
    superviseFault_of_unseen now ((before.sighting?_eq _).trans unseen), counted]

theorem asked_handleFaults_of_sighting (now : Nat) (c : Controller σ n) {kind : FaultKind}
    {seen : Sighting}
    (sees : kind.sighting? (FrontEnd.hardwareFaults c.frontEnd) c.config c.status c.report
      (c.monitor.phase kind) = some seen) :
    (c.handleFaults now).asked (.fault kind) =
      c.asked (.fault kind) +
        if ((c.monitor.faults.get kind).advance (kind.pace c.config) seen now).2 = true ∧
          kind ∈ FrontEnd.hardwareFaults c.frontEnd then 1 else 0 := by
  obtain ⟨d, before, counted, rest⟩ := asked_superviseFaults_visit now c kind
  rw [asked_handleFaults_fault, rest,
    asked_superviseFault ((before.sighting?_eq _).trans sees), counted, before.kept, before.config]

theorem asked_handleFaults_alert (now : Nat) (c : Controller σ n) (alert : Alert) :
    (c.handleFaults now).asked (.alert alert) =
      c.asked (.alert alert) +
        if ((c.monitor.alerts.get alert).advance alert.pace (alert.sighting c.report) now).2 = true
        then 1 else 0 := by
  have faults := elsewhere_superviseFaults now c
  have askedBefore := asked_superviseFaults_alert now c alert
  unfold handleFaults
  generalize c.superviseFaults now = judged at faults askedBefore ⊢
  obtain ⟨d, before, counted, rest⟩ := asked_superviseAlerts_visit now judged.reportFaults alert
  have alerts : judged.reportFaults.monitor.alerts = c.monitor.alerts := faults.kept
  have report : judged.reportFaults.report = c.report := faults.report
  have reported : judged.reportFaults.asked (.alert alert) = c.asked (.alert alert) := askedBefore
  change (judged.reportFaults.superviseAlerts now).asked (.alert alert) = _
  rw [rest, asked_superviseAlert, counted, before.kept, before.report, alerts, report, reported]

end Controller

namespace Tracker

/-- What becomes of a tracker in a round, and how often the front-end is asked to clear what it
tracks. Only a confirmed one whose window has not been used yet may ask, and does if it is `free` to
do so whenever a window begins. -/
inductive Attended (window now : Nat) (free : Prop) (t : Tracker) : Nat → Tracker → Prop
  | idle {t' : Tracker} (before : t.phase ≠ .confirmed) (after : t'.phase ≠ .confirmed) :
      Attended window now free t 0 t'
  | confirms (before : t.phase ≠ .confirmed) : Attended window now free t 0 (confirm now)
  | waits (before : t.phase = .confirmed) (used : free → t.windowAt window now ≤ t.lastWindow) :
      Attended window now free t 0 t
  | tries {calls : Nat} {t' : Tracker} (before : t.phase = .confirmed)
      (unused : t.lastWindow < t.windowAt window now) (few : calls ≤ 1) (asks : free → calls = 1)
      (uses : t' = { t with lastWindow := t.windowAt window now } ∨ t'.phase = .clearing) :
      Attended window now free t calls t'

end Tracker

theorem Controller.Tended.attended {n calls : Nat} {pace : Pace} {seen : Sighting} {now : Nat}
    {request? : Option Request} {entries : List (Entry n)} {t t' : Tracker} {asks free : Prop}
    [Decidable asks] (h : Tended pace seen now request? entries t t')
    (counted : calls = if (t.advance pace seen now).2 = true ∧ asks then 1 else 0)
    (freely : free → asks ∧ seen.recovered = true) :
    t.Attended pace.window now free calls t' := by
  subst counted
  by_cases confirmed : t.phase = .confirmed
  case neg =>
    obtain ⟨rests, moves⟩ := @Tracker.advance_unconfirmed pace seen now t confirmed
    have advanced : t' = (t.advance pace seen now).1 := by
      cases h with
      | rested | refused => rfl
      | cleared due => simp [rests] at due
    rw [rests, if_neg fun ⟨due, _⟩ => Bool.false_ne_true due, advanced]
    rcases moves with moved | short
    · rw [moved]
      exact .confirms confirmed
    · exact .idle confirmed short
  have advances := @Tracker.advance_confirmed pace seen now t confirmed
  by_cases unused : t.lastWindow < t.windowAt pace.window now
  case neg =>
    rw [if_neg unused] at advances
    have kept : t' = t := by
      cases h with
      | rested | refused => rw [advances]
      | cleared due => simp [advances] at due
    rw [advances, if_neg fun ⟨due, _⟩ => Bool.false_ne_true due, kept]
    exact .waits confirmed fun _ => Nat.le_of_not_lt unused
  rw [if_pos unused] at advances
  rw [advances]
  refine .tries confirmed unused ?_ ?_ ?_
  · split <;> decide
  · intro unhindered
    exact if_pos (freely unhindered).symm
  · cases h with
    | rested | refused => exact .inl (by rw [advances])
    | cleared => exact .inr rfl

theorem FaultKind.recovered_of_blind {n : Nat} {kind : FaultKind} {hardware : FaultSet}
    {config : Config} {status : Status n} {report : Report} {phase : Phase} {seen : Sighting}
    (blind : kind.retriesBlindly = true)
    (sees : kind.sighting? hardware config status report phase = some seen) :
    seen.recovered = true := by
  simp only [sighting?, blind, Bool.true_or] at sees
  split at sees
  · cases sees
    rfl
  · obtain ⟨_, -, rfl⟩ := Option.map_eq_some_iff.mp sees
    rfl

namespace Round

variable {σ ε : Type} {n : Nat} [FrontEnd σ ε n]

def calls (concern : Concern) (round : Round σ n) : Nat :=
  round.entries.countP fun e => e.request.clears concern

theorem asked_after (concern : Concern) (round : Round σ n) :
    round.after.asked concern = round.before.asked concern + round.calls concern := by
  obtain ⟨_, first⟩ := (Controller.elsewhere_superviseFaults round.now round.before).logged
  obtain ⟨_, second⟩ := Controller.logged_reports round.now round.before
  have logged := first.trans second
  rw [calls, entries, after, logged.since_eq, logged.asked_eq, Nat.add_comm]

theorem attended (concern : Concern) (round : Round σ n) :
    (concern.tracker round.before.monitor).Attended concern.window round.now
      (concern.retriesBlindly = true ∧ concern.Detected round.hardware) (round.calls concern)
      (concern.tracker round.after.monitor) := by
  have counted := round.asked_after concern
  unfold after at counted
  cases concern with
  | fault kind =>
    cases sees : kind.sighting? round.hardware round.before.config round.before.status
      round.before.report (round.before.monitor.phase kind) with
    | none =>
      rw [Controller.asked_handleFaults_of_unseen round.now round.before sees] at counted
      have unasked : round.calls (.fault kind) = 0 := Nat.left_eq_add.mp counted
      have kept : round.after.monitor.faults.get kind = round.before.monitor.faults.get kind :=
        Controller.handleFaults_fault_of_unseen round.now round.before sees
      simp only [Concern.tracker, unasked, kept]
      by_cases confirmed : (round.before.monitor.faults.get kind).phase = .confirmed
      · refine .waits confirmed fun free => ?_
        have detected : kind ∈ round.hardware := free.2
        rw [FaultKind.sighting?, if_pos detected] at sees
        cases sees
      · exact .idle confirmed confirmed
    | some seen =>
      rw [Controller.asked_handleFaults_of_sighting round.now round.before sees,
        Nat.add_left_cancel_iff] at counted
      exact (round.tended_fault sees).attended counted.symm fun free =>
        ⟨free.2, FaultKind.recovered_of_blind free.1 sees⟩
  | alert raised =>
    rw [Controller.asked_handleFaults_alert, Nat.add_left_cancel_iff] at counted
    exact (round.tended_alert raised).attended (counted.symm.trans (by simp only [and_true]))
      fun _ => ⟨trivial, rfl⟩

end Round
end PackGuard
