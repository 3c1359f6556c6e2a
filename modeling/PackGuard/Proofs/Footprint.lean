import PackGuard.Controller.Cycle
import PackGuard.Proofs.Direction
import PackGuard.Proofs.Journal

/-!
The footprint of each task: the kinds of requests it makes, and the view of the moment it keeps.
Switches are moved in three places only, and these say under which conditions.
-/

namespace PackGuard

namespace Request

def reads : Request → Bool
  | readCells | readCurrent | readTemperatures | readReport => true
  | _ => false

def operates : Request → Bool
  | setSwitch .. | enterMode .off => true
  | _ => false

theorem operates_eq_false_of_reads {request : Request} (h : request.reads = true) :
    request.operates = false := by
  cases request <;> simp_all [reads, operates]

end Request

/-- The request closes a switch that the state calls for and the status allows. -/
def Entry.Recloses {n : Nat} (entry : Entry n) : Prop :=
  ∃ d : Direction, entry.request = .setSwitch d.switch true ∧
    entry.moment.status.state.conducts d = true ∧ entry.moment.status.allows d = true

namespace Moment

variable {n : Nat}

def unmeasured (m : Moment n) : Moment n :=
  { m with
    status :=
      { m.status with
        cells := .initial n, current := 0.0, temperatures := .initial, full := false
        empty := false, lastLoad := 0, unresponsive := false } }

def unbalanced (m : Moment n) : Moment n :=
  { m with status := { m.status with balancing := 0, lastLoad := 0 } }

def uncharged (m : Moment n) : Moment n :=
  { m with status := { m.status with charge := ⟨0.0, 0.0⟩ } }

end Moment

namespace Controller

variable {σ ε : Type} {n : Nat} [FrontEnd σ ε n]

theorem unmeasured_withCells (status : Status n) (config : Config) (reading : CellReading n)
    (monitor : Monitor) :
    (⟨status.withCells config reading, monitor⟩ : Moment n).unmeasured =
      (⟨status, monitor⟩ : Moment n).unmeasured := by
  simp only [Status.withCells]
  split <;> rfl

theorem passage_values (now : Nat) (c : Controller σ n) :
    Passage Moment.unmeasured (fun e => e.request.reads) c
      (((c.attempt readCells).2.attempt (readCurrent now)).2.attempt readTemperatures).2 := by
  have cells : Passes Moment.unmeasured (fun e => e.request.reads)
      (readCells : EStateM ε (Controller σ n) Unit) :=
    passes_bind (passes_command fun _ _ => rfl) fun _ =>
      passes_modify fun _ => .of_memory rfl rfl rfl (unmeasured_withCells ..)
  have current : Passes Moment.unmeasured (fun e => e.request.reads)
      (readCurrent now : EStateM ε (Controller σ n) Unit) :=
    passes_bind (passes_command fun _ _ => rfl) fun _ =>
      passes_modify fun _ => .of_memory rfl rfl rfl rfl
  have temperatures : Passes Moment.unmeasured (fun e => e.request.reads)
      (readTemperatures : EStateM ε (Controller σ n) Unit) :=
    passes_bind (passes_command fun _ _ => rfl) fun _ =>
      passes_modify fun _ => .of_memory rfl rfl rfl rfl
  exact ((cells c).trans (current _)).trans (temperatures _)

theorem refresh_eq (now : Nat) (c : Controller σ n) :
    ∃ complete, (c.refresh now).2 =
      (((((c.attempt readCells).2.attempt (readCurrent now)).2.attempt
        readTemperatures).2.attempt readReport).2.noteCycle complete) :=
  ⟨_, rfl⟩

theorem passes_readReport :
    Passes Moment.unmeasured (fun e => e.request.reads)
      (readReport : EStateM ε (Controller σ n) Unit) :=
  passes_bind (passes_command fun _ _ => rfl) fun _ =>
    passes_modify fun _ => .of_memory rfl rfl rfl rfl

theorem passage_refresh (now : Nat) (c : Controller σ n) :
    Passage Moment.unmeasured (fun e => e.request.reads) c (c.refresh now).2 := by
  obtain ⟨complete, refreshed⟩ := refresh_eq now c
  rw [refreshed]
  exact ((passage_values now c).trans (passes_readReport _)).trans (.of_memory rfl rfl rfl rfl)

theorem passage_superviseFault (hardware : FaultSet) (now : Nat) (c : Controller σ n)
    (kind : FaultKind) :
    Passage (fun m => (m.status, m.monitor.alerts)) (fun e => e.request = .clear {kind} ∅) c
      (c.superviseFault hardware now kind) := by
  unfold superviseFault
  split
  · exact .refl c
  · rename_i seen _
    generalize (c.monitor.faults.get kind).advance (kind.pace c.config) seen now = moved
    obtain ⟨tracker, due⟩ := moved
    have tracked : Passage (fun m => (m.status, m.monitor.alerts))
        (fun e => e.request = .clear {kind} ∅) c
        { c with monitor := c.monitor.trackFault kind tracker } := .of_memory rfl rfl rfl rfl
    dsimp only
    split
    · exact tracked
    · by_cases asked : kind ∈ hardware
      · simp only [asked, if_true]
        have cleared := tracked.trans (passage_command _ fun _ => rfl)
        split
        · exact cleared.trans (.of_memory rfl rfl rfl rfl)
        · exact cleared
      · simp only [asked, if_false, if_true]
        exact tracked.trans (.of_memory rfl rfl rfl rfl)

theorem passage_restoreSwitch (switch : Switch) (wanted : Bool) (c : Controller σ n) :
    Passage id (fun e => e.request = .setSwitch switch true ∧ wanted = true) c
      (c.restoreSwitch switch wanted) := by
  unfold restoreSwitch
  split
  · rename_i h
    exact passage_command c fun _ => ⟨rfl, h⟩
  · exact .refl c

theorem passage_restoreSwitches (c : Controller σ n) :
    Passage id Entry.Recloses c c.restoreSwitches := by
  have reclosed : ∀ (d : Direction) (c : Controller σ n), Passage id Entry.Recloses c
      (c.restoreSwitch d.switch (c.status.state.conducts d && c.status.allows d)) := by
    intro d c
    refine (passage_restoreSwitch d.switch _ c).weaken id (fun _ => rfl) ?_
    rintro e (same : e.moment = c.moment) ⟨asked, wanted⟩
    rw [Bool.and_eq_true] at wanted
    refine ⟨d, asked, ?_⟩
    rw [same]
    exact wanted
  exact (reclosed .discharge c).trans (reclosed .charge _)

theorem passage_superviseAlert (now : Nat) (c : Controller σ n) (alert : Alert) :
    Passage (fun m => (m.status, m.monitor.faults))
      (fun e => e.request = .clear ∅ {alert} ∨ e.Recloses) c (c.superviseAlert now alert) := by
  unfold superviseAlert
  generalize (c.monitor.alerts.get alert).advance alert.pace (alert.sighting c.report) now = moved
  obtain ⟨tracker, due⟩ := moved
  have tracked : Passage (fun m => (m.status, m.monitor.faults))
      (fun e => e.request = .clear ∅ {alert} ∨ e.Recloses) c
      { c with monitor := c.monitor.trackAlert alert tracker } := .of_memory rfl rfl rfl rfl
  dsimp only
  split
  · exact tracked
  · have cleared := tracked.trans (passage_command _ fun _ => .inl rfl)
    have restored : ∀ d : Controller σ n, Passage (fun m => (m.status, m.monitor.faults))
        (fun e => e.request = .clear ∅ {alert} ∨ e.Recloses) d d.restoreSwitches := fun d =>
      (passage_restoreSwitches d).weaken (fun m => (m.status, m.monitor.faults)) (fun _ => rfl)
        fun _ _ h => .inr h
    split
    · refine Passage.trans ?_ (restored _)
      exact cleared.trans (.of_memory rfl rfl rfl rfl)
    · exact cleared

theorem passage_superviseFaults (now : Nat) (c : Controller σ n) :
    Passage Moment.status (fun e => e.request.operates = false) c (c.superviseFaults now) := by
  refine Passage.foldl (fun c kind => ?_) _ c
  refine (passage_superviseFault _ now c kind).weaken Prod.fst (fun _ => rfl) ?_
  intro e _ asked
  rw [asked]
  rfl

theorem passage_superviseAlerts (now : Nat) (c : Controller σ n) :
    Passage (fun m => (m.status, m.monitor.faults))
      (fun e => e.request.operates = false ∨ e.Recloses) c
      (c.superviseAlerts now) := by
  refine Passage.foldl (fun c alert => ?_) _ c
  refine (passage_superviseAlert now c alert).weaken id (fun _ => rfl) ?_
  rintro e _ (asked | recloses)
  · left
    rw [asked]
    rfl
  · exact .inr recloses

theorem passage_supervise {κ : Type} (part : Status n → κ)
    (kept : ∀ (status : Status n) faults alerts lastFault,
      part { status with faults, alerts, lastFault } = part status)
    (now : Nat) (c : Controller σ n) :
    Passage (fun m => part m.status)
      (fun e => (∃ faults alerts, e.request = .clear faults alerts) ∨ e.Recloses) c
      (c.handleFaults now) := by
  have fault : ∀ hardware (c : Controller σ n) kind, Passage (fun m => part m.status)
      (fun e => (∃ faults alerts, e.request = .clear faults alerts) ∨ e.Recloses) c
        (c.superviseFault hardware now kind) := fun hardware c kind =>
    (passage_superviseFault hardware now c kind).weaken (fun v => part v.1) (fun _ => rfl)
      fun _ _ asked => .inl ⟨_, _, asked⟩
  have alert : ∀ (c : Controller σ n) alert, Passage (fun m => part m.status)
      (fun e => (∃ faults alerts, e.request = .clear faults alerts) ∨ e.Recloses) c
        (c.superviseAlert now alert) := fun c alert =>
    (passage_superviseAlert now c alert).weaken (fun v => part v.1) (fun _ => rfl)
      fun _ _ asked => asked.imp_left fun asked => ⟨_, _, asked⟩
  have reported : ∀ c : Controller σ n, Passage (fun m => part m.status)
      (fun e => (∃ faults alerts, e.request = .clear faults alerts) ∨ e.Recloses) c
        c.reportFaults := fun c =>
    .of_memory rfl rfl rfl (kept c.status c.monitor.faultSet c.status.alerts c.status.lastFault)
  have noted : ∀ c : Controller σ n, Passage (fun m => part m.status)
      (fun e => (∃ faults alerts, e.request = .clear faults alerts) ∨ e.Recloses) c
        (c.reportAlerts now) := fun c =>
    .of_memory rfl rfl rfl (kept c.status c.status.faults c.monitor.alertSet _)
  have faults := Passage.foldl (fault (FrontEnd.hardwareFaults c.frontEnd)) FaultKind.all c
  exact ((faults.trans (reported _)).trans (Passage.foldl alert Alert.all _)).trans (noted _)

theorem passes_writeBanks {κ : Type} {view : Moment n → κ} (m : CellMask) :
    Passes view (fun e => ∃ bank cells, e.request = .balance bank cells)
      (writeBanks m : EStateM ε (Controller σ n) Unit) :=
  passes_forM _ fun _ _ => passes_command fun _ _ => ⟨_, _, rfl⟩

theorem passage_balance {κ : Type} {view : Moment n → κ}
    (kept : ∀ (m : Moment n) mask, view { m with status.balancing := mask } = view m) (now : Nat)
    (c : Controller σ n)
    (clock : view { c.moment with status.lastLoad := min c.status.lastLoad now } = view c.moment) :
    Passage view (fun e => ∃ bank cells, e.request = .balance bank cells) c
      (c.attempt (balance now)).2 := by
  simp only [attempt, balance]
  generalize Balancing.wanted c.config _ now = wanted
  have rested : Passage view (fun e => ∃ bank cells, e.request = .balance bank cells) c
      { c with status := { c.status with lastLoad := min c.status.lastLoad now } } :=
    .of_memory rfl rfl rfl clock
  by_cases same : wanted = c.status.balancing ∧ ¬c.balancingUnknown = true
  · rw [if_pos same]
    exact rested
  · rw [if_neg same]
    have written := rested.trans (passes_writeBanks wanted _)
    simp only [attempt] at written
    cases done : (writeBanks wanted : EStateM ε (Controller σ n) Unit) _ with
    | ok _ d =>
      rw [done] at written
      exact written.trans (.of_memory rfl rfl rfl (kept d.moment wanted))
    | error e d =>
      rw [done] at written
      exact (written.trans (passes_writeBanks 0 d)).trans
        (.of_memory rfl rfl rfl (kept (d.attempt (writeBanks 0)).2.moment 0))

theorem passes_balance (now : Nat) :
    Passes Moment.unbalanced (fun e => ∃ bank cells, e.request = .balance bank cells)
      (balance now : EStateM ε (Controller σ n) Unit) :=
  fun c => passage_balance (fun _ _ => rfl) now c rfl

theorem passage_updateCharge {condition : Entry n → Prop} (now : Nat) (c : Controller σ n) :
    Passage Moment.uncharged condition c (c.updateCharge now) :=
  .of_memory rfl rfl rfl rfl

theorem passage_resetCharge {condition : Entry n → Prop} (how : ChargeReset)
    (c : Controller σ n) : Passage Moment.uncharged condition c (c.resetCharge how) :=
  .of_memory rfl rfl rfl rfl

theorem passes_sampleCurrent (now : Nat) :
    Passes (fun m => m.unmeasured.uncharged) (fun e => e.request.reads)
      (sampleCurrent now : EStateM ε (Controller σ n) Unit) :=
  passes_bind (passes_command fun _ _ => rfl) fun _ =>
    passes_modify fun _ => .of_memory rfl rfl rfl rfl

theorem passes_program (kind : Protection) :
    Passes id (fun e => ∃ kind codes, e.request = .protect kind codes)
      (program kind : EStateM (ControlError ε) (Controller σ n) Unit) := by
  refine passes_bind passes_get fun c => ?_
  cases FrontEnd.encoding? c.frontEnd kind with
  | none => exact passes_throw _
  | some encoding =>
    exact passes_bind (passes_ask fun _ _ => ⟨_, _, rfl⟩) fun _ =>
      passes_modify fun _ => .of_memory rfl rfl rfl rfl

theorem passes_programIfSupported (kind : Protection) :
    Passes id (fun e => ∃ kind codes, e.request = .protect kind codes)
      (programIfSupported kind : EStateM (ControlError ε) (Controller σ n) Unit) := by
  refine passes_tryCatch (passes_program kind) fun e => ?_
  split
  · exact passes_pure ()
  · exact passes_throw e

theorem passes_programTemperatures :
    Passes id (fun e => ∃ kind codes, e.request = .protect kind codes)
      (programTemperatures : EStateM (ControlError ε) (Controller σ n) Unit) := by
  refine passes_bind passes_get fun c => ?_
  split
  · exact passes_forM _ fun kind _ => passes_programIfSupported kind
  · exact passes_throw _

theorem passes_programAll :
    Passes id (fun e => ∃ kind codes, e.request = .protect kind codes)
      (programAll : EStateM (ControlError ε) (Controller σ n) Unit) :=
  passes_bind (passes_program _) fun _ => passes_bind (passes_program _) fun _ =>
    passes_bind (passes_program _) fun _ => passes_bind (passes_program _) fun _ =>
      passes_bind (passes_programIfSupported _) fun _ => passes_programTemperatures

theorem passes_start (now : Nat) :
    Passes (fun m => m.unmeasured.uncharged) (fun e => e.request.operates = false)
      (start now : EStateM (ControlError ε) (Controller σ n) Unit) := by
  have programmed : Passes (fun m => m.unmeasured.uncharged) (fun e => e.request.operates = false)
      (programAll : EStateM (ControlError ε) (Controller σ n) Unit) := by
    refine fun c =>
      (passes_programAll c).weaken (fun m => m.unmeasured.uncharged) (fun _ => rfl) ?_
    rintro e _ ⟨kind, codes, asked⟩
    rw [asked]
    rfl
  have measured : ∀ c : Controller σ n,
      Passage (fun m => m.unmeasured.uncharged) (fun e => e.request.operates = false) c
        ((c.refresh now).2.resetCharge .estimate) := fun c =>
    ((passage_refresh now c).weaken Moment.uncharged (fun _ => rfl)
      fun _ _ h => Request.operates_eq_false_of_reads h).trans (.of_memory rfl rfl rfl rfl)
  exact passes_bind (passes_ask fun _ _ => rfl) fun _ =>
    passes_bind programmed fun _ => passes_modify measured

end Controller
end PackGuard
