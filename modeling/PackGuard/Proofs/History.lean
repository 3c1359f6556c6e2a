import Mathlib.Logic.Relation
import PackGuard.Proofs.SwitchTurn

/-!
Histories of a control: its operations in any order, at times that do not decrease, while the
front-end may change by itself in between. Every operation is a sequence of a few kinds of steps, so
an invariant of all histories needs one argument for each kind of step.
-/

namespace PackGuard

/-- What measurements and their use leave alone of the things that decide about the switches. -/
structure Standing where
  state : PackState
  chargeEnabled : Bool
  dischargeEnabled : Bool
  faults : FaultSet
  trackers : Table FaultKind Tracker

def Moment.standing {n : Nat} (m : Moment n) : Standing where
  state := m.status.state
  chargeEnabled := m.status.chargeEnabled
  dischargeEnabled := m.status.dischargeEnabled
  faults := m.status.faults
  trackers := m.monitor.faults

inductive Operation where
  | start (now : Nat)
  | tick (now : Nat)
  | refresh (now : Nat)
  | handleFaults (now : Nat)
  | updateState (now : Nat)
  | balance (now : Nat)
  | updateCharge (now : Nat)
  | sampleCurrent (now : Nat)
  | resetCharge (how : ChargeReset)
  | enableCharge (on : Bool)
  | enableDischarge (on : Bool)
  | program (kind : Protection)
  | programTemperatures
  | programAll
  | configure (config : Config)
  | shutDown

namespace Operation

def time? : Operation → Option Nat
  | start now | tick now | refresh now | handleFaults now | updateState now | balance now
  | updateCharge now | sampleCurrent now => some now
  | _ => none

variable {σ ε : Type} {n : Nat} [FrontEnd σ ε n]

def run (op : Operation) (c : Controller σ n) : Controller σ n :=
  match op with
  | start now => (c.attempt (Controller.start now)).2
  | tick now => c.tick now
  | refresh now => (c.refresh now).2
  | handleFaults now => c.handleFaults now
  | updateState now => (c.attempt (Controller.updateState now)).2
  | balance now => (c.attempt (Controller.balance now)).2
  | updateCharge now => c.updateCharge now
  | sampleCurrent now => (c.attempt (Controller.sampleCurrent now)).2
  | resetCharge how => c.resetCharge how
  | enableCharge on => c.enableCharge on
  | enableDischarge on => c.enableDischarge on
  | program kind => (c.attempt (Controller.program kind)).2
  | programTemperatures => (c.attempt Controller.programTemperatures).2
  | programAll => (c.attempt Controller.programAll).2
  | configure config => { c with config }
  | shutDown => (c.attempt Controller.shutDown).2

end Operation

section

variable {σ ε : Type} {n : Nat} [FrontEnd σ ε n]

/-- The controllers that a new one may become, each with the latest time it was told. Between two
operations the front-end drifts. -/
inductive History (drift : σ → σ → Prop) (new : Controller σ n) : Nat → Controller σ n → Prop
  | new : History drift new 0 new
  | operation {t : Nat} {c : Controller σ n} (op : Operation) (before : History drift new t c)
      (ordered : ∀ now ∈ op.time?, t ≤ now) : History drift new (op.time?.getD t) (op.run c)
  | drift {t : Nat} {c : Controller σ n} {s : σ} (before : History drift new t c)
      (drifts : drift c.frontEnd s) : History drift new t { c with frontEnd := s }

end

namespace Controller

variable {σ ε : Type} {n : Nat} [FrontEnd σ ε n]

/-- A kind of step that operations are made of, at a time if it asks for one. -/
inductive Step : Option Nat → Controller σ n → Controller σ n → Prop
  /-- No switch is moved, and nothing that decides about switches changes but readings. -/
  | quiet {now? : Option Nat} {c d : Controller σ n}
      (h : Passage Moment.standing (fun e => e.request.operates = false) c d) : Step now? c d
  /-- The faults are judged anew, and then reported. -/
  | judge {now? : Option Nat} {c d : Controller σ n}
      (h : Passage Moment.status (fun e => e.request.operates = false) c d) :
      Step now? c { d with status := { d.status with faults := d.monitor.faultSet } }
  | restore {now : Nat} {c d : Controller σ n}
      (h : Passage (fun m => (m.status, m.monitor.faults))
        (fun e => e.request.operates = false ∨ e.Recloses) c d) : Step (some now) c d
  | update (now : Nat) (c : Controller σ n) : Step (some now) c (c.attempt (updateState now)).2
  | enableCharge {now? : Option Nat} (on : Bool) (c : Controller σ n) :
      Step now? c (c.enableCharge on)
  | enableDischarge {now? : Option Nat} (on : Bool) (c : Controller σ n) :
      Step now? c (c.enableDischarge on)
  | shutDown {now? : Option Nat} (c : Controller σ n) : Step now? c (c.attempt shutDown).2

open Relation

abbrev Steps (now? : Option Nat) : Controller σ n → Controller σ n → Prop :=
  ReflTransGen (Step now?)

theorem Step.logged {now? : Option Nat} {c d : Controller σ n} (h : Step now? c d) :
    ∃ entries, Logged c entries d := by
  cases h with
  | quiet h =>
    obtain ⟨entries, logged, -⟩ := h
    exact ⟨entries, logged⟩
  | judge h =>
    obtain ⟨entries, logged, -⟩ := h
    exact ⟨entries, logged.journal, logged.served, logged.readyAt⟩
  | restore h =>
    obtain ⟨entries, logged, -⟩ := h
    exact ⟨entries, logged⟩
  | update now =>
    obtain ⟨entries, logged, -⟩ := (turn_updateState now c).logged
    exact ⟨entries, logged⟩
  | enableCharge | enableDischarge => exact ⟨[], rfl, .refl _, rfl⟩
  | shutDown =>
    rcases shutDown_cases c with ⟨d, ended, -, logged⟩ | ⟨d, ended, -, logged⟩ <;>
      exact ended ▸ ⟨_, logged⟩

theorem Steps.logged {now? : Option Nat} {c d : Controller σ n} (h : Steps now? c d) :
    ∃ entries, Logged c entries d := by
  induction h with
  | refl => exact ⟨[], .refl c⟩
  | tail _ step ih =>
    obtain ⟨first, before⟩ := ih
    obtain ⟨second, after⟩ := step.logged
    exact ⟨second ++ first, before.trans after⟩

theorem step_refresh (now? : Option Nat) (now : Nat) (c : Controller σ n) :
    Step now? c (c.refresh now).2 :=
  .quiet <| (passage_refresh now c).weaken Moment.standing (fun _ => rfl)
    fun _ _ h => Request.operates_eq_false_of_reads h

theorem step_updateCharge (now? : Option Nat) (now : Nat) (c : Controller σ n) :
    Step now? c (c.updateCharge now) :=
  .quiet <| (passage_updateCharge now c).weaken Moment.standing (fun _ => rfl)
    fun _ _ h => h

theorem step_resetCharge (now? : Option Nat) (how : ChargeReset) (c : Controller σ n) :
    Step now? c (c.resetCharge how) :=
  .quiet <| (passage_resetCharge how c).weaken Moment.standing (fun _ => rfl)
    fun _ _ h => h

theorem step_balance (now? : Option Nat) (now : Nat) (c : Controller σ n) :
    Step now? c (c.attempt (balance now)).2 := by
  refine .quiet <| (passes_balance now c).weaken Moment.standing (fun _ => rfl) ?_
  rintro e _ ⟨bank, cells, asked⟩
  rw [asked]
  rfl

theorem steps_handleFaults (now : Nat) (c : Controller σ n) :
    Steps (some now) c (c.handleFaults now) := by
  unfold handleFaults
  have judge : Step (some now) c (c.superviseFaults now).reportFaults :=
    .judge (passage_superviseFaults now c)
  generalize (c.superviseFaults now).reportFaults = judged at judge ⊢
  have restore : Step (some now) judged (judged.superviseAlerts now) :=
    .restore (passage_superviseAlerts now judged)
  generalize judged.superviseAlerts now = restored at restore ⊢
  have report : Step (some now) restored (restored.reportAlerts now) :=
    .quiet (.of_memory rfl rfl rfl rfl)
  exact ((ReflTransGen.single judge).tail restore).tail report

theorem tick_eq (now : Nat) (c : Controller σ n) :
    c.tick now =
      ((((c.refresh now).2.handleFaults now).attempt (updateState now)).2.attempt
        (balance now)).2.updateCharge now :=
  rfl

theorem steps_measured (now : Nat) (c : Controller σ n) :
    Steps (some now) c
      ((((c.handleFaults now).attempt (updateState now)).2.attempt (balance now)).2.updateCharge
        now) := by
  have judge := steps_handleFaults now c
  generalize c.handleFaults now = judged at judge ⊢
  have update := Step.update now judged
  generalize (judged.attempt (updateState now)).2 = updated at update ⊢
  have balance := step_balance (some now) now updated
  generalize (updated.attempt (Controller.balance now)).2 = balanced at balance ⊢
  have charge := step_updateCharge (some now) now balanced
  exact ((judge.tail update).tail balance).tail charge

theorem steps_tick (now : Nat) (c : Controller σ n) : Steps (some now) c (c.tick now) := by
  rw [tick_eq]
  have measure := step_refresh (some now) now c
  generalize (c.refresh now).2 = measured at measure ⊢
  exact (ReflTransGen.single measure).trans (steps_measured now measured)

theorem step_programming (now? : Option Nat) {task : EStateM (ControlError ε) (Controller σ n) Unit}
    (h : Passes id (fun e => ∃ kind codes, e.request = .protect kind codes) task)
    (c : Controller σ n) : Step now? c (c.attempt task).2 := by
  refine .quiet <| (h c).weaken Moment.standing (fun _ => rfl) ?_
  rintro e _ ⟨kind, codes, asked⟩
  rw [asked]
  rfl

theorem step_start (now? : Option Nat) (now : Nat) (c : Controller σ n) :
    Step now? c (c.attempt (start now)).2 :=
  .quiet <| (passes_start now c).weaken Moment.standing (fun _ => rfl) fun _ _ h => h

theorem step_sampleCurrent (now? : Option Nat) (now : Nat) (c : Controller σ n) :
    Step now? c (c.attempt (sampleCurrent now)).2 :=
  .quiet <| (passes_sampleCurrent now c).weaken Moment.standing (fun _ => rfl)
    fun _ _ h => Request.operates_eq_false_of_reads h

end Controller

theorem Operation.steps {σ ε : Type} {n : Nat} [FrontEnd σ ε n] (op : Operation)
    (c : Controller σ n) : Controller.Steps op.time? c (op.run c) := by
  cases op with
  | start now => exact .single (Controller.step_start _ now c)
  | tick now => exact Controller.steps_tick now c
  | refresh now => exact .single (Controller.step_refresh _ now c)
  | handleFaults now => exact Controller.steps_handleFaults now c
  | updateState now => exact .single (.update now c)
  | balance now => exact .single (Controller.step_balance _ now c)
  | updateCharge now => exact .single (Controller.step_updateCharge _ now c)
  | sampleCurrent now => exact .single (Controller.step_sampleCurrent _ now c)
  | resetCharge how => exact .single (Controller.step_resetCharge _ how c)
  | enableCharge on => exact .single (.enableCharge on c)
  | enableDischarge on => exact .single (.enableDischarge on c)
  | program kind => exact .single (Controller.step_programming _ (Controller.passes_program kind) c)
  | programTemperatures =>
    exact .single (Controller.step_programming _ Controller.passes_programTemperatures c)
  | programAll => exact .single (Controller.step_programming _ Controller.passes_programAll c)
  | configure config => exact .single (.quiet (.of_memory rfl rfl rfl rfl))
  | shutDown => exact .single (.shutDown c)

theorem History.readyAt_eq {σ ε : Type} {n t : Nat} [FrontEnd σ ε n] {drift : σ → σ → Prop}
    {new c : Controller σ n} (h : History drift new t c) : c.readyAt = new.readyAt := by
  induction h with
  | new => rfl
  | @operation _ c op _ _ ih =>
    obtain ⟨_, logged⟩ := (op.steps c).logged
    exact logged.readyAt.trans ih
  | drift _ _ ih => exact ih

end PackGuard
