import PackGuard.Proofs.FaultRound

/-!
What the tasks of a cycle leave alone. Requests change the front-end and the journal; what stands
aside of these, of the monitor and of all of the status but the charge, is the same after every
task that only measures, judges or switches.
-/

namespace PackGuard.Controller

variable {σ ε : Type} {n : Nat} [FrontEnd σ ε n] {κ : Type} {part : Controller σ n → κ}

def Keeps {δ α : Type} (part : Controller σ n → κ) (task : EStateM δ (Controller σ n) α) : Prop :=
  ∀ c : Controller σ n, part (c.attempt task).2 = part c

section Keeps

variable {δ α β ι : Type}

theorem keeps_bind {task : EStateM δ (Controller σ n) α}
    {rest : α → EStateM δ (Controller σ n) β} (h : Keeps part task)
    (k : ∀ a, Keeps part (rest a)) : Keeps part (task >>= rest) := by
  intro c
  have first := h c
  cases done : task c with
  | ok a d =>
    have second := k a d
    simp only [attempt, done] at first
    simp only [attempt, bind, EStateM.bind, done] at second ⊢
    exact second.trans first
  | error e d =>
    simp only [attempt, done] at first
    simpa only [attempt, bind, EStateM.bind, done] using first

theorem keeps_modify {change : Controller σ n → Controller σ n}
    (h : ∀ c, part (change c) = part c) :
    Keeps part (modify change : EStateM δ (Controller σ n) PUnit) :=
  h

theorem keeps_forM {task : ι → EStateM δ (Controller σ n) PUnit} (h : ∀ i, Keeps part (task i))
    (items : List ι) : Keeps part (items.forM task) := by
  induction items with
  | nil => exact fun _ => rfl
  | cons i rest ih => exact keeps_bind (h i) fun _ => ih

end Keeps

/-- A part of the control that no request and no judgement changes. Of the status it shows the
charge at most. -/
structure Aside (part : Controller σ n → κ) : Prop where
  memory : ∀ (c : Controller σ n) frontEnd journal monitor report,
    part { c with frontEnd, journal, monitor, report } = part c
  status : ∀ (c : Controller σ n) (status : Status n), status.charge = c.status.charge →
    part { c with status } = part c
  marks : ∀ (c : Controller σ n) balancingUnknown failedCycles,
    part { c with balancingUnknown, failedCycles } = part c

namespace Aside

variable (aside : Aside part)

include aside

theorem keeps_command (request : Request) :
    Keeps part (command request : EStateM ε (Controller σ n) (request.Answer n)) := by
  intro c
  obtain ⟨frontEnd, journal, kept⟩ := attempt_command_memory request c
  rw [kept]
  exact aside.memory c frontEnd journal c.monitor c.report

theorem keeps_readCells : Keeps part (readCells : EStateM ε (Controller σ n) Unit) := by
  refine keeps_bind (aside.keeps_command _) fun reading => keeps_modify fun c => ?_
  refine aside.status c _ ?_
  unfold Status.withCells
  split <;> rfl

theorem keeps_readCurrent (now : Nat) :
    Keeps part (readCurrent now : EStateM ε (Controller σ n) Unit) :=
  keeps_bind (aside.keeps_command _) fun _ => keeps_modify fun c => aside.status c _ rfl

theorem keeps_readTemperatures :
    Keeps part (readTemperatures : EStateM ε (Controller σ n) Unit) :=
  keeps_bind (aside.keeps_command _) fun _ => keeps_modify fun c => aside.status c _ rfl

theorem keeps_readReport : Keeps part (readReport : EStateM ε (Controller σ n) Unit) :=
  keeps_bind (aside.keeps_command _) fun report =>
    keeps_modify fun c => aside.memory c c.frontEnd c.journal c.monitor report

theorem noteCycle (complete : Bool) (c : Controller σ n) :
    part (c.noteCycle complete) = part c :=
  (aside.marks { c with status := (c.noteCycle complete).status } _ _).trans
    (aside.status c _ rfl)

theorem refresh (now : Nat) (c : Controller σ n) : part (c.refresh now).2 = part c := by
  obtain ⟨complete, refreshed⟩ := refresh_eq now c
  rw [refreshed, aside.noteCycle, aside.keeps_readReport, aside.keeps_readTemperatures,
    aside.keeps_readCurrent, aside.keeps_readCells]

theorem superviseFaults (now : Nat) (c : Controller σ n) :
    part (c.superviseFaults now) = part c := by
  refine foldl_keeps (fun _ => rfl) (fun first second => second.trans first)
    (R := fun c d => part d = part c) (fun d kind _ => ?_) c
  obtain ⟨frontEnd, journal, monitor, moved, -⟩ :=
    superviseFault_memory (FrontEnd.hardwareFaults c.frontEnd) now d kind
  rw [moved]
  exact aside.memory d frontEnd journal monitor d.report

theorem superviseAlerts (now : Nat) (c : Controller σ n) :
    part (c.superviseAlerts now) = part c := by
  refine foldl_keeps (fun _ => rfl) (fun first second => second.trans first)
    (R := fun c d => part d = part c) (fun d alert _ => ?_) c
  obtain ⟨frontEnd, journal, monitor, moved, -⟩ := superviseAlert_memory now d alert
  rw [moved]
  exact aside.memory d frontEnd journal monitor d.report

theorem handleFaults (now : Nat) (c : Controller σ n) :
    part (c.handleFaults now) = part c := by
  have reported : ∀ d : Controller σ n, part d.reportFaults = part d :=
    fun d => aside.status d _ rfl
  have finished : ∀ d : Controller σ n, part (d.reportAlerts now) = part d :=
    fun d => aside.status d _ rfl
  rw [Controller.handleFaults, finished, aside.superviseAlerts, reported, aside.superviseFaults]

theorem keeps_updateState (now : Nat) :
    Keeps part (updateState now : EStateM ε (Controller σ n) Unit) := by
  refine keeps_bind (fun _ => rfl) fun c => ?_
  split
  · exact keeps_bind (keeps_forM (fun _ => aside.keeps_command _) _) fun _ =>
      keeps_modify fun d => aside.status d _ rfl
  · exact fun _ => rfl

theorem keeps_balance (now : Nat) :
    Keeps part (balance now : EStateM ε (Controller σ n) Unit) := by
  have writes : ∀ m, Keeps part (writeBanks m : EStateM ε (Controller σ n) Unit) :=
    fun _ => keeps_forM (fun _ => aside.keeps_command _) _
  have marked : ∀ (d : Controller σ n) m unknown,
      part { d with status := { d.status with balancing := m }, balancingUnknown := unknown } =
        part d := by
    intro d m unknown
    exact (aside.marks { d with status := { d.status with balancing := m } } unknown
      d.failedCycles).trans (aside.status d _ rfl)
  intro c
  have rested : part { c with status := { c.status with lastLoad := min c.status.lastLoad now } } =
      part c := aside.status c _ rfl
  simp only [attempt, balance]
  generalize Balancing.wanted c.config _ now = wanted
  by_cases same : wanted = c.status.balancing ∧ ¬c.balancingUnknown = true
  · rw [if_pos same]
    exact rested
  · rw [if_neg same]
    have written := writes wanted
      { c with status := { c.status with lastLoad := min c.status.lastLoad now } }
    simp only [attempt] at written
    cases done : (writeBanks wanted : EStateM ε (Controller σ n) Unit) _ with
    | ok _ d =>
      rw [done] at written
      exact ((marked d _ _).trans written).trans rested
    | error e d =>
      rw [done] at written
      exact (((marked _ _ _).trans (writes 0 d)).trans written).trans rested

end Aside

theorem aside_config : Aside (fun c : Controller σ n => c.config) :=
  ⟨fun _ _ _ _ _ => rfl, fun _ _ _ => rfl, fun _ _ _ => rfl⟩

theorem config_handleFaults (now : Nat) (c : Controller σ n) :
    (c.handleFaults now).config = c.config :=
  aside_config.handleFaults now c

end PackGuard.Controller
