import PackGuard.Proofs.Aside
import PackGuard.Proofs.History

/-!
What a control cycle samples. A fault that is judged by the temperatures or by the current has a
sample for every reading of them in the journal. Between readings the value of the last one stands,
so a cycle without a sample judges what the cycle before has judged.
-/

namespace PackGuard

variable {σ ε : Type} {n : Nat}

/-- The readings that some faults are judged by and nothing else. -/
inductive Quantity where
  | current
  | temperatures
  deriving DecidableEq

def FaultKind.quantity? : FaultKind → Option Quantity
  | chargeOvercurrent => some .current
  | dischargeOvertemperature | dischargeUndertemperature | chargeOvertemperature
  | chargeUndertemperature => some .temperatures
  | _ => none

def Request.quantity? : Request → Option Quantity
  | readCurrent => some .current
  | readTemperatures => some .temperatures
  | _ => none

theorem Request.quantity?_eq_none {request : Request} (quiet : request.reads = false) :
    request.quantity? = none := by
  cases request <;> first | rfl | cases quiet

def Quantity.Same (status other : Status n) : Quantity → Prop
  | current => status.current = other.current
  | temperatures => status.temperatures = other.temperatures

/-- What an entry tells of a fault: the check of the value that was read, if it was. -/
def Entry.sample? (config : Config) (kind : FaultKind) (e : Entry n) : Option Check :=
  match kind.quantity?, e with
  | some .current, ⟨.readCurrent, some milliamperes, _⟩ =>
    kind.check? config (({} : Status n).withCurrent config milliamperes 0) {}
  | some .temperatures, ⟨.readTemperatures, some reading, _⟩ =>
    kind.check? config (({} : Status n).withTemperatures reading) {}
  | _, _ => none

section

variable {config : Config} {kind : FaultKind} {q : Quantity} {e : Entry n}

theorem Entry.sample?_eq_none (measured : kind.quantity? = some q)
    (quiet : e.request.quantity? ≠ some q) : e.sample? config kind = none := by
  obtain ⟨request, answer?, moment⟩ := e
  unfold sample?
  rw [measured]
  cases q <;> cases request <;> first | rfl | exact absurd rfl quiet

theorem Entry.sample?_failed (request : Request) (moment : Moment n) :
    (⟨request, none, moment⟩ : Entry n).sample? config kind = none := by
  unfold sample?
  split
  · rename_i answered
    cases answered
  · rename_i answered
    cases answered
  · rfl

theorem FaultKind.check?_congr (measured : kind.quantity? = some q) {status other : Status n}
    (same : q.Same status other) (report report' : Report) :
    kind.check? config status report = kind.check? config other report' := by
  cases kind <;> cases measured <;> simp only [Quantity.Same] at same <;> simp only [check?, same]

theorem FaultKind.exists_check_of_quantity (measured : kind.quantity? = some q) (config : Config)
    (status : Status n) (report : Report) :
    ∃ check, kind.check? config status report = some check := by
  cases kind <;> cases measured <;> exact ⟨_, rfl⟩

end

namespace Controller

variable [FrontEnd σ ε n]

/-- The way from one controller to another with the samples taken on it, the latest first. The
latest one, if there is any, is what the fault is judged by in the end. -/
structure Sampled (kind : FaultKind) (samples : List Check) (c d : Controller σ n) : Prop where
  config : d.config = c.config
  logged : ∃ entries, Logged c entries d ∧ entries.filterMap (Entry.sample? c.config kind) = samples
  judged : kind.check? d.config d.status d.report =
    samples.head?.or (kind.check? c.config c.status c.report)

section Sampled

variable {kind : FaultKind} {q : Quantity} {c d e : Controller σ n} {samples more : List Check}

theorem Sampled.trans (h : Sampled kind samples c d) (k : Sampled kind more d e) :
    Sampled kind (more ++ samples) c e := by
  obtain ⟨first, loggedFirst, rfl⟩ := h.logged
  obtain ⟨second, loggedSecond, rfl⟩ := k.logged
  refine ⟨k.config.trans h.config, ⟨_, loggedFirst.trans loggedSecond, ?_⟩, ?_⟩
  · rw [List.filterMap_append, h.config]
  · rw [k.judged, h.judged, List.head?_append, Option.or_assoc]

theorem Sampled.of_quiet (measured : kind.quantity? = some q) {entries : List (Entry n)}
    (logged : Logged c entries d) (quiet : ∀ e ∈ entries, e.sample? c.config kind = none)
    (config : d.config = c.config) (same : q.Same d.status c.status) : Sampled kind [] c d := by
  refine ⟨config, ⟨entries, logged, List.filterMap_eq_nil_iff.mpr quiet⟩, ?_⟩
  rw [config]
  exact FaultKind.check?_congr measured same _ _

theorem Sampled.since_eq (h : Sampled kind samples c d) :
    (since c d).filterMap (Entry.sample? c.config kind) = samples := by
  obtain ⟨entries, logged, taken⟩ := h.logged
  rw [logged.since_eq, taken]

end Sampled

theorem attempt_taking (request : Request)
    (take : request.Answer n → Controller σ n → Controller σ n) (c : Controller σ n) :
    ∃ answer? s, Logged c [⟨request, answer?, c.moment⟩] (c.record request answer? s) ∧
      c.attempt (command request >>= fun answer => modify (take answer)) =
        (answer?.isSome, answer?.elim id take (c.record request answer? s)) := by
  cases made : FrontEnd.perform request c.frontEnd with
  | ok answer s =>
    refine ⟨some answer, s, logged_record_answered made, ?_⟩
    simp only [attempt, bind, EStateM.bind, command, made]
    rfl
  | error e s =>
    refine ⟨none, s, logged_record_failed made, ?_⟩
    simp only [attempt, bind, EStateM.bind, command, made]
    rfl

theorem attempt_reading (request : Request)
    (take : request.Answer n → Controller σ n → Controller σ n) (c : Controller σ n) :
    (∃ answer s, Logged c [⟨request, some answer, c.moment⟩] (c.record request (some answer) s) ∧
      (c.attempt (command request >>= fun answer => modify (take answer))).2 =
        take answer (c.record request (some answer) s)) ∨
    ∃ s, Logged c [⟨request, none, c.moment⟩] (c.record request none s) ∧
      (c.attempt (command request >>= fun answer => modify (take answer))).2 =
        c.record request none s := by
  obtain ⟨answer?, s, logged, ran⟩ := attempt_taking request take c
  rw [ran]
  cases answer? with
  | some answer => exact .inl ⟨answer, s, logged, rfl⟩
  | none => exact .inr ⟨s, logged, rfl⟩

section Config

variable {δ α : Type}

def KeepsConfig (task : EStateM δ (Controller σ n) α) : Prop :=
  ∀ c : Controller σ n, (c.attempt task).2.config = c.config

theorem keepsConfig_updateState (now : Nat) :
    KeepsConfig (updateState now : EStateM ε (Controller σ n) Unit) :=
  aside_config.keeps_updateState now

theorem keepsConfig_balance (now : Nat) :
    KeepsConfig (balance now : EStateM ε (Controller σ n) Unit) :=
  aside_config.keeps_balance now

end Config

section Cycle

variable {kind : FaultKind} {q : Quantity}

theorem sampled_other (measured : kind.quantity? = some q) (request : Request)
    (other : request.quantity? ≠ some q) (take : request.Answer n → Controller σ n → Controller σ n)
    (taken : ∀ answer (d : Controller σ n), Logged d [] (take answer d) ∧
      (take answer d).config = d.config ∧ q.Same (take answer d).status d.status)
    (c : Controller σ n) :
    Sampled kind [] c (c.attempt (command request >>= fun answer => modify (take answer))).2 := by
  have quiet : ∀ answer?, ∀ e ∈ [(⟨request, answer?, c.moment⟩ : Entry n)],
      e.sample? c.config kind = none := by
    intro answer? e member
    rw [List.mem_singleton.mp member]
    exact Entry.sample?_eq_none measured other
  have kept : ∀ d : Controller σ n, q.Same d.status d.status := fun d => by cases q <;> rfl
  obtain ⟨answer, s, logged, read⟩ | ⟨s, logged, failed⟩ := attempt_reading request take c
  · obtain ⟨unlogged, config, same⟩ := taken answer (c.record request (some answer) s)
    rw [read]
    exact .of_quiet measured (logged.trans unlogged) (quiet _) config same
  · rw [failed]
    exact .of_quiet measured logged (quiet _) rfl (kept c)

theorem sampled_own (measured : kind.quantity? = some q) (request : Request)
    (take : request.Answer n → Controller σ n → Controller σ n)
    (taken : ∀ answer (d : Controller σ n), Logged d [] (take answer d) ∧
      (take answer d).config = d.config ∧ Entry.sample? d.config kind
        ⟨request, some answer, d.moment⟩ = kind.check? d.config (take answer d).status {})
    (c : Controller σ n) :
    ∃ samples, samples.length ≤ 1 ∧
      Sampled kind samples c (c.attempt (command request >>= fun answer => modify (take answer))).2 := by
  have kept : ∀ d : Controller σ n, q.Same d.status d.status := fun d => by cases q <;> rfl
  obtain ⟨answer, s, logged, read⟩ | ⟨s, logged, failed⟩ := attempt_reading request take c
  · obtain ⟨unlogged, config, sample⟩ := taken answer (c.record request (some answer) s)
    obtain ⟨check, found⟩ := kind.exists_check_of_quantity measured c.config
      (take answer (c.record request (some answer) s)).status {}
    have sampled : Entry.sample? c.config kind ⟨request, some answer, c.moment⟩ = some check :=
      sample.trans found
    refine ⟨[check], Nat.le_refl 1, ?_⟩
    rw [read]
    refine ⟨config, ⟨_, logged.trans unlogged, by simp [sampled]⟩, ?_⟩
    rw [config]
    exact (FaultKind.check?_congr measured (kept _) _ _).trans found
  · refine ⟨[], Nat.zero_le 1, ?_⟩
    rw [failed]
    refine .of_quiet measured logged ?_ rfl (kept c)
    intro e member
    rw [List.mem_singleton.mp member]
    exact Entry.sample?_failed ..

theorem sampled_readCells (measured : kind.quantity? = some q) (c : Controller σ n) :
    Sampled kind [] c (c.attempt readCells).2 := by
  refine sampled_other measured _ (by simp [Request.quantity?]) _ (fun reading d => ?_) c
  refine ⟨⟨rfl, .refl _, rfl⟩, rfl, ?_⟩
  cases q <;> simp only [Quantity.Same, Status.withCells] <;> split <;> rfl

theorem sampled_readReport (measured : kind.quantity? = some q) (c : Controller σ n) :
    Sampled kind [] c (c.attempt readReport).2 := by
  refine sampled_other measured _ (by simp [Request.quantity?]) _ (fun reading d => ?_) c
  exact ⟨⟨rfl, .refl _, rfl⟩, rfl, by cases q <;> rfl⟩

theorem sampled_readings (measured : kind.quantity? = some q) (now : Nat) (c : Controller σ n) :
    ∃ samples, samples.length ≤ 1 ∧ Sampled kind samples c
      ((c.attempt (readCurrent now)).2.attempt readTemperatures).2 := by
  let takeCurrent (milliamperes : Int) (c : Controller σ n) : Controller σ n :=
    { c with status := c.status.withCurrent c.config milliamperes now }
  let takeTemperatures (reading : TemperatureReading) (c : Controller σ n) : Controller σ n :=
    { c with status := c.status.withTemperatures reading }
  cases q with
  | current =>
    obtain ⟨samples, few, current⟩ := sampled_own measured .readCurrent takeCurrent
      (fun milliamperes d => ⟨⟨rfl, .refl _, rfl⟩, rfl, by
        unfold Entry.sample?
        rw [measured]
        exact FaultKind.check?_congr measured (by rfl) _ _⟩) c
    have temperatures : Sampled kind [] (c.attempt (readCurrent now)).2
        ((c.attempt (readCurrent now)).2.attempt readTemperatures).2 :=
      sampled_other measured .readTemperatures (by simp [Request.quantity?]) takeTemperatures
        (fun _ _ => ⟨⟨rfl, .refl _, rfl⟩, rfl, by rfl⟩) _
    exact ⟨samples, few, current.trans temperatures⟩
  | temperatures =>
    have current : Sampled kind [] c (c.attempt (readCurrent now)).2 :=
      sampled_other measured .readCurrent (by simp [Request.quantity?]) takeCurrent
        (fun _ _ => ⟨⟨rfl, .refl _, rfl⟩, rfl, by rfl⟩) c
    obtain ⟨samples, few, temperatures⟩ :=
      sampled_own measured .readTemperatures takeTemperatures
        (fun reading d => ⟨⟨rfl, .refl _, rfl⟩, rfl, by
          unfold Entry.sample?
          rw [measured]
          exact FaultKind.check?_congr measured (by rfl) _ _⟩) (c.attempt (readCurrent now)).2
    have both := current.trans temperatures
    rw [List.append_nil] at both
    exact ⟨samples, few, both⟩

theorem sampled_of_memory (measured : kind.quantity? = some q) {c d : Controller σ n}
    (logged : Logged c [] d) (config : d.config = c.config)
    (current : d.status.current = c.status.current)
    (temperatures : d.status.temperatures = c.status.temperatures) : Sampled kind [] c d :=
  .of_quiet measured logged (by simp) config (by cases q <;> assumption)

theorem sampled_refresh (measured : kind.quantity? = some q) (now : Nat) (c : Controller σ n) :
    ∃ samples, samples.length ≤ 1 ∧ Sampled kind samples c (c.refresh now).2 := by
  have noted : ∀ (complete : Bool) (d : Controller σ n), Sampled kind [] d (d.noteCycle complete) :=
    fun _ _ => sampled_of_memory measured ⟨rfl, .refl _, rfl⟩ rfl rfl rfl
  have cells := sampled_readCells measured c
  obtain ⟨samples, few, readings⟩ := sampled_readings measured now (c.attempt readCells).2
  have report := sampled_readReport measured
    (((c.attempt readCells).2.attempt (readCurrent now)).2.attempt readTemperatures).2
  have measurement := ((cells.trans readings).trans report).trans (noted (c.refresh now).1 _)
  rw [List.nil_append, List.nil_append, List.append_nil] at measurement
  exact ⟨samples, few, measurement⟩

theorem Sampled.of_passage (measured : kind.quantity? = some q) {κ : Type} {view : Moment n → κ}
    {condition : Entry n → Prop} {c d : Controller σ n} (h : Passage view condition c d)
    (quiet : ∀ e : Entry n, condition e → e.request.reads = false) (config : d.config = c.config)
    (kept : view d.moment = view c.moment → d.status.current = c.status.current ∧
      d.status.temperatures = c.status.temperatures) : Sampled kind [] c d := by
  obtain ⟨entries, logged, same, held⟩ := h
  refine .of_quiet measured logged (fun e member => ?_) config ?_
  · refine Entry.sample?_eq_none measured ?_
    rw [Request.quantity?_eq_none (quiet e (held e member).2)]
    exact Option.some_ne_none q |>.symm
  · cases q
    · exact (kept same).1
    · exact (kept same).2

theorem sampled_handleFaults (measured : kind.quantity? = some q) (now : Nat)
    (c : Controller σ n) : Sampled kind [] c (c.handleFaults now) := by
  have supervised := passage_supervise (fun status : Status n =>
    (status.current, status.temperatures)) (fun _ _ _ _ => rfl) now c
  have config := config_handleFaults now c
  generalize c.handleFaults now = d at supervised config ⊢
  refine .of_passage measured supervised ?_ config fun same =>
    ⟨congrArg Prod.fst same, congrArg Prod.snd same⟩
  rintro e (⟨faults, alerts, asked⟩ | ⟨d, asked, -⟩) <;> rw [asked] <;> rfl

theorem sampled_updateState (measured : kind.quantity? = some q) (now : Nat)
    (c : Controller σ n) : Sampled kind [] c (c.attempt (updateState now)).2 := by
  have turn := turn_updateState now c
  have config := keepsConfig_updateState now c
  generalize (c.attempt (updateState now)).1 = ok at turn
  generalize (c.attempt (updateState now)).2 = d at turn config ⊢
  obtain ⟨entries, logged, asked⟩ := turn.logged
  have quiet : ∀ e ∈ entries, e.sample? c.config kind = none := by
    intro e member
    obtain ⟨-, -, command, -, moves⟩ := asked e member
    exact Entry.sample?_eq_none measured (by rw [moves]; simp [Request.quantity?])
  refine .of_quiet measured logged quiet config ?_
  cases turn with
  | early => cases q <;> rfl
  | through _ kept =>
    have current : d.status.current = c.status.current := congrArg (·.status.current) kept
    have temperatures : d.status.temperatures = c.status.temperatures :=
      congrArg (·.status.temperatures) kept
    cases q <;> assumption
  | stuck _ kept =>
    have current : d.status.current = c.status.current := congrArg (·.status.current) kept
    have temperatures : d.status.temperatures = c.status.temperatures :=
      congrArg (·.status.temperatures) kept
    cases q <;> assumption

theorem sampled_balance (measured : kind.quantity? = some q) (now : Nat) (c : Controller σ n) :
    Sampled kind [] c (c.attempt (balance now)).2 := by
  refine .of_passage measured (passes_balance now c) ?_ (keepsConfig_balance now c) fun same =>
    ⟨congrArg (·.status.current) same, congrArg (·.status.temperatures) same⟩
  rintro e ⟨bank, cells, asked⟩
  rw [asked]
  rfl

theorem sampled_updateCharge (measured : kind.quantity? = some q) (now : Nat)
    (c : Controller σ n) : Sampled kind [] c (c.updateCharge now) :=
  sampled_of_memory measured ⟨rfl, .refl _, rfl⟩ rfl rfl rfl

theorem monitor_refresh (now : Nat) (c : Controller σ n) :
    (c.refresh now).2.monitor = c.monitor := by
  obtain ⟨_, _, kept, -⟩ := passage_refresh now c
  generalize (c.refresh now).2 = d at kept
  exact congrArg Moment.monitor kept

theorem Turn.monitor_eq {now : Nat} {ok : Bool} {c d : Controller σ n} (turn : Turn now c ok d) :
    d.monitor = c.monitor := by
  cases turn with
  | early => rfl
  | through _ kept => exact congrArg Moment.monitor kept
  | stuck _ kept => exact congrArg Moment.monitor kept

theorem monitor_tick (now : Nat) (c : Controller σ n) :
    (c.tick now).monitor = ((c.refresh now).2.handleFaults now).monitor := by
  rw [tick_eq]
  generalize (c.refresh now).2.handleFaults now = judged
  have moved := (turn_updateState now judged).monitor_eq
  generalize (judged.attempt (updateState now)).2 = updated at moved ⊢
  obtain ⟨_, _, balanced, -⟩ := passes_balance now updated
  generalize (updated.attempt (balance now)).2 = final at balanced ⊢
  exact (congrArg Moment.monitor balanced).trans moved

theorem sampled_tick (measured : kind.quantity? = some q) (now : Nat) (c : Controller σ n) :
    ∃ samples, samples.length ≤ 1 ∧ Sampled kind samples c (c.refresh now).2 ∧
      Sampled kind samples c (c.tick now) := by
  obtain ⟨samples, few, read⟩ := sampled_refresh measured now c
  refine ⟨samples, few, read, ?_⟩
  rw [tick_eq]
  exact (((read.trans (sampled_handleFaults measured now _)).trans
    (sampled_updateState measured now _)).trans (sampled_balance measured now _)).trans
    (sampled_updateCharge measured now _)

end Cycle

end Controller
end PackGuard
