import PackGuard.Proofs.History

/-!
A closed switch is one that the state calls for, after every operation of every history; and after a
control cycle in which no switch failed to open, it is one that the status allows. The front-end may
open switches whenever it likes, but closes none by itself.
-/

namespace PackGuard

def Request.opens : Request → Bool
  | setSwitch _ false => true
  | _ => false

namespace Entry

variable {n : Nat} {d : Direction}

theorem conducts_of_recloses {e : Entry n} {position : Bool} (h : e.Recloses)
    (sets : e.sets d = some position) : e.moment.status.state.conducts d = true := by
  obtain ⟨d', asked, conducts, -⟩ := h
  unfold Entry.sets at sets
  rw [asked] at sets
  by_cases same : d'.switch = d.switch
  · rwa [← Direction.switch_inj.mp same]
  · simp [Request.sets, same] at sets

theorem exists_of_position {entries : List (Entry n)} {start : Bool}
    (h : position entries d start = true) : start = true ∨ ∃ e ∈ entries, e.sets d = some true := by
  induction entries with
  | nil =>
    rw [position_nil] at h
    exact .inl h
  | cons first rest ih =>
    rw [position_cons] at h
    cases sets : first.sets d with
    | some position =>
      rw [sets, Option.getD_some] at h
      exact .inr ⟨first, List.mem_cons_self, h ▸ sets⟩
    | none =>
      rw [sets, Option.getD_none] at h
      refine (ih h).imp_right fun ⟨e, member, closes⟩ => ?_
      exact ⟨e, List.mem_cons_of_mem _ member, closes⟩

end Entry

namespace Controller

variable {σ ε : Type} {n : Nat} [FrontEnd σ ε n] {closed : Direction → σ → Bool}
  {c d : Controller σ n}

def Follows (closed : Direction → σ → Bool) (c : Controller σ n) : Prop :=
  ∀ dir, closed dir c.frontEnd = true → c.status.state.conducts dir = true

theorem Follows.of_passage (law : ClosesOnCommand closed) (h : Follows closed c)
    (passage : Passage (fun m => m.status.state)
      (fun e => e.request.operates = false ∨ e.Recloses) c d) : Follows closed d := by
  obtain ⟨entries, logged, kept, held⟩ := passage
  change d.status.state = c.status.state at kept
  intro dir shut
  have position := law.position_of_closed logged.served shut
  rw [kept]
  rcases Entry.exists_of_position position with before | ⟨e, member, closes⟩
  · exact h dir before
  obtain ⟨same, idle | recloses⟩ := held e member
  · rw [Entry.sets_eq_none_of_operates dir idle] at closes
    cases closes
  · change e.moment.status.state = c.status.state at same
    rw [← same]
    exact Entry.conducts_of_recloses recloses closes

theorem position_of_stuck {charge discharge : Bool} {done rest : List (Switch × Bool)}
    {command : Switch × Bool} {state : PackState} {dir : Direction} {start : Bool} (m : Moment n)
    (split : state.commands (state.next charge discharge) = done ++ command :: rest)
    (shut : Entry.position (Entry.refused m command :: (done.map (Entry.carried m)).reverse) dir
      start = true) : start = true := by
  rw [Entry.position_cons, Entry.sets_refused, Option.getD_none] at shut
  rcases PackState.commands_next_split split with rfl | ⟨-, -, -, rfl, -⟩
  · exact shut
  · cases dir with
    | charge => exact shut
    | discharge => cases shut

theorem Turn.follows {now : Nat} {ok : Bool} (turn : Turn now c ok d) (law : ClosesOnCommand closed)
    (h : Follows closed c) : Follows closed d := by
  intro dir shut
  cases turn with
  | early => exact h dir shut
  | through _ kept logged =>
    have position := law.position_of_closed logged.served shut
    have state : d.status.state = c.nextState := congrArg (fun m => m.status.state) kept
    rw [Entry.position_commands] at position
    rw [state]
    split at position
    · rename_i same
      exact same ▸ h dir position
    · exact position
  | stuck _ kept split logged =>
    have position := law.position_of_closed logged.served shut
    have state : d.status.state = c.status.state := congrArg (fun m => m.status.state) kept
    rw [state]
    exact h dir (position_of_stuck _ split position)

theorem Turn.allowed {now : Nat} {ok : Bool} (turn : Turn now c ok d)
    (law : ClosesOnCommand closed) (h : Follows closed c) (ready : c.ready now = true)
    (opened : ∀ e ∈ c.since d, e.request.opens = true → e.succeeded = true) {dir : Direction}
    (shut : closed dir d.frontEnd = true) : d.status.allows dir = true := by
  have follows := turn.follows law h dir shut
  cases turn with
  | early early => simp [ready] at early
  | through _ kept logged =>
    have status : d.status = { c.status with state := c.nextState } := congrArg Moment.status kept
    rw [status] at follows ⊢
    have allowed : c.status.allows dir = true := PackState.allowed_of_conducts_next follows
    cases dir <;> exact allowed
  | @stuck _ _ _ command _ kept split logged =>
    have status : d.status = c.status := congrArg Moment.status kept
    rw [status] at follows ⊢
    rw [logged.since_eq] at opened
    -- The refused command closes a switch, so the turn drops no direction.
    have refused := opened _ List.mem_cons_self
    obtain ⟨switch, position⟩ := command
    cases position with
    | false => cases refused rfl
    | true =>
      rcases PackState.commands_next_split split with rfl | ⟨-, -, -, -, command⟩
      · exact PackState.allowed_of_conducts_next (PackState.conducts_of_commands split follows)
      · cases command

theorem Step.follows {now? : Option Nat} (step : Step now? c d) (law : ClosesOnCommand closed)
    (h : Follows closed c) : Follows closed d := by
  cases step with
  | quiet passage =>
    exact h.of_passage law <| passage.weaken Standing.state (fun _ => rfl) fun _ _ idle => .inl idle
  | @judge _ _ d passage =>
    have judged : Follows closed d := h.of_passage law <|
      passage.weaken Status.state (fun _ => rfl) fun _ _ idle => .inl idle
    exact judged
  | restore passage =>
    exact h.of_passage law <| passage.weaken (fun m => m.1.state) (fun _ => rfl) fun _ _ e => e
  | update now => exact (turn_updateState now c).follows law h
  | enableCharge | enableDischarge => exact h
  | shutDown =>
    intro dir shut
    rcases shutDown_cases c with ⟨d, ended, kept, logged⟩ | ⟨d, ended, kept, logged⟩
    · rw [ended] at shut
      cases law.position_of_closed logged.served shut
    · rw [ended] at shut ⊢
      have status : d.status = c.status := congrArg Moment.status kept
      rw [status]
      exact h dir (law.position_of_closed logged.served shut)

theorem Steps.follows {now? : Option Nat} (steps : Steps now? c d) (law : ClosesOnCommand closed)
    (h : Follows closed c) : Follows closed d := by
  induction steps with
  | refl => exact h
  | tail _ step ih => exact step.follows law ih

theorem closed_of_idle {κ : Type} {view : Moment n → κ} (law : ClosesOnCommand closed)
    (passage : Passage view (fun e => e.request.operates = false) c d) {dir : Direction}
    (shut : closed dir d.frontEnd = true) : closed dir c.frontEnd = true := by
  obtain ⟨entries, logged, -, held⟩ := passage
  have position := law.position_of_closed logged.served shut
  rwa [Entry.position_of_idle _ fun e member =>
    Entry.sets_eq_none_of_operates dir (held e member).2] at position

theorem passage_after_turn (now : Nat) (c : Controller σ n) :
    Passage (fun m => m.status.allows) (fun e => e.request.operates = false) c
      ((c.attempt (balance now)).2.updateCharge now) := by
  have balanced : Passage (fun m => m.status.allows) (fun e => e.request.operates = false) c
      (c.attempt (balance now)).2 := by
    refine (passes_balance now c).weaken (fun m => m.status.allows) (fun _ => rfl) ?_
    rintro e _ ⟨bank, cells, asked⟩
    rw [asked]
    rfl
  exact balanced.trans (.of_memory rfl rfl rfl rfl)

theorem Follows.allowed_of_tick (law : ClosesOnCommand closed) (h : Follows closed c) {now : Nat}
    (ready : c.ready now = true)
    (opened : ∀ e ∈ c.since (c.tick now), e.request.opens = true → e.succeeded = true)
    {dir : Direction} (shut : closed dir (c.tick now).frontEnd = true) :
    (c.tick now).status.allows dir = true := by
  rw [tick_eq] at opened shut ⊢
  -- What comes before the turn keeps closed switches within the state, and what comes after it
  -- moves none.
  have before : Steps (some now) c ((c.refresh now).2.handleFaults now) :=
    (Relation.ReflTransGen.single (step_refresh _ now c)).trans (steps_handleFaults now _)
  generalize (c.refresh now).2.handleFaults now = judged at before opened shut ⊢
  have turn := turn_updateState now judged
  generalize (judged.attempt (updateState now)).2 = updated at turn opened shut ⊢
  have after := passage_after_turn now updated
  generalize (updated.attempt (balance now)).2.updateCharge now = final at after opened shut ⊢
  obtain ⟨first, loggedBefore⟩ := before.logged
  obtain ⟨second, loggedTurn, -⟩ := turn.logged
  have shutBefore := closed_of_idle law after shut
  obtain ⟨third, loggedAfter, kept, -⟩ := after
  have readyThen : judged.ready now = true := by
    rw [Controller.ready, loggedBefore.readyAt]
    exact ready
  rw [((loggedBefore.trans loggedTurn).trans loggedAfter).since_eq] at opened
  have allowed := turn.allowed law (before.follows law h) readyThen
    (fun e member => opened e (by rw [loggedTurn.since_eq] at member; simp [member])) shutBefore
  exact (congrFun kept dir).trans allowed

end Controller

section History

variable {σ ε : Type} {n t : Nat} [FrontEnd σ ε n] {closed : Direction → σ → Bool} {s : σ}
  {config : Config} {c : Controller σ n}

theorem History.follows (law : ClosesOnCommand closed) (opened : ∀ d, closed d s = false)
    (h : History (fun s t => ∀ d, closed d t = true → closed d s = true)
      (Controller.new s config) t c) : Controller.Follows closed c := by
  induction h with
  | new =>
    intro dir shut
    change closed dir s = true at shut
    rw [opened dir] at shut
    cases shut
  | @operation _ c op _ _ ih => exact (op.steps c).follows law ih
  | drift _ drifts ih => exact fun dir shut => ih dir (drifts dir shut)

/-- In every history a closed switch is one that the state calls for, and after a control cycle in
which no switch failed to open it is one that the status allows. -/
theorem History.closed_switch_safe (law : ClosesOnCommand closed) (opened : ∀ d, closed d s = false)
    (h : History (fun s t => ∀ d, closed d t = true → closed d s = true)
      (Controller.new s config) t c) :
    (closed .discharge c.frontEnd = true → c.status.state.discharging = true) ∧
    (closed .charge c.frontEnd = true → c.status.state.charging = true) ∧
    ∀ now, FrontEnd.startupDelay s ≤ now →
      (∀ e ∈ c.since (c.tick now), e.request.opens = true → e.succeeded = true) →
      (closed .discharge (c.tick now).frontEnd = true →
        (c.tick now).status.dischargeAllowed = true) ∧
      (closed .charge (c.tick now).frontEnd = true →
        (c.tick now).status.chargeAllowed = true) := by
  have follows := h.follows law opened
  refine ⟨follows .discharge, follows .charge, fun now started clean => ?_⟩
  have ready : c.ready now = true := by
    rw [Controller.ready, h.readyAt_eq]
    exact decide_eq_true started
  exact ⟨follows.allowed_of_tick law ready clean, follows.allowed_of_tick law ready clean⟩

end History

def Bench.restricted : Controller (Bench 1) 1 :=
  ((blindControl.tick 0).tick 1).enableDischarge false

theorem History.closed_switch_safe_restricted :
    (Bench.closed .discharge Bench.restricted.frontEnd = true ∧
      Bench.restricted.status.state.discharging = true) ∧
    Bench.closed .charge (Bench.restricted.tick 2).frontEnd = true ∧
      (Bench.restricted.tick 2).status.chargeAllowed = true := by
  have run : History (fun s t => ∀ d, Bench.closed d t = true → Bench.closed d s = true)
      Bench.blindControl 1 Bench.restricted :=
    .operation (.enableDischarge false)
      (.operation (.tick 1) (.operation (.tick 0) .new (by decide)) (by decide)) (by decide)
  have opened : ∀ d, Bench.closed d (.blind 1) = false := by
    intro d
    cases d <;> rfl
  have before : Bench.closed .discharge Bench.restricted.frontEnd = true := by decide +kernel
  have after : Bench.closed .charge (Bench.restricted.tick 2).frontEnd = true := by decide +kernel
  have clean : ∀ e ∈ Bench.restricted.since (Bench.restricted.tick 2),
      e.request.opens = true → e.succeeded = true := by decide +kernel
  have safe := History.closed_switch_safe Bench.closesOnCommand opened run
  exact ⟨⟨before, safe.1 before⟩, after, (safe.2.2 2 (Nat.zero_le _) clean).2 after⟩

end PackGuard
