import PackGuard.Proofs.SwitchPosition

/-!
One turn of the switches, as the journal shows it: nothing before the ready time, then either all
commands from the state to the next one and the change of state, or the commands up to a refused one
and no change.
-/

namespace PackGuard

namespace Entry

variable {n : Nat}

def carried (m : Moment n) (command : Switch × Bool) : Entry n :=
  ⟨.setSwitch command.1 command.2, some (), m⟩

def refused (m : Moment n) (command : Switch × Bool) : Entry n :=
  ⟨.setSwitch command.1 command.2, none, m⟩

theorem sets_refused (m : Moment n) (command : Switch × Bool) (d : Direction) :
    (refused m command).sets d = none := rfl

theorem position_commands (m : Moment n) (before after : PackState) (d : Direction) (start : Bool) :
    position ((before.commands after).map (carried m)).reverse d start =
      if before.conducts d = after.conducts d then start else after.conducts d := by
  cases before <;> cases after <;> cases d <;> rfl

end Entry

namespace Controller

variable {σ ε : Type} {n : Nat} [FrontEnd σ ε n]

theorem operate_cases (commands : List (Switch × Bool)) (c : Controller σ n) :
    (∃ d, operate commands c = .ok () d ∧ d.moment = c.moment ∧
      Logged c (commands.map (Entry.carried c.moment)).reverse d) ∨
    ∃ e d done command rest, operate commands c = .error e d ∧ d.moment = c.moment ∧
      commands = done ++ command :: rest ∧
      Logged c (Entry.refused c.moment command :: (done.map (Entry.carried c.moment)).reverse) d := by
  -- A command changes no moment, so the entries of the rest have the moment of the first.
  induction commands generalizing c with
  | nil => exact .inl ⟨c, rfl, rfl, .refl c⟩
  | cons first rest ih =>
    have unfolded : operate (first :: rest) c =
        (command (.setSwitch first.1 first.2) >>= fun _ => operate rest) c := rfl
    simp only [bind, EStateM.bind, command] at unfolded
    cases made : FrontEnd.perform (.setSwitch first.1 first.2) c.frontEnd with
    | error e s =>
      simp only [made] at unfolded
      exact .inr ⟨e, _, [], first, rest, unfolded, rfl, rfl, logged_record_failed made⟩
    | ok answer s =>
      simp only [made] at unfolded
      have opened := logged_record_answered made
      have same : (c.record (.setSwitch first.1 first.2) (some answer) s).moment = c.moment := rfl
      rcases ih (c.record (.setSwitch first.1 first.2) (some answer) s) with
        ⟨d, run, kept, logged⟩ | ⟨e, d, done, command, others, run, kept, split, logged⟩
      · refine .inl ⟨d, unfolded.trans run, kept, ?_⟩
        rw [same] at logged
        rw [List.map_cons, List.reverse_cons]
        exact opened.trans logged
      · refine .inr ⟨e, d, first :: done, command, others, unfolded.trans run, kept, ?_, ?_⟩
        · rw [split, List.cons_append]
        · rw [same] at logged
          rw [List.map_cons, List.reverse_cons]
          exact opened.trans logged

/-- What one turn of the switches comes to, and whether it succeeds. -/
inductive Turn (now : Nat) (c : Controller σ n) : Bool → Controller σ n → Prop
  | early (h : c.ready now = false) : Turn now c true c
  | through {d : Controller σ n} (h : c.ready now = true)
      (kept : d.moment = { c.moment with status := { c.status with state := c.nextState } })
      (logged : Logged c
        ((c.status.state.commands c.nextState).map (Entry.carried c.moment)).reverse d) :
      Turn now c true d
  | stuck {d : Controller σ n} {done rest : List (Switch × Bool)} {command : Switch × Bool}
      (h : c.ready now = true) (kept : d.moment = c.moment)
      (split : c.status.state.commands c.nextState = done ++ command :: rest)
      (logged : Logged c
        (Entry.refused c.moment command :: (done.map (Entry.carried c.moment)).reverse) d) :
      Turn now c false d

theorem Turn.logged {now : Nat} {c d : Controller σ n} {ok : Bool} (h : Turn now c ok d) :
    ∃ entries, Logged c entries d ∧ ∀ e ∈ entries, c.ready now = true ∧ e.moment = c.moment ∧
      ∃ command ∈ c.status.state.commands c.nextState,
        e.request = .setSwitch command.1 command.2 := by
  cases h with
  | early => exact ⟨[], .refl c, by simp⟩
  | through ready _ logged =>
    refine ⟨_, logged, ?_⟩
    intro e member
    obtain ⟨command, among, rfl⟩ := List.mem_map.mp (List.mem_reverse.mp member)
    exact ⟨ready, rfl, command, among, rfl⟩
  | stuck ready _ split logged =>
    refine ⟨_, logged, ?_⟩
    intro e member
    rw [split]
    rcases List.mem_cons.mp member with rfl | earlier
    · exact ⟨ready, rfl, _, by simp, rfl⟩
    · obtain ⟨command, among, rfl⟩ := List.mem_map.mp (List.mem_reverse.mp earlier)
      exact ⟨ready, rfl, command, by simp [among], rfl⟩

theorem turn_updateState (now : Nat) (c : Controller σ n) :
    Turn now c (c.attempt (updateState now)).1 (c.attempt (updateState now)).2 := by
  have unfolded : (updateState now : EStateM ε (Controller σ n) Unit) c =
      if c.ready now then
        (operate (c.status.state.commands c.nextState) >>= fun _ =>
          modify fun d => { d with status := { d.status with state := c.nextState } }) c
      else .ok () c := by
    change (if c.ready now then
      operate (c.status.state.commands c.nextState) >>= fun _ =>
        modify fun d => { d with status := { d.status with state := c.nextState } }
      else pure () : EStateM ε (Controller σ n) Unit) c = _
    split <;> rfl
  cases ready : c.ready now with
  | false =>
    simp only [attempt, unfolded, ready]
    exact .early ready
  | true =>
    simp only [ready, if_true, bind, EStateM.bind] at unfolded
    rcases operate_cases (c.status.state.commands c.nextState) c with
      ⟨d, run, kept, logged⟩ | ⟨e, d, done, command, rest, run, kept, split, logged⟩
    · rw [run] at unfolded
      simp only [attempt, unfolded]
      refine .through ready ?_ ⟨logged.journal, logged.served, logged.readyAt⟩
      exact congrArg (fun m : Moment n => { m with status.state := c.nextState }) kept
    · rw [run] at unfolded
      simp only [attempt, unfolded]
      exact .stuck ready kept split logged

theorem shutDown_cases (c : Controller σ n) :
    (∃ d, c.attempt shutDown = (true, d) ∧
      d.moment = { c.moment with status := { c.status with state := .off } } ∧
      Logged c [⟨.enterMode .off, some (), c.moment⟩] d) ∨
    ∃ d, c.attempt shutDown = (false, d) ∧ d.moment = c.moment ∧
      Logged c [⟨.enterMode .off, none, c.moment⟩] d := by
  have unfolded : (shutDown : EStateM ε (Controller σ n) Unit) c =
      (command (.enterMode .off) >>= fun _ =>
        modify fun d => { d with status := { d.status with state := .off } }) c := rfl
  simp only [bind, EStateM.bind, command] at unfolded
  cases made : FrontEnd.perform (.enterMode .off) c.frontEnd with
  | ok answer s =>
    simp only [made] at unfolded
    have entered := logged_record_answered made
    rw [attempt, unfolded]
    exact .inl ⟨_, rfl, rfl, entered.journal, entered.served, entered.readyAt⟩
  | error e s =>
    simp only [made] at unfolded
    rw [attempt, unfolded]
    exact .inr ⟨_, rfl, rfl, logged_record_failed made⟩

end Controller
end PackGuard
