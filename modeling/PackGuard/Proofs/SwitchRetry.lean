import PackGuard.Proofs.SwitchTurn

/-!
Turns of the switches in a row, each starting where the last one ended, while permissions change and
commands fail. A turn that fails changes no state, so the next one starts over. The charge switch is
always where the state has it. The discharge switch is not once a turn from normal to off has opened
it and then fails to open the other: the state stays normal, and as long as discharging is allowed
again no later turn closes the switch.
-/

namespace PackGuard

structure Call (σ : Type) (n : Nat) where
  before : Controller σ n
  now : Nat

namespace Call

variable {σ ε : Type} {n : Nat} [FrontEnd σ ε n]

def after (call : Call σ n) : Controller σ n :=
  (call.before.attempt (Controller.updateState call.now)).2

def succeeded (call : Call σ n) : Bool :=
  (call.before.attempt (Controller.updateState call.now)).1

def Strands (call : Call σ n) : Prop :=
  ∃ m, call.before.since call.after =
    [Entry.refused m (.charge, false), Entry.carried m (.discharge, false)]

end Call

section Calls

variable {σ ε : Type} {n : Nat} [FrontEnd σ ε n]

/-- Calls in a row, the latest first. The first one finds the pack off and all switches open; every
other one finds the state and the switches as the last one left them. -/
inductive Consecutive (closed : Direction → σ → Bool) : List (Call σ n) → Prop
  | first {call : Call σ n} (off : call.before.status.state = .off)
      (opened : ∀ d, closed d call.before.frontEnd = false)
      (ready : call.before.ready call.now = true) : Consecutive closed [call]
  | next {call last : Call σ n} {earlier : List (Call σ n)}
      (rest : Consecutive closed (last :: earlier))
      (state : call.before.status.state = last.after.status.state)
      (switches : ∀ d, closed d call.before.frontEnd = closed d last.after.frontEnd)
      (ready : call.before.ready call.now = true) : Consecutive closed (call :: last :: earlier)

/-- A call has stranded the discharge switch, and every successful call since then has found
discharging allowed. -/
inductive Stranded : List (Call σ n) → Prop
  | strands {call : Call σ n} {earlier : List (Call σ n)} (h : call.Strands) :
      Stranded (call :: earlier)
  | stays {call : Call σ n} {earlier : List (Call σ n)} (before : Stranded earlier)
      (h : call.succeeded = true → call.before.status.dischargeAllowed = true) :
      Stranded (call :: earlier)

variable {closed : Direction → σ → Bool}

inductive Call.Outcome (closed : Direction → σ → Bool) (call : Call σ n) : Prop
  | through (ok : call.succeeded = true) (whole : ¬call.Strands)
      (state : call.after.status.state = call.before.nextState)
      (switches : ∀ d, closed d call.after.frontEnd =
        if call.before.status.state.conducts d = call.before.nextState.conducts d then
          closed d call.before.frontEnd
        else call.before.nextState.conducts d)
  | idle (failed : call.succeeded = false) (whole : ¬call.Strands)
      (state : call.after.status.state = call.before.status.state)
      (switches : ∀ d, closed d call.after.frontEnd = closed d call.before.frontEnd)
  | stranded (failed : call.succeeded = false) (strands : call.Strands)
      (from_normal : call.before.status.state = .normal)
      (state : call.after.status.state = call.before.status.state)
      (opened : closed .discharge call.after.frontEnd = false)
      (kept : closed .charge call.after.frontEnd = closed .charge call.before.frontEnd)

theorem Call.outcome (law : MovesOnCommand closed) (call : Call σ n)
    (ready : call.before.ready call.now = true) : call.Outcome closed := by
  have turn : Controller.Turn call.now call.before call.succeeded call.after :=
    Controller.turn_updateState call.now call.before
  have switches : ∀ {entries}, Controller.Logged call.before entries call.after →
      (∀ e ∈ entries, ∃ switch position, e.request = .setSwitch switch position) →
      ∀ d, closed d call.after.frontEnd =
        Entry.position entries d (closed d call.before.frontEnd) :=
    fun logged commands d => law.closed_eq d logged.served commands
  generalize outcome : call.succeeded = ok at turn
  generalize ended : call.after = final at turn
  cases turn with
  | early early => simp [ready] at early
  | through _ kept logged =>
    subst ended
    refine .through outcome ?_ (congrArg (fun m => m.status.state) kept) fun d => ?_
    · rintro ⟨m, entries⟩
      rw [logged.since_eq] at entries
      have refused : Entry.refused m (.charge, false) ∈
          ((call.before.status.state.commands call.before.nextState).map
            (Entry.carried call.before.moment)).reverse := by rw [entries]; simp
      obtain ⟨command, -, same⟩ := List.mem_map.mp (List.mem_reverse.mp refused)
      have answered := congrArg Entry.succeeded same
      cases answered
    · rw [switches logged, Entry.position_commands]
      intro e member
      obtain ⟨command, -, rfl⟩ := List.mem_map.mp (List.mem_reverse.mp member)
      exact ⟨_, _, rfl⟩
  | stuck _ kept split logged =>
    subst ended
    have state : call.after.status.state = call.before.status.state :=
      congrArg (fun m => m.status.state) kept
    rcases PackState.commands_next_split split with rfl | ⟨normal, -, -, rfl, rfl⟩
    · refine .idle outcome ?_ state fun d => ?_
      · rintro ⟨m, entries⟩
        rw [logged.since_eq] at entries
        have lengths := congrArg List.length entries
        cases lengths
      · refine switches logged (fun e member => ?_) d
        obtain rfl := List.mem_singleton.mp member
        exact ⟨_, _, rfl⟩
    · have moved := switches logged (by simp [Entry.refused, Entry.carried])
      exact .stranded outcome ⟨_, logged.since_eq⟩ normal state (moved .discharge) (moved .charge)

structure Matched (closed : Direction → σ → Bool) (stranded : Prop) (c : Controller σ n) : Prop where
  charge : closed .charge c.frontEnd = c.status.state.charging
  discharge : ¬stranded → closed .discharge c.frontEnd = c.status.state.discharging
  stranded : stranded → closed .discharge c.frontEnd = false ∧ c.status.state.discharging = true

theorem Matched.congr {stranded : Prop} {c d : Controller σ n} (h : Matched closed stranded c)
    (state : d.status.state = c.status.state)
    (switches : ∀ dir, closed dir d.frontEnd = closed dir c.frontEnd) :
    Matched closed stranded d where
  charge := by rw [switches, state]; exact h.charge
  discharge := by rw [switches, state]; exact h.discharge
  stranded := by rw [switches, state]; exact h.stranded

theorem stranded_cons {call : Call σ n} {earlier : List (Call σ n)} :
    Stranded (call :: earlier) ↔ call.Strands ∨
      Stranded earlier ∧ (call.succeeded = true → call.before.status.dischargeAllowed = true) := by
  constructor
  · intro h
    cases h with
    | strands h => exact .inl h
    | stays before h => exact .inr ⟨before, h⟩
  · rintro (h | ⟨before, h⟩)
    · exact .strands h
    · exact .stays before h

theorem Matched.after_call (law : MovesOnCommand closed) {call : Call σ n}
    {earlier : List (Call σ n)} (ready : call.before.ready call.now = true)
    (h : Matched closed (Stranded earlier) call.before) :
    Matched closed (Stranded (call :: earlier)) call.after := by
  rw [stranded_cons]
  cases call.outcome law ready with
  | through ok whole state switches =>
    have matched : ∀ d, closed d call.before.frontEnd = call.before.status.state.conducts d →
        closed d call.after.frontEnd = call.after.status.state.conducts d := by
      intro d before
      rw [switches, state, before]
      split
      · assumption
      · rfl
    have goesOn : call.before.status.state.discharging = true →
        call.before.nextState.conducts .discharge = call.before.status.dischargeAllowed :=
      fun on => PackState.conducts_next_of_conducts (d := .discharge) on
    constructor
    case charge => exact matched .charge h.charge
    case discharge =>
      intro free
      by_cases before : Stranded earlier
      -- The call forbids discharging, so it opens the switch once more and changes the state.
      · obtain ⟨opened, on⟩ := h.stranded before
        have forbidden : call.before.status.dischargeAllowed = false := by
          cases allowed : call.before.status.dischargeAllowed with
          | false => rfl
          | true => exact (free (.inr ⟨before, fun _ => allowed⟩)).elim
        have next : call.before.nextState.conducts .discharge = false := (goesOn on).trans forbidden
        rw [switches, next, state]
        change (if call.before.status.state.discharging = false then _ else _) = _
        rw [on]
        exact next.symm
      · exact matched .discharge (h.discharge before)
    case stranded =>
      rintro (strands | ⟨before, allowed⟩)
      · exact (whole strands).elim
      obtain ⟨opened, on⟩ := h.stranded before
      have next : call.before.nextState.conducts .discharge = true := (goesOn on).trans (allowed ok)
      refine ⟨?_, ?_⟩
      · rw [switches, next]
        change (if call.before.status.state.discharging = true then _ else _) = _
        rw [if_pos on]
        exact opened
      · rw [state]
        exact next
  | idle failed whole state switches =>
    have same : (call.Strands ∨ Stranded earlier ∧ (call.succeeded = true →
        call.before.status.dischargeAllowed = true)) ↔ Stranded earlier := by
      simp [whole, failed]
    rw [same]
    exact h.congr state switches
  | stranded failed strands normal state opened kept =>
    refine ⟨?_, fun free => (free (.inl strands)).elim, fun _ => ⟨opened, ?_⟩⟩
    · rw [kept, state]
      exact h.charge
    · rw [state, normal]
      rfl

theorem Consecutive.matched (law : MovesOnCommand closed) {call : Call σ n}
    {earlier : List (Call σ n)} (h : Consecutive closed (call :: earlier)) :
    Matched closed (Stranded (call :: earlier)) call.after := by
  generalize calls_eq : call :: earlier = calls at h
  induction h generalizing call earlier with
  | @first first off opened ready =>
    cases calls_eq
    refine Matched.after_call law ready ⟨?_, fun _ => ?_, fun stranded => by cases stranded⟩
    · rw [opened, off]
      rfl
    · rw [opened, off]
      rfl
  | @next later last earlier rest state switches ready ih =>
    cases calls_eq
    exact Matched.after_call law ready ((ih rfl).congr state switches)

/-- After every call, also one that fails, the charge switch is where the state has it, and the
discharge switch is where the state has it exactly when it is not stranded. -/
theorem Consecutive.switches_after_call (law : MovesOnCommand closed) {call : Call σ n}
    {earlier : List (Call σ n)} (h : Consecutive closed (call :: earlier)) :
    closed .charge call.after.frontEnd = call.after.status.state.charging ∧
    (closed .discharge call.after.frontEnd = call.after.status.state.discharging ↔
      ¬Stranded (call :: earlier)) := by
  have matched := h.matched law
  refine ⟨matched.charge, fun same stranded => ?_, matched.discharge⟩
  obtain ⟨opened, on⟩ := matched.stranded stranded
  rw [opened, on] at same
  cases same

end Calls

namespace Bench

def wakingCall : Call (Bench 1) 1 := ⟨blindControl, 0⟩

def normalCall : Call (Bench 1) 1 := ⟨wakingCall.after, 1⟩

def strandingCall : Call (Bench 1) 1 :=
  let c := (normalCall.after.enableCharge false).enableDischarge false
  ⟨{ c with frontEnd := c.frontEnd.restart [1] }, 2⟩

def resumingCall : Call (Bench 1) 1 :=
  ⟨(strandingCall.after.enableCharge true).enableDischarge true, 3⟩

theorem consecutive_resuming :
    Consecutive closed [resumingCall, strandingCall, normalCall, wakingCall] :=
  .next (.next (.next (.first rfl (by intro d; cases d <;> rfl) rfl)
    rfl (fun _ => rfl) rfl) rfl (by intro d; cases d <;> rfl) rfl) rfl (fun _ => rfl) rfl

end Bench

theorem Consecutive.switches_after_call_resuming :
    Bench.closed .charge Bench.resumingCall.after.frontEnd = true ∧
    ¬Bench.closed .discharge Bench.resumingCall.after.frontEnd =
      Bench.resumingCall.after.status.state.discharging := by
  have stranded : Stranded [Bench.resumingCall, Bench.strandingCall, Bench.normalCall,
      Bench.wakingCall] := .stays (.strands ⟨_, rfl⟩) fun _ => rfl
  have ends := Bench.consecutive_resuming.switches_after_call Bench.movesOnCommand
  exact ⟨ends.1, fun same => ends.2.mp same stranded⟩

/-- A failed call is not always made up for: the fourth call of the bench succeeds and leaves the
discharge switch open in the normal state. -/
theorem Consecutive.not_all_matched :
    ¬∀ (call : Call (Bench 1) 1) (earlier : List (Call (Bench 1) 1)),
      Consecutive Bench.closed (call :: earlier) → call.succeeded = true →
        ∀ d, Bench.closed d call.after.frontEnd = call.after.status.state.conducts d := by
  intro all
  have same := all _ _ Bench.consecutive_resuming rfl .discharge
  cases same

end PackGuard
