import PackGuard.Proofs.Confirmation

/-!
How long a fault has to last. A fault that is judged by the measurements is reported exactly if the
rounds up to now have found it over its limit without a break, and the first of them is long enough
ago. A fault that the front-end detects by itself is reported with its first sighting.
-/

namespace PackGuard

@[simp] theorem Phase.flagged_clear : Phase.clear.flagged = false := rfl

namespace Tracker

variable {pace : Pace} {seen : Sighting} {now : Nat} {t : Tracker}

def suspectedSince? (t : Tracker) : Option Nat :=
  if t.phase = .suspected then some t.since else none

@[simp] theorem flagged_confirm (now : Nat) : (confirm now).phase.flagged = true := rfl

@[simp] theorem flagged_suspect (t : Tracker) (now : Nat) :
    (t.suspect now).phase.flagged = false := rfl

@[simp] theorem flagged_drop (t : Tracker) : t.drop.phase.flagged = false := rfl

@[simp] theorem suspectedSince?_suspect (t : Tracker) (now : Nat) :
    (t.suspect now).suspectedSince? = some now := rfl

@[simp] theorem suspectedSince?_drop (t : Tracker) : t.drop.suspectedSince? = none := rfl

theorem advance_unreported (waits : seen.debounced = false) (unreported : t.phase.flagged = false) :
    (t.advance pace seen now).1 =
      if seen.present then
        match t.suspectedSince? with
        | none => t.suspect now
        | some since => if pace.delay ≤ now - since then confirm now else t
      else t.drop := by
  unfold advance suspectedSince?
  cases phase : t.phase with
  | confirmed | clearing =>
    rw [phase] at unreported
    cases unreported
  | clear =>
    have same : t.drop = t := by rw [drop, ← phase]
    cases present : seen.present <;> simp [waits, same]
  | suspected =>
    cases present : seen.present
    · simp
    · by_cases long : pace.delay ≤ now - t.since <;> simp [long]

theorem advance_debounced (debounced : seen.debounced = true) (clear : t.phase = .clear) :
    (t.advance pace seen now).1 = if seen.present then confirm now else t := by
  simp only [advance, clear, debounced]
  split <;> rfl

end Tracker

theorem FaultKind.sighting?_detected {n : Nat} {kind : FaultKind} {hardware : FaultSet}
    {config : Config} {status : Status n} {report : Report} {phase : Phase}
    (detected : kind ∈ hardware) :
    kind.sighting? hardware config status report phase = some ⟨kind ∈ report.faults, true,
      kind.retriesBlindly || ((kind.check? config status report).map Check.recovered).getD true⟩ :=
  if_pos detected

namespace Round

variable {σ ε : Type} {n : Nat} [FrontEnd σ ε n] {round : Round σ n} {kind : FaultKind}
  {check : Check}

def trips (kind : FaultKind) (round : Round σ n) : Bool :=
  !(round.before.monitor.phase kind).flagged && (round.check? kind).any Check.tripped

theorem trips_eq (found : round.check? kind = some check)
    (unreported : (round.before.monitor.phase kind).flagged = false) :
    round.trips kind = check.tripped := by
  simp [trips, found, unreported]

theorem moves_unreported (software : kind ∉ round.hardware) (found : round.check? kind = some check)
    (unreported : (round.before.monitor.phase kind).flagged = false) :
    round.after.monitor.faults.get kind =
      if round.trips kind then
        match (round.before.monitor.faults.get kind).suspectedSince? with
        | none => (round.before.monitor.faults.get kind).suspect round.now
        | some since =>
          if kind.delay round.before.config ≤ round.now - since then .confirm round.now
          else round.before.monitor.faults.get kind
      else (round.before.monitor.faults.get kind).drop := by
  have unconfirmed : round.before.monitor.phase kind ≠ .confirmed := by
    intro confirmed
    rw [confirmed] at unreported
    cases unreported
  rw [advances_by_check software found (ne_clearing software found unconfirmed),
    Tracker.advance_unreported rfl unreported, trips_eq found unreported, sighting, unreported]
  rfl

theorem reported_iff_suspected (software : kind ∉ round.hardware)
    (found : round.check? kind = some check)
    (unreported : (round.before.monitor.phase kind).flagged = false) :
    (round.after.monitor.phase kind).flagged = true ↔
      round.trips kind = true ∧
        ∃ since ∈ (round.before.monitor.faults.get kind).suspectedSince?,
          kind.delay round.before.config ≤ round.now - since := by
  have moves := moves_unreported software found unreported
  unfold Monitor.phase at unreported ⊢
  cases trips : round.trips kind
  case false => simp [moves, trips]
  cases begun : (round.before.monitor.faults.get kind).suspectedSince? with
  | none => simp [moves, trips, begun]
  | some since =>
    by_cases long : kind.delay round.before.config ≤ round.now - since <;>
      simp [moves, trips, begun, long, unreported]

theorem suspectedSince?_after (software : kind ∉ round.hardware)
    (found : round.check? kind = some check)
    (unreported : (round.after.monitor.phase kind).flagged = false) :
    (round.after.monitor.faults.get kind).suspectedSince? =
      if round.trips kind then
        some ((round.before.monitor.faults.get kind).suspectedSince?.getD round.now)
      else none := by
  cases flagged : (round.before.monitor.phase kind).flagged with
  | true =>
    have quiet : round.trips kind = false := by simp [trips, flagged]
    rw [quiet, if_neg Bool.false_ne_true, Tracker.suspectedSince?, if_neg]
    intro suspected
    rcases (of_suspected software found suspected).1 with before | before <;>
      rw [before] at flagged <;> cases flagged
  | false =>
    have moves := moves_unreported software found flagged
    unfold Monitor.phase at unreported
    cases trips : round.trips kind
    case false => simp [moves, trips]
    cases begun : (round.before.monitor.faults.get kind).suspectedSince? with
    | none => simp [moves, trips, begun]
    | some since =>
      by_cases long : kind.delay round.before.config ≤ round.now - since
      · simp [moves, trips, begun, long] at unreported
      · simp [moves, trips, begun, long]

theorem reported_iff_detected (detected : kind ∈ round.hardware)
    (clear : round.before.monitor.phase kind = .clear) :
    (round.after.monitor.phase kind).flagged = true ↔ kind ∈ round.before.report.faults := by
  have tended := round.tended_fault (FaultKind.sighting?_detected detected)
  have short : round.after.monitor.phase kind ≠ .clearing := by
    intro clearing
    have before := (tended.of_clearing clearing).1
    cases clear.symm.trans before
  have moves := tended.eq_advance short
  rw [Tracker.advance_debounced rfl clear] at moves
  unfold Monitor.phase at clear ⊢
  by_cases present : kind ∈ round.before.report.faults <;> simp [moves, present, clear]

end Round

namespace Rounds

variable {σ ε : Type} {n : Nat} [FrontEnd σ ε n] {hardware : FaultSet} {round : Round σ n}
  {earlier : List (Round σ n)} {kind : FaultKind}

/-- The latest rounds in a row that find a fault over its limit which is not reported yet. -/
def series (kind : FaultKind) (rounds : List (Round σ n)) : List (Round σ n) :=
  rounds.takeWhile (Round.trips kind)

def begun? (kind : FaultKind) (rounds : List (Round σ n)) : Option Nat :=
  (series kind rounds).getLast?.map Round.now

theorem begun?_cons : begun? kind (round :: earlier) =
    if round.trips kind then some ((begun? kind earlier).getD round.now) else none := by
  unfold begun? series
  rw [List.takeWhile_cons]
  split
  · rw [List.getLast?_cons]
    cases ((earlier.takeWhile (Round.trips kind)).getLast?) <;> rfl
  · rfl

theorem exists_begun?_iff {condition : Nat → Prop} {rounds : List (Round σ n)} :
    (∃ start ∈ begun? kind rounds, condition start) ↔
      ∃ between first, series kind rounds = between ++ [first] ∧ condition first.now := by
  simp only [begun?, Option.mem_def, Option.map_eq_some_iff, List.getLast?_eq_some_iff]
  grind

/-- What is suspected has been so since its series has begun. -/
theorem suspectedSince?_eq_begun? (h : Rounds hardware (round :: earlier))
    (software : kind ∉ hardware) (judged : kind.judged = true)
    (unreported : (round.before.monitor.phase kind).flagged = false) :
    (round.before.monitor.faults.get kind).suspectedSince? = begun? kind earlier := by
  induction earlier generalizing round with
  | nil =>
    cases h with
    | first new =>
      rw [new]
      exact congrArg Tracker.suspectedSince? (Table.get_const _ _)
  | cons last rest ih =>
    cases h with
    | next past same =>
      obtain ⟨check, found⟩ := last.exists_check judged
      rw [same] at unreported ⊢
      rw [Round.suspectedSince?_after (past.detects ▸ software) found unreported, begun?_cons]
      cases flagged : (last.before.monitor.phase kind).flagged with
      | true => simp [Round.trips, flagged]
      | false => rw [ih past flagged]

/-- A fault that is judged by the measurements is reported exactly if it is over its limit, has been
so without a break since an earlier round, and the first of these rounds is as long ago as the fault
has to last. A fault that the front-end detects is reported exactly if the front-end does. -/
theorem reported_iff (h : Rounds hardware (round :: earlier)) (kind : FaultKind) :
    (kind ∉ hardware → (round.check? kind).isSome = true →
      (round.before.monitor.phase kind).flagged = false →
      ((round.after.monitor.phase kind).flagged = true ↔
        ∃ between first, series kind (round :: earlier) = round :: (between ++ [first]) ∧
          kind.delay round.before.config ≤ round.now - first.now)) ∧
    (kind ∈ hardware → round.before.monitor.phase kind = .clear →
      ((round.after.monitor.phase kind).flagged = true ↔ kind ∈ round.before.report.faults)) := by
  have detects := h.detects
  constructor
  · intro software found unreported
    obtain ⟨check, found⟩ := Option.isSome_iff_exists.mp found
    have judged : kind.judged = true :=
      (kind.isSome_check? _ _ _).symm.trans (Option.isSome_of_eq_some found)
    rw [Round.reported_iff_suspected (detects ▸ software) found unreported,
      h.suspectedSince?_eq_begun? software judged unreported, exists_begun?_iff, series, series,
      List.takeWhile_cons]
    cases round.trips kind <;> simp
  · exact fun detected clear => Round.reported_iff_detected (detects ▸ detected) clear

end Rounds

def Bench.overcharged : Round (Bench 1) 1 where
  before := ((Controller.new
    { Bench.uniform 1 3.6 with current := 20000, report := { faults := {.cellUndervoltage} } }
    (.ofChemistry .nmc 10.0)).refresh 0).2
  now := 0

theorem Rounds.reported_iff_overcharged :
    let second := Bench.overcharged.next 200
    let third := second.next 400
    (third.after.monitor.phase .chargeOvercurrent).flagged = true ∧
      (Bench.overcharged.after.monitor.phase .cellUndervoltage).flagged = true := by
  intro second third
  have run : Rounds Bench.defaultHardware [Bench.overcharged] :=
    .first rfl (by decide +kernel)
  have longer : Rounds Bench.defaultHardware [third, second, Bench.overcharged] :=
    .next (.next run (Round.monitor_next _ _) (by decide +kernel)) (Round.monitor_next _ _)
      (by decide +kernel)
  have lasting : series .chargeOvercurrent [third, second, Bench.overcharged] =
      third :: ([second] ++ [Bench.overcharged]) := by
    have trips : Round.trips .chargeOvercurrent third = true ∧
        Round.trips .chargeOvercurrent second = true ∧
        Round.trips .chargeOvercurrent Bench.overcharged = true := by decide +kernel
    simp [series, trips]
  constructor
  · exact ((longer.reported_iff .chargeOvercurrent).1 (by decide +kernel) (by decide +kernel)
      (by decide +kernel)).mpr ⟨_, _, lasting, by decide +kernel⟩
  · exact ((run.reported_iff .cellUndervoltage).2 (by decide +kernel) (by decide +kernel)).mpr
      (by decide +kernel)

end PackGuard
