import PackGuard.Proofs.FaultClearance
import PackGuard.Proofs.Sampling

/-!
Control cycles in a row, of which any may fail to read. A fault that is judged by the measurements
is reported when its limit was exceeded in two cycles, and a temperature fault is dropped when two
cycles found it recovered. Either may judge one and the same reading twice: what these cycles have
read decides how many readings stand behind the decision.
-/

namespace PackGuard

namespace Tracker

variable {pace : Pace} {seen : Sighting} {now : Nat} {t : Tracker}

theorem advance_of_suspected (after : (t.advance pace seen now).1.phase = .suspected) :
    (t.phase = .clear ∨ t.phase = .suspected) ∧ seen.present = true := by
  revert after
  unfold advance
  cases phase : t.phase with
  | clear | suspected => dsimp only; repeat' split <;> simp_all [confirm, drop]
  | confirmed => dsimp only; split <;> simp [phase]
  | clearing => dsimp only; split <;> simp [confirm, drop]

theorem advance_of_reported (waits : seen.debounced = false) (before : t.phase.flagged = false)
    (after : (t.advance pace seen now).1.phase.flagged = true) :
    t.phase = .suspected ∧ seen.present = true := by
  revert before after
  unfold advance
  cases phase : t.phase with
  | confirmed | clearing => simp [Phase.flagged]
  | clear => dsimp only; repeat' split <;> simp_all [Phase.flagged, suspect]
  | suspected => dsimp only; repeat' split <;> simp_all [Phase.flagged, drop]

theorem advance_of_absent (before : t.phase = .clear) (absent : seen.present = false) :
    t.advance pace seen now = (t, false) := by
  simp [advance, before, absent]

end Tracker

namespace Round

variable {σ ε : Type} {n : Nat} [FrontEnd σ ε n] {round : Round σ n} {kind : FaultKind}
  {check : Check}

def sighting (kind : FaultKind) (phase : Phase) (check : Check) : Sighting :=
  ⟨if phase.flagged then !check.recovered else check.tripped, false,
    kind.retriesBlindly || check.recovered⟩

theorem moves_by_check (software : kind ∉ round.hardware) (found : round.check? kind = some check) :
    Controller.Tended (kind.pace round.before.config)
      (sighting kind (round.before.monitor.phase kind) check) round.now none round.entries
      (round.before.monitor.faults.get kind) (round.after.monitor.faults.get kind) := by
  have judged : kind.check? round.before.config round.before.status round.before.report =
      some check := found
  have sees : kind.sighting? round.hardware round.before.config round.before.status
      round.before.report (round.before.monitor.phase kind) =
        some (sighting kind (round.before.monitor.phase kind) check) := by
    rw [FaultKind.sighting?, if_neg software, judged]
    rfl
  have tended := round.tended_fault sees
  rwa [Controller.clearRequest, if_neg software] at tended

theorem ne_clearing (software : kind ∉ round.hardware) (found : round.check? kind = some check)
    (before : round.before.monitor.phase kind ≠ .confirmed) :
    round.after.monitor.phase kind ≠ .clearing :=
  fun clearing => before ((moves_by_check software found).of_clearing clearing).1

theorem advances_by_check (software : kind ∉ round.hardware)
    (found : round.check? kind = some check) (short : round.after.monitor.phase kind ≠ .clearing) :
    round.after.monitor.faults.get kind =
      ((round.before.monitor.faults.get kind).advance (kind.pace round.before.config)
        (sighting kind (round.before.monitor.phase kind) check) round.now).1 :=
  (moves_by_check software found).eq_advance short

theorem of_suspected (software : kind ∉ round.hardware) (found : round.check? kind = some check)
    (after : round.after.monitor.phase kind = .suspected) :
    (round.before.monitor.phase kind = .clear ∨ round.before.monitor.phase kind = .suspected) ∧
      check.tripped = true := by
  have advanced := advances_by_check software found (by rw [after]; simp)
  rw [Monitor.phase, advanced] at after
  obtain ⟨before, present⟩ := Tracker.advance_of_suspected after
  refine ⟨before, ?_⟩
  have unreported : (round.before.monitor.phase kind).flagged = false := by
    rcases before with before | before <;> rw [Monitor.phase, before] <;> rfl
  rwa [sighting, unreported] at present

theorem of_reported (software : kind ∉ round.hardware) (found : round.check? kind = some check)
    (before : (round.before.monitor.phase kind).flagged = false)
    (after : (round.after.monitor.phase kind).flagged = true) :
    round.before.monitor.phase kind = .suspected ∧ check.tripped = true := by
  have unconfirmed : round.before.monitor.phase kind ≠ .confirmed := by
    intro confirmed
    rw [confirmed] at before
    cases before
  have advanced := advances_by_check software found (ne_clearing software found unconfirmed)
  rw [Monitor.phase, advanced] at after
  obtain ⟨suspected, present⟩ := Tracker.advance_of_reported rfl before after
  rw [sighting, before] at present
  exact ⟨suspected, present⟩

theorem of_untripped (software : kind ∉ round.hardware) (found : round.check? kind = some check)
    (before : round.before.monitor.phase kind = .clear) (untripped : check.tripped = false) :
    round.after.monitor.phase kind = .clear := by
  have short := ne_clearing software found (by rw [before]; simp)
  have absent : (sighting kind (round.before.monitor.phase kind) check).present = false := by
    rw [sighting, before]
    exact untripped
  rw [Monitor.phase, advances_by_check software found short,
    Tracker.advance_of_absent before absent]
  exact before

end Round

structure Cycle (σ : Type) (n : Nat) where
  before : Controller σ n
  now : Nat

namespace Cycle

variable {σ ε : Type} {n : Nat} [FrontEnd σ ε n]

def after (cycle : Cycle σ n) : Controller σ n := cycle.before.tick cycle.now

def round (cycle : Cycle σ n) : Round σ n := ⟨(cycle.before.refresh cycle.now).2, cycle.now⟩

def resume (cycle : Cycle σ n) (s : σ) (now : Nat) : Cycle σ n :=
  ⟨{ cycle.after with frontEnd := s }, now⟩

def samples (kind : FaultKind) (cycle : Cycle σ n) : List Check :=
  (cycle.before.since cycle.after).filterMap (Entry.sample? cycle.before.config kind)

variable {cycle : Cycle σ n} {kind : FaultKind} {q : Quantity}

theorem monitor_before : cycle.round.before.monitor = cycle.before.monitor :=
  Controller.monitor_refresh cycle.now cycle.before

theorem monitor_after : cycle.round.after.monitor = cycle.after.monitor :=
  (Controller.monitor_tick cycle.now cycle.before).symm

theorem sampled (cycle : Cycle σ n) (measured : kind.quantity? = some q) :
    cycle.after.config = cycle.before.config ∧ (cycle.samples kind).length ≤ 1 ∧
      cycle.round.check? kind = (cycle.samples kind).head?.or
        (kind.check? cycle.before.config cycle.before.status cycle.before.report) ∧
      kind.check? cycle.after.config cycle.after.status cycle.after.report =
        cycle.round.check? kind := by
  obtain ⟨samples, few, read, whole⟩ := Controller.sampled_tick measured cycle.now cycle.before
  have taken : cycle.samples kind = samples := whole.since_eq
  rw [taken]
  exact ⟨whole.config, few, read.judged, whole.judged.trans read.judged.symm⟩

end Cycle

section Cycles

variable {σ ε : Type} {n : Nat} [FrontEnd σ ε n]

/-- Cycles of a new control, the latest first. Between two cycles the front-end may change. -/
inductive Cycles : List (Cycle σ n) → Prop
  | first {cycle : Cycle σ n} (s : σ) (config : Config) (new : cycle.before = .new s config) :
      Cycles [cycle]
  | next {cycle last : Cycle σ n} {earlier : List (Cycle σ n)} (past : Cycles (last :: earlier))
      (s : σ) (continues : cycle.before = { last.after with frontEnd := s }) :
      Cycles (cycle :: last :: earlier)

namespace Cycles

/-- A cycle with all before it that come after the latest which ended with the fault clear. -/
def window (kind : FaultKind) : List (Cycle σ n) → List (Cycle σ n)
  | [] => []
  | cycle :: earlier =>
    cycle :: earlier.takeWhile fun c => c.after.monitor.phase kind != .clear

def samples (kind : FaultKind) (cycles : List (Cycle σ n)) : List Check :=
  cycles.flatMap (Cycle.samples kind)

def released (kind : FaultKind) (cycles : List (Cycle σ n)) : Nat :=
  ((samples kind cycles).takeWhile Check.recovered).length

variable {cycle : Cycle σ n} {earlier : List (Cycle σ n)} {kind : FaultKind} {q : Quantity}

theorem window_next (last : Cycle σ n) (kind : FaultKind) :
    window kind (cycle :: last :: earlier) =
      if last.after.monitor.phase kind = .clear then [cycle]
      else cycle :: window kind (last :: earlier) := by
  simp only [window, List.takeWhile_cons, bne_iff_ne, ne_eq]
  split <;> simp_all

theorem kept_of_continues {c d : Controller σ n} {s : σ} (h : c = { d with frontEnd := s }) :
    c.monitor = d.monitor ∧ c.config = d.config ∧ c.status = d.status ∧ c.report = d.report := by
  rw [h]
  exact ⟨rfl, rfl, rfl, rfl⟩

theorem last {last : Cycle σ n} (h : Cycles (cycle :: last :: earlier)) :
    Cycles (last :: earlier) ∧ cycle.before.monitor = last.after.monitor := by
  cases h with
  | next past s continues => exact ⟨past, (kept_of_continues continues).1⟩

theorem phase_new (s : σ) (config : Config) (kind : FaultKind) :
    (Controller.new s config : Controller σ n).monitor.phase kind = .clear :=
  congrArg Tracker.phase (Table.get_const _ _)

theorem checks (h : kind.quantity? = some q) (cycle : Cycle σ n) :
    ∃ check, cycle.round.check? kind = some check :=
  kind.exists_check_of_quantity h _ _ _

theorem tripped_of_suspected (h : Cycles (cycle :: earlier)) (measured : kind.quantity? = some q)
    (software : ∀ c ∈ cycle :: earlier, kind ∉ c.round.hardware)
    (after : cycle.after.monitor.phase kind = .suspected) :
    ∀ c ∈ window kind (cycle :: earlier),
      ∃ check, c.round.check? kind = some check ∧ check.tripped = true := by
  induction earlier generalizing cycle with
  | nil =>
    obtain ⟨check, found⟩ := checks measured cycle
    rw [← Cycle.monitor_after] at after
    have tripped := (Round.of_suspected (software _ List.mem_cons_self) found after).2
    intro c member
    rw [window, List.takeWhile_nil, List.mem_singleton] at member
    exact member ▸ ⟨check, found, tripped⟩
  | cons last rest ih =>
    obtain ⟨check, found⟩ := checks measured cycle
    obtain ⟨past, same⟩ := h.last
    rw [← Cycle.monitor_after] at after
    obtain ⟨before, tripped⟩ := Round.of_suspected (software _ List.mem_cons_self) found after
    rw [Cycle.monitor_before, same] at before
    intro c member
    rw [window_next] at member
    split at member
    · rw [List.mem_singleton] at member
      exact member ▸ ⟨check, found, tripped⟩
    · rename_i begun
      rcases List.mem_cons.mp member with rfl | member
      · exact ⟨check, found, tripped⟩
      · exact ih past (fun c among => software c (List.mem_cons_of_mem _ among))
          (before.resolve_left begun) c member

theorem tripped_of_mem_samples (measured : kind.quantity? = some q) {cycles : List (Cycle σ n)}
    (tripped : ∀ c ∈ cycles, ∃ check, c.round.check? kind = some check ∧ check.tripped = true) :
    ∀ check ∈ samples kind cycles, check.tripped = true := by
  intro check member
  obtain ⟨c, among, taken⟩ := List.mem_flatMap.mp member
  obtain ⟨judged, found, exceeded⟩ := tripped c among
  obtain ⟨-, few, latest, -⟩ := c.sampled measured
  obtain ⟨only, single⟩ := List.length_eq_one_iff.mp
    (Nat.le_antisymm few (List.length_pos_of_mem taken))
  rw [single] at taken latest
  rw [found] at latest
  cases latest
  exact List.mem_singleton.mp taken ▸ exceeded

theorem reported (h : Cycles (cycle :: earlier)) (measured : kind.quantity? = some q)
    (software : ∀ c ∈ cycle :: earlier, kind ∉ c.round.hardware)
    (before : (cycle.before.monitor.phase kind).flagged = false)
    (after : (cycle.after.monitor.phase kind).flagged = true) :
    2 ≤ (window kind (cycle :: earlier)).length ∧
      ∀ check ∈ samples kind (window kind (cycle :: earlier)), check.tripped = true := by
  obtain ⟨check, found⟩ := checks measured cycle
  rw [← Cycle.monitor_before] at before
  rw [← Cycle.monitor_after] at after
  obtain ⟨suspected, tripped⟩ :=
    Round.of_reported (software _ List.mem_cons_self) found before after
  rw [Cycle.monitor_before] at suspected
  cases h with
  | first s config new =>
    rw [new, phase_new] at suspected
    cases suspected
  | @next _ last rest past s continues =>
    have begun : last.after.monitor.phase kind = .suspected := by
      rw [← (kept_of_continues continues).1, suspected]
    have lasting := past.tripped_of_suspected measured
      (fun c among => software c (List.mem_cons_of_mem _ among)) begun
    rw [window_next, if_neg (by rw [begun]; simp)]
    refine ⟨by simp [window], tripped_of_mem_samples measured fun c member => ?_⟩
    rcases List.mem_cons.mp member with rfl | member
    · exact ⟨check, found, tripped⟩
    · exact lasting c member

theorem samples_cons (kind : FaultKind) (cycle : Cycle σ n) (earlier : List (Cycle σ n)) :
    samples kind (cycle :: earlier) = cycle.samples kind ++ samples kind earlier :=
  List.flatMap_cons

theorem check?_initial (warm : kind.quantity? = some .temperatures) (config : Config)
    (report : Report) :
    kind.check? config ({} : Status n) report = some ⟨false, true⟩ := by
  cases kind <;> cases warm <;> rfl

theorem judges_latest (h : Cycles (cycle :: earlier))
    (warm : kind.quantity? = some .temperatures) :
    cycle.round.check? kind = (samples kind (cycle :: earlier)).head?.or (some ⟨false, true⟩) := by
  induction earlier generalizing cycle with
  | nil =>
    cases h with
    | first s config new =>
      obtain ⟨-, -, judged, -⟩ := cycle.sampled warm
      have begun : kind.check? cycle.before.config cycle.before.status cycle.before.report =
          some ⟨false, true⟩ := by
        rw [new]
        exact check?_initial warm _ _
      rw [judged, begun, samples_cons, samples, List.flatMap_nil, List.append_nil]
  | cons last rest ih =>
    cases h with
    | next past s continues =>
      obtain ⟨-, -, judged, -⟩ := cycle.sampled warm
      obtain ⟨-, -, -, kept⟩ := last.sampled warm
      obtain ⟨-, config, status, report⟩ := kept_of_continues continues
      rw [judged, config, status, report, kept, ih past, samples_cons kind cycle,
        List.head?_append, Option.or_assoc]

theorem clear_of_unread (h : Cycles (cycle :: earlier)) (warm : kind.quantity? = some .temperatures)
    (software : kind ∉ cycle.round.hardware) (unread : samples kind (cycle :: earlier) = [])
    (before : cycle.before.monitor.phase kind = .clear) :
    cycle.after.monitor.phase kind = .clear := by
  have judged := h.judges_latest warm
  rw [unread] at judged
  rw [← Cycle.monitor_before] at before
  rw [← Cycle.monitor_after]
  exact Round.of_untripped software judged before rfl

theorem clear_of_unsampled (h : Cycles (cycle :: earlier))
    (warm : kind.quantity? = some .temperatures)
    (software : ∀ c ∈ cycle :: earlier, kind ∉ c.round.hardware)
    (unread : samples kind (cycle :: earlier) = []) : cycle.after.monitor.phase kind = .clear := by
  refine h.clear_of_unread warm (software _ List.mem_cons_self) unread ?_
  induction earlier generalizing cycle with
  | nil =>
    cases h with
    | first s config new => rw [new, phase_new]
  | cons last rest ih =>
    obtain ⟨past, same⟩ := h.last
    have unreadPast := (List.append_eq_nil_iff.mp ((samples_cons kind cycle _).symm.trans unread)).2
    have softwarePast : ∀ c ∈ last :: rest, kind ∉ c.round.hardware :=
      fun c among => software c (List.mem_cons_of_mem _ among)
    rw [same]
    exact past.clear_of_unread warm (softwarePast _ List.mem_cons_self) unreadPast
      (ih past softwarePast unreadPast)

theorem head?_samples (h : Cycles (cycle :: earlier)) (warm : kind.quantity? = some .temperatures)
    {check : Check} (found : cycle.round.check? kind = some check)
    (read : samples kind (cycle :: earlier) ≠ []) :
    (samples kind (cycle :: earlier)).head? = some check := by
  rw [h.judges_latest warm] at found
  cases taken : samples kind (cycle :: earlier) with
  | nil => exact absurd taken read
  | cons latest older =>
    rw [taken] at found
    exact found

theorem released_pos {cycles : List (Cycle σ n)} {check : Check}
    (latest : (samples kind cycles).head? = some check) (back : check.recovered = true) :
    1 ≤ released kind cycles := by
  obtain ⟨older, taken⟩ := List.head?_eq_some_iff.mp latest
  rw [released, taken, List.takeWhile_cons, back, if_pos rfl, List.length_cons]
  exact Nat.le_add_left 1 _

theorem released_cons {check : Check} (few : (cycle.samples kind).length ≤ 1)
    (latest : (samples kind (cycle :: earlier)).head? = some check)
    (back : check.recovered = true) :
    released kind (cycle :: earlier) = (cycle.samples kind).length + released kind earlier := by
  unfold released
  rw [samples_cons] at latest ⊢
  rcases taken : cycle.samples kind with _ | ⟨only, _ | _⟩
  · simp
  · rw [taken, List.singleton_append, List.head?_cons, Option.some.injEq] at latest
    rw [List.singleton_append, List.takeWhile_cons, latest, back, if_pos rfl, List.length_cons,
      List.length_singleton, Nat.add_comm]
  · rw [taken] at few
    simp at few

/-- A temperature fault that is dropped was found recovered in two cycles, of which the second may
have read nothing. -/
theorem dropped (h : Cycles (cycle :: earlier)) (warm : kind.quantity? = some .temperatures)
    (software : ∀ c ∈ cycle :: earlier, kind ∉ c.round.hardware)
    (before : (cycle.before.monitor.phase kind).flagged = true)
    (after : cycle.after.monitor.phase kind = .clear) :
    1 ≤ released kind earlier ∧
      released kind (cycle :: earlier) = (cycle.samples kind).length + released kind earlier := by
  rw [← Cycle.monitor_before] at before
  have gone : (cycle.round.after.monitor.phase kind).flagged = false := by
    rw [Cycle.monitor_after, after]
    rfl
  obtain ⟨clearing, -, recovered⟩ := Round.dropped_fault before gone
  obtain ⟨check, found, back⟩ := recovered (software _ List.mem_cons_self)
  rw [Cycle.monitor_before] at clearing
  cases earlier with
  | nil =>
    cases h with
    | first s config new =>
      rw [new, phase_new] at clearing
      cases clearing
  | cons last rest =>
    obtain ⟨past, same⟩ := h.last
    have softwarePast : ∀ c ∈ last :: rest, kind ∉ c.round.hardware :=
      fun c among => software c (List.mem_cons_of_mem _ among)
    rw [same] at clearing
    -- The cycle before has begun to clear the fault, so a temperature was read, and recovered.
    have read : samples kind (last :: rest) ≠ [] := by
      intro unread
      rw [past.clear_of_unsampled warm softwarePast unread] at clearing
      cases clearing
    have waits : kind.retriesBlindly = false := by
      cases kind <;> first | rfl | cases warm
    rw [← Cycle.monitor_after] at clearing
    obtain ⟨-, -, waited⟩ := Round.cleared_fault (.inr (FaultKind.judged_of_waits waits)) clearing
    obtain ⟨checkPast, foundPast, backPast⟩ := waited waits
    refine ⟨released_pos (past.head?_samples warm foundPast read) backPast, ?_⟩
    obtain ⟨-, few, -, -⟩ := cycle.sampled warm
    refine released_cons few (h.head?_samples warm found fun unread => read ?_) back
    exact (List.append_eq_nil_iff.mp ((samples_cons kind cycle _).symm.trans unread)).2

/-- How many readings stand behind a decision. A reported fault was over its limit in all readings
since it was clear, of which there are two if two of at least two cycles could read. The latest
readings before a dropped temperature fault satisfied the release, and these are two if the last
cycle could read, or if there were two already. -/
theorem decided_by_readings (h : Cycles (cycle :: earlier)) (measured : kind.quantity? = some q)
    (software : ∀ c ∈ cycle :: earlier, kind ∉ c.round.hardware) :
    ((cycle.before.monitor.phase kind).flagged = false →
      (cycle.after.monitor.phase kind).flagged = true →
      2 ≤ (window kind (cycle :: earlier)).length ∧
      (2 ≤ (samples kind (window kind (cycle :: earlier))).countP Check.tripped ↔
        2 ≤ (samples kind (window kind (cycle :: earlier))).length)) ∧
    (q = .temperatures → (cycle.before.monitor.phase kind).flagged = true →
      cycle.after.monitor.phase kind = .clear →
      1 ≤ released kind earlier ∧
      (2 ≤ released kind (cycle :: earlier) ↔
        cycle.samples kind ≠ [] ∨ 2 ≤ released kind earlier)) := by
  refine ⟨fun before after => ?_, fun warm before after => ?_⟩
  · obtain ⟨twice, tripped⟩ := h.reported measured software before after
    rw [List.countP_eq_length.mpr tripped]
    exact ⟨twice, Iff.rfl⟩
  · subst warm
    obtain ⟨once, count⟩ := h.dropped measured software before after
    rw [count, ← List.length_pos_iff]
    omega

end Cycles

end Cycles

namespace Bench

def sensing (temperature : Float32) (mute : Bool) : Bench 1 :=
  { uniform 1 3.6 with
    sensors := [temperature], refusedKinds := if mute then [.readTemperatures] else [] }

def hot : Cycle (Bench 1) 1 := ⟨.new (sensing 70.0 false) (.ofChemistry .nmc 10.0), 0⟩

def stillHot : Cycle (Bench 1) 1 := hot.resume (sensing 70.0 true) 1000

def cool : Cycle (Bench 1) 1 := stillHot.resume (sensing 25.0 false) 2000

def stillCool : Cycle (Bench 1) 1 := cool.resume (sensing 25.0 true) 3000

theorem cycles_hot : Cycles [stillHot, hot] := .next (.first _ _ rfl) _ rfl

theorem cycles_cool : Cycles [stillCool, cool, stillHot, hot] := .next (.next cycles_hot _ rfl) _ rfl

end Bench

section Mute

open Bench

theorem Cycles.decided_by_readings_mute :
    (2 ≤ (window .dischargeOvertemperature [stillHot, hot]).length ∧
      ¬2 ≤ (samples .dischargeOvertemperature
        (window .dischargeOvertemperature [stillHot, hot])).countP Check.tripped) ∧
    1 ≤ released .dischargeOvertemperature [cool, stillHot, hot] ∧
      ¬2 ≤ released .dischargeOvertemperature [stillCool, cool, stillHot, hot] := by
  obtain ⟨twice, readings⟩ := (@decided_by_readings _ _ _ _ _ _ .dischargeOvertemperature _
    cycles_hot rfl (by decide +kernel)).1 (by decide +kernel) (by decide +kernel)
  obtain ⟨once, again⟩ := (@decided_by_readings _ _ _ _ _ _ .dischargeOvertemperature _
    cycles_cool rfl (by decide +kernel)).2 rfl (by decide +kernel) (by decide +kernel)
  rw [readings, again]
  exact ⟨⟨twice, by decide +kernel⟩, once, by decide +kernel⟩

theorem Cycles.not_always_two_readings :
    ¬∀ (cycle : Cycle (Bench 1) 1) (earlier : List (Cycle (Bench 1) 1)) (kind : FaultKind),
      Cycles (cycle :: earlier) → kind.quantity?.isSome = true →
      (∀ c ∈ cycle :: earlier, kind ∉ c.round.hardware) →
      (cycle.before.monitor.phase kind).flagged = false →
      (cycle.after.monitor.phase kind).flagged = true →
      2 ≤ (samples kind (window kind (cycle :: earlier))).countP Check.tripped := by
  intro always
  have twice := always stillHot [hot] .dischargeOvertemperature cycles_hot rfl (by decide +kernel)
    (by decide +kernel) (by decide +kernel)
  exact absurd twice (by decide +kernel)

end Mute

end PackGuard
