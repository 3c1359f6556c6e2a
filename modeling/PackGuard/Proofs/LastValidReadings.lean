import PackGuard.FrontEnd.Bench
import PackGuard.Proofs.Gauge

/-!
Refreshes in a row, each with four readings of which any may fail. Every group of values is the one
of its last reading that succeeded, however long ago that was, and the front-end counts as
unresponsive exactly while the last five refreshes all had a failure.
-/

namespace PackGuard

variable {n : Nat}

namespace Entry

def temperatures? (e : Entry n) : Option TemperatureReading :=
  match e with
  | ⟨.readTemperatures, answer?, _⟩ => answer?
  | _ => none

def report? (e : Entry n) : Option Report :=
  match e with
  | ⟨.readReport, answer?, _⟩ => answer?
  | _ => none

end Entry

def amperes (milliamperes : Int) : Float32 := Float32.ofInt milliamperes / 1000.0

structure Readings (n : Nat) where
  cells : Option (CellReading n)
  current : Option Int
  temperatures : Option TemperatureReading
  report : Option Report

namespace Readings

def among (entries : List (Entry n)) : Readings n where
  cells := entries.findSome? Entry.cells?
  current := entries.findSome? Entry.current?
  temperatures := entries.findSome? Entry.temperatures?
  report := entries.findSome? Entry.report?

def update (readings : Readings n) (config : Config) (now : Nat) (status : Status n) : Status n :=
  let status := readings.cells.elim status (status.withCells config)
  let status := readings.current.elim status (status.withCurrent config · now)
  readings.temperatures.elim status status.withTemperatures

theorem update_eq (readings : Readings n) (config : Config) (now : Nat) (status : Status n) :
    readings.update config now status =
      { status with
        cells := readings.cells.getD status.cells
        current := (readings.current.map amperes).getD status.current
        temperatures := readings.temperatures.getD status.temperatures
        full := (readings.cells.elim status (status.withCells config)).full
        empty := (readings.cells.elim status (status.withCells config)).empty
        lastLoad := (readings.current.elim status (status.withCurrent config · now)).lastLoad } := by
  obtain ⟨cells, current, temperatures, report⟩ := readings
  have kept (reading : CellReading n) : status.withCells config reading =
      { status with
        cells := reading
        full := (status.withCells config reading).full
        empty := (status.withCells config reading).empty } := by
    unfold Status.withCells
    dsimp only
    split <;> rfl
  cases cells with
  | none => cases current <;> cases temperatures <;> rfl
  | some reading =>
    simp only [update, Option.elim_some]
    rw [kept]
    cases current <;> cases temperatures <;> rfl

end Readings

namespace Controller

variable {σ ε : Type} [FrontEnd σ ε n]

theorem attempt_logged (request : Request)
    (take : request.Answer n → Controller σ n → Controller σ n)
    (taken : ∀ answer (d : Controller σ n), Logged d [] (take answer d)) (c : Controller σ n) :
    ∃ answer? s d, Logged c [⟨request, answer?, c.moment⟩] d ∧
      c.attempt (command request >>= fun answer => modify (take answer)) = (answer?.isSome, d) ∧
      answer?.elim id take (c.record request answer? s) = d := by
  obtain ⟨answer?, s, logged, ran⟩ := attempt_taking request take c
  refine ⟨answer?, s, _, ?_, ran, rfl⟩
  cases answer? with
  | none => exact logged
  | some answer => exact logged.trans (taken answer _)

theorem refresh_readings (now : Nat) (c : Controller σ n) :
    ∃ cells? current? temperatures? report? m₂ m₃ m₄, ∃ d : Controller σ n,
      Logged c [⟨.readReport, report?, m₄⟩, ⟨.readTemperatures, temperatures?, m₃⟩,
        ⟨.readCurrent, current?, m₂⟩, ⟨.readCells, cells?, c.moment⟩] d ∧
      d.status = Readings.update ⟨cells?, current?, temperatures?, report?⟩ c.config now c.status ∧
      d.report = report?.getD c.report ∧ d.failedCycles = c.failedCycles ∧
      c.refresh now = (cells?.isSome && current?.isSome && temperatures?.isSome && report?.isSome,
        d.noteCycle
          (cells?.isSome && current?.isSome && temperatures?.isSome && report?.isSome)) := by
  obtain ⟨cells?, s₁, c₁, logged₁, ran₁, taken₁⟩ := attempt_logged .readCells
    (fun reading d => { d with status := d.status.withCells d.config reading })
    (fun _ _ => ⟨rfl, .refl _, rfl⟩) c
  obtain ⟨current?, s₂, c₂, logged₂, ran₂, taken₂⟩ := attempt_logged .readCurrent
    (fun current d => { d with status := d.status.withCurrent d.config current now })
    (fun _ _ => ⟨rfl, .refl _, rfl⟩) c₁
  obtain ⟨temperatures?, s₃, c₃, logged₃, ran₃, taken₃⟩ := attempt_logged .readTemperatures
    (fun reading d => { d with status := d.status.withTemperatures reading })
    (fun _ _ => ⟨rfl, .refl _, rfl⟩) c₂
  obtain ⟨report?, s₄, c₄, logged₄, ran₄, taken₄⟩ := attempt_logged .readReport
    (fun report d => { d with report }) (fun _ _ => ⟨rfl, .refl _, rfl⟩) c₃
  have update : c₄.status = Readings.update ⟨cells?, current?, temperatures?, report?⟩ c.config now
        c.status ∧ c₄.report = report?.getD c.report ∧ c₄.failedCycles = c.failedCycles := by
    subst taken₄ taken₃ taken₂ taken₁
    cases cells? <;> cases current? <;> cases temperatures? <;> cases report? <;>
      exact ⟨rfl, rfl, rfl⟩
  refine ⟨cells?, current?, temperatures?, report?, _, _, _, c₄,
    logged₁.trans (logged₂.trans (logged₃.trans logged₄)), update.1, update.2.1, update.2.2, ?_⟩
  simp only [refresh]
  rw [show c.attempt readCells = _ from ran₁]
  dsimp only
  rw [show c₁.attempt (readCurrent now) = _ from ran₂]
  dsimp only
  rw [show c₂.attempt readTemperatures = _ from ran₃]
  dsimp only
  rw [show c₃.attempt readReport = _ from ran₄]

end Controller

structure Refresh (σ : Type) (n : Nat) where
  before : Controller σ n
  now : Nat

namespace Refresh

open Controller

variable {σ ε : Type} [FrontEnd σ ε n] (r : Refresh σ n)

def after : Controller σ n := (r.before.refresh r.now).2

def complete : Bool := (r.before.refresh r.now).1

def entries : List (Entry n) := since r.before r.after

def readings : Readings n := .among r.entries

theorem outcome :
    r.entries.map Entry.request = [.readReport, .readTemperatures, .readCurrent, .readCells] ∧
      (r.complete = true ↔ ∀ e ∈ r.entries, e.succeeded = true) ∧
      ∃ d : Controller σ n,
        d.status = r.readings.update r.before.config r.now r.before.status ∧
        d.report = r.readings.report.getD r.before.report ∧
        d.failedCycles = r.before.failedCycles ∧
        r.after = d.noteCycle r.complete := by
  obtain ⟨cells?, current?, temperatures?, report?, m₂, m₃, m₄, d, logged, status, report, failed,
    ran⟩ := refresh_readings r.now r.before
  have made : r.entries = [⟨.readReport, report?, m₄⟩, ⟨.readTemperatures, temperatures?, m₃⟩,
      ⟨.readCurrent, current?, m₂⟩, ⟨.readCells, cells?, r.before.moment⟩] := by
    rw [entries, after, ran]
    exact logged.since_eq
  have read : r.readings = ⟨cells?, current?, temperatures?, report?⟩ := by
    rw [readings, made]
    cases cells? <;> cases current? <;> cases temperatures? <;> cases report? <;> rfl
  have complete : r.complete = (cells?.isSome && current?.isSome && temperatures?.isSome &&
      report?.isSome) := by rw [Refresh.complete, ran]
  refine ⟨by rw [made]; rfl, ?_, d, ?_, ?_, failed, ?_⟩
  · rw [complete, made]
    simp [Entry.succeeded, and_comm, and_assoc, and_left_comm]
  · rw [status, read]
  · rw [report, read]
  · rw [after, complete, ran]

theorem complete_eq_false_iff : r.complete = false ↔ ∃ e ∈ r.entries, e.succeeded = false := by
  rw [← Bool.not_eq_true, r.outcome.2.1]
  simp only [Classical.not_forall, exists_prop, Bool.not_eq_true]

theorem flags_after :
    r.after.status.full =
        (r.readings.cells.elim r.before.status (r.before.status.withCells r.before.config)).full ∧
      r.after.status.empty =
        (r.readings.cells.elim r.before.status (r.before.status.withCells r.before.config)).empty ∧
      r.after.status.lastLoad = (r.readings.current.elim r.before.status
        (r.before.status.withCurrent r.before.config · r.now)).lastLoad := by
  obtain ⟨-, -, d, status, -, -, noted⟩ := r.outcome
  rw [Readings.update_eq] at status
  rw [noted, noteCycle]
  dsimp only
  rw [status]
  exact ⟨rfl, rfl, rfl⟩

def latest {α : Type} (get : Readings n → Option α) (initial : α) (made : List (Refresh σ n)) : α :=
  (made.findSome? fun r => get r.readings).getD initial

theorem latest_cons {α : Type} (get : Readings n → Option α) (initial : α)
    (earlier : List (Refresh σ n)) :
    latest get initial (r :: earlier) = (get r.readings).getD (latest get initial earlier) := by
  rw [latest, List.findSome?_cons]
  cases get r.readings <;> rfl

end Refresh

theorem le_length_takeWhile_iff {α : Type} {p : α → Bool} {k : Nat} (l : List α) :
    k ≤ (l.takeWhile p).length ↔ k ≤ l.length ∧ ∀ a ∈ l.take k, p a = true := by
  induction l generalizing k with
  | nil => simp
  | cons a rest ih =>
    cases k with
    | zero => simp
    | succ k =>
      cases first : p a <;> simp [first, ih]

open Controller Refresh

variable {σ ε : Type} [FrontEnd σ ε n] {made : List (Refresh σ n)} {c : Controller σ n}

/-- Refreshes of a new controller, the latest first. The front-end may change in between. -/
inductive Refreshes : List (Refresh σ n) → Controller σ n → Prop
  | new (s : σ) (config : Config) : Refreshes [] (.new s config)
  | next {earlier : List (Refresh σ n)} {c : Controller σ n} (h : Refreshes earlier c) (s : σ)
      (now : Nat) : Refreshes (⟨{ c with frontEnd := s }, now⟩ :: earlier)
        (Refresh.mk { c with frontEnd := s } now).after

namespace Refreshes

theorem values (h : Refreshes made c) :
    c.status.cells = latest Readings.cells (.initial n) made ∧
      c.status.current = latest (·.current.map amperes) 0.0 made ∧
      c.status.temperatures = latest Readings.temperatures .initial made ∧
      c.report = latest Readings.report {} made := by
  induction h with
  | new s config => exact ⟨rfl, rfl, rfl, rfl⟩
  | @next earlier c h s now ih =>
    obtain ⟨cells, current, temperatures, report⟩ := ih
    obtain ⟨-, -, d, status, reported, -, noted⟩ :=
      (Refresh.mk { c with frontEnd := s } now).outcome
    rw [Readings.update_eq] at status
    rw [noted, noteCycle]
    dsimp only at status reported ⊢
    rw [status, reported, latest_cons, latest_cons, latest_cons, latest_cons, ← cells, ← current,
      ← temperatures, ← report]
    exact ⟨rfl, rfl, rfl, rfl⟩

theorem failures (h : Refreshes made c) :
    c.failedCycles = min (made.takeWhile fun r => !r.complete).length greatestCount ∧
      (c.status.unresponsive = true ↔
        failureLimit ≤ (made.takeWhile fun r => !r.complete).length) := by
  induction h with
  | new s config => exact ⟨rfl, by simp [Controller.new, failureLimit]⟩
  | @next earlier c h s now ih =>
    obtain ⟨count, flag⟩ := ih
    generalize built : Refresh.mk { c with frontEnd := s } now = r
    have started : r.before.failedCycles = c.failedCycles ∧ r.before.status = c.status := by
      subst built
      exact ⟨rfl, rfl⟩
    obtain ⟨-, -, d, status, -, failed, noted⟩ := r.outcome
    have unresponsive : d.status.unresponsive = c.status.unresponsive := by
      rw [status, Readings.update_eq, started.2]
    have counted := (failed.trans started.1).trans count
    rw [noted, noteCycle, List.takeWhile_cons]
    cases complete : r.complete with
    | true => simp [failureLimit]
    | false =>
      have limits : failureLimit = 5 ∧ greatestCount = 255 := ⟨rfl, rfl⟩
      simp [counted, unresponsive, flag]
      omega

/-- What any number of refreshes has read, however each of their readings went. -/
theorem last_valid_readings (h : Refreshes made c) :
    (c.status.cells = latest Readings.cells (.initial n) made ∧
      c.status.current = latest (·.current.map amperes) 0.0 made ∧
      c.status.temperatures = latest Readings.temperatures .initial made ∧
      c.report = latest Readings.report {} made) ∧
    (c.status.unresponsive = true ↔ failureLimit ≤ made.length ∧
      ∀ r ∈ made.take failureLimit, ∃ e ∈ r.entries, e.succeeded = false) ∧
    ∀ r ∈ made,
      r.entries.map Entry.request = [.readReport, .readTemperatures, .readCurrent, .readCells] ∧
      (r.complete = true ↔ ∀ e ∈ r.entries, e.succeeded = true) ∧
      r.after.status.full =
        (r.readings.cells.elim r.before.status (r.before.status.withCells r.before.config)).full ∧
      r.after.status.empty =
        (r.readings.cells.elim r.before.status (r.before.status.withCells r.before.config)).empty ∧
      r.after.status.lastLoad = (r.readings.current.elim r.before.status
        (r.before.status.withCurrent r.before.config · r.now)).lastLoad := by
  refine ⟨h.values, ?_, fun r _ => ⟨r.outcome.1, r.outcome.2.1, r.flags_after⟩⟩
  rw [h.failures.2, le_length_takeWhile_iff]
  simp only [Bool.not_eq_true', complete_eq_false_iff]

end Refreshes

namespace Bench

def unsensed : Bench 1 := { uniform 1 3.6 with refusedKinds := [.readTemperatures] }

end Bench

theorem Refreshes.last_valid_readings_unsensed :
    ∃ (made : List (Refresh (Bench 1) 1)) (c : Controller (Bench 1) 1), Refreshes made c ∧
      made.length = 6 ∧ c.status.unresponsive = true ∧
      c.status.temperatures = .ofSensors [25.0, 25.0] 30.0 := by
  have first := (Refreshes.new (Bench.uniform 1 3.6) (.ofChemistry .nmc 10.0)).next
    (Bench.uniform 1 3.6) 0
  have h := ((((first.next Bench.unsensed 1000).next Bench.unsensed 2000).next
    Bench.unsensed 3000).next Bench.unsensed 4000).next Bench.unsensed 5000
  obtain ⟨⟨-, -, temperatures, -⟩, unresponsive, -⟩ := h.last_valid_readings
  exact ⟨_, _, h, rfl, unresponsive.mpr ⟨by decide, by decide +kernel⟩, temperatures.trans rfl⟩

end PackGuard
