import PackGuard.Proofs.Course
import PackGuard.Proofs.Sampling

/-!
A gauge is a value of the status that the readings of cells and current change and nothing else
does. So along a course it is what the readings in the journal make of it, in the end and at every
request on the way.
-/

namespace PackGuard

namespace Entry

variable {n : Nat}

def cells? (e : Entry n) : Option (CellReading n) :=
  match e with
  | ⟨.readCells, answer?, _⟩ => answer?
  | _ => none

def current? (e : Entry n) : Option Int :=
  match e with
  | ⟨.readCurrent, answer?, _⟩ => answer?
  | _ => none

end Entry

/-- A value of the status that a reading of the cells and one of the current change, at a time, and
nothing else does. A clock that runs backwards may change it, but not from a value that is
timely. -/
structure Gauge (n : Nat) (config : Config) (κ : Type) where
  value : Status n → κ
  onCells : CellReading n → κ → κ
  onCurrent : (now : Nat) → (milliamperes : Int) → κ → κ
  timely : (now : Nat) → κ → Prop
  kept : ∀ status other : Status n, other.cells = status.cells → other.full = status.full →
    other.empty = status.empty → other.lastLoad = status.lastLoad → value other = value status
  withCells : ∀ status reading,
    value (status.withCells config reading) = onCells reading (value status)
  withCurrent : ∀ status milliamperes now,
    value (status.withCurrent config milliamperes now) = onCurrent now milliamperes (value status)
  clocked : ∀ status now, timely now (value status) →
    value { status with lastLoad := min status.lastLoad now } = value status
  timely_onCells : ∀ {now v} reading, timely now v → timely now (onCells reading v)
  timely_onCurrent : ∀ {now v} milliamperes,
    timely now v → timely now (onCurrent now milliamperes v)

namespace Request

def gauges : Request → Bool
  | readCells | readCurrent => true
  | _ => false

end Request

namespace Gauge

variable {n : Nat} {config : Config} {κ : Type} (g : Gauge n config κ)

def take (s : Stamped n) (v : κ) : κ :=
  match s.entry.cells?, s.entry.current? with
  | some reading, _ => g.onCells reading v
  | none, some milliamperes => g.onCurrent s.time milliamperes v
  | none, none => v

def after (made : List (Stamped n)) (v : κ) : κ := made.foldr g.take v

def Witnessed (v : κ) : List (Stamped n) → Prop
  | [] => True
  | s :: earlier => g.value s.entry.moment.status = g.after earlier v ∧ Witnessed v earlier

variable {g} {v : κ} {now : Nat}

theorem take_of_silent {s : Stamped n} (silent : s.entry.request.gauges = false) :
    g.take s v = v := by
  obtain ⟨time, request, answer?, moment⟩ := s
  cases request <;> first | rfl | cases silent

theorem take_failed (request : Request) (moment : Moment n) :
    g.take ⟨now, request, none, moment⟩ v = v := by
  cases request <;> rfl

theorem timely_take {s : Stamped n} (time : s.time = now) (timely : g.timely now v) :
    g.timely now (g.take s v) := by
  subst time
  unfold take
  split
  · exact g.timely_onCells _ timely
  · exact g.timely_onCurrent _ timely
  · exact timely

theorem after_append (later earlier : List (Stamped n)) :
    g.after (later ++ earlier) v = g.after later (g.after earlier v) :=
  List.foldr_append

theorem after_of_silent {made : List (Stamped n)}
    (silent : ∀ s ∈ made, s.entry.request.gauges = false) : g.after made v = v := by
  induction made with
  | nil => rfl
  | cons s earlier ih =>
    have before := ih fun s member => silent s (List.mem_cons_of_mem _ member)
    exact (congrArg (g.take s) before).trans (take_of_silent (silent s List.mem_cons_self))

theorem timely_after {made : List (Stamped n)} (times : ∀ s ∈ made, s.time = now)
    (timely : g.timely now v) : g.timely now (g.after made v) := by
  induction made with
  | nil => exact timely
  | cons s earlier ih =>
    exact timely_take (times s List.mem_cons_self)
      (ih fun s member => times s (List.mem_cons_of_mem _ member))

theorem witnessed_append {later earlier : List (Stamped n)}
    (h : g.Witnessed (g.after earlier v) later) (k : g.Witnessed v earlier) :
    g.Witnessed v (later ++ earlier) := by
  induction later with
  | nil => exact k
  | cons s rest ih =>
    exact ⟨h.1.trans (after_append rest earlier).symm, ih h.2⟩

theorem Witnessed.value_eq {later earlier : List (Stamped n)} {s : Stamped n}
    (h : g.Witnessed v (later ++ s :: earlier)) :
    g.value s.entry.moment.status = g.after earlier v := by
  induction later with
  | nil => exact h.1
  | cons _ rest ih => exact ih h.2

theorem witnessed_of_silent {made : List (Stamped n)}
    (silent : ∀ s ∈ made, s.entry.request.gauges = false)
    (shows : ∀ s ∈ made, g.value s.entry.moment.status = v) : g.Witnessed v made := by
  induction made with
  | nil => trivial
  | cons s earlier ih =>
    have silentThen := fun s member => silent s (List.mem_cons_of_mem _ member)
    refine ⟨?_, ih silentThen fun s member => shows s (List.mem_cons_of_mem _ member)⟩
    rw [after_of_silent silentThen]
    exact shows s List.mem_cons_self

section Tracks

open Controller

variable {σ ε : Type} [FrontEnd σ ε n] {c d e : Controller σ n}

/-- On the way from one controller to another the gauge follows the readings. -/
structure Tracks (g : Gauge n config κ) (now : Nat) (c d : Controller σ n) : Prop where
  kept : d.config = c.config
  follows : c.config = config → g.timely now (g.value c.status) → ∃ entries, Logged c entries d ∧
    g.value d.status = g.after (Entry.stamp now entries) (g.value c.status) ∧
    g.Witnessed (g.value c.status) (Entry.stamp now entries)

theorem Tracks.trans (h : g.Tracks now c d) (k : g.Tracks now d e) : g.Tracks now c e where
  kept := k.kept.trans h.kept
  follows same timely := by
    obtain ⟨first, loggedFirst, valueFirst, witnessedFirst⟩ := h.follows same timely
    have timelyThen : g.timely now (g.value d.status) :=
      valueFirst ▸ timely_after (fun _ => Entry.time_of_mem_stamp) timely
    obtain ⟨second, loggedSecond, valueSecond, witnessedSecond⟩ :=
      k.follows (h.kept.trans same) timelyThen
    have split : Entry.stamp now (second ++ first) =
        Entry.stamp now second ++ Entry.stamp now first := List.map_append
    refine ⟨second ++ first, loggedFirst.trans loggedSecond, ?_, ?_⟩
    · rw [split, after_append, ← valueFirst, valueSecond]
    · rw [split]
      exact witnessed_append (valueFirst ▸ witnessedSecond) witnessedFirst

theorem Tracks.of_passage (kept : d.config = c.config)
    (passage : g.timely now (g.value c.status) →
      Passage (fun m => g.value m.status) (fun e => e.request.gauges = false) c d) :
    g.Tracks now c d where
  kept := kept
  follows _ timely := by
    obtain ⟨entries, logged, same, held⟩ := passage timely
    have shown : ∀ s ∈ Entry.stamp now entries, g.value s.entry.moment.status = g.value c.status ∧
        s.entry.request.gauges = false :=
      fun s member => held s.entry (Entry.mem_of_mem_stamp member)
    have silent := fun s member => (shown s member).2
    exact ⟨entries, logged, same.trans (after_of_silent silent).symm,
      witnessed_of_silent silent fun s member => (shown s member).1⟩

theorem Tracks.of_memory (kept : d.config = c.config) (journal : d.journal = c.journal)
    (frontEnd : d.frontEnd = c.frontEnd) (readyAt : d.readyAt = c.readyAt)
    (same : g.value d.status = g.value c.status) : g.Tracks now c d :=
  .of_passage kept fun _ => .of_memory journal frontEnd readyAt same

theorem tracks_reading (request : Request)
    (take : request.Answer n → Controller σ n → Controller σ n)
    (taken : ∀ answer (d : Controller σ n), Logged d [] (take answer d) ∧
      (take answer d).config = d.config ∧ (d.config = config →
        g.value (take answer d).status =
          g.take ⟨now, request, some answer, d.moment⟩ (g.value d.status)))
    (c : Controller σ n) :
    g.Tracks now c (c.attempt (command request >>= fun answer => modify (take answer))).2 := by
  obtain ⟨answer, s, logged, read⟩ | ⟨s, logged, failed⟩ := attempt_reading request take c
  · obtain ⟨unlogged, kept, value⟩ := taken answer (c.record request (some answer) s)
    rw [read]
    exact ⟨kept, fun same _ => ⟨_, logged.trans unlogged, value same, rfl, trivial⟩⟩
  · rw [failed]
    exact ⟨rfl, fun _ _ => ⟨_, logged, (take_failed request c.moment).symm, rfl, trivial⟩⟩

theorem tracks_readCells (c : Controller σ n) : g.Tracks now c (c.attempt readCells).2 := by
  refine tracks_reading .readCells
    (fun reading c => { c with status := c.status.withCells c.config reading })
    (fun reading d => ⟨⟨rfl, .refl _, rfl⟩, rfl, fun same => ?_⟩) c
  subst same
  exact g.withCells d.status reading

theorem tracks_readCurrent (c : Controller σ n) :
    g.Tracks now c (c.attempt (readCurrent now)).2 := by
  refine tracks_reading .readCurrent
    (fun milliamperes c => { c with status := c.status.withCurrent c.config milliamperes now })
    (fun milliamperes d => ⟨⟨rfl, .refl _, rfl⟩, rfl, fun same => ?_⟩) c
  subst same
  exact g.withCurrent d.status milliamperes now

theorem tracks_refresh (c : Controller σ n) : g.Tracks now c (c.refresh now).2 := by
  have temperatures : ∀ c : Controller σ n, g.Tracks now c (c.attempt readTemperatures).2 :=
    tracks_reading .readTemperatures
      (fun reading c => { c with status := c.status.withTemperatures reading })
      fun _ _ => ⟨⟨rfl, .refl _, rfl⟩, rfl, fun _ => g.kept _ _ rfl rfl rfl rfl⟩
  have report : ∀ c : Controller σ n, g.Tracks now c (c.attempt readReport).2 :=
    tracks_reading .readReport (fun report c => { c with report })
      fun _ _ => ⟨⟨rfl, .refl _, rfl⟩, rfl, fun _ => rfl⟩
  have noted : ∀ complete (c : Controller σ n), g.Tracks now c (c.noteCycle complete) :=
    fun _ _ => .of_memory rfl rfl rfl rfl (g.kept _ _ rfl rfl rfl rfl)
  exact ((((tracks_readCells c).trans (tracks_readCurrent _)).trans (temperatures _)).trans
    (report _)).trans (noted _ _)

theorem tracks_handleFaults (c : Controller σ n) : g.Tracks now c (c.handleFaults now) := by
  refine .of_passage (config_handleFaults now c) fun _ => ?_
  refine (passage_supervise g.value (fun _ _ _ _ => g.kept _ _ rfl rfl rfl rfl) now c).weaken id
    (fun _ => rfl) ?_
  rintro e _ (⟨faults, alerts, asked⟩ | ⟨dir, asked, -⟩) <;> rw [asked] <;> rfl

theorem tracks_updateState (c : Controller σ n) :
    g.Tracks now c (c.attempt (updateState now)).2 := by
  refine .of_passage (keepsConfig_updateState now c) fun _ => ?_
  have turn : Passes (fun m => g.value m.status) (fun e => e.request.gauges = false)
      (updateState now : EStateM ε (Controller σ n) Unit) := by
    refine passes_bind passes_get fun c => ?_
    split
    · exact passes_bind (passes_forM _ fun _ _ => passes_command fun _ _ => rfl) fun _ =>
        passes_modify fun _ => .of_memory rfl rfl rfl (g.kept _ _ rfl rfl rfl rfl)
    · exact passes_pure _
  exact turn c

theorem tracks_balance (c : Controller σ n) : g.Tracks now c (c.attempt (balance now)).2 := by
  refine .of_passage (keepsConfig_balance now c) fun timely => ?_
  refine (passage_balance (fun m mask => g.kept m.status { m.status with balancing := mask }
    rfl rfl rfl rfl) now c (g.clocked c.status now timely)).weaken id (fun _ => rfl) ?_
  rintro e _ ⟨bank, cells, asked⟩
  rw [asked]
  rfl

theorem tracks_updateCharge (c : Controller σ n) : g.Tracks now c (c.updateCharge now) :=
  .of_memory rfl rfl rfl rfl (g.kept _ _ rfl rfl rfl rfl)

theorem tracks_sampleCurrent (c : Controller σ n) :
    g.Tracks now c (c.attempt (sampleCurrent now)).2 := by
  refine tracks_reading .readCurrent
    (fun milliamperes c =>
      updateCharge now { c with status := c.status.withCurrent c.config milliamperes now })
    (fun milliamperes d => ⟨⟨rfl, .refl _, rfl⟩, rfl, fun same => ?_⟩) c
  subst same
  have counted := g.kept (d.status.withCurrent d.config milliamperes now)
    (updateCharge now { d with status := d.status.withCurrent d.config milliamperes now }).status
    rfl rfl rfl rfl
  exact counted.trans (g.withCurrent d.status milliamperes now)

theorem tracks_shutDown (c : Controller σ n) : g.Tracks now c (c.attempt shutDown).2 :=
  tracks_reading (.enterMode .off) (fun _ c => { c with status := { c.status with state := .off } })
    (fun _ _ => ⟨⟨rfl, .refl _, rfl⟩, rfl, fun _ => g.kept _ _ rfl rfl rfl rfl⟩) c

theorem tracks_tick (c : Controller σ n) : g.Tracks now c (c.tick now) := by
  rw [tick_eq]
  exact ((((tracks_refresh c).trans (tracks_handleFaults _)).trans (tracks_updateState _)).trans
    (tracks_balance _)).trans (tracks_updateCharge _)

end Tracks
end Gauge

def Operation.routine : Operation → Bool
  | start _ | program _ | programTemperatures | programAll | configure _ => false
  | _ => true

namespace Gauge

variable {σ ε : Type} {n : Nat} [FrontEnd σ ε n] {config : Config} {κ : Type}
  {g : Gauge n config κ}

theorem tracks_run {op : Operation} (routine : op.routine = true) (t : Nat) (c : Controller σ n) :
    g.Tracks (op.time?.getD t) c (op.run c) := by
  cases op with
  | tick now => exact tracks_tick c
  | refresh now => exact tracks_refresh c
  | handleFaults now => exact tracks_handleFaults c
  | updateState now => exact tracks_updateState c
  | balance now => exact tracks_balance c
  | updateCharge now => exact tracks_updateCharge c
  | sampleCurrent now => exact tracks_sampleCurrent c
  | shutDown => exact tracks_shutDown c
  | resetCharge | enableCharge | enableDischarge =>
    exact .of_memory rfl rfl rfl rfl (g.kept _ _ rfl rfl rfl rfl)
  | start | program | programTemperatures | programAll | configure => cases routine

end Gauge

section Course

variable {σ ε : Type} {n : Nat} [FrontEnd σ ε n] {config : Config} {κ : Type}
  {permitted : Nat → Operation → Prop} {drift : σ → σ → Prop} {s : σ} {t : Nat}
  {made : List (Stamped n)} {c : Controller σ n}

theorem Course.gauged (g : Gauge n config κ)
    (h : Course permitted drift (Controller.new s config) t made c)
    (routine : ∀ t op, permitted t op → op.routine = true)
    (starts : g.timely 0 (g.value {}))
    (timely : ∀ t op v, permitted t op → g.timely t v → g.timely (op.time?.getD t) v) :
    c.config = config ∧ g.timely t (g.value c.status) ∧
      g.value c.status = g.after made (g.value {}) ∧ g.Witnessed (g.value {}) made := by
  induction h with
  | new => exact ⟨rfl, starts, rfl, trivial⟩
  | @operation t made c op before may ih =>
    obtain ⟨same, timelyBefore, value, witnessed⟩ := ih
    have tracks := Gauge.tracks_run (g := g) (routine t op may) t c
    obtain ⟨entries, logged, valueThen, witnessedThen⟩ :=
      tracks.follows same (timely t op _ may timelyBefore)
    rw [logged.since_eq]
    refine ⟨tracks.kept.trans same, ?_, ?_, ?_⟩
    · rw [valueThen]
      exact Gauge.timely_after (fun _ => Entry.time_of_mem_stamp) (timely t op _ may timelyBefore)
    · rw [valueThen, Gauge.after_append, value]
    · exact Gauge.witnessed_append (value ▸ witnessedThen) witnessed
  | drift _ _ ih => exact ih

end Course
end PackGuard
