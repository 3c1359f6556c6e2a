import PackGuard.Proofs.BalancingBanks
import PackGuard.Proofs.Gauge

/-!
Cells are bled in a rested pack only. Whenever a request is made to bleed cells, the last reading of
a current above the idle current is long enough ago, and the last reading of the cells has them high
enough and far enough apart. No two neighbours of a bank are bled together.
-/

namespace PackGuard

namespace Balancing

def Apart (cells : List Nat) : Prop := ∀ i ∈ cells, i + 1 ∉ cells

theorem apart_take {taken : List Nat} (apart : Apart taken) (i : Nat) : Apart (take taken i) := by
  intro j member above
  have before := apart j
  rw [mem_take] at member above
  rcases member with member | ⟨rfl, free, -⟩
  · rcases above with above | ⟨rfl, -, free⟩
    · exact before member above
    · simp [member] at free
  · rcases above with above | ⟨same, -⟩
    · exact free above
    · omega

theorem apart_selectInBank (level : Float32) (voltages : List Float32) :
    Apart (selectInBank level voltages) := by
  have taken : ∀ (cells start : List Nat), Apart start → Apart (cells.foldl take start) := by
    intro cells
    induction cells with
    | nil => exact fun _ apart => apart
    | cons i rest ih => exact fun start apart => ih _ (apart_take apart i)
  exact taken _ [] fun _ none => nomatch none

theorem mem_selectInBank_of_select {cells : List Float32} {least difference : Float32} {b i : Nat}
    (inside : i < bankSize)
    (bled : (select cells least difference).getLsbD (b * bankSize + i) = true) :
    i ∈ selectInBank (least + difference) (bank (cells.take maskSize) b) := by
  rw [select, getLsbD_mask, Bool.and_eq_true, decide_eq_true_eq, decide_eq_true_eq,
    List.mem_flatMap] at bled
  obtain ⟨-, b', -, member⟩ := bled
  obtain ⟨j, chosen, place⟩ := List.mem_map.mp member
  have bound := lt_of_mem_selectInBank chosen
  rw [bank, List.length_take] at bound
  have narrow : j < bankSize := Nat.lt_of_lt_of_le bound (Nat.min_le_left _ _)
  simp only [bankSize] at inside narrow place
  obtain rfl : b' = b := by omega
  obtain rfl : j = i := by omega
  exact chosen

def Spaced (bits : UInt8) : Prop :=
  ∀ i, ¬(bits.toNat.testBit i = true ∧ bits.toNat.testBit (i + 1) = true)

theorem spaced_zero : Spaced 0 := by
  rintro i ⟨set, -⟩
  simp at set

variable {n : Nat} {config : Config} {status : Status n} {now : Nat}

theorem spaced_wanted (b : Nat) : Spaced (bankBits (wanted config status now) b) := by
  unfold wanted
  split
  case isFalse =>
    rw [bankBits_zero]
    exact spaced_zero
  case isTrue =>
    rintro i ⟨low, high⟩
    rw [testBit_bankBits, Bool.and_eq_true, decide_eq_true_eq] at low high
    have above := mem_selectInBank_of_select high.1 high.2
    exact apart_selectInBank _ _ i (mem_selectInBank_of_select low.1 low.2) above

theorem allowed_of_bankBits_ne {b : Nat} (bleeds : bankBits (wanted config status now) b ≠ 0) :
    allowed config status now = true := by
  by_contra closed
  rw [wanted_of_not_allowed (Bool.not_eq_true _ ▸ closed)] at bleeds
  exact bleeds (bankBits_zero b)

end Balancing

def Config.loads (config : Config) (milliamperes : Int) : Bool :=
  config.balancing.idleCurrent < (Float32.ofInt milliamperes / 1000.0).abs

namespace Gauge

variable {n : Nat}

def cells (n : Nat) (config : Config) : Gauge n config (CellReading n) where
  value := Status.cells
  onCells reading _ := reading
  onCurrent _ _ v := v
  timely _ _ := True
  kept _ _ cells _ _ _ := cells
  withCells status reading := by
    simp only [Status.withCells]
    split <;> rfl
  withCurrent _ _ _ := rfl
  clocked _ _ _ := rfl
  timely_onCells _ _ := trivial
  timely_onCurrent _ _ := trivial

/-- When the last current was read that was a load. -/
def lastLoad (config : Config) : Gauge n config Nat where
  value := Status.lastLoad
  onCells _ v := v
  onCurrent now milliamperes v := if config.loads milliamperes then now else v
  timely now v := v ≤ now
  kept _ _ _ _ _ lastLoad := lastLoad
  withCells status reading := by
    simp only [Status.withCells]
    split <;> rfl
  withCurrent status milliamperes now := by simp [Status.withCurrent, Config.loads]
  clocked _ _ timely := Nat.min_eq_left timely
  timely_onCells _ timely := timely
  timely_onCurrent _ timely := by
    split
    · exact Nat.le_refl _
    · exact timely

end Gauge

/-- A request for a bank bleeds no neighbours, and none at all unless bleeding is allowed. -/
def Entry.Guarded {n : Nat} (config : Config) (now : Nat) (e : Entry n) : Prop :=
  ∀ b bits, e.request = .balance b bits → Balancing.Spaced bits ∧
    (bits ≠ 0 → Balancing.allowed config e.moment.status now = true)

namespace Entry

variable {n b now : Nat} {config : Config} {e : Entry n}

theorem guarded_of_other (other : ∀ b bits, e.request ≠ .balance b bits) : e.Guarded config now :=
  fun b bits asked => absurd asked (other b bits)

theorem guarded_of_wanted (asked : e.request =
    .balance b (Balancing.bankBits (Balancing.wanted config e.moment.status now) b)) :
    e.Guarded config now := by
  intro b' bits asked'
  obtain ⟨rfl, rfl⟩ := Request.balance.inj (asked.symm.trans asked')
  exact ⟨Balancing.spaced_wanted b, Balancing.allowed_of_bankBits_ne⟩

theorem guarded_of_off (asked : e.request = .balance b (Balancing.bankBits 0 b)) :
    e.Guarded config now := by
  intro b' bits asked'
  obtain ⟨rfl, rfl⟩ := Request.balance.inj (asked.symm.trans asked')
  rw [Balancing.bankBits_zero]
  exact ⟨Balancing.spaced_zero, fun bleeds => absurd rfl bleeds⟩

end Entry

namespace Controller

variable {σ ε : Type} {n : Nat} [FrontEnd σ ε n] {c d : Controller σ n} {now : Nat}

theorem forall_mem_allBanked {P : Entry n → Prop} {moment : Moment n} {m : CellMask}
    (h : ∀ b, P (Entry.banked moment m b)) : ∀ e ∈ allBanked moment m, P e := by
  intro e member
  obtain ⟨b, -, rfl⟩ := List.mem_map.mp (List.mem_reverse.mp member)
  exact h b

theorem forall_mem_partBanked {P : Entry n → Prop} {moment : Moment n} {m : CellMask}
    {done : List Nat} {b : Nat} (h : ∀ b, P (Entry.banked moment m b))
    (last : P (Entry.unbanked moment m b)) : ∀ e ∈ partBanked moment m done b, P e := by
  intro e member
  rcases List.mem_cons.mp member with rfl | earlier
  · exact last
  · obtain ⟨b, -, rfl⟩ := List.mem_map.mp (List.mem_reverse.mp earlier)
    exact h b

structure Guards (now : Nat) (c d : Controller σ n) : Prop where
  kept : d.config = c.config
  guarded : ∃ entries, Logged c entries d ∧ ∀ e ∈ entries, e.Guarded c.config now

theorem Guards.trans {e : Controller σ n} (h : Guards now c d) (k : Guards now d e) :
    Guards now c e := by
  obtain ⟨first, loggedFirst, heldFirst⟩ := h.guarded
  obtain ⟨second, loggedSecond, heldSecond⟩ := k.guarded
  refine ⟨k.kept.trans h.kept, second ++ first, loggedFirst.trans loggedSecond, fun e member => ?_⟩
  rcases List.mem_append.mp member with later | earlier
  · exact h.kept ▸ heldSecond e later
  · exact heldFirst e earlier

theorem Guards.of_passage {κ : Type} {view : Moment n → κ} {condition : Entry n → Prop}
    (kept : d.config = c.config) (passage : Passage view condition c d)
    (other : ∀ e, condition e → ∀ b bits, e.request ≠ .balance b bits) : Guards now c d := by
  obtain ⟨entries, logged, -, held⟩ := passage
  exact ⟨kept, entries, logged, fun e member => Entry.guarded_of_other (other e (held e member).2)⟩

theorem Guards.of_memory (kept : d.config = c.config) (journal : d.journal = c.journal)
    (frontEnd : d.frontEnd = c.frontEnd) (readyAt : d.readyAt = c.readyAt) : Guards now c d :=
  ⟨kept, [], ⟨journal, frontEnd ▸ .refl _, readyAt⟩, by simp⟩

theorem Update.guarded {ok : Bool} (update : Update now c ok d) :
    ∃ entries, Logged c entries d ∧ ∀ e ∈ entries, e.Guarded c.config now := by
  have first : ∀ b, (Entry.banked (c.clocked now).moment (c.wanted now) b).Guarded c.config now :=
    fun _ => Entry.guarded_of_wanted rfl
  have firstLast : ∀ b,
      (Entry.unbanked (c.clocked now).moment (c.wanted now) b).Guarded c.config now :=
    fun _ => Entry.guarded_of_wanted rfl
  have off : ∀ (m : Moment n) b, (Entry.banked m 0 b).Guarded c.config now :=
    fun _ _ => Entry.guarded_of_off rfl
  have offLast : ∀ (m : Moment n) b, (Entry.unbanked m 0 b).Guarded c.config now :=
    fun _ _ => Entry.guarded_of_off rfl
  cases update with
  | kept => exact ⟨[], ⟨rfl, .refl _, rfl⟩, by simp⟩
  | written _ _ logged => exact ⟨_, logged, forall_mem_allBanked first⟩
  | stopped _ begun second =>
    refine ⟨_, begun.trans second, fun e member => ?_⟩
    rcases List.mem_append.mp member with later | earlier
    · exact forall_mem_allBanked (off _) e later
    · exact forall_mem_partBanked first (firstLast _) e earlier
  | lost _ begun _ second =>
    refine ⟨_, begun.trans second, fun e member => ?_⟩
    rcases List.mem_append.mp member with later | earlier
    · exact forall_mem_partBanked (off _) (offLast _ _) e later
    · exact forall_mem_partBanked first (firstLast _) e earlier

theorem guards_balance (c : Controller σ n) : Guards now c (c.attempt (balance now)).2 :=
  ⟨keepsConfig_balance now c, (update_balance now c).guarded⟩

theorem guards_refresh (c : Controller σ n) : Guards now c (c.refresh now).2 := by
  refine .of_passage (Gauge.tracks_refresh (g := Gauge.lastLoad c.config) c).kept
    (passage_refresh now c) fun e reads b bits asked => ?_
  rw [asked] at reads
  cases reads

theorem guards_handleFaults (c : Controller σ n) : Guards now c (c.handleFaults now) := by
  refine .of_passage (config_handleFaults now c)
    (passage_supervise (fun _ => ()) (fun _ _ _ _ => rfl) now c) ?_
  rintro e (⟨faults, alerts, asked⟩ | ⟨dir, asked, -⟩) b bits asked' <;>
    cases asked.symm.trans asked'

theorem guards_updateState (c : Controller σ n) : Guards now c (c.attempt (updateState now)).2 := by
  obtain ⟨entries, logged, held⟩ := (turn_updateState now c).logged
  refine ⟨keepsConfig_updateState now c, entries, logged, fun e member =>
    Entry.guarded_of_other fun b bits asked => ?_⟩
  obtain ⟨-, -, command, -, asked'⟩ := held e member
  cases asked.symm.trans asked'

theorem guards_updateCharge (c : Controller σ n) : Guards now c (c.updateCharge now) :=
  .of_memory rfl rfl rfl rfl

theorem guards_tick (c : Controller σ n) : Guards now c (c.tick now) := by
  rw [tick_eq]
  exact ((((guards_refresh c).trans (guards_handleFaults _)).trans (guards_updateState _)).trans
    (guards_balance _)).trans (guards_updateCharge _)

theorem guards_request (request : Request) (other : ∀ b bits, request ≠ .balance b bits)
    (take : request.Answer n → Controller σ n → Controller σ n)
    (taken : ∀ answer (d : Controller σ n), Guards now d (take answer d)) (c : Controller σ n) :
    Guards now c (c.attempt (command request >>= fun answer => modify (take answer))).2 := by
  have asks : ∀ answer?, ∀ e ∈ [(⟨request, answer?, c.moment⟩ : Entry n)],
      e.Guarded c.config now := by
    intro answer? e member
    rw [List.mem_singleton.mp member]
    exact Entry.guarded_of_other other
  obtain ⟨answer, s, logged, read⟩ | ⟨s, logged, failed⟩ := attempt_reading request take c
  · rw [read]
    exact Guards.trans (d := c.record request (some answer) s) ⟨rfl, _, logged, asks _⟩
      (taken answer _)
  · rw [failed]
    exact ⟨rfl, _, logged, asks _⟩

theorem guards_run {op : Operation} (routine : op.routine = true) (t : Nat) (c : Controller σ n) :
    Guards (op.time?.getD t) c (op.run c) := by
  cases op with
  | tick now => exact guards_tick c
  | refresh now => exact guards_refresh c
  | handleFaults now => exact guards_handleFaults c
  | updateState now => exact guards_updateState c
  | balance now => exact guards_balance c
  | sampleCurrent now =>
    exact guards_request .readCurrent nofun
      (fun milliamperes c =>
        updateCharge now { c with status := c.status.withCurrent c.config milliamperes now })
      (fun _ _ => .of_memory rfl rfl rfl rfl) c
  | shutDown =>
    exact guards_request (.enterMode .off) nofun
      (fun _ c => { c with status := { c.status with state := .off } })
      (fun _ _ => .of_memory rfl rfl rfl rfl) c
  | updateCharge | resetCharge | enableCharge | enableDischarge => exact .of_memory rfl rfl rfl rfl
  | start | program | programTemperatures | programAll | configure => cases routine

end Controller

section Course

variable {n : Nat} {config : Config}

namespace Gauge

theorem after_cells (made : List (Stamped n)) (v : CellReading n) :
    (cells n config).after made v = (made.findSome? fun s => s.entry.cells?).getD v := by
  induction made with
  | nil => rfl
  | cons s earlier ih =>
    change (cells n config).take s ((cells n config).after earlier v) = _
    rw [ih, take, List.findSome?_cons]
    cases s.entry.cells? with
    | some reading => rfl
    | none => cases s.entry.current? <;> rfl

theorem take_lastLoad (s : Stamped n) (v : Nat) :
    (lastLoad config).take s v =
      match s.entry.current? with
      | some milliamperes => if config.loads milliamperes then s.time else v
      | none => v := by
  obtain ⟨time, request, answer?, moment⟩ := s
  cases request <;> cases answer? <;> rfl

theorem time_le_after_lastLoad {made : List (Stamped n)} {v : Nat}
    (ordered : made.Pairwise fun later earlier => earlier.time ≤ later.time) {s : Stamped n}
    (among : s ∈ made) {milliamperes : Int} (read : s.entry.current? = some milliamperes)
    (loads : config.loads milliamperes = true) : s.time ≤ (lastLoad config).after made v := by
  induction made with
  | nil => cases among
  | cons r earlier ih =>
    rw [List.pairwise_cons] at ordered
    change s.time ≤ (lastLoad config).take r ((lastLoad config).after earlier v)
    rw [take_lastLoad]
    rcases List.mem_cons.mp among with rfl | before
    · rw [read]
      dsimp only
      rw [if_pos loads]
    · have past := ordered.1 s before
      have last := ih ordered.2 before
      cases r.entry.current? with
      | none => exact last
      | some milliamperes =>
        dsimp only
        split
        · exact past
        · exact last

end Gauge

variable {σ ε : Type} [FrontEnd σ ε n] {t : Nat} {drift : σ → σ → Prop} {s : σ}
  {made : List (Stamped n)} {new c : Controller σ n}

def Operation.onTime (t : Nat) (op : Operation) : Prop :=
  op.routine = true ∧ ∀ now ∈ op.time?, t ≤ now

theorem Operation.le_time_of_onTime {op : Operation} (onTime : op.onTime t) :
    t ≤ op.time?.getD t := by
  cases told : op.time? with
  | none => exact Nat.le_refl t
  | some now => exact onTime.2 now told

theorem Course.ordered (h : Course Operation.onTime drift new t made c) :
    (made.Pairwise fun later earlier => earlier.time ≤ later.time) ∧ ∀ s ∈ made, s.time ≤ t := by
  induction h with
  | new => exact ⟨.nil, by simp⟩
  | @operation t made c op _ may ih =>
    have later := Operation.le_time_of_onTime may
    refine ⟨List.pairwise_append.mpr ⟨?_, ih.1, ?_⟩, ?_⟩
    · exact List.pairwise_map.mpr (List.pairwise_of_forall fun _ _ => Nat.le_refl _)
    · intro s member r before
      rw [Entry.time_of_mem_stamp member]
      exact Nat.le_trans (ih.2 r before) later
    · intro s member
      rcases List.mem_append.mp member with now | before
      · exact Nat.le_of_eq (Entry.time_of_mem_stamp now)
      · exact Nat.le_trans (ih.2 s before) later
  | drift _ _ ih => exact ih

theorem Course.guarded
    (h : Course Operation.onTime drift (Controller.new s config) t made c) :
    c.config = config ∧ ∀ s ∈ made, s.entry.Guarded config s.time := by
  induction h with
  | new => exact ⟨rfl, by simp⟩
  | @operation t made c op _ may ih =>
    obtain ⟨same, held⟩ := ih
    have guards := Controller.guards_run may.1 t c
    obtain ⟨entries, logged, guarded⟩ := guards.guarded
    refine ⟨guards.kept.trans same, fun s member => ?_⟩
    rcases List.mem_append.mp member with now | before
    · rw [logged.since_eq] at now
      rw [Entry.time_of_mem_stamp now, ← same]
      exact guarded _ (Entry.mem_of_mem_stamp now)
    · exact held s before
  | drift _ _ ih => exact ih

/-- In every course at times that do not decrease, whatever fails, a request for a bank bleeds no
neighbours. If it bleeds any cell, balancing is enabled, no load has been read for as long as the
pack has to rest, and the last reading of the cells has them high enough and far enough apart. -/
theorem Course.bled_at_rest
    (h : Course Operation.onTime drift (Controller.new s config) t made c)
    {later earlier : List (Stamped n)} {request : Stamped n}
    (split : made = later ++ request :: earlier) {b : Nat} {bits : UInt8}
    (asked : request.entry.request = .balance b bits) :
    Balancing.Spaced bits ∧
    (bits ≠ 0 →
      config.balancing.enabled = true ∧
      1000 * config.balancing.idleDelay ≤ request.time ∧
      (∀ read ∈ earlier, ∀ milliamperes, read.entry.current? = some milliamperes →
        config.loads milliamperes = true →
          read.time + 1000 * config.balancing.idleDelay ≤ request.time) ∧
      ∃ reading, (earlier.findSome? fun s => s.entry.cells?) = some reading ∧
        0 < reading.connected ∧ config.balancing.leastVoltage < reading.greatest ∧
        config.balancing.difference < reading.greatest - reading.least) := by
  subst split
  obtain ⟨ordered, -⟩ := h.ordered
  obtain ⟨spaced, allowed⟩ := h.guarded.2 request (by simp) b bits asked
  refine ⟨spaced, fun bleeds => ?_⟩
  have allowed := allowed bleeds
  simp only [Balancing.allowed, Bool.and_eq_true, decide_eq_true_eq] at allowed
  obtain ⟨⟨⟨⟨enabled, connected⟩, rested⟩, high⟩, apart⟩ := allowed
  have routine : ∀ t op, Operation.onTime t op → op.routine = true := fun _ _ may => may.1
  obtain ⟨-, -, -, loadShown⟩ := h.gauged (Gauge.lastLoad config) routine (Nat.le_refl 0)
    fun t op v may timely => Nat.le_trans timely (Operation.le_time_of_onTime may)
  obtain ⟨-, -, -, cellsShown⟩ := h.gauged (Gauge.cells n config) routine trivial
    fun _ _ _ _ _ => trivial
  have lastLoad : request.entry.moment.status.lastLoad = _ := loadShown.value_eq
  have cells : request.entry.moment.status.cells = _ := cellsShown.value_eq
  rw [cells, Gauge.after_cells] at connected high apart
  obtain ⟨past, orderedBefore⟩ := List.pairwise_cons.mp (List.pairwise_append.mp ordered).2.1
  refine ⟨enabled, by omega, fun read among milliamperes answered loads => ?_, ?_⟩
  · have before := past read among
    have last : read.time ≤ request.entry.moment.status.lastLoad :=
      lastLoad ▸ Gauge.time_le_after_lastLoad orderedBefore among answered loads
    omega
  · cases found : earlier.findSome? fun s => s.entry.cells? with
    | none =>
      rw [found] at connected
      cases connected
    | some reading =>
      rw [found] at connected high apart
      exact ⟨reading, rfl, connected, high, apart⟩

end Course

def Request.bank? : Request → Option (Nat × UInt8)
  | .balance b bits => some (b, bits)
  | _ => none

theorem Request.eq_balance_of_bank? {request : Request} {b : Nat} {bits : UInt8}
    (h : request.bank? = some (b, bits)) : request = .balance b bits := by
  cases request <;> cases h
  rfl

def Bench.busy : Controller (Bench 2) 2 :=
  .new { Bench.uniform 2 3.9 with cells := #v[3.9, 4.0], current := 5000 } (.ofChemistry .nmc 10.0)

def Bench.loaded : Controller (Bench 2) 2 := (Operation.sampleCurrent 0).run busy

def Bench.rested : Controller (Bench 2) 2 :=
  { loaded with frontEnd := { loaded.frontEnd with current := 0 } }

theorem Course.bled_at_rest_loaded :
    ∃ (later earlier : List (Stamped 2)) (request read : Stamped 2),
      (Bench.rested.tick 1800000).journal = (later ++ request :: earlier).map Stamped.entry ∧
      request.entry.request = .balance 0 2 ∧ Balancing.Spaced 2 ∧ read ∈ earlier ∧
      read.entry.current? = some 5000 ∧ read.time + 1800000 ≤ request.time := by
  have begun : Course Operation.onTime (fun _ _ => True) Bench.busy 0 _ Bench.loaded :=
    .operation (.sampleCurrent 0) .new ⟨rfl, by decide⟩
  have run : Course _ _ _ 1800000 _ (Bench.rested.tick 1800000) :=
    .operation (c := Bench.rested) (.tick 1800000) (.drift begun trivial) ⟨rfl, by decide⟩
  have bleeding : ∃ e ∈ Bench.rested.since (Bench.rested.tick 1800000),
      e.request.bank? = some (0, 2) := by decide +kernel
  have sampled : ∃ e ∈ Bench.busy.since Bench.loaded, e.current? = some 5000 := by decide +kernel
  obtain ⟨e, bleeds, bank⟩ := bleeding
  obtain ⟨sample, answered, current⟩ := sampled
  obtain ⟨later, between, split⟩ := List.append_of_mem bleeds
  have made : Entry.stamp 1800000 (Bench.rested.since (Bench.rested.tick 1800000)) ++
        (Entry.stamp 0 (Bench.busy.since Bench.loaded) ++ []) =
      Entry.stamp 1800000 later ++ ⟨1800000, e⟩ :: (Entry.stamp 1800000 between ++
        Entry.stamp 0 (Bench.busy.since Bench.loaded)) := by
    rw [split]
    simp [Entry.stamp]
  have read : (⟨0, sample⟩ : Stamped 2) ∈ Entry.stamp 1800000 between ++
      Entry.stamp 0 (Bench.busy.since Bench.loaded) :=
    List.mem_append_right _ (List.mem_map_of_mem answered)
  have asked := Request.eq_balance_of_bank? bank
  obtain ⟨spaced, bled⟩ := run.bled_at_rest made asked
  obtain ⟨-, -, rested, -⟩ := bled (by decide)
  have journal : (Bench.rested.tick 1800000).journal = _ :=
    run.journal_eq.trans (List.append_nil _)
  exact ⟨_, _, _, ⟨0, sample⟩, journal.trans (congrArg _ made), asked, spaced, read, current,
    rested _ read 5000 current (by decide +kernel)⟩

end PackGuard
