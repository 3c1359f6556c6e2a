import PackGuard.Proofs.ChipOutputs
import PackGuard.Proofs.History

/-!
A start at a chip whose outputs are in any position, and the cycle after it. The start opens the
switches, but leaves the state and the banks as they are. The cycle then looks for changes only: a
switch that the state had closed before is not closed again unless an alert goes, and banks are
written only if other cells are to be bled than the status has.
-/

namespace PackGuard

def Moment.outputs {n : Nat} (m : Moment n) : PackState × CellMask :=
  (m.status.state, m.status.balancing)

section Served

variable {σ ε : Type} {n : Nat} [FrontEnd σ ε n] {s u : σ} {first second : List (Entry n)}

theorem Served.split (h : Served s (second ++ first) u) :
    ∃ t, Served s first t ∧ Served t second u := by
  induction second generalizing u with
  | nil => exact ⟨u, h, .refl u⟩
  | cons entry rest ih =>
    cases h with
    | answered moment before now =>
      obtain ⟨t, early, late⟩ := ih before
      exact ⟨t, early, .answered moment late now⟩
    | failed moment before now =>
      obtain ⟨t, early, late⟩ := ih before
      exact ⟨t, early, .failed moment late now⟩

end Served

namespace Entry

variable {n : Nat}

theorem position_append (later earlier : List (Entry n)) (d : Direction) (start : Bool) :
    position (later ++ earlier) d start = position later d (position earlier d start) := by
  induction later with
  | nil => rfl
  | cons entry rest ih => rw [List.cons_append, position_cons, position_cons, ih]

theorem position_of_closing {entries : List (Entry n)} {d : Direction}
    (h : ∀ e ∈ entries, e.sets d ≠ some false) :
    position entries d false = true ↔ ∃ e ∈ entries, e.sets d = some true := by
  induction entries with
  | nil => simp
  | cons entry rest ih =>
    have earlier := ih fun e member => h e (List.mem_cons_of_mem _ member)
    have first := h entry List.mem_cons_self
    rw [position_cons, List.exists_mem_cons_iff]
    cases sets : entry.sets d with
    | none => simpa using earlier
    | some on =>
      cases on with
      | true => simp
      | false => exact absurd sets first

theorem forall_mem_reverse_map {ι : Type} {make : ι → Entry n} {P : Entry n → Prop} {items : List ι}
    (h : ∀ i ∈ items, P (make i)) : ∀ e ∈ (items.map make).reverse, P e := by
  intro e member
  obtain ⟨i, among, rfl⟩ := List.mem_map.mp (List.mem_reverse.mp member)
  exact h i among

theorem sets_commands {m : Moment n} {before after : PackState} {d : Direction}
    (same : before.conducts d = after.conducts d) :
    ∀ e ∈ ((before.commands after).map (carried m)).reverse, e.sets d = none := by
  have others : ∀ command ∈ before.commands after, command.1 ≠ d.switch := by
    revert same
    cases before <;> cases after <;> cases d <;> decide
  exact forall_mem_reverse_map fun command among => if_neg (others command among)

end Entry

namespace Controller

open Chip Chip.Driver

section Cycle

variable {σ ε : Type} {n : Nat} [FrontEnd σ ε n]

theorem aside_of_reads {request : Request} (h : request.reads = true) : request.aside = true := by
  cases request <;> first | rfl | cases h

theorem passage_handleFaults (now : Nat) (c : Controller σ n) :
    Passage Moment.outputs (fun e => e.request.aside = true ∨ e.Recloses) c
      (c.handleFaults now) := by
  refine (passage_supervise (fun status : Status n => (status.state, status.balancing))
    (fun _ _ _ _ => rfl) now c).weaken id (fun _ => rfl) ?_
  rintro e _ (⟨faults, alerts, asked⟩ | recloses)
  · left
    rw [asked]
    rfl
  · exact .inr recloses

theorem passage_before_turn (now : Nat) (c : Controller σ n) :
    Passage Moment.outputs (fun e => e.request.aside = true ∨ e.Recloses) c
      ((c.refresh now).2.handleFaults now) := by
  have read : Passage Moment.outputs (fun e => e.request.aside = true ∨ e.Recloses) c
      (c.refresh now).2 :=
    (passage_refresh now c).weaken Moment.outputs (fun _ => rfl)
      fun _ _ reads => .inl (aside_of_reads reads)
  exact read.trans (passage_handleFaults now _)

theorem answered_of_ask {request : Request} {answer : request.Answer n} {c d : Controller σ n}
    (done : ask request c = .ok answer d) :
    FrontEnd.perform request c.frontEnd = .ok answer d.frontEnd ∧ d.moment = c.moment := by
  simp only [ask, EStateM.adaptExcept, command] at done
  cases made : FrontEnd.perform request c.frontEnd with
  | error e s => simp [made] at done
  | ok a s =>
    simp only [made] at done
    cases done
    exact ⟨rfl, rfl⟩

theorem entered_of_start {now : Nat} {c d : Controller σ n} (done : start now c = .ok () d) :
    ∃ a : Controller σ n, FrontEnd.perform (.enterMode .active) c.frontEnd = .ok () a.frontEnd ∧
      a.moment = c.moment ∧ Passage Moment.outputs (fun e => e.request.aside = true) a d := by
  obtain ⟨_, a, entered, done⟩ := exists_of_bind_ok done
  obtain ⟨_, p, programmed, done⟩ := exists_of_bind_ok done
  obtain ⟨entered, kept⟩ := answered_of_ask entered
  have program : Passage id (fun e => ∃ kind codes, e.request = .protect kind codes) a
      (a.attempt programAll).2 := passes_programAll a
  rw [attempt, programmed] at program
  have program : Passage Moment.outputs (fun e => e.request.aside = true) a p := by
    refine program.weaken Moment.outputs (fun _ => rfl) ?_
    rintro e - ⟨kind, codes, asked⟩
    rw [asked]
    rfl
  have read : Passage Moment.outputs (fun e => e.request.aside = true) p (p.refresh now).2 :=
    (passage_refresh now p).weaken Moment.outputs (fun _ => rfl)
      fun _ _ reads => aside_of_reads reads
  cases done
  exact ⟨a, entered, kept, (program.trans read).trans (.of_memory rfl rfl rfl rfl)⟩

end Cycle

variable {n : Nat} {c d : Controller (Driver Device n) n} {now : Nat}

/-- What a start that succeeds leaves of the outputs, and what it does to them. -/
structure Restarted (c d : Controller (Driver Device n) n) : Prop where
  steady : d.frontEnd.Steady
  opened : ∀ dir, d.frontEnd.closed dir = false
  banks : ∀ b < 3, d.frontEnd.banks b = c.frontEnd.banks b
  state : d.status.state = c.status.state
  balancing : d.status.balancing = c.status.balancing

theorem restarted_of_start (done : start now c = .ok () d)
    (fits : d.frontEnd.link.Fits) (free : c.frontEnd.link.bus.frozen = []) : Restarted c d := by
  obtain ⟨a, entered, kept, entries, logged, same, held⟩ := entered_of_start done
  have aside : ∀ entry ∈ entries, entry.request.aside = true :=
    fun entry member => (held entry member).2
  have stays := stays_of_aside aside
  have fitsThen : a.frontEnd.link.Fits := fits.of_scene (scene_served stays logged.served).symm
  obtain ⟨control, banks, frozen⟩ := activated entered fitsThen (by rw [free]; exact List.not_mem_nil)
  have outputs : d.moment.outputs = c.moment.outputs := same.trans (congrArg Moment.outputs kept)
  have spares := spares_outputs fitsThen aside logged.served
  exact
    { steady := ⟨fits, spares.frozen.trans (frozen.trans free)⟩
      opened := fun dir => by
        rw [closed, spares.kept _ List.mem_cons_self, control]
        cases dir <;> decide
      banks := fun b bound => (spares.kept _ (bank_mem_outputs bound)).trans (banks b bound)
      state := congrArg Prod.fst outputs
      balancing := congrArg Prod.snd outputs }

/-- What a cycle asks for, the latest first. Before the turn of the switches it only closes switches
again that the state has closed; then it turns them from the old state to the new one, and sets all
banks unless the status stays. -/
structure Cycle (c e : Controller (Driver Device n) n) (before turned banked : List (Entry n)) :
    Prop where
  logged : Logged c (banked ++ (turned ++ before)) e
  before : ∀ entry ∈ before, entry.request.aside = true ∨
    entry.Recloses ∧ entry.moment.status.state = c.status.state
  turned : ∃ m, turned = ((c.status.state.commands e.status.state).map (Entry.carried m)).reverse
  banked : banked = [] ∧ e.status.balancing = c.status.balancing ∨
    ∃ m, banked = allBanked m e.status.balancing

theorem stays_before {before : List (Entry n)} {P : Entry n → Prop}
    (held : ∀ entry ∈ before, entry.request.aside = true ∨ entry.Recloses ∧ P entry) :
    ∀ entry ∈ before, ∀ mode, entry.request ≠ .enterMode mode := by
  intro entry member mode asked
  rcases held entry member with aside | ⟨⟨dir, closes, -⟩, -⟩
  · rw [asked] at aside
    cases aside
  · rw [asked] at closes
    cases closes

theorem stays_turned {m : Moment n} {commands : List (Switch × Bool)} :
    ∀ entry ∈ (commands.map (Entry.carried m)).reverse, ∀ mode, entry.request ≠ .enterMode mode :=
  Entry.forall_mem_reverse_map fun _ _ _ asked => by cases asked

theorem stays_banked {m : Moment n} {mask : CellMask} {bs : List Nat} :
    ∀ entry ∈ (bs.map (Entry.banked m mask)).reverse, ∀ mode, entry.request ≠ .enterMode mode :=
  Entry.forall_mem_reverse_map fun _ _ _ asked => by cases asked

theorem turned_of_live {ok : Bool} (live : c.frontEnd.Live) (turn : Turn now c ok d) :
    ∃ m, Logged c ((c.status.state.commands d.status.state).map (Entry.carried m)).reverse d ∧
      d.status.balancing = c.status.balancing := by
  cases turn with
  | early =>
    rw [PackState.commands_self]
    exact ⟨c.moment, .refl c, rfl⟩
  | through _ kept logged =>
    have state : d.status.state = c.nextState := congrArg (·.status.state) kept
    rw [state]
    exact ⟨c.moment, logged, congrArg (·.status.balancing) kept⟩
  | stuck _ _ _ logged =>
    exact absurd logged.served (live.not_failed (.inl ⟨_, _, rfl⟩) stays_turned)

theorem banked_of_live {ok : Bool} (live : c.frontEnd.Live) (update : Update now c ok d) :
    ∃ banked, Logged c banked d ∧ (banked = [] ∧ d.status.balancing = c.status.balancing ∨
      ∃ m, banked = allBanked m d.status.balancing) := by
  cases update with
  | kept => exact ⟨[], ⟨rfl, .refl _, rfl⟩, .inl ⟨rfl, rfl⟩⟩
  | written status _ logged => exact ⟨_, logged, .inr ⟨_, by rw [← status]⟩⟩
  | stopped _ first =>
    exact absurd first.served (live.not_failed (.inr ⟨_, _, rfl⟩) stays_banked)
  | lost _ first =>
    exact absurd first.served (live.not_failed (.inr ⟨_, _, rfl⟩) stays_banked)

theorem cycle_tick (live : c.frontEnd.Live) (now : Nat) :
    ∃ before turned banked, Cycle c (c.tick now) before turned banked := by
  obtain ⟨before, logged, same, held⟩ := passage_before_turn now c
  rw [tick_eq]
  generalize (c.refresh now).2.handleFaults now = judged at logged same ⊢
  have held : ∀ entry ∈ before, entry.request.aside = true ∨
      entry.Recloses ∧ entry.moment.status.state = c.status.state := fun entry member =>
    (held entry member).2.imp_right fun recloses =>
      ⟨recloses, congrArg Prod.fst (held entry member).1⟩
  have state : judged.status.state = c.status.state := congrArg Prod.fst same
  have balancing : judged.status.balancing = c.status.balancing := congrArg Prod.snd same
  have live := live.served (stays_before held) logged.served
  obtain ⟨m, turned, kept⟩ := turned_of_live live (turn_updateState now judged)
  generalize (judged.attempt (updateState now)).2 = updated at turned kept ⊢
  have live := live.served stays_turned turned.served
  obtain ⟨banked, written, outcome⟩ := banked_of_live live (update_balance now updated)
  have stateThen : (updated.attempt (balance now)).2.status.state = updated.status.state := by
    obtain ⟨_, -, same, -⟩ := passes_balance now updated
    exact congrArg (·.status.state) same
  generalize (updated.attempt (balance now)).2 = balanced at written outcome stateThen ⊢
  have whole := (logged.trans turned).trans written
  exact ⟨before, _, banked,
    { logged := ⟨whole.journal, whole.served, whole.readyAt⟩
      before := held
      turned := ⟨m, by rw [state, ← stateThen]; rfl⟩
      banked := outcome.imp_left (.imp_right fun same => same.trans (kept.trans balancing)) }⟩

namespace Cycle

variable {e : Controller (Driver Device n) n} {before turned banked : List (Entry n)}

theorem stays (cycle : Cycle c e before turned banked) :
    ∀ entry ∈ banked ++ (turned ++ before), ∀ mode, entry.request ≠ .enterMode mode := by
  obtain ⟨m, commands⟩ := cycle.turned
  rw [List.forall_mem_append, List.forall_mem_append]
  refine ⟨?_, commands ▸ stays_turned, stays_before cycle.before⟩
  rcases cycle.banked with ⟨rfl, -⟩ | ⟨m, rfl⟩
  · exact fun _ none => nomatch none
  · exact stays_banked

theorem sets_before (cycle : Cycle c e before turned banked) (dir : Direction) :
    ∀ entry ∈ before, entry.sets dir = none ∨
      entry.sets dir = some true ∧ c.status.state.conducts dir = true := by
  intro entry member
  cases answered : entry.succeeded with
  | false => exact .inl (by rw [Entry.sets, if_neg (by simp [answered])])
  | true =>
    rw [Entry.sets, if_pos answered]
    rcases cycle.before entry member with aside | ⟨⟨other, closes, on, -⟩, state⟩
    · left
      cases asked : entry.request <;> rw [asked] at aside <;> first | rfl | cases aside
    · rw [closes]
      by_cases same : other = dir
      · subst same
        exact .inr ⟨if_pos rfl, state ▸ on⟩
      · exact .inl (if_neg fun h => same (Direction.switch_inj.mp h))

theorem sets_banked (cycle : Cycle c e before turned banked) (dir : Direction) :
    ∀ entry ∈ banked, entry.sets dir = none := by
  rcases cycle.banked with ⟨rfl, -⟩ | ⟨m, rfl⟩
  · exact fun _ none => nomatch none
  · unfold allBanked
    exact Entry.forall_mem_reverse_map fun _ _ => rfl

/-- A switch that was open before is in line with the state after the cycle, except that it needs an
alert to be closed if the state has had it closed before. -/
theorem closed_iff (cycle : Cycle c e before turned banked) (few : Balancing.bankCount n ≤ 3)
    (live : c.frontEnd.Live) {dir : Direction} (opened : c.frontEnd.closed dir = false) :
    e.frontEnd.closed dir = e.status.state.conducts dir ↔
      (c.status.state.conducts dir = true → e.status.state.conducts dir = true →
        ∃ entry ∈ banked ++ (turned ++ before), entry.sets dir = some true) := by
  have position := live.closed_eq few cycle.stays cycle.logged.served dir
  rw [opened] at position
  obtain ⟨m, commands⟩ := cycle.turned
  by_cases same : c.status.state.conducts dir = e.status.state.conducts dir
  · have quiet : ∀ entry ∈ banked ++ (turned ++ before), entry.sets dir = none ∨
        entry.sets dir = some true ∧ c.status.state.conducts dir = true := by
      rw [List.forall_mem_append, List.forall_mem_append]
      refine ⟨fun entry last => .inl (cycle.sets_banked dir entry last), ?_,
        cycle.sets_before dir⟩
      exact fun entry middle => .inl (Entry.sets_commands same entry (commands ▸ middle))
    have closing : e.frontEnd.closed dir = true ↔
        ∃ entry ∈ banked ++ (turned ++ before), entry.sets dir = some true := by
      rw [position]
      refine Entry.position_of_closing fun entry member opens => ?_
      rcases quiet entry member with none | ⟨close, -⟩ <;> simp_all
    cases on : e.status.state.conducts dir with
    | true =>
      rw [closing]
      exact ⟨fun h _ _ => h, fun h => h (same.trans on) rfl⟩
    | false =>
      refine ⟨fun _ _ contrary => (nomatch contrary), fun _ => ?_⟩
      rw [← Bool.not_eq_true, closing]
      rintro ⟨entry, member, close⟩
      rcases quiet entry member with none | ⟨-, was⟩
      · rw [close] at none
        cases none
      · rw [same, on] at was
        cases was
  · have reached : e.frontEnd.closed dir = e.status.state.conducts dir := by
      rw [position, Entry.position_append, Entry.position_append,
        Entry.position_of_idle _ (cycle.sets_banked dir), commands, Entry.position_commands,
        if_neg same]
    refine ⟨fun _ was now => ?_, fun _ => reached⟩
    exact absurd (was.trans now.symm) same

theorem banks_iff (cycle : Cycle c e before turned banked) (few : Balancing.bankCount n ≤ 3)
    (live : c.frontEnd.Live) :
    (∀ b < Balancing.bankCount n,
        e.frontEnd.banks b = Balancing.bankBits e.status.balancing b) ↔
      (∃ entry ∈ banked ++ (turned ++ before), ∃ b cells, entry.request = .balance b cells) ∨
        ∀ b < Balancing.bankCount n,
          c.frontEnd.banks b = Balancing.bankBits c.status.balancing b := by
  obtain ⟨t, untilTurn, after⟩ := cycle.logged.served.split
  have stays := List.forall_mem_append.mp cycle.stays
  have others : ∀ entry ∈ turned ++ before, ∀ b cells, entry.request ≠ .balance b cells := by
    obtain ⟨m, commands⟩ := cycle.turned
    rw [List.forall_mem_append, commands]
    refine ⟨Entry.forall_mem_reverse_map ?_, fun entry first b cells asked => ?_⟩
    · exact fun _ _ _ _ asked => by cases asked
    · rcases cycle.before entry first with aside | ⟨⟨dir, closes, -⟩, -⟩
      · rw [asked] at aside
        cases aside
      · rw [asked] at closes
        cases closes
  rcases cycle.banked with ⟨rfl, same⟩ | ⟨m, rfl⟩
  · cases after
    have kept := banks_served live.steady.1 stays.2 others untilTurn
    rw [same, List.nil_append]
    refine ⟨fun agree => .inr fun b bound => ?_, ?_⟩
    · rw [← kept b (Nat.lt_of_lt_of_le bound few), agree b bound]
    · rintro (⟨entry, member, b, cells, asked⟩ | agree) b bound
      · exact absurd asked (others entry member _ _)
      · rw [kept b (Nat.lt_of_lt_of_le bound few), agree b bound]
  · have steady : t.Steady := (live.served stays.2 untilTurn).steady
    obtain ⟨-, held⟩ := (setsBanks few).of_answered steady
      (fun b member => List.mem_range.mp member) after
    have written : ∀ b < Balancing.bankCount n,
        e.frontEnd.banks b = Balancing.bankBits e.status.balancing b := fun b bound =>
      (held b bound).trans (if_pos (List.mem_range.mpr bound))
    refine ⟨fun _ => ?_, fun _ => written⟩
    by_cases any : 0 < Balancing.bankCount n
    · refine .inl ⟨Entry.banked m e.status.balancing 0, List.mem_append_left _ ?_, _, _, rfl⟩
      exact List.mem_reverse.mpr (List.mem_map_of_mem (List.mem_range.mpr any))
    · exact .inr fun b bound => absurd (Nat.lt_of_le_of_lt (Nat.zero_le b) bound) any

end Cycle

theorem done_of_attempt {σ δ : Type} {task : EStateM δ (Controller σ n) Unit} {c : Controller σ n}
    (h : (c.attempt task).1 = true) : task c = .ok () (c.attempt task).2 := by
  rw [attempt] at h ⊢
  cases ran : task c with
  | ok _ d => rfl
  | error e d =>
    rw [ran] at h
    cases h

/-- After a start and a cycle on a chip that nothing disturbs any more, a switch is in line with the
state, except that a direction that was switched on before the start needs an alert to be switched on
again. The banks are in line with the status if the cycle has written them; otherwise they are as
before the start. -/
theorem restart_outputs (few : Balancing.bankCount n ≤ 3) (done : start now c = .ok () d)
    (fits : d.frontEnd.link.Fits) (calm : d.frontEnd.link.bus.Calm)
    (free : c.frontEnd.link.bus.frozen = []) (later : Nat) :
    (∀ dir, (d.tick later).frontEnd.closed dir = (d.tick later).status.state.conducts dir ↔
      (c.status.state.conducts dir = true → (d.tick later).status.state.conducts dir = true →
        ∃ entry ∈ since d (d.tick later), entry.sets dir = some true)) ∧
    ((∀ b < Balancing.bankCount n, (d.tick later).frontEnd.banks b =
        Balancing.bankBits (d.tick later).status.balancing b) ↔
      (∃ entry ∈ since d (d.tick later), ∃ b cells, entry.request = .balance b cells) ∨
        ∀ b < Balancing.bankCount n,
          c.frontEnd.banks b = Balancing.bankBits c.status.balancing b) := by
  have restarted := restarted_of_start done fits free
  have live : d.frontEnd.Live := ⟨restarted.steady, calm⟩
  obtain ⟨before, turned, banked, cycle⟩ := cycle_tick live later
  rw [cycle.logged.since_eq, ← restarted.state, ← restarted.balancing]
  refine ⟨fun dir => cycle.closed_iff few live (restarted.opened dir), ?_⟩
  rw [cycle.banks_iff few live]
  refine or_congr_right (forall₂_congr fun b bound => ?_)
  rw [restarted.banks b (Nat.lt_of_lt_of_le bound few)]

def bleeding : Controller (Driver Device 5) 5 :=
  .new (.new 5 (((({} : Device).poke 0x01 0x1F).poke 0x2C 0x10).poke 0x2D 0xDF) 1.0 3435.0)
    (.ofChemistry .lto 10.0)

def running : Controller (Driver Device 5) 5 :=
  (((bleeding.attempt (start 0)).2.tick 1000).tick 2000)

def restarted : Controller (Driver Device 5) 5 := (running.attempt (start 3000)).2

def cycled : Controller (Driver Device 5) 5 := restarted.tick 4000

theorem start_running : start 3000 running = .ok () restarted ∧
    restarted.frontEnd.link.Fits ∧ restarted.frontEnd.link.bus.Calm ∧
      running.frontEnd.link.bus.frozen = [] := by
  have facts : (running.attempt (start 3000)).1 = true ∧
      (restarted.frontEnd.link.address = restarted.frontEnd.link.bus.address ∧
        restarted.frontEnd.link.checked = restarted.frontEnd.link.bus.checked) ∧
      (restarted.frontEnd.link.bus.down = false ∧
        restarted.frontEnd.link.bus.failing = [] ∧
        restarted.frontEnd.link.bus.corruptions.isEmpty = true) ∧
      running.frontEnd.link.bus.frozen = [] := by decide +kernel
  obtain ⟨done, ⟨address, checked⟩, ⟨up, failing, corruptions⟩, free⟩ := facts
  have intact := List.isEmpty_iff.mp corruptions
  exact ⟨done_of_attempt done, ⟨address, checked⟩, ⟨up, by simp [failing], by simp [intact]⟩, free⟩

theorem restart_outputs_running :
    running.status.state = .normal ∧ cycled.status.state = .normal ∧
      (cycled.frontEnd.closed .charge = true ↔
        ∃ entry ∈ since restarted cycled, entry.sets .charge = some true) ∧
      ((∀ b < Balancing.bankCount 5, cycled.frontEnd.banks b =
          Balancing.bankBits cycled.status.balancing b) ↔
        (∃ entry ∈ since restarted cycled, ∃ b cells, entry.request = .balance b cells) ∨
          ∀ b < Balancing.bankCount 5, running.frontEnd.banks b = 0) := by
  obtain ⟨done, fits, calm, free⟩ := start_running
  obtain ⟨before, after, none⟩ : running.status.state = .normal ∧ cycled.status.state = .normal ∧
      running.status.balancing = 0 := by decide +kernel
  have outputs := restart_outputs (by decide) done fits calm free 4000
  rw [show restarted.tick 4000 = cycled from rfl, before, after, none] at outputs
  simp only [Balancing.bankBits_zero] at outputs
  obtain ⟨switches, banks⟩ := outputs
  exact ⟨before, after, (switches .charge).trans ⟨fun h => h rfl rfl, fun h _ _ => h⟩, banks⟩

/-- The state is normal before and after the second start, so the next cycle sees no change and leaves
the switches open that the start has opened. -/
theorem not_always_in_line :
    ¬∀ (c d : Controller (Driver Device 5) 5) (t now later : Nat),
      History (fun _ _ => False) bleeding t c → t ≤ now → start now c = .ok () d →
      d.frontEnd.link.Fits → d.frontEnd.link.bus.Calm → now ≤ later → d.readyAt ≤ later →
      (∀ dir, (d.tick later).frontEnd.closed dir = (d.tick later).status.state.conducts dir) ∧
        ∀ b < Balancing.bankCount 5,
          (d.tick later).frontEnd.banks b =
            Balancing.bankBits (d.tick later).status.balancing b := by
  intro always
  have history : History (fun _ _ => False) bleeding 2000 running :=
    .operation (.tick 2000) (.operation (.tick 1000) (.operation (.start 0) .new (by decide))
      (by decide)) (by decide)
  obtain ⟨done, fits, calm, -⟩ := start_running
  have opened : restarted.readyAt ≤ 4000 ∧
      cycled.frontEnd.closed .charge ≠ cycled.status.state.conducts .charge := by decide +kernel
  obtain ⟨switches, -⟩ := always running restarted 2000 3000 4000 history (by decide) done fits calm
    (by decide) opened.1
  exact opened.2 (switches .charge)

end Controller

end PackGuard
