import PackGuard.Proofs.ChipOutputs

/-!
The commands to the chip beside a panel that they are meant to act on: two switches, banks of
balancing switches, and the conditions that are reported. A command rewrites one register and keeps
the bits of it that belong to others, so any sequence of commands leaves the chip as the panel is
after them.
-/

namespace PackGuard

inductive Command where
  | setSwitch (switch : Switch) (closed : Bool)
  | balance (bank : Nat) (cells : UInt8)
  | clear (faults : FaultSet) (alerts : AlertSet)

def Command.carryOut {σ ε : Type} {n : Nat} [FrontEnd σ ε n] : Command → EStateM ε σ Unit
  | setSwitch switch closed => FrontEnd.perform (.setSwitch switch closed)
  | balance bank cells => FrontEnd.perform (.balance bank cells)
  | clear faults alerts => FrontEnd.perform (.clear faults alerts)

/-- What commands act on, whatever the chip keeps it in. -/
@[ext] structure Panel (n : Nat) where
  closed : Direction → Bool
  banks : Fin (Balancing.bankCount n) → UInt8
  faults : FaultSet
  alerts : AlertSet

namespace Panel

variable {n : Nat}

/-- A switch that the panel does not have, and a bank beyond the last one, are ignored. -/
def obey (panel : Panel n) : Command → Panel n
  | .setSwitch switch position =>
    { panel with closed := fun dir => if switch = dir.switch then position else panel.closed dir }
  | .balance bank cells =>
    { panel with banks := fun b => if b.val = bank then cells &&& 0x1F else panel.banks b }
  | .clear faults alerts =>
    { panel with faults := panel.faults \ faults, alerts := panel.alerts \ alerts }

def report (panel : Panel n) : Report where
  faults := panel.faults
  alerts := panel.alerts
  charging := panel.closed .charge
  discharging := panel.closed .discharge

end Panel

theorem FlagSet.ext_of_mem {κ : Type} [Enumerated κ] {s t : FlagSet κ}
    (named : ∀ i, ∃ a : κ, Enumerated.index a = i) (same : ∀ a, a ∈ s ↔ a ∈ t) : s = t := by
  ext i bound
  obtain ⟨a, place⟩ := named ⟨i, bound⟩
  have bits := same a
  simp only [FlagSet.mem_def, FlagSet.has, place] at bits
  simpa [BitVec.getLsbD_eq_getElem bound] using Bool.eq_iff_iff.mpr bits

theorem FaultKind.exists_index (i : Fin 15) : ∃ kind : FaultKind, Enumerated.index kind = i := by
  have listed : ∀ i : Fin 15, ∃ kind ∈ FaultKind.all, kind.index = i := by decide
  obtain ⟨kind, -, place⟩ := listed i
  exact ⟨kind, place⟩

theorem Alert.exists_index (i : Fin 2) : ∃ alert : Alert, Enumerated.index alert = i := by
  have listed : ∀ i : Fin 2, ∃ alert ∈ Alert.all, alert.index = i := by decide
  obtain ⟨alert, -, place⟩ := listed i
  exact ⟨alert, place⟩

namespace Chip

def statusPlace? : FaultKind → Option Nat
  | .dischargeOvercurrent => some 0
  | .shortCircuit => some 1
  | .cellOvervoltage => some 2
  | .cellUndervoltage => some 3
  | _ => none

def alertPlace : Alert → Nat
  | .overridden => 4
  | .notReady => 5

def Listed (faults : FaultSet) (alerts : AlertSet) (i : Nat) : Prop :=
  (∃ kind ∈ faults, statusPlace? kind = some i) ∨ ∃ alert ∈ alerts, alertPlace alert = i

theorem statusPlace?_inj {kind other : FaultKind} {i : Nat} (h : statusPlace? kind = some i)
    (h' : statusPlace? other = some i) : other = kind := by
  cases kind <;> cases h <;> cases other <;> cases h' <;> rfl

theorem alertPlace_inj {alert other : Alert} (h : alertPlace other = alertPlace alert) :
    other = alert := by
  revert h
  cases alert <;> cases other <;> decide

theorem statusPlace?_ne {kind : FaultKind} {alert : Alert} :
    statusPlace? kind ≠ some (alertPlace alert) := by
  cases kind <;> cases alert <;> decide

theorem listed_fault {faults : FaultSet} {alerts : AlertSet} {kind : FaultKind} {i : Nat}
    (place : statusPlace? kind = some i) : Listed faults alerts i ↔ kind ∈ faults := by
  constructor
  · rintro (⟨other, among, same⟩ | ⟨alert, -, rfl⟩)
    · exact statusPlace?_inj place same ▸ among
    · exact absurd place statusPlace?_ne
  · exact fun among => .inl ⟨kind, among, place⟩

theorem listed_alert {faults : FaultSet} {alerts : AlertSet} {alert : Alert} :
    Listed faults alerts (alertPlace alert) ↔ alert ∈ alerts := by
  constructor
  · rintro (⟨kind, -, place⟩ | ⟨other, among, same⟩)
    · exact absurd place statusPlace?_ne
    · exact alertPlace_inj same ▸ among
  · exact fun among => .inr ⟨alert, among, rfl⟩

def bitAt (i : Nat) : UInt8 := UInt8.ofNat (2 ^ i)

theorem statusPlace?_lt {kind : FaultKind} {i : Nat} (h : statusPlace? kind = some i) : i < 8 := by
  cases kind <;> cases h <;> decide

theorem alertPlace_lt (alert : Alert) : alertPlace alert < 8 := by cases alert <;> decide

theorem faultBit_eq (kind : FaultKind) : Driver.faultBit kind = (statusPlace? kind).map bitAt := by
  cases kind <;> rfl

theorem alertBit_eq (alert : Alert) : Driver.alertBit alert = bitAt (alertPlace alert) := by
  cases alert <;> rfl

theorem hasBits_bitAt (register : UInt8) {i : Nat} (bound : i < 8) :
    hasBits register (bitAt i) = register.toBitVec.getLsbD i := by
  have all : ∀ (x : BitVec 8), ∀ i < 8, hasBits ⟨x⟩ (bitAt i) = x.getLsbD i := by decide +kernel
  exact all register.toBitVec i bound

theorem getLsbD_bitAt {i j : Nat} (inside : i < 8) (bound : j < 8) :
    (bitAt i).toBitVec.getLsbD j = true ↔ i = j := by
  have all : ∀ i < 8, ∀ j < 8, (bitAt i).toBitVec.getLsbD j = true ↔ i = j := by decide +kernel
  exact all i inside j bound

theorem getLsbD_foldl_or (masks : List UInt8) (start : UInt8) (i : Nat) :
    (masks.foldl (· ||| ·) start).toBitVec.getLsbD i = true ↔
      start.toBitVec.getLsbD i = true ∨ ∃ mask ∈ masks, mask.toBitVec.getLsbD i = true := by
  induction masks generalizing start with
  | nil => simp
  | cons mask rest ih =>
    rw [List.foldl_cons, ih]
    simp [or_assoc]

theorem getLsbD_statusBits (faults : FaultSet) (alerts : AlertSet) {i : Nat} (bound : i < 8) :
    (Driver.statusBits faults alerts).toBitVec.getLsbD i = true ↔ Listed faults alerts i := by
  have empty : (0 : UInt8).toBitVec.getLsbD i = false := by simp
  simp only [Driver.statusBits, getLsbD_foldl_or, empty, Bool.false_eq_true, false_or,
    List.mem_append, List.mem_filterMap, List.mem_map, List.mem_filter, decide_eq_true_eq,
    faultBit_eq, alertBit_eq, Option.map_eq_some_iff]
  constructor
  · rintro ⟨mask, ⟨kind, ⟨-, among⟩, j, place, rfl⟩ | ⟨alert, ⟨-, among⟩, rfl⟩, set⟩
    · exact .inl ⟨kind, among, ((getLsbD_bitAt (statusPlace?_lt place) bound).mp set) ▸ place⟩
    · exact .inr ⟨alert, among, (getLsbD_bitAt (alertPlace_lt alert) bound).mp set⟩
  · rintro (⟨kind, among, place⟩ | ⟨alert, among, place⟩)
    · refine ⟨bitAt i, .inl ⟨kind, ⟨Enumerated.mem_all kind, among⟩, i, place, rfl⟩, ?_⟩
      exact (getLsbD_bitAt bound bound).mpr rfl
    · refine ⟨bitAt i, .inr ⟨alert, ⟨Enumerated.mem_all alert, among⟩, by rw [place]⟩, ?_⟩
      exact (getLsbD_bitAt bound bound).mpr rfl

def Device.status (d : Device) (i : Nat) : Bool := (d.get Register.status).toBitVec.getLsbD i

theorem Device.status_store {d : Device} (clears : d.stickyStatus = 0) (value : UInt8) {i : Nat}
    (bound : i < 8) :
    (d.store Register.status value).status i = true ↔
      d.status i = true ∧ ¬value.toBitVec.getLsbD i = true := by
  have held : (d.store Register.status value).get Register.status =
      (d.get Register.status &&& ~~~value) ||| 0 := by
    rw [store, if_pos rfl, get_poke_self, clears]
  simp [status, held, bound]

namespace Driver

variable {n : Nat} {d e : Driver Device n}

def panel (d : Driver Device n) : Panel n where
  closed dir := d.closed dir
  banks b := d.banks b
  faults := .filterAll fun kind => (statusPlace? kind).any d.link.bus.status
  alerts := .filterAll fun alert => d.link.bus.status (alertPlace alert)

/-- A live chip whose status bits stay cleared. -/
structure Docile (d : Driver Device n) : Prop where
  live : d.Live
  clears : d.link.bus.stickyStatus = 0

theorem Docile.of_spares {spared : Register → Prop} (docile : d.Docile)
    (spares : Link.Spares spared d.link e.link) : e.Docile where
  live := docile.live.of_spares spares
  clears := (congrArg (fun s => s.2.2.stickyStatus) spares.scene).trans docile.clears

theorem hasBits_setBits_apart (register : UInt8) {mask bits kept : UInt8}
    (within : mask &&& kept = mask) (apart : mask &&& bits = 0) (on : Bool) :
    hasBits (setBits (register &&& kept) bits on) mask = hasBits register mask := by
  have same : setBits (register &&& kept) bits on &&& mask = register &&& mask := by
    rw [← UInt8.toBitVec_inj] at within apart ⊢
    ext i bound
    have inside := congrArg (fun x => x.getLsbD i) within
    have outside := congrArg (fun x => x.getLsbD i) apart
    cases on <;> simp [setBits, bound] at inside outside ⊢ <;> grind
  rw [hasBits, hasBits, same]

def settings : List UInt8 :=
  [ControlBit.counter, ControlBit.counterOnce, ControlBit.delayDisabled]

theorem hasBits_setBits_settings (register : UInt8) (dir : Direction) (on : Bool) :
    ∀ mask ∈ settings, hasBits (setBits (register &&& ControlBit.defined2) (bit dir) on) mask =
      hasBits register mask := by
  have apart : ∀ mask ∈ settings, mask &&& ControlBit.defined2 = mask ∧ mask &&& bit dir = 0 := by
    cases dir <;> decide +kernel
  intro mask among
  obtain ⟨defined, apart⟩ := apart mask among
  exact hasBits_setBits_apart register defined apart on

end Driver

/-- What a command leaves in the registers of a chip with `n` cell channels. -/
def Done (n : Nat) (before after : Device) : Command → Prop
  | .setSwitch switch position =>
    (∀ dir, hasBits (after.get Register.control2) (Driver.bit dir) =
      if switch = dir.switch then position
      else hasBits (before.get Register.control2) (Driver.bit dir)) ∧
    (∀ mask ∈ Driver.settings, hasBits (after.get Register.control2) mask =
      hasBits (before.get Register.control2) mask) ∧
    ∀ r ≠ Register.control2, after.get r = before.get r
  | .balance bank cells =>
    (bank < Balancing.bankCount n → after.get (Driver.bankRegister bank) = cells &&& 0x1F) ∧
    ∀ r, (bank < Balancing.bankCount n → r ≠ Driver.bankRegister bank) → after.get r = before.get r
  | .clear faults alerts =>
    (∀ i < 8, after.status i = true ↔ before.status i = true ∧ ¬Listed faults alerts i) ∧
    ∀ r ≠ Register.status, after.get r = before.get r

namespace Driver

variable {n : Nat} {d e : Driver Device n}

section Done

theorem done_setSwitch (docile : d.Docile) (switch : Switch) (position : Bool) :
    ∃ e, setSwitch switch position d = .ok () e ∧ e.Docile ∧
      Done n d.link.bus e.link.bus (.setSwitch switch position) := by
  have settable : d.link.bus.Settable Register.control2 :=
    ⟨by decide, by decide, by rw [docile.live.steady.2]; exact List.not_mem_nil⟩
  have moved : ∀ other : Direction, ∃ e : Driver Device n,
      setSwitch.operate position (bit other) d = .ok () e ∧ e.Docile ∧
        Done n d.link.bus e.link.bus (.setSwitch other.switch position) := by
    intro other
    obtain ⟨link, done, spares, held⟩ := update_calm docile.live.steady.1 docile.live.calm settable
      fun control => setBits (control &&& ControlBit.defined2) (bit other) position
    refine ⟨_, done, docile.of_spares spares, fun dir => ?_, fun mask among => ?_, spares.kept⟩
    · simp only [held, hasBits_setBits, Direction.switch_inj, eq_comm (a := dir)]
    · rw [held]
      exact hasBits_setBits_settings _ other position mask among
  cases switch with
  | charge => exact moved .charge
  | discharge => exact moved .discharge
  | precharge =>
    refine ⟨d, rfl, docile, fun dir => ?_, fun _ _ => rfl, fun _ _ => rfl⟩
    cases dir <;> rfl

theorem done_balance (few : Balancing.bankCount n ≤ 3) (docile : d.Docile) (bank : Nat)
    (cells : UInt8) :
    ∃ e, balance bank cells d = .ok () e ∧ e.Docile ∧
      Done n d.link.bus e.link.bus (.balance bank cells) := by
  unfold balance
  split
  · rename_i present
    obtain ⟨ordinary, low⟩ := bankRegister_plain bank (Nat.lt_of_lt_of_le present few)
    have settable : d.link.bus.Settable (bankRegister bank) :=
      ⟨ordinary, low, by rw [docile.live.steady.2]; exact List.not_mem_nil⟩
    obtain ⟨link, done, spares, held⟩ := write_calm docile.live.steady.1 docile.live.calm settable
      (cells &&& 0x1F)
    exact ⟨_, done, docile.of_spares spares, fun _ => held, fun r apart =>
      spares.kept r (apart present)⟩
  · rename_i absent
    exact ⟨d, rfl, docile, fun present => absurd present absent, fun _ _ => rfl⟩

theorem done_clear (docile : d.Docile) (faults : FaultSet) (alerts : AlertSet) :
    ∃ e, clear faults alerts d = .ok () e ∧ e.Docile ∧
      Done n d.link.bus e.link.bus (.clear faults alerts) := by
  change ∃ e, (if statusBits faults alerts ≠ 0 then
    write Register.status (statusBits faults alerts) else pure ()) d = .ok () e ∧ _
  split
  · obtain ⟨link, done, spares, registers⟩ := Link.write_calm docile.live.steady.1
      docile.live.calm Register.status (statusBits faults alerts)
    have held : link.bus.get Register.status =
        (d.link.bus.store Register.status (statusBits faults alerts)).get Register.status :=
      congrArg (fun registers => registers.get Register.status.toFin) registers
    refine ⟨{ d with link }, access_of_ok done, docile.of_spares spares, fun i bound => ?_,
      spares.kept⟩
    rw [Device.status, held, ← getLsbD_statusBits faults alerts bound]
    exact Device.status_store docile.clears _ bound
  · rename_i none
    have none : statusBits faults alerts = 0 := not_not.mp none
    refine ⟨d, rfl, docile, fun i bound => ?_, fun _ _ => rfl⟩
    rw [← getLsbD_statusBits faults alerts bound, none]
    simp

end Done

theorem mem_panel_faults {kind : FaultKind} :
    kind ∈ d.panel.faults ↔ ∃ i, statusPlace? kind = some i ∧ d.link.bus.status i = true := by
  simp [panel, Option.any_eq_true]

theorem mem_panel_alerts {alert : Alert} :
    alert ∈ d.panel.alerts ↔ d.link.bus.status (alertPlace alert) = true := by
  simp [panel]

theorem panel_obey (few : Balancing.bankCount n ≤ 3) {command : Command}
    (done : Done n d.link.bus e.link.bus command) : e.panel = d.panel.obey command := by
  have apart : ∀ b < 3, bankRegister b ≠ Register.control2 ∧ bankRegister b ≠ Register.status := by
    decide
  have bankOf : ∀ b : Fin (Balancing.bankCount n), b.val < 3 := fun b => b.isLt.trans_le few
  have closed_of (kept : e.link.bus.get Register.control2 = d.link.bus.get Register.control2) :
      e.panel.closed = d.panel.closed := by
    funext dir
    simp [panel, closed, kept]
  have reported_of (kept : e.link.bus.get Register.status = d.link.bus.get Register.status) :
      e.panel.faults = d.panel.faults ∧ e.panel.alerts = d.panel.alerts := by
    have status : e.link.bus.status = d.link.bus.status := by
      funext i
      rw [Device.status, kept, Device.status]
    simp [panel, status]
  rw [Panel.ext_iff]
  cases command with
  | setSwitch switch position =>
    obtain ⟨switches, -, kept⟩ := done
    obtain ⟨faults, alerts⟩ := reported_of (kept _ (by decide))
    refine ⟨funext switches, funext fun b => ?_, faults, alerts⟩
    exact kept _ (apart b (bankOf b)).1
  | balance bank cells =>
    obtain ⟨written, kept⟩ := done
    obtain ⟨faults, alerts⟩ := reported_of (kept _ fun present =>
      (apart bank (present.trans_le few)).2.symm)
    have closed := closed_of (kept _ fun present => (apart bank (present.trans_le few)).1.symm)
    refine ⟨closed, funext fun b => ?_, faults, alerts⟩
    simp only [Panel.obey]
    split
    · rename_i same
      subst same
      exact written b.isLt
    · rename_i differ
      refine kept _ fun present same => differ ?_
      exact bankRegister_inj bank (present.trans_le few) b (bankOf b) same
  | clear faults alerts =>
    obtain ⟨cleared, kept⟩ := done
    have closed := closed_of (kept _ (by decide))
    refine ⟨closed, funext fun b => kept _ (apart b (bankOf b)).2, ?_, ?_⟩
    · refine FlagSet.ext_of_mem FaultKind.exists_index fun kind => ?_
      rw [Panel.obey, FlagSet.mem_sdiff, mem_panel_faults, mem_panel_faults]
      constructor
      · rintro ⟨i, place, set⟩
        obtain ⟨before, kept⟩ := (cleared i (statusPlace?_lt place)).mp set
        exact ⟨⟨i, place, before⟩, (listed_fault place).not.mp kept⟩
      · rintro ⟨⟨i, place, before⟩, kept⟩
        exact ⟨i, place, (cleared i (statusPlace?_lt place)).mpr
          ⟨before, (listed_fault place).not.mpr kept⟩⟩
    · refine FlagSet.ext_of_mem Alert.exists_index fun alert => ?_
      rw [Panel.obey, FlagSet.mem_sdiff, mem_panel_alerts, mem_panel_alerts,
        cleared _ (alertPlace_lt alert), listed_alert]

theorem panel_congr (kept : ∀ r, e.link.bus.get r = d.link.bus.get r) : e.panel = d.panel := by
  have status : e.link.bus.status = d.link.bus.status := by
    funext i
    rw [Device.status, kept, Device.status]
  simp only [panel, closed, banks, status, kept]

theorem report_panel (d : Driver Device n) :
    d.panel.report =
      reportOf (d.link.bus.get Register.status) (d.link.bus.get Register.control2) := by
  have fault : ∀ kind, (statusPlace? kind).any d.link.bus.status =
      (faultBit kind).any (hasBits (d.link.bus.get Register.status)) := by
    intro kind
    rw [faultBit_eq]
    cases place : statusPlace? kind with
    | none => rfl
    | some i => exact (hasBits_bitAt _ (statusPlace?_lt place)).symm
  have alert : ∀ alert, d.link.bus.status (alertPlace alert) =
      hasBits (d.link.bus.get Register.status) (alertBit alert) := by
    intro alert
    rw [alertBit_eq, hasBits_bitAt _ (alertPlace_lt alert)]
    rfl
  simp only [Panel.report, panel, reportOf, fault, alert]
  rfl

theorem readReport_panel (docile : d.Docile) :
    ∃ e, readReport d = .ok d.panel.report e ∧ e.panel = d.panel := by
  obtain ⟨between, first, spared⟩ := Link.readByte_calm docile.live.steady.1 docile.live.calm
    Register.status
  obtain ⟨link, second, spares⟩ := Link.readByte_calm (spared.fits docile.live.steady.1)
    (spared.calm docile.live.calm) Register.control2
  have status : readByte Register.status d = .ok _ { d with link := between } := access_of_ok first
  have control : (readByte Register.control2 : EStateM _ (Driver Device n) UInt8)
      { d with link := between } = .ok (d.link.bus.get Register.control2) { d with link } := by
    rw [← spared.kept Register.control2 trivial]
    exact access_of_ok second
  have kept := fun r => (spared.trans spares).kept r trivial
  refine ⟨{ d with link }, ?_, panel_congr kept⟩
  rw [report_panel]
  simp only [readReport, bind, EStateM.bind, status, control]
  rfl

theorem carryOut_docile (few : Balancing.bankCount n ≤ 3) (docile : d.Docile) (command : Command) :
    ∃ e, command.carryOut d = .ok () e ∧ e.Docile ∧ Done n d.link.bus e.link.bus command := by
  cases command with
  | setSwitch switch position => exact done_setSwitch docile switch position
  | balance bank cells => exact done_balance few docile bank cells
  | clear faults alerts => exact done_clear docile faults alerts

theorem run_docile (few : Balancing.bankCount n ≤ 3) (docile : d.Docile) (commands : List Command) :
    ∃ e, commands.forM Command.carryOut d = .ok () e ∧ e.Docile ∧
      e.panel = commands.foldl Panel.obey d.panel := by
  induction commands generalizing d with
  | nil => exact ⟨d, rfl, docile, rfl⟩
  | cons command rest ih =>
    obtain ⟨between, first, docileThen, done⟩ := carryOut_docile few docile command
    obtain ⟨e, others, docileEnd, ends⟩ := ih docileThen
    refine ⟨e, ?_, docileEnd, ?_⟩
    · change (command.carryOut >>= fun _ => rest.forM Command.carryOut) d = _
      simp only [bind, EStateM.bind, first]
      exact others
    · rw [ends, panel_obey few done, List.foldl_cons]

/-- On a chip that nothing disturbs each command does to the registers what it is meant to and
nothing else, and the report that follows tells so. Whatever commands follow each other, the chip
is after them what the panel is. -/
theorem commands_refine_panel (few : n ≤ 15) (docile : d.Docile) :
    (∀ command : Command, ∃ e, command.carryOut d = .ok () e ∧
      Done n d.link.bus e.link.bus command ∧
      ∃ f, perform .readReport e = .ok (d.panel.obey command).report f) ∧
    ∀ commands : List Command, ∃ e, commands.forM Command.carryOut d = .ok () e ∧
      e.panel = commands.foldl Panel.obey d.panel ∧
      ∃ f, perform .readReport e = .ok (commands.foldl Panel.obey d.panel).report f := by
  have banks : Balancing.bankCount n ≤ 3 := by
    simp only [Balancing.bankCount, Balancing.bankSize]
    omega
  refine ⟨fun command => ?_, fun commands => ?_⟩
  · obtain ⟨e, first, docileThen, done⟩ := carryOut_docile banks docile command
    obtain ⟨f, told, -⟩ := readReport_panel docileThen
    exact ⟨e, first, done, f, panel_obey banks done ▸ told⟩
  · obtain ⟨e, all, docileThen, ends⟩ := run_docile banks docile commands
    obtain ⟨f, told, -⟩ := readReport_panel docileThen
    exact ⟨e, all, ends, f, ends ▸ told⟩

def crowded : Driver Device 15 :=
  { link := { bus := { registers := .replicate 256 0xFF, address := 0x18 }, address := 0x18 },
    shunt := 1.0, beta := 3435.0 }

theorem commands_refine_panel_crowded :
    ∃ e, [.setSwitch .charge false, .balance 2 0xF5, .clear {.shortCircuit} {.notReady}].forM
        Command.carryOut crowded = .ok () e ∧ e.panel.closed .charge = false ∧
      e.panel.closed .discharge = true ∧ e.panel.banks ⟨2, by decide⟩ = 0x15 ∧
      .shortCircuit ∉ e.panel.faults ∧ .cellOvervoltage ∈ e.panel.faults := by
  have docile : crowded.Docile := ⟨⟨⟨⟨rfl, rfl⟩, rfl⟩, rfl, nofun, nofun⟩, rfl⟩
  obtain ⟨-, runs⟩ := commands_refine_panel (Nat.le_refl 15) docile
  obtain ⟨e, done, ends, -⟩ := runs
    [.setSwitch .charge false, .balance 2 0xF5, .clear {.shortCircuit} {.notReady}]
  refine ⟨e, done, ?_⟩
  rw [ends]
  decide +kernel

end Driver
end Chip
end PackGuard
