import PackGuard.Proofs.BalancingBanks
import PackGuard.Proofs.ProtectionRegisters
import PackGuard.Proofs.SwitchPosition

/-!
The outputs of the chip: its two switches, and its banks of balancing switches. Activation opens the
switches and leaves the banks alone. After that, while nothing disturbs the chip, the switches are
where the journal has them.
-/

namespace PackGuard

def Request.aside : Request → Bool
  | setSwitch .. | balance .. | enterMode _ => false
  | _ => true

namespace Chip

/-- A write in a wrong mode may reach the register after the one that is meant. -/
theorem Device.get_accept_ne {d : Device} {r r' : Register} (apart : r ≠ r') (beside : r + 1 ≠ r')
    {data : List UInt8} (short : data.length ≤ 2) : (d.accept (r :: data)).get r' = d.get r' := by
  cases mode : d.checked with
  | true =>
    change (if d.checked = true then _ else _ : Device).get r' = _
    rw [if_pos mode]
    split
    · split
      · exact get_store_ne apart _
      · rfl
    · rfl
  | false =>
    rw [accept_unchecked mode]
    match data, short with
    | [], _ => rfl
    | [value], _ => exact get_store_ne apart _
    | [value, sum], _ =>
      have second := @get_store_ne
        { ({ d with pointer := r } : Device).store r value with pointer := r + 1 } _ _ beside sum
      exact second.trans (get_store_ne apart _)

namespace Link

variable {kept : Register → Prop}

def KeepsOf (kept : Register → Prop) (link next : Link Device) : Prop :=
  ∀ r, kept r → next.bus.get r = link.bus.get r

theorem walk_keepsOf : Walk (KeepsOf kept) where
  refl _ _ _ := rfl
  trans _ _ _ h k r among := (k r among).trans (h r among)
  fetch r count := by
    intro link r' _
    rw [ending, fetch_eq]
    cases link.bus.acknowledges link.address with
    | false => rfl
    | true =>
      rw [if_pos rfl, Device.accept_register]
      rfl

theorem keepsOf_write {r : Register} (outside : ∀ r', kept r' → r ≠ r' ∧ r + 1 ≠ r')
    (value : UInt8) : Leads (KeepsOf kept) (write r value) := by
  intro link r' among
  obtain ⟨apart, beside⟩ := outside r' among
  have untouched : (link.bus.accept (link.writing r value)).get r' = link.bus.get r' := by
    unfold writing
    split
    · exact Device.get_accept_ne apart beside (Nat.le_refl 2)
    · exact Device.get_accept_ne apart beside (Nat.le_succ 1)
  rw [ending, write_eq]
  cases link.bus.acknowledges link.address with
  | false => rfl
  | true => exact untouched

/-- The detection writes the register of the setup only, or also the one after it. -/
abbrev BeyondSetup (r : Register) : Prop :=
  Register.counterConfig ≠ r ∧ Register.counterConfig + 1 ≠ r

theorem keepsOf_probe : Leads (KeepsOf BeyondSetup) probe := by
  have walk : Walk (KeepsOf BeyondSetup) := walk_keepsOf
  have tried : ∀ address checked, Leads (KeepsOf BeyondSetup) (answers address checked) :=
    fun _ _ => leads_bind walk.trans (leads_modify fun _ _ _ => rfl) fun _ =>
      leads_tryCatch walk.trans
        (leads_bind walk.trans (keepsOf_write (fun _ among => among) _) fun _ =>
          leads_bind walk.trans (walk.readByte _) fun _ => leads_pure walk.refl _)
        fun _ => leads_pure walk.refl _
  have among : ∀ ways, Leads (KeepsOf BeyondSetup) (probeAmong ways) := by
    intro ways
    induction ways with
    | nil => exact leads_throw walk.refl _
    | cons way rest ih =>
      obtain ⟨address, checked⟩ := way
      refine leads_bind walk.trans (tried address checked) fun found => ?_
      cases found with
      | true => exact leads_pure walk.refl _
      | false => exact ih
  exact among candidates

end Link

namespace Driver

variable {n : Nat} {d e : Driver Device n}

def calibrate : EStateM (ChipError DeviceError) (Driver Device n) Unit := do
  let offset ← readByte Register.offset
  modify fun d => { d with offset := offset.toInt8.toInt }
  let gain1 ← readByte Register.gain1
  let gain2 ← readByte Register.gain2
  modify fun d => { d with gain := gainOf gain1 gain2 }

theorem leads_calibrate {ρ : Link Device → Link Device → Prop} (walk : Link.Walk ρ) :
    Leads (Along ρ) (calibrate : EStateM _ (Driver Device n) Unit) :=
  leads_bind (trans_along walk) (leads_readByte walk _) fun _ =>
    leads_bind (trans_along walk) (leads_modify fun d => walk.refl d.link) fun _ =>
      leads_bind (trans_along walk) (leads_readByte walk _) fun _ =>
        leads_bind (trans_along walk) (leads_readByte walk _) fun _ =>
          leads_modify fun d => walk.refl d.link

theorem activated (done : perform (.enterMode .active) d = .ok () e) (fits : e.link.Fits)
    (free : Register.control2 ∉ d.link.bus.frozen) :
    e.link.bus.get Register.control2 = ControlBit.counter ∧
      (∀ b < 3, e.banks b = d.banks b) ∧ e.link.bus.frozen = d.link.bus.frozen := by
  change activate d = .ok () e at done
  obtain ⟨_, probed, detected, done⟩ := exists_of_bind_ok done
  obtain ⟨_, powered, first, done⟩ := exists_of_bind_ok done
  obtain ⟨_, opened, second, done⟩ := exists_of_bind_ok done
  change calibrate opened = .ok () e at done
  have detected := of_access_ok detected
  have first := of_access_ok first
  have second := of_access_ok second
  -- The mode is known to be right at the end only, but no access after the detection changes it.
  have sceneFirst := (Link.leads_of_keeps (Link.keeps_write _ _)).of_ok first
  have sceneSecond := (Link.leads_of_keeps (Link.keeps_write _ _)).of_ok second
  have sceneRest := (leads_calibrate Link.walk_scene).of_ok done
  have fitsOpened : opened.link.Fits := fits.of_scene sceneRest.symm
  have fitsPowered : powered.link.Fits := fitsOpened.of_scene sceneSecond.symm
  have fitsProbed : probed.link.Fits := fitsPowered.of_scene sceneFirst.symm
  have untouched := Link.keepsOf_probe.of_ok detected
  have inside : ∀ r ∈ [Register.control1, Register.control2], ∀ value,
      Leads (Link.Sparing (· ∉ [Register.control1, Register.control2])) (Link.write r value) :=
    fun r among value => Link.leads_write (fun spared => spared among) value
  have spareFirst := (inside Register.control1 (by decide) _).of_ok first fitsProbed
  have spareSecond := (inside Register.control2 (by decide) _).of_ok second fitsPowered
  have spareRest : Link.Spares (fun _ => True) opened.link e.link :=
    (leads_calibrate Link.walk_sparing).of_ok done fitsOpened
  have frozen : probed.link.bus.frozen = d.link.bus.frozen :=
    congrArg (fun s => s.2.2.frozen) (Link.scene_of_probe detected)
  refine ⟨?_, fun b bound => ?_, ?_⟩
  · have settable : powered.link.bus.Settable Register.control2 :=
      ⟨by decide, by decide, by rw [spareFirst.frozen, frozen]; exact free⟩
    have registers := Link.registers_of_write fitsPowered.address fitsPowered.checked second
    rw [spareRest.kept _ trivial, ← settable.get_store ControlBit.counter, Device.get_eq,
      Device.get_eq, registers]
  · have apart : ∀ b < 3, bankRegister b ∉ [Register.control1, Register.control2] ∧
        Register.counterConfig ≠ bankRegister b ∧
        Register.counterConfig + 1 ≠ bankRegister b := by decide
    obtain ⟨away, away'⟩ := apart b bound
    rw [banks, banks, spareRest.kept _ trivial, spareSecond.kept _ away, spareFirst.kept _ away,
      untouched _ away']
  · rw [spareRest.frozen, spareSecond.frozen, spareFirst.frozen, frozen]

section Outputs

def bit : Direction → UInt8
  | .charge => ControlBit.charge
  | .discharge => ControlBit.discharge

def closed (dir : Direction) (d : Driver Device n) : Bool :=
  hasBits (d.link.bus.get Register.control2) (bit dir)

def outputs : List Register := Register.control2 :: (List.range 3).map bankRegister

/-- The chip is in a steady condition, and nothing disturbs it any more. -/
structure Live (d : Driver Device n) : Prop where
  steady : d.Steady
  calm : d.link.bus.Calm

theorem hasBits_setBits (register : UInt8) (dir other : Direction) (on : Bool) :
    hasBits (setBits (register &&& ControlBit.defined2) (bit other) on) (bit dir) =
      if dir = other then on else hasBits register (bit dir) := by
  have all : ∀ (x : BitVec 8) (dir other : Direction) (on : Bool),
      hasBits (setBits (⟨x⟩ &&& ControlBit.defined2) (bit other) on) (bit dir) =
        if dir = other then on else hasBits ⟨x⟩ (bit dir) := by
    intro x dir other on
    revert x
    cases dir <;> cases other <;> cases on <;> decide +kernel
  exact all register.toBitVec dir other on

variable {entries : List (Entry n)}

theorem leads_served {ρ : Link Device → Link Device → Prop} (walk : Link.Walk ρ)
    (h : ∀ entry ∈ entries, (∀ mode, entry.request ≠ .enterMode mode) ∧
      ∀ r ∈ written n entry.request, ∀ value, Leads ρ (Link.write r value))
    (served : Served d entries e) : ρ d.link e.link := by
  induction served with
  | refl => exact walk.refl _
  | answered _ _ now ih =>
    have earlier := ih fun entry member => h entry (List.mem_cons_of_mem _ member)
    obtain ⟨stays, writes⟩ := h _ List.mem_cons_self
    exact walk.trans _ _ _ earlier ((leads_perform walk stays writes).of_ok now)
  | failed _ _ now ih =>
    have earlier := ih fun entry member => h entry (List.mem_cons_of_mem _ member)
    obtain ⟨stays, writes⟩ := h _ List.mem_cons_self
    exact walk.trans _ _ _ earlier ((leads_perform walk stays writes).of_error now)

theorem scene_served (stays : ∀ entry ∈ entries, ∀ mode, entry.request ≠ .enterMode mode)
    (served : Served d entries e) : e.link.scene = d.link.scene :=
  leads_served Link.walk_scene
    (fun entry member => ⟨stays entry member, fun r _ value =>
      Link.leads_of_keeps (Link.keeps_write r value)⟩) served

theorem spares_served {spared : Register → Prop} (fits : d.link.Fits)
    (h : ∀ entry ∈ entries, (∀ mode, entry.request ≠ .enterMode mode) ∧
      ∀ r ∈ written n entry.request, ¬spared r)
    (served : Served d entries e) : Link.Spares spared d.link e.link :=
  leads_served Link.walk_sparing
    (fun entry member => ⟨(h entry member).1, fun r among value =>
      Link.leads_write ((h entry member).2 r among) value⟩) served fits

theorem Live.of_spares {spared : Register → Prop} (live : d.Live)
    (spares : Link.Spares spared d.link e.link) : e.Live :=
  ⟨⟨spares.fits live.steady.1, spares.frozen.trans live.steady.2⟩, spares.calm live.calm⟩

theorem Live.served (live : d.Live)
    (stays : ∀ entry ∈ entries, ∀ mode, entry.request ≠ .enterMode mode)
    (served : Served d entries e) : e.Live := by
  have spares : Link.Spares (fun _ => False) d.link e.link :=
    spares_served live.steady.1 (fun entry member => ⟨stays entry member, fun _ _ none => none⟩)
      served
  exact live.of_spares spares

theorem Live.setSwitch (live : d.Live) (switch : Switch) (on : Bool) :
    ∃ f, perform (.setSwitch switch on) d = .ok () f ∧
      ∀ dir, f.closed dir = ((Request.setSwitch switch on).sets dir).getD (d.closed dir) := by
  have settable : d.link.bus.Settable Register.control2 :=
    ⟨by decide, by decide, by rw [live.steady.2]; exact List.not_mem_nil⟩
  have moved : ∀ other : Direction, ∃ f,
      setSwitch.operate on (bit other) d = .ok () f ∧
        ∀ dir, f.closed dir = if dir = other then on else d.closed dir := by
    intro other
    obtain ⟨link, done, -, held⟩ := update_calm live.steady.1 live.calm settable
      fun control => setBits (control &&& ControlBit.defined2) (bit other) on
    refine ⟨_, done, fun dir => ?_⟩
    rw [closed, held]
    exact hasBits_setBits _ dir other on
  cases switch with
  | charge =>
    obtain ⟨f, done, switches⟩ := moved .charge
    refine ⟨f, done, fun dir => (switches dir).trans ?_⟩
    cases dir <;> rfl
  | discharge =>
    obtain ⟨f, done, switches⟩ := moved .discharge
    refine ⟨f, done, fun dir => (switches dir).trans ?_⟩
    cases dir <;> rfl
  | precharge =>
    refine ⟨d, rfl, fun dir => ?_⟩
    cases dir <;> rfl

theorem Live.balance (live : d.Live) (b : Nat) (cells : UInt8) :
    ∃ f, perform (.balance b cells) d = .ok () f := by
  change ∃ f, Driver.balance b cells d = .ok () f
  unfold Driver.balance
  split
  · obtain ⟨link, done, -⟩ := Link.write_calm live.steady.1 live.calm
      (Register.balancing + UInt8.ofNat b) (cells &&& 0x1F)
    exact ⟨_, access_of_ok done⟩
  · exact ⟨d, rfl⟩

theorem mem_written {request : Request} {r : Register} (among : r ∈ written n request) :
    r ∈ Register.status :: protectRegisters ∨
      (∃ switch on, request = .setSwitch switch on) ∧ r = Register.control2 ∨
      ∃ b cells, request = .balance b cells ∧ b < Balancing.bankCount n ∧ r = bankRegister b := by
  cases request with
  | setSwitch switch on =>
    cases switch with
    | precharge => cases among
    | charge | discharge => exact .inr (.inl ⟨⟨_, _, rfl⟩, List.mem_singleton.mp among⟩)
  | balance b cells =>
    rw [written] at among
    split at among
    · rename_i bound
      exact .inr (.inr ⟨b, cells, rfl, bound, List.mem_singleton.mp among⟩)
    · cases among
  | protect kind codes =>
    have inside : ∀ r ∈ written n (.protect kind codes), r ∈ protectRegisters := by
      cases kind <;> simp [written, protectRegisters]
    exact .inl (List.mem_cons_of_mem _ (inside r among))
  | readCurrent | clear => exact .inl (List.mem_singleton.mp among ▸ List.mem_cons_self)
  | _ => cases among

theorem leads_elsewhere (few : Balancing.bankCount n ≤ 3) {request : Request}
    (stays : ∀ mode, request ≠ .enterMode mode)
    (elsewhere : ∀ switch on, request ≠ .setSwitch switch on) :
    Leads (Along (Link.Sparing (· = Register.control2)))
      (perform request : EStateM _ (Driver Device n) (request.Answer n)) := by
  have protections : Register.control2 ∉ Register.status :: protectRegisters := by decide
  have apart : ∀ b < 3, bankRegister b ≠ Register.control2 := by decide
  refine spares_perform stays fun r among same => ?_
  subst same
  rcases mem_written among with other | ⟨⟨switch, on, asked⟩, -⟩ | ⟨b, _, -, bound, same⟩
  · exact protections other
  · exact elsewhere switch on asked
  · exact apart b (Nat.lt_of_lt_of_le bound few) same.symm

theorem stays_of_aside (aside : ∀ entry ∈ entries, entry.request.aside = true) :
    ∀ entry ∈ entries, ∀ mode, entry.request ≠ .enterMode mode := by
  intro entry member mode asked
  have aside := aside entry member
  rw [asked] at aside
  cases aside

theorem bank_mem_outputs {b : Nat} (bound : b < 3) : bankRegister b ∈ outputs :=
  List.mem_cons_of_mem _ (List.mem_map_of_mem (List.mem_range.mpr bound))

theorem spares_outputs (fits : d.link.Fits) (aside : ∀ entry ∈ entries, entry.request.aside = true)
    (served : Served d entries e) : Link.Spares (· ∈ outputs) d.link e.link := by
  have protections : ∀ r ∈ Register.status :: protectRegisters, r ∉ outputs := by decide +kernel
  have stays := stays_of_aside aside
  refine spares_served fits (fun entry member => ⟨stays entry member, fun r among => ?_⟩) served
  have aside := aside entry member
  rcases mem_written among with other | ⟨⟨switch, on, asked⟩, -⟩ | ⟨b, cells, asked, -⟩
  · exact protections r other
  · rw [asked] at aside
    cases aside
  · rw [asked] at aside
    cases aside

theorem sets_eq_none {request : Request} (stays : ∀ mode, request ≠ .enterMode mode)
    (elsewhere : ∀ switch on, request ≠ .setSwitch switch on) (dir : Direction) :
    request.sets dir = none := by
  cases request with
  | setSwitch switch on => exact absurd rfl (elsewhere switch on)
  | enterMode mode => exact absurd rfl (stays mode)
  | _ => rfl

section Step

variable (few : Balancing.bankCount n ≤ 3) (live : d.Live) {request : Request}
  (stays : ∀ mode, request ≠ .enterMode mode)

include few live stays

theorem Live.closed_elsewhere (elsewhere : ∀ switch on, request ≠ .setSwitch switch on)
    (dir : Direction) :
    (ending (perform request : EStateM _ (Driver Device n) (request.Answer n)) d).closed dir =
      d.closed dir := by
  have spares := leads_elsewhere few stays elsewhere d live.steady.1
  rw [closed, closed, spares.kept _ rfl]

theorem Live.closed_of_answered {answer : request.Answer n}
    (done : perform request d = .ok answer e) (dir : Direction) :
    e.closed dir = (request.sets dir).getD (d.closed dir) := by
  by_cases commands : ∃ switch on, request = .setSwitch switch on
  · obtain ⟨switch, on, rfl⟩ := commands
    obtain ⟨f, moved, switches⟩ := live.setSwitch switch on
    rw [moved] at done
    cases done
    exact switches dir
  · simp only [not_exists] at commands
    rw [sets_eq_none stays commands, ← ending_of_ok done]
    exact live.closed_elsewhere few stays commands dir

theorem Live.closed_of_failed {error : ChipError DeviceError}
    (failed : perform request d = .error error e) (dir : Direction) :
    e.closed dir = d.closed dir := by
  by_cases commands : ∃ switch on, request = .setSwitch switch on
  · obtain ⟨switch, on, rfl⟩ := commands
    obtain ⟨f, moved, -⟩ := live.setSwitch switch on
    rw [moved] at failed
    cases failed
  · simp only [not_exists] at commands
    rw [← ending_of_error failed]
    exact live.closed_elsewhere few stays commands dir

end Step

theorem Live.closed_eq (few : Balancing.bankCount n ≤ 3) (live : d.Live)
    (stays : ∀ entry ∈ entries, ∀ mode, entry.request ≠ .enterMode mode)
    (served : Served d entries e) (dir : Direction) :
    e.closed dir = Entry.position entries dir (d.closed dir) := by
  induction served with
  | refl => rfl
  | answered _ before now ih =>
    have earlier := fun entry member => stays entry (List.mem_cons_of_mem _ member)
    have between := live.served earlier before
    rw [Entry.position_cons, ← ih earlier]
    exact between.closed_of_answered few (stays _ List.mem_cons_self) now dir
  | failed _ before now ih =>
    have earlier := fun entry member => stays entry (List.mem_cons_of_mem _ member)
    have between := live.served earlier before
    rw [Entry.position_cons, ← ih earlier]
    exact between.closed_of_failed few (stays _ List.mem_cons_self) now dir

theorem banks_served (fits : d.link.Fits)
    (stays : ∀ entry ∈ entries, ∀ mode, entry.request ≠ .enterMode mode)
    (none : ∀ entry ∈ entries, ∀ b cells, entry.request ≠ .balance b cells)
    (served : Served d entries e) : ∀ b < 3, e.banks b = d.banks b := by
  have protections : ∀ b < 3, bankRegister b ∉ Register.status :: protectRegisters := by decide
  have apart : ∀ b < 3, bankRegister b ≠ Register.control2 := by decide
  intro b bound
  have spares : Link.Spares (· = bankRegister b) d.link e.link := by
    refine spares_served fits (fun entry member => ⟨stays entry member, fun r among same => ?_⟩)
      served
    subst same
    rcases mem_written among with other | ⟨-, same⟩ | ⟨b', cells, asked, -⟩
    · exact protections b bound other
    · exact apart b bound same
    · exact none entry member b' cells asked
  exact spares.kept _ rfl

theorem Live.not_failed (live : d.Live) {request : Request} {moment : Moment n}
    (commands : (∃ switch on, request = .setSwitch switch on) ∨
      ∃ b cells, request = .balance b cells)
    (stays : ∀ entry ∈ entries, ∀ mode, entry.request ≠ .enterMode mode) :
    ¬Served d (⟨request, none, moment⟩ :: entries) e := by
  intro served
  cases served with
  | failed _ before now =>
    have live' := live.served stays before
    change perform _ _ = _ at now
    rcases commands with ⟨switch, on, rfl⟩ | ⟨b, cells, rfl⟩
    · obtain ⟨f, done, -⟩ := live'.setSwitch switch on
      rw [done] at now
      cases now
    · obtain ⟨f, done⟩ := live'.balance b cells
      rw [done] at now
      cases now

end Outputs

end Driver

end Chip

end PackGuard
