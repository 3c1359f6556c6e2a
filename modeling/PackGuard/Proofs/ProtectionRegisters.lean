import PackGuard.Proofs.LimitTightness
import PackGuard.Proofs.RegisterAccess

/-!
The codes of the protections, as the chip holds them. Each protection has a place for its threshold
and one for its delay; two delays share a register. Whatever is programmed in whatever order, the
places of a protection hold what the configuration reports of it, and nothing else has changed.
-/

namespace PackGuard

namespace Chip

namespace Field

def bits (field : Field) : UInt8 := field.mask <<< field.shift

/-- A field lies within the register and has no gaps. -/
structure Inside (field : Field) : Prop where
  kept : field.bits >>> field.shift = field.mask
  dense : ∃ width : ℕ, field.mask.toNat = 2 ^ width - 1

theorem get_set {field : Field} (inside : field.Inside) (register : UInt8) (code : UInt16) :
    field.get (field.set register code) = code.toUInt8 &&& field.mask := by
  have kept := inside.kept
  rw [← UInt8.toBitVec_inj] at kept ⊢
  ext i bound
  have bit := congrArg (fun x => x.getLsbD i) kept
  simp [get, set, bits] at bit ⊢
  grind

theorem get_set_of_le {field : Field} (inside : field.Inside) (register : UInt8) {code : UInt16}
    (fits : code.toNat ≤ field.mask.toNat) :
    (field.get (field.set register code)).toUInt16 = code := by
  obtain ⟨width, mask⟩ := inside.dense
  have byte := field.mask.toNat_lt
  have less : code.toNat < 2 ^ width := by
    have := Nat.two_pow_pos width
    omega
  have lowByte : code.toNat % 2 ^ 8 = code.toNat := Nat.mod_eq_of_lt (by omega)
  rw [get_set inside, ← UInt16.toNat_inj, UInt8.toNat_toUInt16, UInt8.toNat_and,
    UInt16.toNat_toUInt8, lowByte, mask, Nat.and_two_pow_sub_one_eq_mod, Nat.mod_eq_of_lt less]

theorem set_and {field : Field} {outside : UInt8} (apart : field.bits &&& outside = 0)
    (register : UInt8) (code : UInt16) :
    field.set register code &&& outside = register &&& outside := by
  rw [← UInt8.toBitVec_inj] at apart ⊢
  ext i bound
  have bit := congrArg (fun x => x.getLsbD i) apart
  simp [set, bits] at bit ⊢
  grind

theorem get_eq {field : Field} (inside : field.Inside) (register : UInt8) :
    field.get register = (register &&& field.bits) >>> field.shift := by
  have kept := inside.kept
  rw [← UInt8.toBitVec_inj] at kept ⊢
  ext i bound
  have bit := congrArg (fun x => x.getLsbD i) kept
  simp [get, bits] at bit ⊢
  grind

theorem get_set_apart {field other : Field} (inside : other.Inside)
    (apart : field.bits &&& other.bits = 0) (register : UInt8) (code : UInt16) :
    other.get (field.set register code) = other.get register := by
  rw [get_eq inside, get_eq inside, set_and apart]

def whole : Field := ⟨0, 0xFF⟩

theorem set_whole (register : UInt8) (code : UInt16) : whole.set register code = code.toUInt8 := by
  rw [← UInt8.toBitVec_inj]
  ext i bound
  have all : (255#8).getLsbD i = true := by
    revert i
    decide
  simp [set, whole] at all ⊢
  grind

end Field

structure Place where
  register : Register
  field : Field

def Device.code (d : Device) (place : Place) : UInt16 :=
  (place.field.get (d.get place.register)).toUInt16

namespace Place

def Apart (place other : Place) : Prop :=
  place.register ≠ other.register ∨ place.field.bits &&& other.field.bits = 0

variable {place other : Place} {d e : Device}

theorem code_congr (same : e.get place.register = d.get place.register) :
    e.code place = d.code place := by
  rw [Device.code, Device.code, same]

theorem code_of_set (inside : place.field.Inside) {register : UInt8} {code : UInt16}
    (fits : code.toNat ≤ place.field.mask.toNat)
    (held : d.get place.register = place.field.set register code) : d.code place = code := by
  rw [Device.code, held, Field.get_set_of_le inside _ fits]

theorem code_of_apart (inside : other.field.Inside) (apart : place.Apart other) {code : UInt16}
    (held : e.get place.register = place.field.set (d.get place.register) code)
    (kept : other.register ≠ place.register → e.get other.register = d.get other.register) :
    e.code other = d.code other := by
  by_cases same : place.register = other.register
  · have beside := apart.resolve_left fun differ => differ same
    rw [Device.code, Device.code, ← same, held, Field.get_set_apart inside beside]
  · exact code_congr (kept (Ne.symm same))

end Place

structure Places where
  threshold : Place
  delay : Place

namespace Driver

def places? : Protection → Option Places
  | .cellOvervoltage =>
    some ⟨⟨Register.overvoltageTrip, .whole⟩, ⟨Register.protect3, .overvoltageDelay⟩⟩
  | .cellUndervoltage =>
    some ⟨⟨Register.undervoltageTrip, .whole⟩, ⟨Register.protect3, .undervoltageDelay⟩⟩
  | .shortCircuit =>
    some ⟨⟨Register.protect1, .shortCircuitThreshold⟩, ⟨Register.protect1, .shortCircuitDelay⟩⟩
  | .dischargeOvercurrent =>
    some ⟨⟨Register.protect2, .overcurrentThreshold⟩, ⟨Register.protect2, .overcurrentDelay⟩⟩
  | _ => none

def protectRegisters : List Register :=
  [Register.protect1, Register.protect2, Register.protect3, Register.overvoltageTrip,
    Register.undervoltageTrip]

def beyondDelays : UInt8 := ~~~(Field.overvoltageDelay.bits ||| Field.undervoltageDelay.bits)

variable {n : Nat} {d : Driver Device n} {kind other : Protection} {codes : ProtectionCodes}
  {places : Places}

structure Proper (places : Places) : Prop where
  threshold : places.threshold.register ∈ protectRegisters ∧ places.threshold.field.Inside
  delay : places.delay.register ∈ protectRegisters ∧ places.delay.field.Inside

theorem proper_of_places (found : places? kind = some places) : Proper places := by
  cases kind <;> cases found
  case cellOvervoltage =>
    exact ⟨⟨by decide, by decide, 8, by decide⟩, ⟨by decide, by decide, 2, by decide⟩⟩
  case cellUndervoltage =>
    exact ⟨⟨by decide, by decide, 8, by decide⟩, ⟨by decide, by decide, 2, by decide⟩⟩
  case shortCircuit =>
    exact ⟨⟨by decide, by decide, 3, by decide⟩, ⟨by decide, by decide, 2, by decide⟩⟩
  case dischargeOvercurrent =>
    exact ⟨⟨by decide, by decide, 4, by decide⟩, ⟨by decide, by decide, 3, by decide⟩⟩

/-- Only the delays of the voltage protections share a register with another protection. -/
theorem apart_of_places {places' : Places} (found : places? kind = some places)
    (differ : other ≠ kind) (found' : places? other = some places') :
    (places'.threshold.register ≠ places.threshold.register ∧
      places.delay.Apart places'.threshold) ∧
    (places'.delay.register ≠ places.threshold.register ∧ places.delay.Apart places'.delay) := by
  unfold Place.Apart
  cases kind <;> cases found <;> cases other <;> cases found'
  all_goals first
    | exact absurd rfl differ
    | decide

structure Fit (places : Places) (codes : ProtectionCodes) : Prop where
  threshold : codes.threshold.toNat ≤ places.threshold.field.mask.toNat
  delay : ∃ code, codes.delay = some code ∧ code.toNat ≤ places.delay.field.mask.toNat

abbrev SparesOthers (places : Places) (link next : Link Device) : Prop :=
  Link.Spares (fun r => r ≠ places.threshold.register ∧ r ≠ places.delay.register) link next

/-- A protection has its codes on the chip, and no other protection has lost its own. -/
structure Stored (d : Driver Device n) (kind : Protection) (codes : ProtectionCodes)
    (places : Places) (link : Link Device) : Prop where
  spares : SparesOthers places d.link link
  threshold : link.bus.code places.threshold = codes.threshold
  delay : codes.delay = some (link.bus.code places.delay)
  others : ∀ other places', other ≠ kind → places? other = some places' →
    link.bus.code places'.threshold = d.link.bus.code places'.threshold ∧
      link.bus.code places'.delay = d.link.bus.code places'.delay

theorem others_kept {places' : Places} {link : Link Device} (found : places? kind = some places)
    (differ : other ≠ kind) (found' : places? other = some places')
    (spares : SparesOthers places d.link link)
    (delayed : places.delay.register = places.threshold.register ∨
      ∃ code, link.bus.get places.delay.register =
        places.delay.field.set (d.link.bus.get places.delay.register) code) :
    link.bus.code places'.threshold = d.link.bus.code places'.threshold ∧
      link.bus.code places'.delay = d.link.bus.code places'.delay := by
  obtain ⟨⟨away, apart⟩, away', apart'⟩ := apart_of_places found differ found'
  have proper := proper_of_places found'
  rcases delayed with same | ⟨code, held⟩
  · exact ⟨Place.code_congr (spares.kept _ ⟨away, same ▸ away⟩),
      Place.code_congr (spares.kept _ ⟨away', same ▸ away'⟩)⟩
  · exact ⟨Place.code_of_apart proper.threshold.2 apart held fun away'' =>
        spares.kept _ ⟨away, away''⟩,
      Place.code_of_apart proper.delay.2 apart' held fun away'' =>
        spares.kept _ ⟨away', away''⟩⟩

section Calm

variable (fits : d.link.Fits) (calm : d.link.bus.Calm) (free : d.link.bus.frozen = [])

include free in
theorem settable_protectRegisters {r : Register} (among : r ∈ protectRegisters) :
    d.link.bus.Settable r := by
  have plain : ∀ r ∈ protectRegisters, r ≠ Register.status ∧ r < 12 := by decide +kernel
  obtain ⟨ordinary, low⟩ := plain r among
  exact ⟨ordinary, low, by rw [free]; exact List.not_mem_nil⟩

theorem SparesOthers.protectRegisters {link : Link Device} (proper : Proper places)
    (spares : SparesOthers places d.link link) :
    Link.Spares (· ∉ protectRegisters) d.link link :=
  spares.mono fun _ away =>
    ⟨fun same => away (same ▸ proper.threshold.1), fun same => away (same ▸ proper.delay.1)⟩

include fits calm free in
theorem protect_voltage (found : places? kind = some places) (fit : Fit places codes)
    (own : places.threshold.field = .whole) (shared : places.delay.register = Register.protect3)
    (apart : places.threshold.register ≠ Register.protect3) :
    ∃ link, (do
        write places.threshold.register codes.threshold.toUInt8
        update Register.protect3 (places.delay.field.set · (codes.delay.getD 0)) :
          EStateM _ (Driver Device n) Unit) d = .ok () { d with link } ∧
      Stored d kind codes places link ∧
      ∃ delay, link.bus.get Register.protect3 =
        places.delay.field.set (d.link.bus.get Register.protect3) delay := by
  have proper := proper_of_places found
  obtain ⟨fitThreshold, delay, chosen, fitDelay⟩ := fit
  obtain ⟨between, wrote, spared, trips⟩ := write_calm fits calm
    (settable_protectRegisters free proper.threshold.1) codes.threshold.toUInt8
  have freeThen : between.bus.frozen = [] := spared.frozen.trans free
  obtain ⟨link, updated, spares, delays⟩ := update_calm (d := { d with link := between })
    (spared.fits fits) (spared.calm calm)
    (settable_protectRegisters freeThen (by decide : Register.protect3 ∈ protectRegisters))
    (places.delay.field.set · (codes.delay.getD 0))
  have spare : SparesOthers places d.link link :=
    (spared.mono fun _ away => away.1).trans (spares.mono fun _ away => shared ▸ away.2)
  have trip : link.bus.get places.threshold.register = codes.threshold.toUInt8 :=
    (spares.kept _ apart).trans trips
  have held : link.bus.get Register.protect3 =
      places.delay.field.set (d.link.bus.get Register.protect3) delay := by
    rw [delays, chosen]
    exact congrArg (places.delay.field.set · delay) (spared.kept _ apart.symm)
  refine ⟨link, ?_, ⟨spare, ?_, ?_, ?_⟩, delay, held⟩
  · simp only [bind, EStateM.bind, wrote]
    exact updated
  · have byte : link.bus.get places.threshold.register =
        places.threshold.field.set 0 codes.threshold := by rw [own, Field.set_whole, trip]
    exact Place.code_of_set proper.threshold.2 fitThreshold byte
  · rw [chosen, Place.code_of_set proper.delay.2 fitDelay (shared ▸ held)]
  · exact fun other places' differ found' =>
      others_kept found differ found' spare (.inr ⟨delay, shared ▸ held⟩)

include fits calm free in
theorem protect_current (found : places? kind = some places) (fit : Fit places codes)
    (same : places.delay.register = places.threshold.register)
    (apart : places.threshold.field.bits &&& places.delay.field.bits = 0) (range : UInt8) :
    let delayed := places.delay.field.set range (codes.delay.getD 0)
    let byte := places.threshold.field.set delayed codes.threshold
    ∃ link, (write places.threshold.register byte : EStateM _ (Driver Device n) Unit) d =
        .ok () { d with link } ∧
      Stored d kind codes places link ∧ link.bus.get places.threshold.register = byte := by
  intro delayed byte
  have proper := proper_of_places found
  obtain ⟨fitThreshold, delay, chosen, fitDelay⟩ := fit
  obtain ⟨link, wrote, spares, held⟩ := write_calm fits calm
    (settable_protectRegisters free proper.threshold.1) byte
  have spare : SparesOthers places d.link link := spares.mono fun _ away => away.1
  refine ⟨link, wrote, ⟨spare, ?_, ?_, ?_⟩, held⟩
  · exact Place.code_of_set proper.threshold.2 fitThreshold held
  · rw [chosen, Device.code, same, held, Field.get_set_apart proper.delay.2 apart]
    have delays : delayed = places.delay.field.set range delay := by
      change places.delay.field.set range (codes.delay.getD 0) = _
      rw [chosen, Option.getD_some]
    change _ = some (places.delay.field.get delayed).toUInt16
    rw [delays]
    exact congrArg some (Field.get_set_of_le proper.delay.2 range fitDelay).symm
  · exact fun other places' differ found' => others_kept found differ found' spare (.inl same)

/-- The doubled range is chosen with the short circuit protection, and by nothing else undone. -/
def KeepsRange (d : Driver Device n) (kind : Protection) (link : Link Device) : Prop :=
  kind = .shortCircuit ∨ hasBits (d.link.bus.get Register.protect1) doubleRange →
    hasBits (link.bus.get Register.protect1) doubleRange

theorem KeepsRange.of_kept {link : Link Device} (current : kind ≠ .shortCircuit)
    (kept : link.bus.get Register.protect1 = d.link.bus.get Register.protect1) :
    KeepsRange d kind link := by
  rintro (same | doubled)
  · exact absurd same current
  · rwa [kept]

def KeepsBeyond (d : Driver Device n) (link : Link Device) : Prop :=
  link.bus.get Register.protect3 &&& beyondDelays = d.link.bus.get Register.protect3 &&& beyondDelays

include fits calm free in
theorem protect_calm (found : places? kind = some places) (fit : Fit places codes) :
    ∃ link, protect kind codes d = .ok () { d with link } ∧ Stored d kind codes places link ∧
      KeepsRange d kind link ∧ KeepsBeyond d link := by
  cases kind <;> cases found
  case cellOvervoltage =>
    obtain ⟨link, done, stored, delay, held⟩ :=
      protect_voltage fits calm free (show places? .cellOvervoltage = _ from rfl) fit rfl rfl
        (by decide)
    refine ⟨link, done, stored, ?_, ?_⟩
    · exact .of_kept (by decide) (stored.spares.kept Register.protect1 (by decide))
    · rw [KeepsBeyond, held, Field.set_and (by decide)]
  case cellUndervoltage =>
    obtain ⟨link, done, stored, delay, held⟩ :=
      protect_voltage fits calm free (show places? .cellUndervoltage = _ from rfl) fit rfl rfl
        (by decide)
    refine ⟨link, done, stored, ?_, ?_⟩
    · exact .of_kept (by decide) (stored.spares.kept Register.protect1 (by decide))
    · rw [KeepsBeyond, held, Field.set_and (by decide)]
  case shortCircuit =>
    obtain ⟨link, done, stored, held⟩ := protect_current fits calm free
      (show places? .shortCircuit = _ from rfl) fit rfl (by decide) doubleRange
    refine ⟨link, done, stored, fun _ => ?_, ?_⟩
    · have range : link.bus.get Register.protect1 &&& doubleRange = doubleRange := by
        rw [show link.bus.get Register.protect1 = _ from held, Field.set_and (by decide),
          Field.set_and (by decide)]
        decide
      rw [hasBits, range]
      rfl
    · rw [KeepsBeyond, stored.spares.kept Register.protect3 (by decide)]
  case dischargeOvercurrent =>
    obtain ⟨link, done, stored, held⟩ := protect_current fits calm free
      (show places? .dischargeOvercurrent = _ from rfl) fit rfl (by decide) 0
    refine ⟨link, done, stored, ?_, ?_⟩
    · exact .of_kept (by decide) (stored.spares.kept Register.protect1 (by decide))
    · rw [KeepsBeyond, stored.spares.kept Register.protect3 (by decide)]

end Calm

end Driver

end Chip

theorem ProtectionEncoding.delay_of_meet {encoding : ProtectionEncoding} {delays : Encoding Float32}
    (timed : encoding.delay = some delays) (wanted : Setpoint) :
    (encoding.meet wanted).2.delay = (encoding.meet wanted).1.delay.map delays.value := by
  simp [meet, timed, Encoding.apply]

namespace Controller

open Chip Chip.Driver

variable {n : Nat} {c d : Controller (Driver Device n) n} {kind : Protection}
  {kinds : List Protection}

theorem fit_of_meet {β : Type} {driver : Driver β n} {places : Places} {encoding : ProtectionEncoding}
    (config : Config) (found : places? kind = some places)
    (known : driver.encoding? kind = some encoding) :
    Fit places (encoding.meet (config.setpoint kind)).1 := by
  have table : ∀ {entries : List Float32} (target : Float32) {rounding : Rounding} (k : ℕ),
      entries.length = k + 1 → k < 2 ^ 8 → rounding ≠ .up →
      ((Encoding.table entries).quantize target rounding).toNat ≤ k := by
    intro entries target rounding k length few lowered
    have some : entries ≠ [] := fun none => by rw [none] at length; cases length
    rw [Encoding.toNat_quantize_table some (by omega) target lowered]
    have := Encoding.lastAtMost_lt some target
    omega
  have lowered : Rounding.down ≠ Rounding.up := by decide
  cases kind <;> cases found <;> cases known
  case cellOvervoltage =>
    have threshold : ((driver.tripEncoding overvoltageBase).quantize config.overvoltage.limit
        .down).toNat ≤ 255 := Encoding.quantize_linear_byte _ _ _ (by decide)
    exact ⟨threshold, _, rfl, table _ 3 rfl (by decide) (by decide)⟩
  case cellUndervoltage =>
    have threshold : ((driver.tripEncoding undervoltageBase).quantize config.undervoltage.limit
        .up).toNat ≤ 255 := Encoding.quantize_linear_byte _ _ _ (by decide)
    exact ⟨threshold, _, rfl, table _ 3 rfl (by decide) (by decide)⟩
  case shortCircuit =>
    exact ⟨table _ 7 rfl (by decide) lowered, _, rfl, table _ 3 rfl (by decide) (by decide)⟩
  case dischargeOvercurrent =>
    exact ⟨table _ 15 rfl (by decide) lowered, _, rfl, table _ 7 rfl (by decide) (by decide)⟩

structure Reported (c : Controller (Driver Device n) n) (kind : Protection) (places : Places)
    (encoding : ProtectionEncoding) (delays : Encoding Float32) : Prop where
  placed : places? kind = some places
  known : c.frontEnd.encoding? kind = some encoding
  timed : encoding.delay = some delays
  limit : c.config.limit kind = c.config.ofThreshold kind
    (encoding.threshold.value (c.frontEnd.link.bus.code places.threshold))
  delay : c.config.delay kind =
    wholeDelay (delays.value (c.frontEnd.link.bus.code places.delay))

def Reports (c : Controller (Driver Device n) n) (kind : Protection) : Prop :=
  ∃ places encoding delays, c.Reported kind places encoding delays

/-- What programming protections leaves: those that were programmed are reported as they are, and
so are others that were. -/
structure Programmed (kinds : List Protection) (c d : Controller (Driver Device n) n) : Prop where
  driver : d.frontEnd = { c.frontEnd with link := d.frontEnd.link }
  spares : Link.Spares (· ∉ protectRegisters) c.frontEnd.link d.frontEnd.link
  reports : ∀ kind, kind ∈ kinds ∨ c.Reports kind → d.Reports kind
  range : .shortCircuit ∈ kinds ∨ hasBits (c.frontEnd.link.bus.get Register.protect1) doubleRange →
    hasBits (d.frontEnd.link.bus.get Register.protect1) doubleRange
  beyond : KeepsBeyond c.frontEnd d.frontEnd.link

theorem Programmed.refl (c : Controller (Driver Device n) n) : Programmed [] c c where
  driver := rfl
  spares := .refl _
  reports _ h := h.resolve_left List.not_mem_nil
  range h := h.resolve_left List.not_mem_nil
  beyond := rfl

theorem Programmed.trans {e : Controller (Driver Device n) n} {others : List Protection}
    (h : Programmed kinds c d) (k : Programmed others d e) : Programmed (kinds ++ others) c e where
  driver := by rw [k.driver, h.driver]
  spares := h.spares.trans k.spares
  reports kind among := by
    rw [List.mem_append, or_right_comm] at among
    exact k.reports kind (among.symm.imp_right (h.reports kind))
  range among := by
    rw [List.mem_append, or_right_comm] at among
    exact k.range (among.symm.imp_right h.range)
  beyond := k.beyond.trans h.beyond

section Calm

variable (fits : c.frontEnd.link.Fits) (calm : c.frontEnd.link.bus.Calm)
  (free : c.frontEnd.link.bus.frozen = [])

include fits calm free in
theorem program_calm (known : (c.frontEnd.encoding? kind).isSome) :
    ∃ d, program kind c = .ok () d ∧ Programmed [kind] c d := by
  obtain ⟨encoding, known⟩ := Option.isSome_iff_exists.mp known
  obtain ⟨places, placed⟩ : ∃ places, places? kind = some places := by
    cases kind <;> first
      | exact ⟨_, rfl⟩
      | cases known
  obtain ⟨delays, timed⟩ : ∃ delays, encoding.delay = some delays := by
    cases kind <;> cases known <;> exact ⟨_, rfl⟩
  have delayed : kind ∉ Protection.temperatures := by
    cases kind <;> first
      | decide
      | cases placed
  obtain ⟨link, done, stored, range, beyond⟩ :=
    protect_calm fits calm free placed (fit_of_meet c.config placed known)
  have achieved := ProtectionEncoding.delay_of_meet timed (c.config.setpoint kind)
  rw [stored.delay, Option.map_some] at achieved
  have programmed := program_eq kind c
  rw [show FrontEnd.encoding? c.frontEnd kind = some encoding from known] at programmed
  dsimp only at programmed
  rw [show FrontEnd.perform (.protect kind (encoding.meet (c.config.setpoint kind)).1) c.frontEnd =
    .ok () { c.frontEnd with link } from done] at programmed
  refine ⟨_, programmed, rfl, stored.spares.protectRegisters (proper_of_places placed), ?_, ?_,
    beyond⟩
  · intro other among
    by_cases same : other = kind
    · subst same
      refine ⟨places, encoding, delays, placed, known, timed, ?_, ?_⟩
      · change (c.config.store other _).limit other = (c.config.store other _).ofThreshold other
          (encoding.threshold.value (link.bus.code places.threshold))
        rw [Config.limit_store_self, stored.threshold, Config.ofThreshold_store]
        rfl
      · exact Config.delay_store_self _ _ _ achieved delayed
    · obtain ⟨places', encoding', delays', placed', known', timed', limit, delay⟩ :=
        among.resolve_left fun member => same (List.mem_singleton.mp member)
      obtain ⟨threshold, own⟩ := stored.others other places' same placed'
      refine ⟨places', encoding', delays', placed', known', timed', ?_, ?_⟩
      · change (c.config.store kind _).limit other = (c.config.store kind _).ofThreshold other
          (encoding'.threshold.value (link.bus.code places'.threshold))
        rw [Config.limit_store_of_ne _ _ same, threshold, Config.ofThreshold_store]
        exact limit
      · change (c.config.store kind _).delay other =
          wholeDelay (delays'.value (link.bus.code places'.delay))
        rw [Config.delay_store_of_ne _ _ same, own]
        exact delay
  · intro among
    exact range (among.imp_left fun member => (List.mem_singleton.mp member).symm)

end Calm

/-- However often and in whatever order protections are programmed on a chip that nothing disturbs,
all of them succeed. The configuration reports what the codes of each of them stand for, with the
doubled range where it counts, and the bits beside the codes are as before. -/
theorem programmed_reported (fits : c.frontEnd.link.Fits) (calm : c.frontEnd.link.bus.Calm)
    (free : c.frontEnd.link.bus.frozen = [])
    (known : ∀ kind ∈ kinds, (c.frontEnd.encoding? kind).isSome) :
    ∃ d, kinds.forM program c = .ok () d ∧ Programmed kinds c d := by
  induction kinds generalizing c with
  | nil => exact ⟨c, rfl, .refl c⟩
  | cons kind rest ih =>
    obtain ⟨between, first, programmed⟩ := program_calm fits calm free
      (known kind List.mem_cons_self)
    have same : ∀ kind, between.frontEnd.encoding? kind = c.frontEnd.encoding? kind := by
      intro kind
      rw [programmed.driver]
      rfl
    obtain ⟨d, done, more⟩ := ih (programmed.spares.fits fits) (programmed.spares.calm calm)
      (programmed.spares.frozen.trans free)
      (fun kind member => same kind ▸ known kind (List.mem_cons_of_mem _ member))
    refine ⟨d, ?_, programmed.trans more⟩
    change (program kind >>= fun _ => rest.forM program) c = _
    simp only [bind, EStateM.bind, first]
    exact done

def restless : Controller (Driver Device 5) 5 :=
  .new (.new 5 { registers := .replicate 256 0xA5 } 1.5 3435.0) (.ofChemistry .nmc 10.0)

theorem programmed_reported_restless :
    ∃ d, [.cellOvervoltage, .shortCircuit, .cellUndervoltage, .cellOvervoltage].forM program
        restless = .ok () d ∧
      Programmed [.cellOvervoltage, .shortCircuit, .cellUndervoltage, .cellOvervoltage] restless d :=
  programmed_reported ⟨rfl, rfl⟩ ⟨rfl, nofun, nofun⟩ rfl
    (by decide)

end Controller
end PackGuard
