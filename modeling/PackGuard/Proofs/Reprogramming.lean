import PackGuard.Proofs.ProtectionRegisters

/-!
Programming a current limit again, from what the configuration keeps of it. The limit is a threshold
divided by the shunt; multiplied by the shunt it comes back near the threshold, but perhaps below it.
The table has no tolerance for that, so the second request may take the next lower threshold.
-/

namespace PackGuard

open Single

namespace Encoding

variable {entries : List Float32} {entry shunt p : Float32} {k : ℕ}

/-- The entries of a table are millivolts, each at least one above the one before. -/
structure Spaced (entries : List Float32) : Prop where
  nonempty : entries ≠ []
  few : entries.length ≤ 2 ^ 8
  finite : ∀ entry ∈ entries, entry.isFinite = true
  range : ∀ entry ∈ entries, 4 ≤ Single.value entry ∧ Single.value entry ≤ 200
  apart : entries.Pairwise fun a b => Single.value a + 1 ≤ Single.value b

namespace Spaced

theorem le_of_lt (spaced : Spaced entries) {i : ℕ} {lower : Float32}
    (found : entries[k]? = some entry) (found' : entries[i]? = some lower)
    (le : Single.value lower < Single.value entry + 1) : i ≤ k := by
  by_contra! less
  obtain ⟨inside, rfl⟩ := List.getElem?_eq_some_iff.mp found
  obtain ⟨inside', rfl⟩ := List.getElem?_eq_some_iff.mp found'
  exact not_le.mpr le (List.pairwise_iff_getElem.mp spaced.apart k i inside inside' less)

theorem lastAtMost_near (spaced : Spaced entries) (found : entries[k]? = some entry)
    (number : p.isNaN = false) (near : |Single.value p - Single.value entry| < 1) :
    lastAtMost entries p = if entry ≤ p then k else k - 1 := by
  obtain ⟨below, above⟩ := abs_lt.mp near
  have member := List.mem_of_getElem? found
  have number' := isNaN_of_isFinite (spaced.finite entry member)
  have most : lastAtMost entries p ≤ k := by
    rcases lastAtMost_cases entries p with first | ⟨lower, at_position, le⟩
    · omega
    · have le := (le_iff.mp le).2.2
      exact spaced.le_of_lt found at_position (by linarith)
  split
  · rename_i reached
    exact le_antisymm most (le_lastAtMost found reached)
  · rename_i missed
    have less : Single.value p < Single.value entry := not_le.mp fun le =>
      missed (le_iff.mpr ⟨number', number, le⟩)
    refine le_antisymm ?_ ?_
    · rcases lastAtMost_cases entries p with first | ⟨lower, at_position, le⟩
      · omega
      · have differ : lastAtMost entries p ≠ k := by
          intro same
          rw [same, found, Option.some.injEq] at at_position
          exact missed (at_position ▸ le)
        omega
    · by_cases first : k = 0
      · omega
      · obtain ⟨inside, rfl⟩ := List.getElem?_eq_some_iff.mp found
        have before : k - 1 < entries.length := by omega
        have step := List.pairwise_iff_getElem.mp spaced.apart (k - 1) k before inside (by omega)
        refine le_lastAtMost (List.getElem?_eq_getElem before) (le_iff.mpr ⟨?_, number, ?_⟩)
        · exact isNaN_of_isFinite (spaced.finite _ (List.getElem_mem before))
        · linarith

theorem lastAtMost_beyond (spaced : Spaced entries) (number : p.isNaN = false)
    (beyond : 200 ≤ Single.value p) : lastAtMost entries p = entries.length - 1 := by
  have least := List.length_pos_iff.mpr spaced.nonempty
  have last : entries.length - 1 < entries.length := by omega
  have member := List.getElem_mem last
  have reached := le_lastAtMost (List.getElem?_eq_getElem last) (le_iff.mpr
    ⟨isNaN_of_isFinite (spaced.finite _ member), number, (spaced.range _ member).2.trans beyond⟩)
  have less := lastAtMost_lt spaced.nonempty p
  omega

theorem near_of_finite (spaced : Spaced entries) (member : entry ∈ entries)
    (finite : shunt.isFinite = true) (positive : 0 < Single.value shunt)
    (kept : (entry / shunt).isFinite = true) :
    (entry / shunt * shunt).isNaN = false ∧
      |Single.value (entry / shunt * shunt) - Single.value entry| < 1 := by
  obtain ⟨low, high⟩ := spaced.range entry member
  have quotient := nearest_div (spaced.finite entry member) finite positive.ne'
  have product := nearest_mul kept finite
  have above : 0 < Single.value entry / Single.value shunt := div_pos (by linarith) positive
  have normal : 2 ^ (-126 : ℤ) ≤ |Single.value entry / Single.value shunt| := by
    have most := (abs_le.mp (abs_value_le finite)).2
    rw [abs_of_pos above, le_div_iff₀ positive]
    norm_num at most ⊢
    linarith
  have relative := quotient.relative normal
    (by rw [abs_of_pos above]; exact quotient.lt_of_isFinite kept)
  rw [abs_of_pos above] at relative
  have back : |Single.value (entry / shunt) * Single.value shunt - Single.value entry| ≤
      200 / 2 ^ 24 := by
    have scaled : Single.value (entry / shunt) * Single.value shunt - Single.value entry =
        (Single.value (entry / shunt) - Single.value entry / Single.value shunt) *
          Single.value shunt := by
      rw [sub_mul, div_mul_cancel₀ _ positive.ne']
    rw [scaled, abs_mul, abs_of_pos positive]
    calc _ ≤ Single.value entry / Single.value shunt / 2 ^ 24 * Single.value shunt :=
          mul_le_mul_of_nonneg_right relative positive.le
      _ = Single.value entry / 2 ^ 24 := by field_simp
      _ ≤ 200 / 2 ^ 24 := div_le_div_of_nonneg_right high (by positivity)
  have bounds := abs_le.mp back
  have rounded := product.close (e := -16) (by norm_num) (by norm_num) (by
    rw [abs_le]
    norm_num at bounds ⊢
    constructor <;> linarith)
  refine ⟨product.number, ?_⟩
  have triangle := abs_sub_le (Single.value (entry / shunt * shunt))
    (Single.value (entry / shunt) * Single.value shunt) (Single.value entry)
  norm_num at rounded back
  linarith

theorem beyond_of_infinite (spaced : Spaced entries) (member : entry ∈ entries)
    (finite : shunt.isFinite = true) (positive : 0 < Single.value shunt)
    (lost : (entry / shunt).isFinite = false) :
    (entry / shunt * shunt).isNaN = false ∧ 200 ≤ Single.value (entry / shunt * shunt) := by
  have quotient := nearest_div (spaced.finite entry member) finite positive.ne'
  have above : 0 < Single.value entry / Single.value shunt :=
    div_pos (by linarith [(spaced.range entry member).1]) positive
  have least : 0 ≤ Single.value (entry / shunt) :=
    quotient.ge (representable_natCast (n := 0) (by norm_num)) (by exact_mod_cast above.le)
  obtain ⟨number, kept⟩ :=
    number_of_unpack_eq (mul_of_infinite quotient.number lost finite positive) quotient.number
  refine ⟨number, ?_⟩
  rw [kept]
  rcases infinite_cases quotient.number lost with same | same
  · rw [same]
    norm_num
  · rw [same] at least
    norm_num at least

/-- Where a threshold is found again: where it was, or one position before, unless its limit
overflows. -/
theorem lastAtMost_again (spaced : Spaced entries) (found : entries[k]? = some entry)
    (finite : shunt.isFinite = true) (positive : 0 < Single.value shunt) :
    lastAtMost entries (entry / shunt * shunt) =
      if (entry / shunt).isFinite then (if entry ≤ entry / shunt * shunt then k else k - 1)
      else entries.length - 1 := by
  have member := List.mem_of_getElem? found
  cases kept : (entry / shunt).isFinite with
  | true =>
    obtain ⟨number, near⟩ := spaced.near_of_finite member finite positive kept
    exact spaced.lastAtMost_near found number near
  | false =>
    obtain ⟨number, beyond⟩ := spaced.beyond_of_infinite member finite positive kept
    exact spaced.lastAtMost_beyond number beyond

end Spaced

/-- The limit of a threshold leads back to it. -/
def Returns (entries : List Float32) (shunt entry : Float32) (code : ℕ) : Prop :=
  if (entry / shunt).isFinite then code = 0 ∨ entry ≤ entry / shunt * shunt
  else code + 1 = entries.length

theorem lastAtMost_again_iff (spaced : Spaced entries) (found : entries[k]? = some entry)
    (finite : shunt.isFinite = true) (positive : 0 < Single.value shunt) :
    lastAtMost entries (entry / shunt * shunt) = k ↔ Returns entries shunt entry k := by
  have inside := (List.getElem?_eq_some_iff.mp found).1
  rw [spaced.lastAtMost_again found finite positive, Returns]
  split
  · split
    · rename_i reached
      exact ⟨fun _ => .inr reached, fun _ => rfl⟩
    · rename_i missed
      constructor
      · exact fun same => .inl (by omega)
      · rintro (first | reached)
        · omega
        · exact absurd reached missed
  · omega

structure Timed (delays : List Float32) : Prop where
  nonempty : delays ≠ []
  few : delays.length ≤ 2 ^ 8
  again : ∀ code < delays.length, lastAtMost delays
    (Float32.ofNat (wholeDelay ((table delays).value (UInt16.ofNat code)))) = code

theorem Timed.quantize_again {delays : List Float32} (timed : Timed delays) (target : Float32) :
    let code := (table delays).quantize target .nearest
    (table delays).quantize (Float32.ofNat (wholeDelay ((table delays).value code))) .nearest =
      code := by
  intro code
  have lowered : Rounding.nearest ≠ Rounding.up := by decide
  have position : code.toNat = lastAtMost delays target :=
    toNat_quantize_table timed.nonempty timed.few target lowered
  have less : code.toNat < delays.length := position ▸ lastAtMost_lt timed.nonempty target
  have again := timed.again code.toNat less
  rw [UInt16.ofNat_toNat] at again
  rw [← UInt16.toNat_inj, toNat_quantize_table timed.nonempty timed.few _ lowered, again]

end Encoding

namespace Chip.Driver

open Encoding

variable {β δ : Type} [Bus β δ] {n : ℕ} {kind : Protection} {entries : List Float32}

def thresholds? : Protection → Option (List Float32)
  | .shortCircuit => some shortCircuitThresholds
  | .dischargeOvercurrent => some overcurrentThresholds
  | _ => none

/-- What the register of a current protection is set to. -/
def setting (kind : Protection) (codes : ProtectionCodes) : UInt8 :=
  match kind with
  | .shortCircuit => Field.shortCircuitThreshold.set
      (Field.shortCircuitDelay.set doubleRange (codes.delay.getD 0)) codes.threshold
  | .dischargeOvercurrent => Field.overcurrentThreshold.set
      (Field.overcurrentDelay.set 0 (codes.delay.getD 0)) codes.threshold
  | _ => 0

theorem protect_measured {places : Places} (measured : thresholds? kind = some entries)
    (placed : places? kind = some places) (codes : ProtectionCodes) :
    (protect kind codes : EStateM (ChipError δ) (Driver β n) Unit) =
      write places.threshold.register (setting kind codes) := by
  cases kind <;> cases measured <;> cases placed <;> rfl

theorem spaced_of_measured (measured : thresholds? kind = some entries) : Spaced entries := by
  cases kind <;> cases measured
  case shortCircuit => constructor <;> decide +kernel
  case dischargeOvercurrent => constructor <;> decide +kernel

abbrev tables (entries delays : List Float32) : ProtectionEncoding :=
  ⟨.table entries, some (.table delays), none⟩

theorem encoding_of_measured (measured : thresholds? kind = some entries) :
    ∃ delays, Timed delays ∧
      ∀ d : Driver β n, d.encoding? kind = some (tables entries delays) := by
  cases kind <;> cases measured
  case shortCircuit => exact ⟨_, by constructor <;> decide +kernel, fun _ => rfl⟩
  case dischargeOvercurrent => exact ⟨_, by constructor <;> decide +kernel, fun _ => rfl⟩

theorem threshold_of_setting {places : Places} {codes : ProtectionCodes}
    (measured : thresholds? kind = some entries) (placed : places? kind = some places)
    (fit : Fit places codes) :
    (places.threshold.field.get (setting kind codes)).toUInt16 = codes.threshold := by
  have inside := (proper_of_places placed).threshold.2
  cases kind <;> cases measured <;> cases placed <;>
    exact Field.get_set_of_le inside _ fit.threshold

theorem setting_eq_iff {places : Places} {codes codes' : ProtectionCodes}
    (measured : thresholds? kind = some entries) (placed : places? kind = some places)
    (fit : Fit places codes) (fit' : Fit places codes') (delay : codes'.delay = codes.delay) :
    setting kind codes' = setting kind codes ↔ codes'.threshold = codes.threshold := by
  constructor
  · intro same
    rw [← threshold_of_setting measured placed fit, ← threshold_of_setting measured placed fit', same]
  · intro same
    cases kind <;> cases measured <;> simp only [setting, same, delay]

end Chip.Driver

namespace Controller

open Encoding Chip Chip.Driver

section Attempt

variable {σ ε : Type} {n : ℕ} [FrontEnd σ ε n] {kind : Protection} {c : Controller σ n}

theorem program_attempted {encoding : ProtectionEncoding}
    (known : FrontEnd.encoding? c.frontEnd kind = some encoding) :
    (∃ answer?, (c.attempt (program kind)).2.journal =
      ⟨.protect kind (encoding.meet (c.config.setpoint kind)).1, answer?, c.moment⟩ :: c.journal) ∧
    ((c.attempt (program kind)).2.config = c.config ∨
      (c.attempt (program kind)).2.config =
        c.config.store kind (encoding.meet (c.config.setpoint kind)).2) := by
  rw [attempt, program_eq, known]
  dsimp only
  cases FrontEnd.perform (.protect kind (encoding.meet (c.config.setpoint kind)).1)
    c.frontEnd with
  | ok answer s => exact ⟨⟨_, rfl⟩, .inr rfl⟩
  | error e s => exact ⟨⟨_, rfl⟩, .inl rfl⟩

end Attempt

variable {β δ : Type} [Bus β δ] {n : ℕ} {kind : Protection} {entries : List Float32}
  {config : Config}

theorem meet_measured (delays : List Float32) (config : Config)
    (measured : thresholds? kind = some entries) :
    let met := (tables entries delays).meet (config.setpoint kind)
    met.1.threshold = (table entries).quantize (config.limit kind * config.shunt) .down ∧
      met.2.limit = (table entries).value met.1.threshold ∧
      met.1.delay = some ((table delays).quantize (Float32.ofNat (config.delay kind)) .nearest) ∧
      met.2.delay = met.1.delay.map (table delays).value := by
  cases kind <;> cases measured <;> exact ⟨rfl, rfl, rfl, rfl⟩

theorem ofThreshold_measured (measured : thresholds? kind = some entries) (threshold : Float32) :
    config.ofThreshold kind threshold = threshold / config.shunt := by
  cases kind <;> cases measured <;> rfl

theorem store_measured (measured : thresholds? kind = some entries) {once twice : Achieved}
    (limit : twice.limit = once.limit) (delay : twice.delay = once.delay) :
    (config.store kind once).store kind twice = config.store kind once := by
  cases kind <;> cases measured
  case shortCircuit =>
    simp only [Config.store, CurrentLimit.store, limit, delay]
    cases once.delay <;> rfl
  case dischargeOvercurrent =>
    simp only [Config.store, CurrentLimit.store, limit, delay]
    cases once.delay <;> rfl

section Again

variable {delays : List Float32} {once twice : ProtectionCodes × Achieved} {entry : Float32}

theorem exists_threshold (measured : thresholds? kind = some entries)
    (first : once = (tables entries delays).meet (config.setpoint kind)) :
    ∃ entry, entries[once.1.threshold.toNat]? = some entry := by
  have spaced := spaced_of_measured measured
  obtain ⟨threshold, -⟩ := meet_measured delays config measured
  refine ⟨_, List.getElem?_eq_getElem ?_⟩
  rw [first, threshold, toNat_quantize_table spaced.nonempty spaced.few _ (by decide)]
  exact lastAtMost_lt spaced.nonempty _

/-- The second request of a limit is its threshold divided and multiplied by the shunt. The delay
does not change, and if the code does not either, the configuration is the same again. -/
theorem meet_again (measured : thresholds? kind = some entries) (timed : Timed delays)
    (first : once = (tables entries delays).meet (config.setpoint kind))
    (second : twice = (tables entries delays).meet ((config.store kind once.2).setpoint kind))
    (found : entries[once.1.threshold.toNat]? = some entry) :
    twice.1.threshold.toNat = lastAtMost entries (entry / config.shunt * config.shunt) ∧
      twice.1.delay = once.1.delay ∧
      (twice.1.threshold = once.1.threshold →
        (config.store kind once.2).store kind twice.2 = config.store kind once.2) := by
  have spaced := spaced_of_measured measured
  obtain ⟨-, limit, delay, achieved⟩ := meet_measured delays config measured
  obtain ⟨threshold', limit', delay', achieved'⟩ :=
    meet_measured delays (config.store kind once.2) measured
  rw [← first] at limit delay achieved
  rw [← second] at threshold' limit' delay' achieved'
  have held : (config.store kind once.2).limit kind = entry / config.shunt := by
    rw [Config.limit_store_self, limit, (value_table found).1, ofThreshold_measured measured]
  have delays : twice.1.delay = once.1.delay := by
    have delayed : kind ∉ Protection.temperatures := by
      cases kind <;> cases measured <;> decide
    rw [delay, Option.map_some] at achieved
    rw [delay', delay, Config.delay_store_self _ _ _ achieved delayed, timed.quantize_again]
  refine ⟨?_, delays, fun same => ?_⟩
  · rw [threshold', toNat_quantize_table spaced.nonempty spaced.few _ (by decide), held,
      Config.shunt_store]
  · exact store_measured measured (by rw [limit', same, limit])
      (by rw [achieved', delays, achieved])

end Again

/-- A current limit that was programmed is programmed alike from what the configuration keeps of it,
if the threshold is reached again when its limit is multiplied by the shunt; and only then. The next
lower threshold is programmed instead, or the highest one if the limit overflows. Both times the
driver writes one byte, the setting of the register that holds the threshold. -/
theorem reprogrammed_iff {c d : Controller (Driver β n) n}
    (measured : thresholds? kind = some entries) (finite : c.config.shunt.isFinite = true)
    (positive : 0.0 < c.config.shunt) (done : (c.attempt (program kind)).1 = true)
    (kept : d.config = (c.attempt (program kind)).2.config) :
    ∃ places codes codes' answer? entry,
      places? kind = some places ∧
      (∀ sent : ProtectionCodes, (FrontEnd.perform (.protect kind sent) :
          EStateM (ChipError δ) (Driver β n) Unit) =
        write places.threshold.register (setting kind sent)) ∧
      (c.attempt (program kind)).2.journal = ⟨.protect kind codes, some (), c.moment⟩ :: c.journal ∧
      (d.attempt (program kind)).2.journal =
        ⟨.protect kind codes', answer?, d.moment⟩ :: d.journal ∧
      entries[codes.threshold.toNat]? = some entry ∧
      (setting kind codes' = setting kind codes ∧ (d.attempt (program kind)).2.config = d.config ↔
        Returns entries c.config.shunt entry codes.threshold.toNat) ∧
      codes'.threshold.toNat =
        if (entry / c.config.shunt).isFinite then
          if entry ≤ entry / c.config.shunt * c.config.shunt then codes.threshold.toNat
          else codes.threshold.toNat - 1
        else entries.length - 1 := by
  obtain ⟨delays, timed, known⟩ :
      ∃ delays, Timed delays ∧ ∀ e : Driver β n, e.encoding? kind = some (tables entries delays) :=
    encoding_of_measured measured
  have spaced := spaced_of_measured measured
  have above : 0 < Single.value c.config.shunt := by
    have zero : Single.value (0.0 : Float32) = 0 := by decide +kernel
    exact zero ▸ (lt_iff.mp positive).2.2
  obtain ⟨encoding, found, journal, config⟩ := program_succeeded done
  obtain rfl : encoding = tables entries delays := Option.some.inj (found.symm.trans (known _))
  obtain ⟨⟨answer?, journal'⟩, config'⟩ := program_attempted (c := d) (known d.frontEnd)
  obtain ⟨places, placed⟩ : ∃ places, places? kind = some places := by
    cases kind <;> cases measured <;> exact ⟨_, rfl⟩
  have fit := fit_of_meet c.config placed (known c.frontEnd)
  have fit' := fit_of_meet d.config placed (known d.frontEnd)
  generalize first : (tables entries delays).meet (c.config.setpoint kind) = once at *
  generalize second : (tables entries delays).meet (d.config.setpoint kind) = twice at *
  have stored : d.config = c.config.store kind once.2 := kept.trans config
  obtain ⟨entry, found⟩ := exists_threshold measured first.symm
  obtain ⟨position, delay, again⟩ := meet_again measured timed first.symm (stored ▸ second.symm) found
  refine ⟨places, once.1, twice.1, answer?, entry, placed, protect_measured measured placed,
    journal, journal', found, ?_, ?_⟩
  · rw [← lastAtMost_again_iff spaced found finite above, ← position, UInt16.toNat_inj,
      setting_eq_iff measured placed fit fit' delay]
    refine ⟨And.left, fun same => ⟨same, ?_⟩⟩
    rcases config' with unchanged | stored'
    · exact unchanged
    · rw [stored', stored]
      exact again same
  · rw [position, spaced.lastAtMost_again found finite above]

def uneven : Controller (Driver Device 1) 1 :=
  .new (.new 1 {} 1.3 3435.0) { Config.ofChemistry .lto 17.0 with shunt := 1.3 }

theorem reprogrammed_iff_uneven :
    ∃ places codes codes' answer? entry,
      places? .dischargeOvercurrent = some places ∧
      (∀ sent : ProtectionCodes, (FrontEnd.perform (.protect .dischargeOvercurrent sent) :
          EStateM (ChipError DeviceError) (Driver Device 1) Unit) =
        write places.threshold.register (setting .dischargeOvercurrent sent)) ∧
      (uneven.attempt (program .dischargeOvercurrent)).2.journal =
        [⟨.protect .dischargeOvercurrent codes, some (), uneven.moment⟩] ∧
      ((uneven.attempt (program .dischargeOvercurrent)).2.attempt
          (program .dischargeOvercurrent)).2.journal =
        [⟨.protect .dischargeOvercurrent codes', answer?,
            (uneven.attempt (program .dischargeOvercurrent)).2.moment⟩,
          ⟨.protect .dischargeOvercurrent codes, some (), uneven.moment⟩] ∧
      overcurrentThresholds[codes.threshold.toNat]? = some entry ∧
      (setting .dischargeOvercurrent codes' = setting .dischargeOvercurrent codes ∧
          ((uneven.attempt (program .dischargeOvercurrent)).2.attempt
            (program .dischargeOvercurrent)).2.config =
          (uneven.attempt (program .dischargeOvercurrent)).2.config ↔
        Returns overcurrentThresholds 1.3 entry codes.threshold.toNat) := by
  obtain ⟨places, codes, codes', answer?, entry, placed, written, journal, journal', found, iff, -⟩ :=
    reprogrammed_iff (c := uneven) (show thresholds? .dischargeOvercurrent = _ from rfl)
      (by decide +kernel) (by decide +kernel) (by decide +kernel) rfl
  exact ⟨places, codes, codes', answer?, entry, placed, written, journal,
    journal'.trans (by rw [journal]; rfl), found, iff⟩

/-- The threshold of 22 mV is reported as 16.923077 A, which is 21.999998 mV across the shunt: the
second time 17 mV are programmed. -/
theorem not_always_reprogrammed :
    ¬∀ (c : Controller (Driver Device 1) 1) (kind : Protection) (entries : List Float32)
      (places : Places), thresholds? kind = some entries → places? kind = some places →
      c.config.shunt.isFinite = true → 0.0 < c.config.shunt →
      (c.config.limit kind).isFinite = true → 0.0 < c.config.limit kind →
      (c.attempt (program kind)).1 = true →
      let once := (c.attempt (program kind)).2
      let twice := (once.attempt (program kind)).2
      twice.frontEnd.link.bus.get places.threshold.register =
          once.frontEnd.link.bus.get places.threshold.register ∧
        twice.config = once.config := by
  intro always
  obtain ⟨same, -⟩ := always uneven .dischargeOvercurrent _ _ rfl rfl (by decide +kernel)
    (by decide +kernel) (by decide +kernel) (by decide +kernel) (by decide +kernel)
  exact absurd same (by decide +kernel)

end Controller

end PackGuard
