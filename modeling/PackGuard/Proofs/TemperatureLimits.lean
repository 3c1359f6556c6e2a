import PackGuard.Fault.Check
import PackGuard.Measurement
import PackGuard.Proofs.SingleOrder
import PackGuard.Protection.Setpoint

/-!
The temperature faults, judged by a reading of several sensors of which some may tell nothing. A
fault is seen if one sensor shows it. Sensors that read NaN are passed over, so a fault counts as
recovered as soon as all others are back behind the point of release.
-/

namespace PackGuard

open Single

namespace Bound

def Exceeded : Bound → (limit value : Float32) → Prop
  | upper, limit, value => limit < value
  | lower, limit, value => value < limit

def Behind : Bound → (release value : Float32) → Prop
  | upper, release, value => value < release
  | lower, release, value => release < value

instance : ∀ (bound : Bound) (limit value : Float32), Decidable (bound.Exceeded limit value)
  | upper, limit, value => inferInstanceAs (Decidable (limit < value))
  | lower, limit, value => inferInstanceAs (Decidable (value < limit))

instance : ∀ (bound : Bound) (release value : Float32), Decidable (bound.Behind release value)
  | upper, release, value => inferInstanceAs (Decidable (value < release))
  | lower, release, value => inferInstanceAs (Decidable (release < value))

def worse : Bound → Float32 → Float32 → Float32
  | upper => maxNum
  | lower => minNum

/-- The value from which the search for the worst starts. -/
def best : Bound → Float32
  | upper => Single.least
  | lower => Single.greatest

variable {bound : Bound} {a b limit release : Float32}

theorem isNaN_worse (number : a.isNaN = false) : (bound.worse a b).isNaN = false := by
  cases bound <;> simp only [worse, maxNum, minNum, number, Bool.false_eq_true, if_false] <;>
    split <;> first | exact number | exact (lt_iff.mp ‹_›).2.1 | exact (lt_iff.mp ‹_›).1

theorem exceeded_worse (number : a.isNaN = false) :
    bound.Exceeded limit (bound.worse a b) ↔ bound.Exceeded limit a ∨ bound.Exceeded limit b := by
  cases bound <;> simp only [worse, maxNum, minNum, number, Bool.false_eq_true, if_false] <;>
    split <;> simp only [Exceeded, lt_iff, number] at * <;> grind

theorem behind_worse (number : a.isNaN = false) :
    bound.Behind release (bound.worse a b) ↔
      bound.Behind release a ∧ (b.isNaN = false → bound.Behind release b) := by
  cases bound <;> simp only [worse, maxNum, minNum, number, Bool.false_eq_true, if_false] <;>
    split <;> simp only [Behind, lt_iff, number] at * <;> grind

theorem exceeded_foldl (number : a.isNaN = false) (values : List Float32) :
    bound.Exceeded limit (values.foldl bound.worse a) ↔
      bound.Exceeded limit a ∨ ∃ t ∈ values, bound.Exceeded limit t := by
  induction values generalizing a with
  | nil => simp
  | cons t rest ih =>
    rw [List.foldl_cons, ih (isNaN_worse number), exceeded_worse number]
    simp [or_assoc]

theorem behind_foldl (number : a.isNaN = false) (values : List Float32) :
    bound.Behind release (values.foldl bound.worse a) ↔
      bound.Behind release a ∧ ∀ t ∈ values, t.isNaN = false → bound.Behind release t := by
  induction values generalizing a with
  | nil => simp
  | cons t rest ih =>
    rw [List.foldl_cons, ih (isNaN_worse number), behind_worse number]
    simp [and_assoc]

theorem isNaN_best (bound : Bound) : bound.best.isNaN = false := by
  cases bound
  · exact isNaN_least
  · exact isNaN_greatest

theorem behind_best (finite : a.isFinite = true) (behind : bound.Behind release a) :
    bound.Behind release bound.best := by
  have range := abs_le.mp (abs_value_le finite)
  cases bound <;> simp only [Behind, best, lt_iff] at behind ⊢
  · rw [value_least]
    exact ⟨isNaN_least, behind.2.1, lt_of_le_of_lt range.1 behind.2.2⟩
  · rw [value_greatest]
    exact ⟨behind.1, isNaN_greatest, lt_of_lt_of_le behind.2.2 range.2⟩

theorem not_exceeded_best (finite : limit.isFinite = true) : ¬bound.Exceeded limit bound.best := by
  have range := abs_le.mp (abs_value_le finite)
  cases bound <;> simp only [Exceeded, best, lt_iff, value_least, value_greatest]
  · exact fun h => absurd h.2.2 (not_lt.mpr range.1)
  · exact fun h => absurd h.2.2 (not_lt.mpr range.2)

end Bound

def TemperatureReading.worst (reading : TemperatureReading) : Bound → Float32
  | .upper => reading.greatest
  | .lower => reading.least

theorem TemperatureReading.worst_ofSensors {sensors : List Float32} (chip : Float32)
    (some : sensors ≠ []) (few : sensors.length ≤ capacity) :
    0 < (ofSensors sensors chip).count ∧
      ∀ bound : Bound, (ofSensors sensors chip).worst bound = sensors.foldl bound.worse bound.best := by
  have used : sensors.take capacity = sensors := List.take_of_length_le few
  have present : sensors.isEmpty = false := List.isEmpty_eq_false_iff.mpr some
  simp only [ofSensors, used, present, Bool.false_eq_true, if_false]
  exact ⟨List.length_pos_iff.mpr some, fun bound => by cases bound <;> rfl⟩

structure SensorLimit where
  bound : Bound
  limit : Float32
  release : Float32

namespace SensorLimit

def of (hysteresis : Float32) (bound : Bound) (limit : Float32) : SensorLimit :=
  ⟨bound, limit, bound.release limit hysteresis⟩

def Violated (l : SensorLimit) (t : Float32) : Prop := l.bound.Exceeded l.limit t

def Released (l : SensorLimit) (t : Float32) : Prop := l.bound.Behind l.release t

instance (l : SensorLimit) (t : Float32) : Decidable (l.Violated t) :=
  inferInstanceAs (Decidable (l.bound.Exceeded l.limit t))

instance (l : SensorLimit) (t : Float32) : Decidable (l.Released t) :=
  inferInstanceAs (Decidable (l.bound.Behind l.release t))

end SensorLimit

def FaultKind.sensorLimit? (config : Config) : FaultKind → Option SensorLimit
  | dischargeOvertemperature =>
    some (.of config.temperatureHysteresis .upper config.discharging.greatest)
  | dischargeUndertemperature =>
    some (.of config.temperatureHysteresis .lower config.discharging.least)
  | chargeOvertemperature =>
    some (.of config.temperatureHysteresis .upper config.charging.greatest)
  | chargeUndertemperature =>
    some (.of config.temperatureHysteresis .lower config.charging.least)
  | _ => none

section

variable {n : Nat} {config : Config} {kind : FaultKind} {l : SensorLimit}

theorem FaultKind.check?_of_sensorLimit (h : kind.sensorLimit? config = some l)
    (status : Status n) (report : Report) :
    kind.check? config status report = some
      ⟨decide (0 < status.temperatures.count) &&
          decide (l.bound.Exceeded l.limit (status.temperatures.worst l.bound)),
        !decide (0 < status.temperatures.count) ||
          decide (l.bound.Behind l.release (status.temperatures.worst l.bound))⟩ := by
  cases kind <;> cases h <;> rfl

/-- A reading of a few sensors, each finite or NaN. -/
structure Readable (sensors : List Float32) : Prop where
  nonempty : sensors ≠ []
  few : sensors.length ≤ TemperatureReading.capacity
  known : ∀ t ∈ sensors, t.isFinite = true ∨ t.isNaN = true

/-- A temperature fault is tripped exactly if a sensor violates the limit. It is recovered when all
sensors that read a number satisfy the release, which is all of them unless one reads NaN. -/
theorem Readable.temperature_check {sensors : List Float32} (readable : Readable sensors)
    (h : kind.sensorLimit? config = some l) (finite : l.limit.isFinite = true) (chip : Float32)
    (status : Status n) (report : Report) :
    ∃ check,
      kind.check? config (status.withTemperatures (.ofSensors sensors chip)) report = some check ∧
      (check.tripped = true ↔ ∃ t ∈ sensors, l.Violated t) ∧
      (check.recovered = true ↔ (∀ t ∈ sensors, t.isNaN = false → l.Released t) ∧
        ((∀ t ∈ sensors, t.isNaN = true) → l.Released l.bound.best)) ∧
      ((check.recovered = true → ∀ t ∈ sensors, l.Released t) ↔
        (check.recovered = true → ∀ t ∈ sensors, t.isNaN = false)) := by
  obtain ⟨counted, worst⟩ := TemperatureReading.worst_ofSensors chip readable.nonempty readable.few
  have tripped : l.bound.Exceeded l.limit (sensors.foldl l.bound.worse l.bound.best) ↔
      ∃ t ∈ sensors, l.Violated t := by
    rw [Bound.exceeded_foldl (Bound.isNaN_best _), or_iff_right (Bound.not_exceeded_best finite)]
    rfl
  have recovered : l.bound.Behind l.release (sensors.foldl l.bound.worse l.bound.best) ↔
      (∀ t ∈ sensors, t.isNaN = false → l.Released t) ∧
        ((∀ t ∈ sensors, t.isNaN = true) → l.Released l.bound.best) := by
    rw [Bound.behind_foldl (Bound.isNaN_best _)]
    refine ⟨fun ⟨best, all⟩ => ⟨all, fun _ => best⟩, fun ⟨all, alone⟩ => ⟨?_, all⟩⟩
    by_cases silent : ∀ t ∈ sensors, t.isNaN = true
    · exact alone silent
    · push Not at silent
      obtain ⟨t, member, number⟩ := silent
      exact Bound.behind_best ((readable.known t member).resolve_right number)
        (all t member (Bool.eq_false_iff.mpr number))
  refine ⟨_, FaultKind.check?_of_sensorLimit h _ _, ?_, ?_, ?_⟩
  all_goals
    simp only [Status.withTemperatures, worst, counted, decide_true, Bool.true_and, Bool.not_true,
      Bool.false_or, decide_eq_true_iff]
  · exact tripped
  · exact recovered
  · rw [recovered]
    have number : ∀ t, l.Released t → t.isNaN = false := by
      intro t released
      unfold SensorLimit.Released Bound.Behind at released
      split at released
      · exact (lt_iff.mp released).1
      · exact (lt_iff.mp released).2.1
    exact ⟨fun all back t member => number t (all back t member),
      fun all back t member => back.1 t member (all back t member)⟩

end

theorem readable_mute : Readable [25.0, nan] := ⟨by simp, by decide, by decide +kernel⟩

theorem Readable.temperature_check_mute :
    ∃ check,
      FaultKind.dischargeOvertemperature.check? (.ofChemistry .nmc 10.0)
        (({} : Status 1).withTemperatures (.ofSensors [25.0, nan] 30.0)) {} = some check ∧
      check.tripped = false ∧ check.recovered = true := by
  obtain ⟨check, found, tripped, recovered, -⟩ :=
    @Readable.temperature_check 1 (.ofChemistry .nmc 10.0) .dischargeOvertemperature _ _
      readable_mute rfl (by decide +kernel) 30.0 {} {}
  refine ⟨check, found, ?_, recovered.mpr ⟨by decide +kernel, by decide +kernel⟩⟩
  rw [← Bool.not_eq_true, tripped]
  decide +kernel

theorem Readable.not_always_released :
    ¬∀ (sensors : List Float32) (chip : Float32) (config : Config) (kind : FaultKind)
      (l : SensorLimit) (status : Status 1) (report : Report) (check : Check),
      Readable sensors → kind.sensorLimit? config = some l → l.limit.isFinite = true →
      config.temperatureHysteresis.isFinite = true →
      kind.check? config (status.withTemperatures (.ofSensors sensors chip)) report = some check →
      check.recovered = true → ∀ t ∈ sensors, l.Released t := by
  intro always
  have released := always [25.0, nan] 30.0 (.ofChemistry .nmc 10.0) .dischargeOvertemperature
    (.of 5.0 .upper 45.0) {} {} ⟨false, true⟩ readable_mute rfl (by decide +kernel)
    (by decide +kernel) (by decide +kernel) rfl nan (by simp)
  exact absurd released (by decide +kernel)

end PackGuard
