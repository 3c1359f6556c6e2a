import PackGuard.Controller.Cycle
import PackGuard.Proofs.TemperatureRequest

/-!
Temperature windows after programming. An upper limit is met by a lower one and a lower limit by a
higher one, so a window that was wide enough may become too narrow. The configuration that has been
programmed is then refused when it is programmed again.
-/

namespace PackGuard

variable {layout : Protection → Option ProtectionEncoding} {config : Config}

/-- Both temperature windows are acceptable with the limits that the layouts achieve. -/
def MetAcceptable (layout : Protection → Option ProtectionEncoding) (config : Config) : Prop :=
  let met := fun kind => metLimit layout kind (config.limit kind)
  0.0 ≤ met .dischargeOvertemperature ∧ 0.0 ≤ met .chargeOvertemperature ∧
    met .dischargeUndertemperature + Config.leastTemperatureWindow ≤ met .dischargeOvertemperature ∧
    met .chargeUndertemperature + Config.leastTemperatureWindow ≤ met .chargeOvertemperature

theorem Config.acceptable_achieved :
    (Protection.temperatures.foldl (achieve layout) config).temperaturesAcceptable = true ↔
      MetAcceptable layout config := by
  have met : ∀ kind ∈ Protection.temperatures,
      (Protection.temperatures.foldl (achieve layout) config).limit kind =
        metLimit layout kind (config.limit kind) := fun _ =>
    limit_foldl Protection.nodup_temperatures fun _ => id
  have greatest := met .dischargeOvertemperature (by decide)
  have least := met .dischargeUndertemperature (by decide)
  have greatest' := met .chargeOvertemperature (by decide)
  have least' := met .chargeUndertemperature (by decide)
  simp only [limit] at greatest least greatest' least'
  simp only [temperaturesAcceptable, MetAcceptable, greatest, least, greatest', least',
    Bool.and_eq_true, decide_eq_true_eq, and_assoc, limit]

namespace Controller

def Declines {σ ε : Type} {n : Nat} (task : EStateM (ControlError ε) (Controller σ n) Unit)
    (c : Controller σ n) : Prop :=
  ∃ d, task c = .error .invalidConfig d

section Sequence

variable {σ ε : Type} {n : Nat} {task rest : EStateM (ControlError ε) (Controller σ n) Unit}
  {c : Controller σ n}

theorem declines_bind (h : Declines (task >>= fun _ => rest) c) :
    Declines task c ∨ ∃ b, task c = .ok () b ∧ Declines rest b := by
  obtain ⟨d, ended⟩ := h
  simp only [bind, EStateM.bind] at ended
  cases ran : task c with
  | ok _ b => exact .inr ⟨b, rfl, d, by simpa only [ran] using ended⟩
  | error e b =>
    simp only [ran, EStateM.Result.error.injEq] at ended
    exact .inl ⟨b, by rw [ran, ended.1]⟩

theorem done_of_bind (h : (c.attempt (task >>= fun _ => rest)).1 = true) :
    ∃ b, task c = .ok () b ∧ (b.attempt rest).1 = true := by
  simp only [attempt, bind, EStateM.bind] at h
  cases ran : task c with
  | ok _ b => exact ⟨b, rfl, by simpa only [attempt, ran] using h⟩
  | error e b => simp [ran] at h

theorem not_declines_forM {task : Protection → EStateM (ControlError ε) (Controller σ n) Unit}
    (each : ∀ kind c, ¬Declines (task kind) c) (kinds : List Protection) (c : Controller σ n) :
    ¬Declines (kinds.forM task) c := by
  induction kinds generalizing c with
  | nil => exact fun ⟨_, ended⟩ => nomatch ended
  | cons kind rest ih =>
    intro refused
    rcases declines_bind refused with first | ⟨b, -, later⟩
    · exact each kind c first
    · exact ih b later

end Sequence

variable {σ ε : Type} {n : Nat} [FrontEnd σ ε n] {c : Controller σ n}

theorem not_declines_program (kind : Protection) (c : Controller σ n) :
    ¬Declines (program kind) c := by
  rintro ⟨d, ended⟩
  rcases program_cases (rfl : FrontEnd.encoding? c.frontEnd kind = _) with
    ⟨-, ran⟩ | ⟨_, -, ran⟩ | ⟨_, _, -, ran⟩ <;> rw [ran] at ended <;> cases ended

theorem not_declines_programIfSupported (kind : Protection) (c : Controller σ n) :
    ¬Declines (programIfSupported kind) c := by
  rintro ⟨d, ended⟩
  rw [programIfSupported_eq] at ended
  rcases program_cases (rfl : FrontEnd.encoding? c.frontEnd kind = _) with
    ⟨-, ran⟩ | ⟨_, -, ran⟩ | ⟨_, _, -, ran⟩ <;> simp only [ran] at ended <;> cases ended

theorem declines_programTemperatures :
    Declines programTemperatures c ↔ c.config.temperaturesAcceptable = false := by
  unfold Declines
  rw [programTemperatures_eq]
  cases c.config.temperaturesAcceptable with
  | false => exact iff_of_true ⟨c, rfl⟩ rfl
  | true => exact iff_of_false (not_declines_forM not_declines_programIfSupported _ c) nofun

theorem acceptable_of_declines_programAll (h : Declines programAll c) :
    c.config.temperaturesAcceptable = false := by
  obtain ⟨first, second, -⟩ := states_append.mp (states_layoutInTurn Protection.nodup_sequence c)
  rw [programAll_eq] at h
  obtain ⟨b, ran, h⟩ := (declines_bind h).resolve_left (not_declines_forM not_declines_program _ c)
  obtain ⟨d, ran', h⟩ := (declines_bind h).resolve_left (not_declines_programIfSupported _ b)
  have run := runs_forM (fun _ _ => runs_program) first
  rw [Runs, ran] at run
  obtain ⟨turns, turned, -⟩ := run
  have run' := runs_programIfSupported (turned ▸ second)
  rw [Runs, ran'] at run'
  rw [← (turns.append run'.1).acceptable_eq (by decide)]
  exact declines_programTemperatures.mp h

theorem acceptable_of_programAll (h : (c.attempt programAll).1 = true) :
    c.config.temperaturesAcceptable = true := by
  have run := runs_programAll (states_layoutInTurn Protection.nodup_sequence c)
  exact ((run.done_iff Protection.nodup_sequence).mp h).1.2

theorem config_of_ask {request : Request} {answer : request.Answer n} {d : Controller σ n}
    (h : (ask request : EStateM (ControlError ε) (Controller σ n) _) c = .ok answer d) :
    d.config = c.config := by
  simp only [ask, EStateM.adaptExcept, command] at h
  cases served : FrontEnd.perform request c.frontEnd with
  | ok _ s =>
    simp only [served, EStateM.Result.ok.injEq] at h
    rw [← h.2]
    rfl
  | error e s => simp [served] at h

theorem not_declines_enterMode (mode : Mode) (c : Controller σ n) :
    ¬Declines (ask (.enterMode mode)) c := by
  rintro ⟨d, ended⟩
  simp only [ask, EStateM.adaptExcept, command] at ended
  cases served : FrontEnd.perform (.enterMode mode) c.frontEnd <;> simp [served] at ended

theorem acceptable_of_declines_start {now : Nat} (h : Declines (start now) c) :
    c.config.temperaturesAcceptable = false := by
  obtain ⟨b, asked, h⟩ := (declines_bind h).resolve_left (not_declines_enterMode .active c)
  rw [← config_of_ask asked]
  rcases declines_bind h with h | ⟨d, -, _, ended⟩
  · exact acceptable_of_declines_programAll h
  · cases ended

theorem acceptable_of_start {now : Nat} (h : (c.attempt (start now)).1 = true) :
    c.config.temperaturesAcceptable = true := by
  obtain ⟨b, asked, h⟩ := done_of_bind h
  obtain ⟨d, ran, -⟩ := done_of_bind h
  rw [← config_of_ask asked]
  exact acceptable_of_programAll (by rw [attempt, ran])

/-- What becomes of temperature limits that were programmed. They stay acceptable exactly if both
windows are, with the limits that the front-end achieves. Otherwise the configuration is declined
when its temperature limits are programmed again, and all protections together or another start
do not succeed. -/
theorem programmed_temperatures (done : (c.attempt programTemperatures).1 = true) :
    let met := MetAcceptable (layoutInTurn Protection.temperatures c) c.config
    let left := (c.attempt programTemperatures).2.config
    (left.temperaturesAcceptable = true ↔ met) ∧
      ∀ again : Controller σ n, again.config = left →
        (met → ¬Declines programTemperatures again ∧ ¬Declines programAll again ∧
          ∀ now, ¬Declines (start now) again) ∧
        (¬met → Declines programTemperatures again ∧ (again.attempt programAll).1 = false ∧
          ∀ now, (again.attempt (start now)).1 = false) := by
  intro met left
  have turns := (runs_programTemperatures
    (states_layoutInTurn Protection.nodup_temperatures c)).turns
  rw [done] at turns
  have acceptable : left.temperaturesAcceptable = true ↔ met := by
    rw [show left = _ from turns.config_of_complete]
    exact Config.acceptable_achieved
  refine ⟨acceptable, fun again same => ?_⟩
  rw [← acceptable, ← same]
  refine ⟨fun holds => ⟨fun refused => ?_, fun refused => ?_, fun now refused => ?_⟩,
    fun fails => ⟨?_, ?_, fun now => ?_⟩⟩
  · simp [declines_programTemperatures.mp refused] at holds
  · simp [acceptable_of_declines_programAll refused] at holds
  · simp [acceptable_of_declines_start refused] at holds
  · exact declines_programTemperatures.mpr (Bool.eq_false_iff.mpr fails)
  · exact Bool.eq_false_iff.mpr fun programmed => fails (acceptable_of_programAll programmed)
  · exact Bool.eq_false_iff.mpr fun started => fails (acceptable_of_start started)

end Controller

def Bench.narrow : Controller (Bench 1) 1 :=
  .new
    { Bench.uniform 1 3.6 with
      protections := fun
        | .dischargeOvertemperature | .dischargeUndertemperature =>
          some ⟨.linear (-40.0) 1.0 0 200, none, none⟩
        | _ => none }
    { Config.ofChemistry .nmc 10.0 with discharging := ⟨20.5, 0.5⟩ }

namespace Controller

theorem programmed_temperatures_narrow :
    let left := (Bench.narrow.attempt programTemperatures).2
    (Bench.narrow.attempt programTemperatures).1 = true ∧ Declines programTemperatures left ∧
      (left.attempt programAll).1 = false ∧ (left.attempt (start 1000)).1 = false := by
  have done : (Bench.narrow.attempt programTemperatures).1 = true := by decide +kernel
  have tooNarrow : ¬MetAcceptable (layoutInTurn Protection.temperatures Bench.narrow)
      Bench.narrow.config := by
    unfold MetAcceptable
    decide +kernel
  obtain ⟨refused, failed, stopped⟩ := ((programmed_temperatures done).2 _ rfl).2 tooNarrow
  exact ⟨done, refused, failed, stopped 1000⟩

/-- Acceptable limits, between half a degree and twenty degrees more, are rounded to nineteen
degrees from each other. -/
theorem temperatures_not_always_acceptable :
    ¬∀ c : Controller (Bench 1) 1,
      (∀ kind ∈ Protection.temperatures, ∀ encoding ∈ c.frontEnd.protections kind,
        ∃ offset gain least greatest, encoding.threshold = .linear offset gain least greatest ∧
          0.0 < gain ∧ least ≤ greatest) →
      (c.attempt programTemperatures).1 = true →
      (c.attempt programTemperatures).2.config.temperaturesAcceptable = true := by
  intro always
  have acceptable := always Bench.narrow ?_ (by decide +kernel)
  · exact absurd acceptable (by decide +kernel)
  · intro kind _ encoding laid
    have steps : encoding = ⟨.linear (-40.0) 1.0 0 200, none, none⟩ := by
      cases kind <;> first
        | exact (Option.some.inj laid).symm
        | cases laid
    rw [steps]
    exact ⟨_, _, _, _, rfl, by decide +kernel, by decide⟩

end Controller
end PackGuard
