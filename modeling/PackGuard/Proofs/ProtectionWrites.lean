import Mathlib.Data.List.Nodup
import PackGuard.Proofs.Programming

/-!
Writing protections and keeping what they achieve agree under every failure. Each protection is
written once at most, and nothing is written after a failure; what the configuration keeps differs
from the request only where a write was accepted. All protections are programmed exactly if the
front-end has the required ones, the temperature limits are plausible and no write fails.
-/

namespace PackGuard

def Entry.Grants {n : Nat} (entry : Entry n) (kind : Protection) : Prop :=
  entry.protection? = some kind ∧ entry.answer?.isSome = true

/-- Two configurations differ only in what belongs to certain protections. The hysteresis of
temperatures belongs to all temperature protections. -/
structure Config.DiffersBy (owners : Protection → Prop) (before after : Config) : Prop where
  shunt : after.shunt = before.shunt
  capacity : after.capacity = before.capacity
  fullVoltage : after.fullVoltage = before.fullVoltage
  emptyVoltage : after.emptyVoltage = before.emptyVoltage
  balancing : after.balancing = before.balancing
  openCircuit : after.openCircuit = before.openCircuit
  overvoltage : ¬owners .cellOvervoltage → after.overvoltage = before.overvoltage
  undervoltage : ¬owners .cellUndervoltage → after.undervoltage = before.undervoltage
  shortCircuit : ¬owners .shortCircuit → after.shortCircuit = before.shortCircuit
  dischargeOvercurrent :
    ¬owners .dischargeOvercurrent → after.dischargeOvercurrent = before.dischargeOvercurrent
  chargeOvercurrent :
    ¬owners .chargeOvercurrent → after.chargeOvercurrent = before.chargeOvercurrent
  dischargingGreatest :
    ¬owners .dischargeOvertemperature → after.discharging.greatest = before.discharging.greatest
  dischargingLeast :
    ¬owners .dischargeUndertemperature → after.discharging.least = before.discharging.least
  chargingGreatest :
    ¬owners .chargeOvertemperature → after.charging.greatest = before.charging.greatest
  chargingLeast :
    ¬owners .chargeUndertemperature → after.charging.least = before.charging.least
  temperatureHysteresis : (∀ kind ∈ Protection.temperatures, ¬owners kind) →
    after.temperatureHysteresis = before.temperatureHysteresis

namespace Config.DiffersBy

variable {owners others : Protection → Prop} {a b c : Config}

theorem refl (owners : Protection → Prop) (a : Config) : DiffersBy owners a a := by
  constructor <;> intros <;> rfl

theorem mono (h : DiffersBy owners a b) (part : ∀ kind, owners kind → others kind) :
    DiffersBy others a b where
  shunt := h.shunt
  capacity := h.capacity
  fullVoltage := h.fullVoltage
  emptyVoltage := h.emptyVoltage
  balancing := h.balancing
  openCircuit := h.openCircuit
  overvoltage none := h.overvoltage (mt (part _) none)
  undervoltage none := h.undervoltage (mt (part _) none)
  shortCircuit none := h.shortCircuit (mt (part _) none)
  dischargeOvercurrent none := h.dischargeOvercurrent (mt (part _) none)
  chargeOvercurrent none := h.chargeOvercurrent (mt (part _) none)
  dischargingGreatest none := h.dischargingGreatest (mt (part _) none)
  dischargingLeast none := h.dischargingLeast (mt (part _) none)
  chargingGreatest none := h.chargingGreatest (mt (part _) none)
  chargingLeast none := h.chargingLeast (mt (part _) none)
  temperatureHysteresis none :=
    h.temperatureHysteresis fun kind member => mt (part kind) (none kind member)

theorem trans (h : DiffersBy owners a b) (k : DiffersBy owners b c) : DiffersBy owners a c where
  shunt := k.shunt.trans h.shunt
  capacity := k.capacity.trans h.capacity
  fullVoltage := k.fullVoltage.trans h.fullVoltage
  emptyVoltage := k.emptyVoltage.trans h.emptyVoltage
  balancing := k.balancing.trans h.balancing
  openCircuit := k.openCircuit.trans h.openCircuit
  overvoltage none := (k.overvoltage none).trans (h.overvoltage none)
  undervoltage none := (k.undervoltage none).trans (h.undervoltage none)
  shortCircuit none := (k.shortCircuit none).trans (h.shortCircuit none)
  dischargeOvercurrent none := (k.dischargeOvercurrent none).trans (h.dischargeOvercurrent none)
  chargeOvercurrent none := (k.chargeOvercurrent none).trans (h.chargeOvercurrent none)
  dischargingGreatest none := (k.dischargingGreatest none).trans (h.dischargingGreatest none)
  dischargingLeast none := (k.dischargingLeast none).trans (h.dischargingLeast none)
  chargingGreatest none := (k.chargingGreatest none).trans (h.chargingGreatest none)
  chargingLeast none := (k.chargingLeast none).trans (h.chargingLeast none)
  temperatureHysteresis none := (k.temperatureHysteresis none).trans (h.temperatureHysteresis none)

theorem achieve (layout : Protection → Option ProtectionEncoding) (config : Config)
    (kind : Protection) : DiffersBy (· = kind) config (config.achieve layout kind) := by
  unfold Config.achieve
  cases layout kind with
  | none => exact .refl _ config
  | some encoding =>
    cases kind <;> constructor <;> first
      | exact rfl
      | exact fun _ => rfl
      | exact fun other => absurd rfl other
      | exact fun none => absurd rfl (none _ (by decide))

theorem foldl (layout : Protection → Option ProtectionEncoding) (config : Config)
    (kinds : List Protection) :
    DiffersBy (· ∈ kinds) config (kinds.foldl (Config.achieve layout) config) := by
  induction kinds generalizing config with
  | nil => exact .refl _ config
  | cons kind rest ih =>
    refine .trans ((achieve layout config kind).mono ?_) ((ih _).mono ?_)
    · rintro _ rfl
      exact List.mem_cons_self
    · exact fun other member => List.mem_cons_of_mem _ member

end Config.DiffersBy

namespace Controller

variable {σ ε : Type} {n : Nat} [FrontEnd σ ε n] {kinds : List Protection}
  {layout : Protection → Option ProtectionEncoding} {done : Bool} {c d : Controller σ n}

theorem Accepted.grants {kind : Protection} (h : Accepted layout kind c d) :
    ∃ entry, Logged c [entry] d ∧ entry.Grants kind := by
  obtain ⟨_, -, logged⟩ := h.logged
  exact ⟨_, logged, rfl, rfl⟩

theorem Turns.differsBy (h : Turns layout kinds c done d) :
    c.config.DiffersBy (fun kind => ∃ e ∈ since c d, e.Grants kind) d.config := by
  induction h with
  | complete c => exact .refl _ _
  | stopped _ c => exact .refl _ _
  | skipped _ _ ih => exact ih
  | accepted turn after ih =>
    obtain ⟨entry, first, grants⟩ := turn.grants
    obtain ⟨entries, later⟩ := after.logged
    rw [later.since_eq] at ih
    rw [(first.trans later).since_eq]
    refine .trans ?_ (ih.mono fun kind ⟨e, member, granted⟩ =>
      ⟨e, List.mem_append_left _ member, granted⟩)
    rw [turn.config_eq]
    refine (Config.DiffersBy.achieve layout _ _).mono fun kind same => ?_
    exact ⟨entry, List.mem_append_right _ (List.mem_singleton_self entry), same ▸ grants⟩
  | rejected turn =>
    rw [turn.config_eq]
    exact .refl _ _

theorem programAll_eq :
    (programAll : EStateM (ControlError ε) (Controller σ n) Unit) =
      Protection.required.forM program >>= fun _ =>
        programIfSupported .chargeOvercurrent >>= fun _ => programTemperatures := by
  simp [programAll, Protection.required, List.forM_cons, List.forM_nil]

theorem Turns.acceptable_eq (h : Turns layout kinds c done d)
    (others : ∀ kind ∈ kinds, kind ∉ Protection.temperatures) :
    d.config.temperaturesAcceptable = c.config.temperaturesAcceptable := by
  induction h with
  | complete | stopped => rfl
  | skipped _ _ ih => exact ih (List.forall_mem_cons.mp others).2
  | @accepted kind _ _ c b _ turn _ ih =>
    obtain ⟨other, others⟩ := List.forall_mem_cons.mp others
    have differ : ∀ {temperature}, temperature ∈ Protection.temperatures → temperature ≠ kind :=
      fun member same => other (same ▸ member)
    have differs := Config.DiffersBy.achieve layout c.config kind
    rw [← turn.config_eq] at differs
    rw [ih others]
    simp only [Config.temperaturesAcceptable, differs.dischargingGreatest (differ (by decide)),
      differs.dischargingLeast (differ (by decide)), differs.chargingGreatest (differ (by decide)),
      differs.chargingLeast (differ (by decide))]
  | rejected turn => rw [turn.config_eq]

theorem runs_programAll (states : States layout Protection.sequence c) :
    Runs programAll layout Protection.sequence
      ((∀ kind ∈ Protection.required, (layout kind).isSome = true) ∧
        c.config.temperaturesAcceptable = true) c := by
  obtain ⟨first, second, third⟩ := states_append.mp states
  rw [programAll_eq]
  have run := runs_bind (runs_forM (fun _ _ => runs_program) first) fun b turns turned =>
    runs_bind (runs_programIfSupported (turned ▸ second)) fun d turns' turned' =>
      show Runs programTemperatures layout Protection.temperatures
          (c.config.temperaturesAcceptable = true) d by
        rw [← (turns.append turns').acceptable_eq (by decide)]
        exact runs_programTemperatures (turned' ▸ turned ▸ third)
  simpa [Protection.sequence] using run

/-- Each of the protections is written once at most, after which nothing is asked if that fails, and
only protections that the front-end has are written. What the configuration keeps differs from the
request only in what belongs to protections whose write was accepted. -/
structure WritesInTurn (layout : Protection → Option ProtectionEncoding)
    (kinds : List Protection) (c d : Controller σ n) : Prop where
  writes : InTurn layout kinds (since c d)
  config : c.config.DiffersBy (fun kind => ∃ e ∈ since c d, e.Grants kind) d.config

theorem Turns.writesInTurn (distinct : kinds.Nodup) (h : Turns layout kinds c done d) :
    WritesInTurn layout kinds c d := by
  obtain ⟨_, logged, inTurn, -⟩ := h.inTurn distinct
  exact ⟨logged.since_eq ▸ inTurn, h.differsBy⟩

theorem config_of_program_failed {kind : Protection}
    (failed : (c.attempt (program kind)).1 = false) :
    (c.attempt (program kind)).2.config = c.config := by
  unfold attempt at failed ⊢
  rcases program_cases (rfl : FrontEnd.encoding? c.frontEnd kind = _) with
    ⟨-, ended⟩ | ⟨d, -, ended⟩ | ⟨e, d, turn, ended⟩ <;> rw [ended] at failed ⊢
  · cases failed
  · exact turn.config_eq

/-- Programming writes and keeps the same, whatever fails: a single protection, which keeps the
whole configuration if it fails, or all of them. All succeed exactly if the front-end has the
required protections, the temperature limits are plausible and no write fails. -/
theorem writes_match_config (c : Controller σ n) :
    (∀ kind, WritesInTurn (layoutInTurn [kind] c) [kind] c (c.attempt (program kind)).2 ∧
      ((c.attempt (program kind)).1 = false →
        (c.attempt (program kind)).2.config = c.config)) ∧
    WritesInTurn (layoutInTurn Protection.sequence c) Protection.sequence c
      (c.attempt programAll).2 ∧
    ((c.attempt programAll).1 = true ↔
      (∀ kind ∈ Protection.required,
        (layoutInTurn Protection.sequence c kind).isSome = true) ∧
      c.config.temperaturesAcceptable = true ∧
      ∀ e ∈ since c (c.attempt programAll).2, e.answer?.isSome = true) := by
  refine ⟨fun kind => ⟨?_, config_of_program_failed⟩, ?_, ?_⟩
  · have distinct : [kind].Nodup := List.nodup_singleton kind
    have run := runs_program (states_layoutInTurn distinct c).1
    exact run.turns.writesInTurn distinct
  · have run := runs_programAll (states_layoutInTurn Protection.nodup_sequence c)
    exact run.turns.writesInTurn Protection.nodup_sequence
  · have run := runs_programAll (states_layoutInTurn Protection.nodup_sequence c)
    rw [run.done_iff Protection.nodup_sequence, and_assoc]

end Controller
end PackGuard
