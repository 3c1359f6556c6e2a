import PackGuard.FrontEnd.Bench
import PackGuard.Proofs.ProtectionWrites

/-!
The temperature limits are requested together and programmed one after the other. Each limit is met
by the layout of its own protection, while the hysteresis is handed on: what one protection achieves
is what the next one is asked for. A failure on the way therefore leaves a part of the request, and
the protections agree with the requested hysteresis only as far as handing it on does not change
their codes.
-/

namespace PackGuard

variable {layout : Protection → Option ProtectionEncoding} {kind other : Protection}
  {config : Config}

def Protection.bound : Protection → Bound
  | cellUndervoltage | chargeUndertemperature | dischargeUndertemperature => .lower
  | _ => .upper

def metLimit (layout : Protection → Option ProtectionEncoding) (kind : Protection)
    (limit : Float32) : Float32 :=
  match layout kind with
  | none => limit
  | some encoding => (encoding.threshold.apply limit kind.bound.rounding).2

/-- The hysteresis that the configuration holds after a temperature protection. -/
def handOn (layout : Protection → Option ProtectionEncoding) (wanted : Float32)
    (kind : Protection) : Float32 :=
  match (layout kind).bind ProtectionEncoding.hysteresis with
  | none => wanted
  | some e => e.value (ProtectionEncoding.hysteresisCode e wanted)

def Entry.hysteresis? {n : Nat} (entry : Entry n) : Option UInt16 :=
  match entry.request with
  | .protect _ codes => codes.hysteresis
  | _ => none

/-- The front-end has accepted codes for a protection, with the hysteresis that its layout
yields. -/
def Entry.WritesHysteresis {n : Nat} (entry : Entry n) (kind : Protection)
    (encoding : ProtectionEncoding) (wanted : Float32) : Prop :=
  ∃ codes, entry.request = .protect kind codes ∧ entry.answer?.isSome = true ∧
    codes.hysteresis =
      encoding.hysteresis.map fun e => ProtectionEncoding.hysteresisCode e wanted

namespace Config

theorem setpoint_of_temperature (member : kind ∈ Protection.temperatures) :
    config.setpoint kind =
      ⟨config.limit kind, 0.0, config.temperatureHysteresis, kind.bound⟩ := by
  cases kind <;> first
    | rfl
    | exact absurd member (by decide)

theorem achieve_missing (missing : layout kind = none) : config.achieve layout kind = config := by
  rw [achieve, missing]

theorem limit_achieve_of_ne (differ : other ≠ kind) :
    (config.achieve layout kind).limit other = config.limit other := by
  unfold achieve
  cases layout kind with
  | none => rfl
  | some => exact limit_store_of_ne _ _ differ

theorem limit_achieve_self (member : kind ∈ Protection.temperatures) :
    (config.achieve layout kind).limit kind = metLimit layout kind (config.limit kind) := by
  unfold achieve metLimit
  cases layout kind with
  | none => rfl
  | some encoding =>
    rw [setpoint_of_temperature member]
    cases kind <;> first
      | rfl
      | exact absurd member (by decide)

theorem temperatureHysteresis_achieve (member : kind ∈ Protection.temperatures) :
    (config.achieve layout kind).temperatureHysteresis =
      handOn layout config.temperatureHysteresis kind := by
  unfold achieve handOn
  cases layout kind with
  | none => rfl
  | some encoding =>
    rw [setpoint_of_temperature member]
    cases encoding with
    | mk _ _ hysteresis =>
      cases hysteresis <;> cases kind <;> first
        | rfl
        | exact absurd member (by decide)

variable {kinds : List Protection}

theorem limit_foldl_of_notMem (absent : other ∉ kinds) :
    (kinds.foldl (achieve layout) config).limit other = config.limit other := by
  induction kinds generalizing config with
  | nil => rfl
  | cons kind rest ih =>
    obtain ⟨differ, absent⟩ := List.ne_and_not_mem_of_not_mem_cons absent
    rw [List.foldl_cons, ih absent, limit_achieve_of_ne differ]

theorem limit_foldl (distinct : kinds.Nodup) (temperatures : ∀ kind ∈ kinds,
    kind ∈ Protection.temperatures) (member : kind ∈ kinds) :
    (kinds.foldl (achieve layout) config).limit kind =
      metLimit layout kind (config.limit kind) := by
  induction kinds generalizing config with
  | nil => cases member
  | cons first rest ih =>
    obtain ⟨absent, distinct⟩ := List.nodup_cons.mp distinct
    rw [List.foldl_cons]
    rcases List.mem_cons.mp member with rfl | later
    · rw [limit_foldl_of_notMem absent]
      exact limit_achieve_self (temperatures _ List.mem_cons_self)
    · have differ : kind ≠ first := fun same => absent (same ▸ later)
      rw [ih distinct (List.forall_mem_cons.mp temperatures).2 later, limit_achieve_of_ne differ]

theorem temperatureHysteresis_foldl (temperatures : ∀ kind ∈ kinds,
    kind ∈ Protection.temperatures) :
    (kinds.foldl (achieve layout) config).temperatureHysteresis =
      kinds.foldl (handOn layout) config.temperatureHysteresis := by
  induction kinds generalizing config with
  | nil => rfl
  | cons first rest ih =>
    obtain ⟨temperature, temperatures⟩ := List.forall_mem_cons.mp temperatures
    rw [List.foldl_cons, List.foldl_cons, ih temperatures,
      temperatureHysteresis_achieve temperature]

theorem DiffersBy.eq {owners : Protection → Prop} {before after : Config}
    (h : DiffersBy owners before after) (temperatures : ∀ kind, owners kind →
      kind ∈ Protection.temperatures)
    (limits : ∀ kind ∈ Protection.temperatures, after.limit kind = before.limit kind)
    (hysteresis : after.temperatureHysteresis = before.temperatureHysteresis) :
    after = before := by
  have others : ∀ kind, kind ∉ Protection.temperatures → ¬owners kind :=
    fun kind other owned => other (temperatures kind owned)
  have discharging : after.discharging = before.discharging := by
    have greatest := limits .dischargeOvertemperature (by decide)
    have least := limits .dischargeUndertemperature (by decide)
    cases same : before.discharging
    cases same' : after.discharging
    simp_all [limit]
  have charging : after.charging = before.charging := by
    have greatest := limits .chargeOvertemperature (by decide)
    have least := limits .chargeUndertemperature (by decide)
    cases same : before.charging
    cases same' : after.charging
    simp_all [limit]
  have shunt := h.shunt
  have capacity := h.capacity
  have full := h.fullVoltage
  have empty := h.emptyVoltage
  have balancing := h.balancing
  have openCircuit := h.openCircuit
  have overvoltage := h.overvoltage (others _ (by decide))
  have undervoltage := h.undervoltage (others _ (by decide))
  have shortCircuit := h.shortCircuit (others _ (by decide))
  have dischargeOvercurrent := h.dischargeOvercurrent (others _ (by decide))
  have chargeOvercurrent := h.chargeOvercurrent (others _ (by decide))
  cases before
  cases after
  congr

end Config

namespace Controller

variable {σ ε : Type} {n : Nat} [FrontEnd σ ε n] {kinds : List Protection} {done : Bool}
  {c b d : Controller σ n}

def granted (c d : Controller σ n) : List Protection :=
  ((since c d).filter Entry.succeeded).reverse.filterMap Entry.protection?

theorem granted_trans {first second : List (Entry n)} (h : Logged c first b)
    (k : Logged b second d) : granted c d = granted c b ++ granted b d := by
  simp [granted, (h.trans k).since_eq, h.since_eq, k.since_eq]

theorem Accepted.granted_eq (h : Accepted layout kind c d) : granted c d = [kind] := by
  obtain ⟨_, -, logged⟩ := h.logged
  rw [granted, logged.since_eq]
  rfl

theorem Rejected.granted_eq (h : Rejected layout kind c d) : granted c d = [] := by
  obtain ⟨_, -, logged⟩ := h.logged
  rw [granted, logged.since_eq]
  rfl

theorem granted_self (c : Controller σ n) : granted c c = [] := by simp [granted, since]

theorem Turns.granted_sublist (h : Turns layout kinds c done d) : (granted c d).Sublist kinds := by
  induction h with
  | complete c => rw [granted_self]
  | stopped _ c => simp [granted_self]
  | skipped _ _ ih => exact ih.cons _
  | accepted turn after ih =>
    obtain ⟨_, -, first⟩ := turn.logged
    obtain ⟨_, later⟩ := after.logged
    rw [granted_trans first later, turn.granted_eq]
    exact ih.cons_cons _
  | rejected turn => simp [turn.granted_eq]

theorem Turns.config_eq (h : Turns layout kinds c done d) :
    d.config = (granted c d).foldl (Config.achieve layout) c.config := by
  induction h with
  | complete c => rw [granted_self]; rfl
  | stopped _ c => rw [granted_self]; rfl
  | skipped _ _ ih => exact ih
  | accepted turn after ih =>
    obtain ⟨_, -, first⟩ := turn.logged
    obtain ⟨_, later⟩ := after.logged
    rw [granted_trans first later, turn.granted_eq, ih, turn.config_eq]
    rfl
  | rejected turn => rw [turn.granted_eq, turn.config_eq]; rfl

theorem Turns.config_of_complete (h : Turns layout kinds c true d) :
    d.config = kinds.foldl (Config.achieve layout) c.config := by
  generalize whole : true = complete at h
  induction h with
  | complete => rfl
  | skipped missing _ ih => rw [List.foldl_cons, Config.achieve_missing missing, ih whole]
  | accepted turn _ ih => rw [List.foldl_cons, ih whole, turn.config_eq]
  | rejected | stopped => cases whole

/-- In complete turns, the codes of a protection are those for what the earlier ones have left of
the configuration. -/
theorem Turns.written {encoding : ProtectionEncoding} {before after : List Protection}
    (h : Turns layout kinds c true d) (place : kinds = before ++ kind :: after)
    (laid : layout kind = some encoding) :
    ∃ moment, ⟨.protect kind
      (encoding.meet ((before.foldl (Config.achieve layout) c.config).setpoint kind)).1, some (),
      moment⟩ ∈ since c d := by
  generalize whole : true = complete at h
  induction h generalizing before with
  | complete => simp at place
  | rejected | stopped => cases whole
  | @skipped first rest _ c d missing _ ih =>
    cases before with
    | nil =>
      obtain ⟨rfl, -⟩ := List.cons.inj place
      rw [missing] at laid
      cases laid
    | cons _ before =>
      obtain ⟨rfl, later⟩ := List.cons.inj place
      rw [List.foldl_cons, Config.achieve_missing missing]
      exact ih later whole
  | @accepted first rest _ c b d turn others ih =>
    obtain ⟨encoding', laid', logged⟩ := turn.logged
    obtain ⟨entries, logged'⟩ := others.logged
    rw [(logged.trans logged').since_eq]
    cases before with
    | nil =>
      obtain ⟨rfl, -⟩ := List.cons.inj place
      obtain rfl := Option.some.inj (laid'.symm.trans laid)
      exact ⟨c.moment, List.mem_append_right _ (List.mem_singleton_self _)⟩
    | cons _ before =>
      obtain ⟨rfl, later⟩ := List.cons.inj place
      obtain ⟨moment, member⟩ := ih later whole
      rw [logged'.since_eq, turn.config_eq] at member
      exact ⟨moment, List.mem_append_left _ member⟩

theorem Turns.config_eq_iff (h : Turns layout kinds c done d) (distinct : kinds.Nodup)
    (temperatures : ∀ kind ∈ kinds, kind ∈ Protection.temperatures) :
    d.config = c.config ↔
      (∀ kind ∈ granted c d, metLimit layout kind (c.config.limit kind) = c.config.limit kind) ∧
        (granted c d).foldl (handOn layout) c.config.temperatureHysteresis =
          c.config.temperatureHysteresis := by
  have part := h.granted_sublist
  have unique : (granted c d).Nodup := distinct.sublist part
  have within : ∀ kind ∈ granted c d, kind ∈ Protection.temperatures :=
    fun kind member => temperatures kind (part.subset member)
  have config := h.config_eq
  refine ⟨fun same => ⟨fun kind member => ?_, ?_⟩, fun ⟨limits, hysteresis⟩ => ?_⟩
  · rw [← Config.limit_foldl unique within member, ← config, same]
  · rw [← Config.temperatureHysteresis_foldl within, ← config, same]
  · have differs : c.config.DiffersBy (· ∈ granted c d) d.config := by
      rw [config]
      exact .foldl layout _ _
    refine differs.eq within (fun kind _ => ?_) ?_
    · rw [config]
      by_cases member : kind ∈ granted c d
      · rw [Config.limit_foldl unique within member, limits kind member]
      · exact Config.limit_foldl_of_notMem member
    · rw [config, Config.temperatureHysteresis_foldl within, hysteresis]

theorem Turns.writesHysteresis_iff (h : Turns layout kinds c true d) (distinct : kinds.Nodup)
    (temperatures : ∀ kind ∈ kinds, kind ∈ Protection.temperatures)
    {encoding : ProtectionEncoding} {before after : List Protection} (wanted : Float32)
    (place : kinds = before ++ kind :: after) (laid : layout kind = some encoding) :
    (∃ e ∈ since c d, e.WritesHysteresis kind encoding wanted) ↔
      ∀ e ∈ encoding.hysteresis,
        ProtectionEncoding.hysteresisCode e
          (before.foldl (handOn layout) c.config.temperatureHysteresis) =
        ProtectionEncoding.hysteresisCode e wanted := by
  obtain ⟨moment, member⟩ := h.written place laid
  have earlier : ∀ kind ∈ before, kind ∈ Protection.temperatures := fun kind member =>
    temperatures kind (place ▸ List.mem_append_left _ member)
  have code := ProtectionEncoding.hysteresis_meet encoding
    ((before.foldl (Config.achieve layout) c.config).setpoint kind)
  have temperature : kind ∈ Protection.temperatures :=
    temperatures kind (place ▸ List.mem_append_right _ List.mem_cons_self)
  rw [Config.setpoint_of_temperature temperature] at member code
  rw [Config.temperatureHysteresis_foldl earlier] at code member
  constructor
  · rintro ⟨e, among, codes, asked, granted, wrote⟩ laid' found
    obtain ⟨entries, logged, inTurn, -⟩ := h.inTurn distinct
    rw [logged.since_eq] at among member
    have once : (entries.map Entry.protection?).Nodup :=
      List.pairwise_map.mpr (inTurn.apart.imp And.left)
    have same := List.inj_on_of_nodup_map once among member (by simp [Entry.protection?, asked])
    rw [same] at asked
    obtain ⟨-, rfl⟩ := Request.protect.inj asked
    rw [wrote] at code
    simpa [Option.mem_def.mp found] using code.symm
  · intro agree
    exact ⟨_, member, (encoding.meet _).1, rfl, rfl, code.trans (Option.map_congr agree)⟩

/-- How far the temperature limits are programmed as one request. Whether it fails or not, the
configuration holds the request still exactly if each accepted protection meets its limit and the
hysteresis comes back unchanged from all of them. If it succeeds, the protections have the codes of
the requested hysteresis exactly if those that are handed on have the same codes. -/
theorem temperatures_as_requested (c : Controller σ n) :
    let layout := layoutInTurn Protection.temperatures c
    let wanted := c.config.temperatureHysteresis
    let d := (c.attempt programTemperatures).2
    (d.config = c.config ↔
      (∀ kind ∈ granted c d, metLimit layout kind (c.config.limit kind) = c.config.limit kind) ∧
        (granted c d).foldl (handOn layout) wanted = wanted) ∧
    ((c.attempt programTemperatures).1 = true →
      ((∀ kind ∈ Protection.temperatures, ∀ encoding ∈ layout kind,
          ∃ e ∈ since c d, e.WritesHysteresis kind encoding wanted) ↔
        ∀ before kind after, Protection.temperatures = before ++ kind :: after →
          ∀ encoding ∈ layout kind, ∀ e ∈ encoding.hysteresis,
            ProtectionEncoding.hysteresisCode e (before.foldl (handOn layout) wanted) =
              ProtectionEncoding.hysteresisCode e wanted)) := by
  intro layout wanted d
  have turns := (runs_programTemperatures
    (states_layoutInTurn Protection.nodup_temperatures c)).turns
  refine ⟨turns.config_eq_iff Protection.nodup_temperatures fun _ => id, fun done => ?_⟩
  rw [done] at turns
  constructor
  · intro all before kind after place encoding laid
    have member : kind ∈ Protection.temperatures :=
      place ▸ List.mem_append_right _ List.mem_cons_self
    exact (turns.writesHysteresis_iff Protection.nodup_temperatures (fun _ => id) wanted place
      laid).mp (all kind member encoding laid)
  · intro agree kind member encoding laid
    obtain ⟨before, after, place⟩ := List.append_of_mem member
    exact (turns.writesHysteresis_iff Protection.nodup_temperatures (fun _ => id) wanted place
      laid).mpr (agree before kind after place encoding laid)

end Controller

def Bench.coarse : ProtectionEncoding :=
  ⟨.linear (-40.0) 2.0 0 100, none, some (.linear 0.0 2.0 0 10)⟩

def Bench.fine : ProtectionEncoding :=
  ⟨.linear (-40.0) 1.0 0 200, none, some (.linear 0.0 1.0 0 20)⟩

def Bench.graded (refused : List Nat) : Controller (Bench 1) 1 :=
  .new
    { Bench.uniform 1 3.6 with
      protections := fun
        | .dischargeOvertemperature | .dischargeUndertemperature => some coarse
        | .chargeOvertemperature | .chargeUndertemperature => some fine
        | _ => none
      refusedRequests := refused }
    (.ofChemistry .nmc 10.0)

/-- The temperature limits are not one request: a refused protection leaves the configuration with
the limit and the hysteresis of the one before, and without a failure the hysteresis that one
protection achieves is programmed into the next. -/
theorem Controller.temperatures_not_one_request :
    (¬∀ c : Controller (Bench 1) 1, (c.attempt programTemperatures).1 = false →
      (c.attempt programTemperatures).2.config = c.config) ∧
    ¬∀ c : Controller (Bench 1) 1, (c.attempt programTemperatures).1 = true →
      ∀ kind ∈ Protection.temperatures, ∀ encoding ∈ c.frontEnd.protections kind,
        ∃ e ∈ since c (c.attempt programTemperatures).2,
          e.WritesHysteresis kind encoding c.config.temperatureHysteresis := by
  constructor
  · intro always
    have same := congrArg Config.temperatureHysteresis
      (always (Bench.graded [1]) (by decide +kernel))
    exact absurd same (by decide +kernel)
  · intro always
    obtain ⟨e, member, codes, asked, -, wrote⟩ := always (Bench.graded []) (by decide +kernel)
      .chargeOvertemperature (by decide) Bench.fine rfl
    have requested : codes.hysteresis = some 5 := wrote.trans (by decide +kernel)
    have handed : ∀ e ∈ (Bench.graded []).since ((Bench.graded []).attempt programTemperatures).2,
        e.protection? = some .chargeOvertemperature → e.hysteresis? = some 6 := by decide +kernel
    have six := handed e member (by rw [Entry.protection?, asked])
    rw [Entry.hysteresis?, asked] at six
    exact absurd (requested.symm.trans six) (by decide)

end PackGuard
