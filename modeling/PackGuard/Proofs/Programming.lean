import PackGuard.Controller.Protection
import PackGuard.Proofs.Journal

/-!
Protections that are programmed one after the other. In its turn a protection is left out if the
front-end does not have it; otherwise its codes are sent, and the front-end accepts or rejects them.
The turns end with the first rejection. What is sent and what the configuration keeps
follows from the register layouts that the front-end states when it is asked for them.
-/

namespace PackGuard

namespace Protection

def required : List Protection :=
  [cellOvervoltage, cellUndervoltage, shortCircuit, dischargeOvercurrent]

def sequence : List Protection := required ++ chargeOvercurrent :: temperatures

theorem nodup_sequence : sequence.Nodup := by decide

theorem nodup_temperatures : temperatures.Nodup := by decide

end Protection

def Entry.protection? {n : Nat} (entry : Entry n) : Option Protection :=
  match entry.request with
  | .protect kind _ => some kind
  | _ => none

namespace Config

def limit (config : Config) : Protection → Float32
  | .cellOvervoltage => config.overvoltage.limit
  | .cellUndervoltage => config.undervoltage.limit
  | .shortCircuit => config.shortCircuit.limit
  | .dischargeOvercurrent => config.dischargeOvercurrent.limit
  | .chargeOvercurrent => config.chargeOvercurrent.limit
  | .dischargeOvertemperature => config.discharging.greatest
  | .dischargeUndertemperature => config.discharging.least
  | .chargeOvertemperature => config.charging.greatest
  | .chargeUndertemperature => config.charging.least

def delay (config : Config) : Protection → Nat
  | .cellOvervoltage => config.overvoltage.delay
  | .cellUndervoltage => config.undervoltage.delay
  | .shortCircuit => config.shortCircuit.delay
  | .dischargeOvercurrent => config.dischargeOvercurrent.delay
  | .chargeOvercurrent => config.chargeOvercurrent.delay
  | .dischargeOvertemperature | .dischargeUndertemperature | .chargeOvertemperature
  | .chargeUndertemperature => 0

def ofThreshold (config : Config) (kind : Protection) (threshold : Float32) : Float32 :=
  match kind with
  | .shortCircuit | .dischargeOvercurrent | .chargeOvercurrent => threshold / config.shunt
  | _ => threshold

variable (config : Config) (kind : Protection) (achieved : Achieved)

theorem shunt_store : (config.store kind achieved).shunt = config.shunt := by cases kind <;> rfl

theorem ofThreshold_store (other : Protection) (threshold : Float32) :
    (config.store kind achieved).ofThreshold other threshold =
      config.ofThreshold other threshold := by
  cases kind <;> rfl

theorem limit_store_self :
    (config.store kind achieved).limit kind = config.ofThreshold kind achieved.limit := by
  cases kind <;> rfl

theorem delay_store_self {delay : Float32} (timed : achieved.delay = some delay)
    (delayed : kind ∉ Protection.temperatures) :
    (config.store kind achieved).delay kind = wholeDelay delay := by
  cases kind <;> first
    | exact absurd (by decide) delayed
    | simp [store, Config.delay, VoltageLimit.store, CurrentLimit.store, timed]

variable {kind} {other : Protection}

theorem limit_store_of_ne (differ : other ≠ kind) :
    (config.store kind achieved).limit other = config.limit other := by
  cases kind <;> cases other <;> first
    | exact absurd rfl differ
    | rfl

theorem delay_store_of_ne (differ : other ≠ kind) :
    (config.store kind achieved).delay other = config.delay other := by
  cases kind <;> cases other <;> first
    | exact absurd rfl differ
    | rfl

end Config

theorem ProtectionEncoding.hysteresis_meet (encoding : ProtectionEncoding) (wanted : Setpoint) :
    (encoding.meet wanted).1.hysteresis =
      encoding.hysteresis.map fun e => hysteresisCode e wanted.hysteresis := by
  cases encoding with
  | mk _ _ hysteresis => cases hysteresis <;> rfl

def Config.achieve (layout : Protection → Option ProtectionEncoding) (config : Config)
    (kind : Protection) : Config :=
  match layout kind with
  | none => config
  | some encoding => config.store kind (encoding.meet (config.setpoint kind)).2

namespace Controller

variable {σ ε : Type} {n : Nat} [FrontEnd σ ε n]

theorem get_bind {δ τ α : Type} (task : τ → EStateM δ τ α) (state : τ) :
    (get >>= task) state = task state state := rfl

theorem program_eq (kind : Protection) (c : Controller σ n) :
    (program kind : EStateM (ControlError ε) (Controller σ n) Unit) c =
      match FrontEnd.encoding? c.frontEnd kind with
      | none => .error .notSupported c
      | some encoding =>
        let (codes, achieved) := encoding.meet (c.config.setpoint kind)
        match FrontEnd.perform (.protect kind codes) c.frontEnd with
        | .ok answer s =>
          .ok () { c.record (.protect kind codes) (some answer) s with
            config := c.config.store kind achieved }
        | .error e s => .error (.frontEnd e) (c.record (.protect kind codes) none s) := by
  rw [program, get_bind]
  cases FrontEnd.encoding? c.frontEnd kind with
  | none => rfl
  | some encoding =>
    cases served : FrontEnd.perform (.protect kind (encoding.meet (c.config.setpoint kind)).1)
      c.frontEnd with
    | ok answer s =>
      simp only [ask, bind, EStateM.bind, EStateM.adaptExcept, command, served]
      rfl
    | error e s => simp only [ask, bind, EStateM.bind, EStateM.adaptExcept, command, served]

theorem programIfSupported_eq (kind : Protection) (c : Controller σ n) :
    (programIfSupported kind : EStateM (ControlError ε) (Controller σ n) Unit) c =
      match (program kind : EStateM (ControlError ε) (Controller σ n) Unit) c with
      | .ok _ d => .ok () d
      | .error .notSupported d => .ok () d
      | .error e d => .error e d := by
  change EStateM.tryCatch _ _ _ = _
  delta EStateM.tryCatch
  cases program kind c with
  | ok _ d => rfl
  | error e d => cases e <;> rfl

theorem programTemperatures_eq (c : Controller σ n) :
    (programTemperatures : EStateM (ControlError ε) (Controller σ n) Unit) c =
      if c.config.temperaturesAcceptable = true then
        Protection.temperatures.forM programIfSupported c
      else .error .invalidConfig c := by
  rw [programTemperatures, get_bind]
  split <;> rfl

section Layout

variable {layout : Protection → Option ProtectionEncoding}

def layoutInTurn : List Protection → Controller σ n → Protection → Option ProtectionEncoding
  | [], _, _ => none
  | next :: rest, c, kind =>
    if kind = next then FrontEnd.encoding? c.frontEnd next
    else layoutInTurn rest (c.attempt (program next)).2 kind

/-- The front-end states the given layouts when the turns of the protections come. -/
def States (layout : Protection → Option ProtectionEncoding) :
    List Protection → Controller σ n → Prop
  | [], _ => True
  | next :: rest, c =>
    FrontEnd.encoding? c.frontEnd next = layout next ∧
      States layout rest (c.attempt (program next)).2

def afterTurns (kinds : List Protection) (c : Controller σ n) : Controller σ n :=
  kinds.foldl (fun c kind => (c.attempt (program kind)).2) c

theorem States.congr {other : Protection → Option ProtectionEncoding} {kinds : List Protection}
    {c : Controller σ n} (same : ∀ kind ∈ kinds, layout kind = other kind)
    (h : States layout kinds c) : States other kinds c := by
  induction kinds generalizing c with
  | nil => trivial
  | cons kind rest ih =>
    exact ⟨h.1.trans (same kind List.mem_cons_self),
      ih (fun kind member => same kind (List.mem_cons_of_mem _ member)) h.2⟩

theorem states_layoutInTurn {kinds : List Protection} (distinct : kinds.Nodup)
    (c : Controller σ n) : States (layoutInTurn kinds c) kinds c := by
  induction kinds generalizing c with
  | nil => trivial
  | cons kind rest ih =>
    obtain ⟨absent, distinct⟩ := List.nodup_cons.mp distinct
    refine ⟨(if_pos rfl).symm, (ih distinct _).congr fun other member => ?_⟩
    have differ : other ≠ kind := fun same => absent (same ▸ member)
    exact (if_neg differ).symm

theorem states_append {first second : List Protection} {c : Controller σ n} :
    States layout (first ++ second) c ↔
      States layout first c ∧ States layout second (afterTurns first c) := by
  induction first generalizing c with
  | nil => exact (and_iff_right trivial).symm
  | cons kind rest ih =>
    change _ ∧ States layout (rest ++ second) _ ↔ (_ ∧ _) ∧ _
    rw [ih, and_assoc]
    rfl

end Layout

section Turns

def Accepted (layout : Protection → Option ProtectionEncoding) (kind : Protection)
    (c d : Controller σ n) : Prop :=
  ∃ encoding s, layout kind = some encoding ∧
    FrontEnd.perform (.protect kind (encoding.meet (c.config.setpoint kind)).1) c.frontEnd =
      .ok () s ∧
    d = { c.record (.protect kind (encoding.meet (c.config.setpoint kind)).1) (some ()) s with
      config := c.config.achieve layout kind }

def Rejected (layout : Protection → Option ProtectionEncoding) (kind : Protection)
    (c d : Controller σ n) : Prop :=
  ∃ encoding e s, layout kind = some encoding ∧
    FrontEnd.perform (.protect kind (encoding.meet (c.config.setpoint kind)).1) c.frontEnd =
      .error e s ∧
    d = c.record (.protect kind (encoding.meet (c.config.setpoint kind)).1) none s

/-- The turns of protections one after the other. They are complete if all protections have had
their turn, and none was rejected. -/
inductive Turns (layout : Protection → Option ProtectionEncoding) :
    List Protection → Controller σ n → Bool → Controller σ n → Prop
  | complete (c : Controller σ n) : Turns layout [] c true c
  | skipped {kind : Protection} {rest : List Protection} {done : Bool} {c d : Controller σ n}
      (missing : layout kind = none) (after : Turns layout rest c done d) :
      Turns layout (kind :: rest) c done d
  | accepted {kind : Protection} {rest : List Protection} {done : Bool} {c b d : Controller σ n}
      (turn : Accepted layout kind c b) (after : Turns layout rest b done d) :
      Turns layout (kind :: rest) c done d
  | rejected {kind : Protection} {rest : List Protection} {c d : Controller σ n}
      (turn : Rejected layout kind c d) : Turns layout (kind :: rest) c false d
  /-- The next turn is not reached, without a request to the front-end. -/
  | stopped (kinds : List Protection) (c : Controller σ n) : Turns layout kinds c false c

variable {layout : Protection → Option ProtectionEncoding} {kinds first second : List Protection}
  {kind : Protection} {done : Bool} {c b d : Controller σ n}

theorem Turns.append (h : Turns layout first c true b) (k : Turns layout second b done d) :
    Turns layout (first ++ second) c done d := by
  generalize whole : true = complete at h
  induction h with
  | complete => exact k
  | skipped missing _ ih => exact .skipped missing (ih k whole)
  | accepted turn _ ih => exact .accepted turn (ih k whole)
  | rejected | stopped => cases whole

theorem Turns.extend (h : Turns layout first c false d) (second : List Protection) :
    Turns layout (first ++ second) c false d := by
  generalize part : false = complete at h
  induction h with
  | complete => cases part
  | skipped missing _ ih => exact .skipped missing (ih part)
  | accepted turn _ ih => exact .accepted turn (ih part)
  | rejected turn => exact .rejected turn
  | stopped => exact .stopped _ _

theorem program_cases (found : FrontEnd.encoding? c.frontEnd kind = layout kind) :
    (layout kind = none ∧ program kind c = .error .notSupported c) ∨
      (∃ d, Accepted layout kind c d ∧ program kind c = .ok () d) ∨
      ∃ e d, Rejected layout kind c d ∧ program kind c = .error (.frontEnd e) d := by
  rw [program_eq, found]
  cases laid : layout kind with
  | none => exact .inl ⟨rfl, rfl⟩
  | some encoding =>
    right
    have kept : c.config.store kind (encoding.meet (c.config.setpoint kind)).2 =
        c.config.achieve layout kind := by rw [Config.achieve, laid]
    dsimp only
    cases served : FrontEnd.perform (.protect kind (encoding.meet (c.config.setpoint kind)).1)
      c.frontEnd with
    | ok _ s => exact .inl ⟨_, ⟨encoding, s, laid, served, rfl⟩, by rw [kept]⟩
    | error e s => exact .inr ⟨e, _, ⟨encoding, e, s, laid, served, rfl⟩, rfl⟩

theorem Accepted.logged (h : Accepted layout kind c d) :
    ∃ encoding, layout kind = some encoding ∧
      Logged c [⟨.protect kind (encoding.meet (c.config.setpoint kind)).1, some (), c.moment⟩] d := by
  obtain ⟨encoding, s, laid, served, rfl⟩ := h
  exact ⟨encoding, laid, rfl, .answered _ (.refl _) served, rfl⟩

theorem Accepted.config_eq (h : Accepted layout kind c d) :
    d.config = c.config.achieve layout kind := by
  obtain ⟨_, _, -, -, rfl⟩ := h
  rfl

theorem Rejected.logged (h : Rejected layout kind c d) :
    ∃ encoding, layout kind = some encoding ∧
      Logged c [⟨.protect kind (encoding.meet (c.config.setpoint kind)).1, none, c.moment⟩] d := by
  obtain ⟨encoding, _, s, laid, served, rfl⟩ := h
  exact ⟨encoding, laid, logged_record_failed served⟩

theorem Rejected.config_eq (h : Rejected layout kind c d) : d.config = c.config := by
  obtain ⟨_, _, _, -, -, rfl⟩ := h
  rfl

theorem program_logged {encoding : ProtectionEncoding}
    (laid : FrontEnd.encoding? c.frontEnd kind = some encoding) :
    ∃ answer?, Logged c [⟨.protect kind (encoding.meet (c.config.setpoint kind)).1, answer?,
      c.moment⟩] (c.attempt (program kind)).2 := by
  unfold attempt
  rcases program_cases (rfl : FrontEnd.encoding? c.frontEnd kind = _) with
    ⟨missing, -⟩ | ⟨d, turn, ended⟩ | ⟨e, d, turn, ended⟩
  · rw [missing] at laid
    cases laid
  · obtain ⟨encoding', laid', logged⟩ := turn.logged
    obtain rfl := Option.some.inj (laid'.symm.trans laid)
    rw [ended]
    exact ⟨_, logged⟩
  · obtain ⟨encoding', laid', logged⟩ := turn.logged
    obtain rfl := Option.some.inj (laid'.symm.trans laid)
    rw [ended]
    exact ⟨_, logged⟩

end Turns

section Journal

variable {layout : Protection → Option ProtectionEncoding} {kinds : List Protection}
  {done : Bool} {c d : Controller σ n}

/-- The requests of turns are for protections that the front-end has, each for another one, and
all that were made before another request were granted. -/
structure InTurn (layout : Protection → Option ProtectionEncoding) (kinds : List Protection)
    (entries : List (Entry n)) : Prop where
  among : ∀ e ∈ entries, ∃ kind ∈ kinds, ∃ encoding wanted, layout kind = some encoding ∧
    e.request = .protect kind (encoding.meet wanted).1
  apart : entries.Pairwise fun later earlier =>
    later.protection? ≠ earlier.protection? ∧ earlier.answer?.isSome = true

theorem InTurn.nil (kinds : List Protection) : InTurn layout kinds ([] : List (Entry n)) :=
  ⟨by simp, .nil⟩

theorem InTurn.mono {kind : Protection} {entries : List (Entry n)}
    (h : InTurn layout kinds entries) : InTurn layout (kind :: kinds) entries where
  among e member := by
    obtain ⟨other, among, asked⟩ := h.among e member
    exact ⟨other, List.mem_cons_of_mem _ among, asked⟩
  apart := h.apart

theorem InTurn.single {kind : Protection} {encoding : ProtectionEncoding} {wanted : Setpoint}
    {answer? : Option Unit} {moment : Moment n} (laid : layout kind = some encoding) :
    InTurn layout (kind :: kinds) [⟨.protect kind (encoding.meet wanted).1, answer?, moment⟩] where
  among e member := by
    obtain rfl := List.mem_singleton.mp member
    exact ⟨kind, List.mem_cons_self, encoding, wanted, laid, rfl⟩
  apart := List.pairwise_singleton _ _

theorem InTurn.append {kind : Protection} {encoding : ProtectionEncoding} {wanted : Setpoint}
    {moment : Moment n} {later : List (Entry n)} (absent : kind ∉ kinds)
    (laid : layout kind = some encoding) (h : InTurn layout kinds later) :
    InTurn layout (kind :: kinds)
      (later ++ [⟨.protect kind (encoding.meet wanted).1, some (), moment⟩]) where
  among e member := by
    rcases List.mem_append.mp member with late | first
    · exact h.mono.among e late
    · exact (InTurn.single laid).among e first
  apart := by
    refine List.pairwise_append.mpr ⟨h.apart, List.pairwise_singleton _ _, ?_⟩
    intro e late first member
    obtain rfl := List.mem_singleton.mp member
    obtain ⟨other, among, _, _, _, asked⟩ := h.among e late
    refine ⟨fun same => ?_, rfl⟩
    rw [Entry.protection?, asked, Entry.protection?, Option.some.injEq] at same
    exact absent (same ▸ among)

theorem Turns.inTurn (distinct : kinds.Nodup) (h : Turns layout kinds c done d) :
    ∃ entries, Logged c entries d ∧ InTurn layout kinds entries ∧
      (done = true → ∀ e ∈ entries, e.answer?.isSome = true) := by
  induction h with
  | complete c => exact ⟨[], .refl c, .nil _, by simp⟩
  | stopped kinds c => exact ⟨[], .refl c, .nil _, by simp⟩
  | skipped _ _ ih =>
    obtain ⟨entries, logged, inTurn, granted⟩ := ih (List.nodup_cons.mp distinct).2
    exact ⟨entries, logged, inTurn.mono, granted⟩
  | accepted turn _ ih =>
    obtain ⟨absent, distinct⟩ := List.nodup_cons.mp distinct
    obtain ⟨encoding, laid, first⟩ := turn.logged
    obtain ⟨entries, logged, inTurn, granted⟩ := ih distinct
    refine ⟨_, first.trans logged, inTurn.append absent laid, fun whole e member => ?_⟩
    rcases List.mem_append.mp member with late | first
    · exact granted whole e late
    · rw [List.mem_singleton.mp first]
      rfl
  | rejected turn =>
    obtain ⟨encoding, laid, logged⟩ := turn.logged
    exact ⟨_, logged, .single laid, by simp⟩

end Journal

section Runs

variable {layout : Protection → Option ProtectionEncoding} {kinds more : List Protection}
  {met met' : Prop} {c : Controller σ n}

/-- A task gives protections their turns. It succeeds if a condition is met and no request fails,
and then all of them have had their turns. -/
def Runs (task : EStateM (ControlError ε) (Controller σ n) Unit)
    (layout : Protection → Option ProtectionEncoding) (kinds : List Protection) (met : Prop)
    (c : Controller σ n) : Prop :=
  match task c with
  | .ok _ d => Turns layout kinds c true d ∧ d = afterTurns kinds c ∧ met
  | .error _ d => Turns layout kinds c false d ∧
    (met → ∃ e ∈ since c d, e.answer?.isSome = false)

theorem runs_program {kind : Protection}
    (found : FrontEnd.encoding? c.frontEnd kind = layout kind) :
    Runs (program kind) layout [kind] ((layout kind).isSome = true) c := by
  rcases program_cases found with ⟨missing, ended⟩ | ⟨d, turn, ended⟩ | ⟨e, d, turn, ended⟩ <;>
    simp only [Runs, afterTurns, List.foldl, attempt, ended]
  · exact ⟨.stopped _ c, fun met => by simp [missing] at met⟩
  · obtain ⟨encoding, laid, -⟩ := turn.logged
    exact ⟨.accepted turn (.complete d), trivial, by rw [laid]; rfl⟩
  · obtain ⟨_, -, logged⟩ := turn.logged
    exact ⟨.rejected turn, fun _ => by simp [logged.since_eq]⟩

theorem runs_programIfSupported {kind : Protection}
    (found : FrontEnd.encoding? c.frontEnd kind = layout kind) :
    Runs (programIfSupported kind) layout [kind] True c := by
  rcases program_cases found with ⟨missing, ended⟩ | ⟨d, turn, ended⟩ | ⟨e, d, turn, ended⟩ <;>
    simp only [Runs, afterTurns, List.foldl, attempt, programIfSupported_eq, ended]
  · exact ⟨.skipped missing (.complete c), trivial, trivial⟩
  · exact ⟨.accepted turn (.complete d), trivial, trivial⟩
  · obtain ⟨_, -, logged⟩ := turn.logged
    exact ⟨.rejected turn, fun _ => by simp [logged.since_eq]⟩

theorem Turns.logged {done : Bool} {d : Controller σ n} (h : Turns layout kinds c done d) :
    ∃ entries, Logged c entries d := by
  induction h with
  | complete c => exact ⟨[], .refl c⟩
  | stopped _ c => exact ⟨[], .refl c⟩
  | skipped _ _ ih => exact ih
  | accepted turn _ ih =>
    obtain ⟨_, -, first⟩ := turn.logged
    obtain ⟨_, later⟩ := ih
    exact ⟨_, first.trans later⟩
  | rejected turn =>
    obtain ⟨_, -, logged⟩ := turn.logged
    exact ⟨_, logged⟩

theorem runs_bind {task rest : EStateM (ControlError ε) (Controller σ n) Unit}
    (first : Runs task layout kinds met c)
    (second : ∀ d, Turns layout kinds c true d → d = afterTurns kinds c →
      Runs rest layout more met' d) :
    Runs (task >>= fun _ => rest) layout (kinds ++ more) (met ∧ met') c := by
  unfold Runs at first ⊢
  simp only [bind, EStateM.bind]
  cases ran : task c with
  | error e d =>
    simp only [ran] at first
    exact ⟨first.1.extend more, fun met => first.2 met.1⟩
  | ok _ b =>
    simp only [ran] at first
    obtain ⟨course, turned, met⟩ := first
    have second := second b course turned
    unfold Runs at second
    cases ran' : rest b with
    | ok _ d =>
      simp only [ran'] at second ⊢
      obtain ⟨course', turned', met'⟩ := second
      refine ⟨course.append course', ?_, met, met'⟩
      rw [turned', turned, afterTurns, afterTurns, afterTurns, List.foldl_append]
    | error e d =>
      simp only [ran'] at second ⊢
      obtain ⟨course', unmet⟩ := second
      refine ⟨course.append course', fun ⟨_, met'⟩ => ?_⟩
      obtain ⟨entry, member, failed⟩ := unmet met'
      obtain ⟨_, before⟩ := course.logged
      obtain ⟨_, after⟩ := course'.logged
      refine ⟨entry, ?_, failed⟩
      rw [(before.trans after).since_eq]
      rw [after.since_eq] at member
      exact List.mem_append_left _ member

theorem runs_forM {task : Protection → EStateM (ControlError ε) (Controller σ n) Unit}
    {met : Protection → Prop} (turn : ∀ kind (c : Controller σ n),
      FrontEnd.encoding? c.frontEnd kind = layout kind →
        Runs (task kind) layout [kind] (met kind) c)
    (states : States layout kinds c) :
    Runs (kinds.forM task) layout kinds (∀ kind ∈ kinds, met kind) c := by
  induction kinds generalizing c with
  | nil => exact ⟨.complete c, rfl, by simp⟩
  | cons kind rest ih =>
    have run := runs_bind (turn kind c states.1) fun d _ turned =>
      ih (c := d) (turned ▸ states.2)
    rw [List.forall_mem_cons]
    exact run

theorem runs_programTemperatures (states : States layout Protection.temperatures c) :
    Runs programTemperatures layout Protection.temperatures
      (c.config.temperaturesAcceptable = true) c := by
  unfold Runs
  rw [programTemperatures_eq]
  by_cases acceptable : c.config.temperaturesAcceptable = true
  · have run := runs_forM (fun _ _ => runs_programIfSupported) states
    simp only [acceptable, if_true]
    simpa [Runs] using run
  · rw [if_neg acceptable]
    exact ⟨.stopped _ c, fun met => absurd met acceptable⟩

theorem Runs.turns {task : EStateM (ControlError ε) (Controller σ n) Unit}
    (h : Runs task layout kinds met c) :
    Turns layout kinds c (c.attempt task).1 (c.attempt task).2 := by
  unfold Runs at h
  unfold attempt
  cases ran : task c <;> simp only [ran] at h ⊢ <;> exact h.1

theorem Runs.done_iff {task : EStateM (ControlError ε) (Controller σ n) Unit}
    (distinct : kinds.Nodup) (h : Runs task layout kinds met c) :
    (c.attempt task).1 = true ↔
      met ∧ ∀ e ∈ since c (c.attempt task).2, e.answer?.isSome = true := by
  have course := h.turns
  unfold Runs at h
  unfold attempt at course ⊢
  cases ran : task c with
  | ok _ d =>
    simp only [ran] at h course ⊢
    obtain ⟨_, logged, -, granted⟩ := course.inTurn distinct
    rw [logged.since_eq]
    exact ⟨fun _ => ⟨h.2.2, granted rfl⟩, fun _ => trivial⟩
  | error _ d =>
    simp only [ran] at h ⊢
    refine ⟨nofun, fun ⟨met, granted⟩ => ?_⟩
    obtain ⟨entry, member, failed⟩ := h.2 met
    rw [granted entry member] at failed
    cases failed

end Runs

end Controller
end PackGuard
