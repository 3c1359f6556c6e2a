import PackGuard.Proofs.Footprint

/-!
Rounds of the fault monitor in a row. A round looks after every fault and every alert once, by what it
finds in its status and its report, and moves no other tracker on the way. What is reported stays so
until one round has cleared it, which the front-end has to grant for what it detects by itself, and the
next round does not see it.
-/

namespace PackGuard

namespace Tracker

variable {pace : Pace} {seen : Sighting} {now : Nat} {t : Tracker}

theorem advance_of_due (due : (t.advance pace seen now).2 = true) :
    t.phase = .confirmed ∧ seen.recovered = true := by
  revert due
  unfold advance
  cases phase : t.phase with
  | confirmed => dsimp only; split <;> simp
  | clear | suspected => dsimp only; repeat' split <;> simp
  | clearing => simp

theorem phase_advance_ne_clearing : (t.advance pace seen now).1.phase ≠ .clearing := by
  unfold advance
  cases phase : t.phase with
  | confirmed => dsimp only; split <;> simp [phase]
  | clear | suspected => dsimp only; repeat' split <;> simp [phase, confirm, suspect, drop]
  | clearing => dsimp only; split <;> simp [confirm, drop]

theorem advance_of_removed (before : t.phase.flagged = true)
    (after : (t.advance pace seen now).1.phase.flagged = false) :
    t.phase = .clearing ∧ seen.present = false := by
  revert before after
  unfold advance
  cases phase : t.phase with
  | clear | suspected => simp [Phase.flagged]
  | confirmed => dsimp only; split <;> simp [Phase.flagged, phase]
  | clearing => dsimp only; split <;> simp_all [Phase.flagged, confirm]

end Tracker

section Fold

variable {ι α : Type} {step : α → ι → α} {R : α → α → Prop} {items : List ι}

theorem foldl_keeps (refl : ∀ a, R a a) (trans : ∀ {a b c}, R a b → R b c → R a c)
    (keeps : ∀ a, ∀ i ∈ items, R a (step a i)) (a : α) : R a (items.foldl step a) := by
  induction items generalizing a with
  | nil => exact refl a
  | cons i rest ih =>
    exact trans (keeps a i List.mem_cons_self)
      (ih (fun a j member => keeps a j (List.mem_cons_of_mem i member)) _)

/-- A fold that visits every item once: what no other item touches is as before when an item is
visited, and is kept from then on. -/
theorem foldl_visit (refl : ∀ a, R a a) (trans : ∀ {a b c}, R a b → R b c → R a c) {i : ι}
    (others : ∀ a j, j ≠ i → R a (step a j)) (nodup : items.Nodup) (member : i ∈ items) (a : α) :
    ∃ b, R a b ∧ R (step b i) (items.foldl step a) := by
  have avoiding : ∀ rest : List ι, i ∉ rest → ∀ a, R a (rest.foldl step a) := fun rest absent a =>
    foldl_keeps refl trans (fun a j inside => others a j (ne_of_mem_of_not_mem inside absent)) a
  obtain ⟨before, after, rfl⟩ := List.append_of_mem member
  have apart := List.nodup_append.mp nodup
  have notBefore : i ∉ before := fun inside => apart.2.2 i inside i List.mem_cons_self rfl
  have notAfter : i ∉ after := (List.nodup_cons.mp apart.2.1).1
  rw [List.foldl_append, List.foldl_cons]
  exact ⟨_, avoiding before notBefore a, avoiding after notAfter _⟩

end Fold

namespace Controller

variable {σ ε : Type} {n : Nat} [FrontEnd σ ε n]

theorem attempt_command_memory (request : Request) (c : Controller σ n) :
    ∃ frontEnd journal, (c.attempt (command request)).2 = { c with frontEnd, journal } := by
  simp only [attempt, command]
  cases FrontEnd.perform request c.frontEnd <;> exact ⟨_, _, rfl⟩

theorem restoreSwitches_memory (c : Controller σ n) :
    ∃ frontEnd journal, c.restoreSwitches = { c with frontEnd, journal } := by
  have restore : ∀ (switch : Switch) (wanted : Bool) (c : Controller σ n),
      ∃ frontEnd journal, c.restoreSwitch switch wanted = { c with frontEnd, journal } := by
    intro switch wanted c
    unfold restoreSwitch
    split
    · exact attempt_command_memory _ c
    · exact ⟨_, _, rfl⟩
  obtain ⟨s, journal, first⟩ := restore .discharge
    (c.status.state.discharging && c.status.dischargeAllowed) c
  simp only [restoreSwitches, first]
  obtain ⟨t, journal', second⟩ := restore .charge
    (c.status.state.charging && c.status.chargeAllowed) { c with frontEnd := s, journal }
  exact ⟨t, journal', second⟩

/-- How a tracker is moved by a sighting, and which request an attempt to clear makes, if any. -/
inductive Tended (pace : Pace) (seen : Sighting) (now : Nat) (asks : Option Request)
    (entries : List (Entry n)) (t : Tracker) : Tracker → Prop
  | rested (idle : (t.advance pace seen now).2 = false) :
      Tended pace seen now asks entries t (t.advance pace seen now).1
  | cleared (due : (t.advance pace seen now).2 = true)
      (granted : ∀ request ∈ asks, ∃ e ∈ entries, e.request = request ∧ e.succeeded = true) :
      Tended pace seen now asks entries t (t.advance pace seen now).1.attempted
  | refused (due : (t.advance pace seen now).2 = true)
      (denied : ∃ request ∈ asks, ∃ e ∈ entries, e.request = request ∧ e.succeeded = false) :
      Tended pace seen now asks entries t (t.advance pace seen now).1

section Tended

variable {pace : Pace} {seen : Sighting} {now : Nat} {asks : Option Request}
  {entries more : List (Entry n)} {t t' : Tracker}

theorem Tended.mono (h : Tended pace seen now asks entries t t') (subset : entries ⊆ more) :
    Tended pace seen now asks more t t' := by
  cases h with
  | rested idle => exact .rested idle
  | cleared due granted =>
    refine .cleared due fun request asked => ?_
    obtain ⟨e, member, made⟩ := granted request asked
    exact ⟨e, subset member, made⟩
  | refused due denied =>
    obtain ⟨request, asked, e, member, made⟩ := denied
    exact .refused due ⟨request, asked, e, subset member, made⟩

theorem Tended.of_removed (h : Tended pace seen now asks entries t t')
    (before : t.phase.flagged = true) (after : t'.phase.flagged = false) :
    t.phase = .clearing ∧ seen.present = false := by
  cases h with
  | rested | refused => exact Tracker.advance_of_removed before after
  | cleared => cases after

theorem Tended.eq_advance (h : Tended pace seen now asks entries t t')
    (short : t'.phase ≠ .clearing) : t' = (t.advance pace seen now).1 := by
  cases h with
  | rested | refused => rfl
  | cleared => exact absurd rfl short

theorem Tended.of_clearing (h : Tended pace seen now asks entries t t')
    (after : t'.phase = .clearing) :
    t.phase = .confirmed ∧ seen.recovered = true ∧
      ∀ request ∈ asks, ∃ e ∈ entries, e.request = request ∧ e.succeeded = true := by
  cases h with
  | rested | refused => exact absurd after Tracker.phase_advance_ne_clearing
  | cleared due granted =>
    obtain ⟨confirmed, recovered⟩ := Tracker.advance_of_due due
    exact ⟨confirmed, recovered, granted⟩

end Tended

theorem since_subset {b c d e : Controller σ n} {first second third : List (Entry n)}
    (h : Logged b first c) (k : Logged c second d) (l : Logged d third e) :
    since c d ⊆ since b e := by
  rw [k.since_eq, (h.trans (k.trans l)).since_eq, List.append_assoc]
  exact fun _ member => List.mem_append_right _ (List.mem_append_left _ member)

theorem exists_since_attempt (request : Request) (c : Controller σ n) :
    ∃ e ∈ since c (c.attempt (command request)).2,
      e.request = request ∧ e.succeeded = (c.attempt (command request)).1 := by
  simp only [attempt, command]
  cases made : FrontEnd.perform request c.frontEnd with
  | ok answer s =>
    rw [(logged_record_answered made).since_eq]
    exact ⟨_, List.mem_singleton_self _, rfl, rfl⟩
  | error e s =>
    rw [(logged_record_failed made).since_eq]
    exact ⟨_, List.mem_singleton_self _, rfl, rfl⟩

theorem tended_of_attempt {pace : Pace} {seen : Sighting} {now : Nat} {request : Request}
    {entries : List (Entry n)} {t t' : Tracker} (c : Controller σ n)
    (due : (t.advance pace seen now).2 = true)
    (subset : since c (c.attempt (command request)).2 ⊆ entries)
    (ends : t' = if (c.attempt (command request)).1 then (t.advance pace seen now).1.attempted
      else (t.advance pace seen now).1) :
    Tended pace seen now (some request) entries t t' := by
  obtain ⟨e, member, asked, outcome⟩ := exists_since_attempt request c
  cases granted : (c.attempt (command request)).1 with
  | true =>
    rw [granted] at ends outcome
    subst ends
    refine .cleared due ?_
    rintro _ ⟨⟩
    exact ⟨e, subset member, asked, outcome⟩
  | false =>
    rw [granted] at ends outcome
    subst ends
    exact .refused due ⟨request, rfl, e, subset member, asked, outcome⟩

def clearRequest (hardware : FaultSet) (kind : FaultKind) : Option Request :=
  if kind ∈ hardware then some (.clear {kind} ∅) else none

def withFault (kind : FaultKind) (tracker : Tracker) (c : Controller σ n) : Controller σ n :=
  { c with monitor := c.monitor.trackFault kind tracker }

def withAlert (alert : Alert) (tracker : Tracker) (c : Controller σ n) : Controller σ n :=
  { c with monitor := c.monitor.trackAlert alert tracker }

theorem superviseFault_of_unseen {hardware : FaultSet} (now : Nat) {c : Controller σ n}
    {kind : FaultKind}
    (unseen : kind.sighting? hardware c.config c.status c.report (c.monitor.phase kind) = none) :
    c.superviseFault hardware now kind = c := by
  simp only [superviseFault, unseen]

theorem superviseFault_of_sighting {hardware : FaultSet} (now : Nat) {c : Controller σ n}
    {kind : FaultKind} {seen : Sighting}
    (sees : kind.sighting? hardware c.config c.status c.report (c.monitor.phase kind) = some seen) :
    c.superviseFault hardware now kind =
      let moved := (c.monitor.faults.get kind).advance (kind.pace c.config) seen now
      let tracked := c.withFault kind moved.1
      if moved.2 then
        let tried :=
          if kind ∈ hardware then tracked.attempt (command (.clear {kind} ∅)) else (true, tracked)
        if tried.1 then tried.2.withFault kind moved.1.attempted else tried.2
      else tracked := by
  simp only [superviseFault, sees]
  rw [ite_not]
  rfl

theorem superviseAlert_eq (now : Nat) (c : Controller σ n) (alert : Alert) :
    c.superviseAlert now alert =
      let moved := (c.monitor.alerts.get alert).advance alert.pace (alert.sighting c.report) now
      let tracked := c.withAlert alert moved.1
      if moved.2 then
        let tried := tracked.attempt (command (.clear ∅ {alert}))
        if tried.1 then (tried.2.withAlert alert moved.1.attempted).restoreSwitches else tried.2
      else tracked := by
  simp only [superviseAlert]
  rw [ite_not]
  rfl

theorem tended_superviseFault (hardware : FaultSet) (now : Nat) (c : Controller σ n)
    {kind : FaultKind} {seen : Sighting}
    (sees : kind.sighting? hardware c.config c.status c.report (c.monitor.phase kind) = some seen) :
    Tended (kind.pace c.config) seen now (clearRequest hardware kind)
      (since c (c.superviseFault hardware now kind)) (c.monitor.faults.get kind)
      ((c.superviseFault hardware now kind).monitor.faults.get kind) := by
  have tracks : ∀ (t : Tracker) (d : Controller σ n),
      (d.withFault kind t).monitor.faults.get kind = t := fun t d => Table.get_set_self ..
  rw [superviseFault_of_sighting now sees]
  dsimp only
  cases due : ((c.monitor.faults.get kind).advance (kind.pace c.config) seen now).2 with
  | false =>
    rw [if_neg Bool.false_ne_true, tracks]
    exact .rested due
  | true =>
    rw [if_pos rfl]
    by_cases asked : kind ∈ hardware
    case neg =>
      rw [if_neg asked, if_pos rfl, tracks]
      exact .cleared due (by simp [clearRequest, asked])
    rw [if_pos asked, clearRequest, if_pos asked]
    refine tended_of_attempt (c.withFault kind
      ((c.monitor.faults.get kind).advance (kind.pace c.config) seen now).1) due ?_ ?_
    · split <;> exact List.Subset.refl _
    · obtain ⟨_, _, kept⟩ := attempt_command_memory (.clear {kind} ∅) (c.withFault kind
        ((c.monitor.faults.get kind).advance (kind.pace c.config) seen now).1)
      split
      · exact tracks _ _
      · rw [kept]
        exact tracks _ c

theorem tended_superviseAlert (now : Nat) (c : Controller σ n) (alert : Alert) :
    Tended alert.pace (alert.sighting c.report) now (some (.clear ∅ {alert}))
      (since c (c.superviseAlert now alert)) (c.monitor.alerts.get alert)
      ((c.superviseAlert now alert).monitor.alerts.get alert) := by
  have tracks : ∀ (t : Tracker) (d : Controller σ n),
      (d.withAlert alert t).monitor.alerts.get alert = t := fun t d => Table.get_set_self ..
  rw [superviseAlert_eq]
  dsimp only
  cases due : ((c.monitor.alerts.get alert).advance alert.pace (alert.sighting c.report) now).2 with
  | false =>
    rw [if_neg Bool.false_ne_true, tracks]
    exact .rested due
  | true =>
    rw [if_pos rfl]
    generalize moved_eq :
      ((c.monitor.alerts.get alert).advance alert.pace (alert.sighting c.report) now).1 = moved
    have asked : Passage id (fun _ => True) (c.withAlert alert moved)
        ((c.withAlert alert moved).attempt (command (.clear ∅ {alert}))).2 :=
      passage_command _ fun _ => trivial
    obtain ⟨_, cleared, -⟩ := asked
    obtain ⟨_, _, kept⟩ := attempt_command_memory (.clear ∅ {alert}) (c.withAlert alert moved)
    refine tended_of_attempt (c.withAlert alert moved) due ?_ ?_
    · split
      · obtain ⟨_, restored, -⟩ := passage_restoreSwitches
          (((c.withAlert alert moved).attempt (command (.clear ∅ {alert}))).2.withAlert alert
            moved.attempted)
        exact since_subset (b := c) ⟨rfl, .refl _, rfl⟩ cleared
          ⟨restored.journal, restored.served, restored.readyAt⟩
      · exact List.Subset.refl _
    · rw [moved_eq]
      split
      · obtain ⟨_, _, restored⟩ := restoreSwitches_memory
          (((c.withAlert alert moved).attempt (command (.clear ∅ {alert}))).2.withAlert alert
            moved.attempted)
        rw [restored]
        exact tracks _ _
      · rw [kept]
        exact tracks _ c

/-- A step that leaves a part of the monitor alone, and all that the faults and alerts are judged
by. -/
structure Elsewhere {τ : Type} (part : Monitor → τ) (c d : Controller σ n) : Prop where
  kept : part d.monitor = part c.monitor
  status : d.status = c.status
  config : d.config = c.config
  report : d.report = c.report
  logged : ∃ entries, Logged c entries d

section Elsewhere

variable {τ : Type} {part : Monitor → τ} {c d e : Controller σ n}

theorem Elsewhere.refl (c : Controller σ n) : Elsewhere part c c :=
  ⟨rfl, rfl, rfl, rfl, [], .refl c⟩

theorem Elsewhere.trans (h : Elsewhere part c d) (k : Elsewhere part d e) :
    Elsewhere part c e := by
  obtain ⟨first, loggedFirst⟩ := h.logged
  obtain ⟨second, loggedSecond⟩ := k.logged
  exact ⟨k.kept.trans h.kept, k.status.trans h.status, k.config.trans h.config,
    k.report.trans h.report, second ++ first, loggedFirst.trans loggedSecond⟩

theorem Elsewhere.sighting?_eq {kind : FaultKind} (h : Elsewhere (fun m => m.faults.get kind) c d)
    (hardware : FaultSet) :
    kind.sighting? hardware d.config d.status d.report (d.monitor.phase kind) =
      kind.sighting? hardware c.config c.status c.report (c.monitor.phase kind) := by
  have phase : d.monitor.phase kind = c.monitor.phase kind := congrArg Tracker.phase h.kept
  rw [h.config, h.status, h.report, phase]

end Elsewhere

theorem superviseFault_memory (hardware : FaultSet) (now : Nat) (c : Controller σ n)
    (kind : FaultKind) :
    ∃ frontEnd journal monitor,
      c.superviseFault hardware now kind = { c with frontEnd, journal, monitor } ∧
      monitor.alerts = c.monitor.alerts ∧
      ∀ other, other ≠ kind → monitor.faults.get other = c.monitor.faults.get other := by
  have others : ∀ (t : Tracker) (faults : Table FaultKind Tracker) (other : FaultKind),
      other ≠ kind → (faults.set kind t).get other = faults.get other :=
    fun t faults other apart => Table.get_set_ne _ apart _
  cases sees : kind.sighting? hardware c.config c.status c.report (c.monitor.phase kind) with
  | none =>
    exact ⟨c.frontEnd, c.journal, c.monitor, superviseFault_of_unseen now sees, rfl,
      fun _ _ => rfl⟩
  | some seen =>
    rw [superviseFault_of_sighting now sees]
    generalize (c.monitor.faults.get kind).advance (kind.pace c.config) seen now = moved
    obtain ⟨frontEnd, journal, kept⟩ :=
      attempt_command_memory (.clear {kind} ∅) (c.withFault kind moved.1)
    dsimp only
    split
    · by_cases asked : kind ∈ hardware
      · rw [if_pos asked, kept]
        split
        · refine ⟨frontEnd, journal, _, rfl, rfl, fun other apart => ?_⟩
          exact (others _ _ other apart).trans (others _ _ other apart)
        · exact ⟨frontEnd, journal, _, rfl, rfl, others _ _⟩
      · rw [if_neg asked, if_pos rfl]
        refine ⟨_, _, _, rfl, rfl, fun other apart => ?_⟩
        exact (others _ _ other apart).trans (others _ _ other apart)
    · exact ⟨_, _, _, rfl, rfl, others _ _⟩

theorem superviseAlert_memory (now : Nat) (c : Controller σ n) (alert : Alert) :
    ∃ frontEnd journal monitor,
      c.superviseAlert now alert = { c with frontEnd, journal, monitor } ∧
      monitor.faults = c.monitor.faults ∧
      ∀ other, other ≠ alert → monitor.alerts.get other = c.monitor.alerts.get other := by
  have others : ∀ (t : Tracker) (alerts : Table Alert Tracker) (other : Alert),
      other ≠ alert → (alerts.set alert t).get other = alerts.get other :=
    fun t alerts other apart => Table.get_set_ne _ apart _
  rw [superviseAlert_eq]
  generalize (c.monitor.alerts.get alert).advance alert.pace (alert.sighting c.report) now = moved
  obtain ⟨frontEnd, journal, kept⟩ :=
    attempt_command_memory (.clear ∅ {alert}) (c.withAlert alert moved.1)
  dsimp only
  split
  · rw [kept]
    split
    · obtain ⟨frontEnd', journal', restored⟩ := restoreSwitches_memory
        (({ c.withAlert alert moved.1 with frontEnd, journal } : Controller σ n).withAlert alert
          moved.1.attempted)
      refine ⟨frontEnd', journal', _, restored, rfl, fun other apart => ?_⟩
      exact (others _ _ other apart).trans (others _ _ other apart)
    · exact ⟨frontEnd, journal, _, rfl, rfl, others _ _⟩
  · exact ⟨_, _, _, rfl, rfl, others _ _⟩

theorem elsewhere_superviseFault {τ : Type} {part : Monitor → τ} {hardware : FaultSet} {now : Nat}
    {kind : FaultKind} (c : Controller σ n)
    (kept : ∀ m : Monitor, m.alerts = c.monitor.alerts →
      (∀ other, other ≠ kind → m.faults.get other = c.monitor.faults.get other) →
      part m = part c.monitor) :
    Elsewhere part c (c.superviseFault hardware now kind) := by
  obtain ⟨entries, logged, -⟩ := passage_superviseFault hardware now c kind
  obtain ⟨_, _, monitor, moved, alerts, faults⟩ := superviseFault_memory hardware now c kind
  rw [moved] at logged ⊢
  exact ⟨kept monitor alerts faults, rfl, rfl, rfl, entries, logged⟩

theorem elsewhere_superviseAlert {τ : Type} {part : Monitor → τ} {now : Nat} {alert : Alert}
    (c : Controller σ n)
    (kept : ∀ m : Monitor, m.faults = c.monitor.faults →
      (∀ other, other ≠ alert → m.alerts.get other = c.monitor.alerts.get other) →
      part m = part c.monitor) :
    Elsewhere part c (c.superviseAlert now alert) := by
  obtain ⟨entries, logged, -⟩ := passage_superviseAlert now c alert
  obtain ⟨_, _, monitor, moved, faults, alerts⟩ := superviseAlert_memory now c alert
  rw [moved] at logged ⊢
  exact ⟨kept monitor faults alerts, rfl, rfl, rfl, entries, logged⟩

theorem superviseFaults_visit (now : Nat) (c : Controller σ n) (kind : FaultKind) :
    ∃ d, Elsewhere (fun m => m.faults.get kind) c d ∧
      Elsewhere (fun m => m.faults.get kind)
        (d.superviseFault (FrontEnd.hardwareFaults c.frontEnd) now kind) (c.superviseFaults now) :=
  foldl_visit Elsewhere.refl Elsewhere.trans
    (fun d _ apart => elsewhere_superviseFault d fun _ _ faults => faults kind apart.symm)
    (Enumerated.nodup_all (κ := FaultKind)) (Enumerated.mem_all kind) c

theorem superviseAlerts_visit (now : Nat) (c : Controller σ n) (alert : Alert) :
    ∃ d, Elsewhere (fun m => m.alerts.get alert) c d ∧
      Elsewhere (fun m => m.alerts.get alert) (d.superviseAlert now alert)
        (c.superviseAlerts now) :=
  foldl_visit Elsewhere.refl Elsewhere.trans
    (fun d _ apart => elsewhere_superviseAlert d fun _ _ alerts => alerts alert apart.symm)
    (Enumerated.nodup_all (κ := Alert)) (Enumerated.mem_all alert) c

theorem elsewhere_superviseFaults (now : Nat) (c : Controller σ n) :
    Elsewhere Monitor.alerts c (c.superviseFaults now) :=
  foldl_keeps Elsewhere.refl Elsewhere.trans
    (fun d _ _ => elsewhere_superviseFault d fun _ alerts _ => alerts) c

theorem elsewhere_superviseAlerts (now : Nat) (c : Controller σ n) :
    Elsewhere Monitor.faults c (c.superviseAlerts now) :=
  foldl_keeps Elsewhere.refl Elsewhere.trans
    (fun d _ _ => elsewhere_superviseAlert d fun _ faults _ => faults) c

theorem Logged.of_reportFaults {c d : Controller σ n} {entries : List (Entry n)}
    (h : Logged c.reportFaults entries d) : Logged c entries d :=
  ⟨h.journal, h.served, h.readyAt⟩

theorem Logged.reportAlerts {c d : Controller σ n} {entries : List (Entry n)}
    (h : Logged c entries d) (now : Nat) : Logged c entries (d.reportAlerts now) :=
  ⟨h.journal, h.served, h.readyAt⟩

theorem logged_reports (now : Nat) (c : Controller σ n) :
    ∃ entries, Logged (c.superviseFaults now) entries (c.handleFaults now) := by
  obtain ⟨entries, logged⟩ :=
    (elsewhere_superviseAlerts now (c.superviseFaults now).reportFaults).logged
  exact ⟨entries, logged.of_reportFaults.reportAlerts now⟩

theorem handleFaults_faults (now : Nat) (c : Controller σ n) :
    (c.handleFaults now).monitor.faults = (c.superviseFaults now).monitor.faults :=
  (elsewhere_superviseAlerts now (c.superviseFaults now).reportFaults).kept

/-- A round moves the tracker of a fault by its sighting, judged by what the controller had at the
start of the round. -/
theorem tended_handleFaults_fault (now : Nat) (c : Controller σ n) {kind : FaultKind}
    {seen : Sighting}
    (sees : kind.sighting? (FrontEnd.hardwareFaults c.frontEnd) c.config c.status c.report
      (c.monitor.phase kind) = some seen) :
    Tended (kind.pace c.config) seen now
      (clearRequest (FrontEnd.hardwareFaults c.frontEnd) kind) (since c (c.handleFaults now))
      (c.monitor.faults.get kind) ((c.handleFaults now).monitor.faults.get kind) := by
  obtain ⟨d, before, after⟩ := superviseFaults_visit now c kind
  obtain ⟨_, first⟩ := before.logged
  obtain ⟨_, second, -⟩ := passage_superviseFault (FrontEnd.hardwareFaults c.frontEnd) now d kind
  obtain ⟨_, third⟩ := after.logged
  obtain ⟨_, fourth⟩ := logged_reports now c
  have tended := tended_superviseFault _ now d ((before.sighting?_eq _).trans sees)
  rw [before.config, before.kept, ← after.kept] at tended
  rw [handleFaults_faults]
  exact tended.mono (since_subset first second (third.trans fourth))

theorem handleFaults_fault_of_unseen (now : Nat) (c : Controller σ n) {kind : FaultKind}
    (unseen : kind.sighting? (FrontEnd.hardwareFaults c.frontEnd) c.config c.status c.report
      (c.monitor.phase kind) = none) :
    (c.handleFaults now).monitor.faults.get kind = c.monitor.faults.get kind := by
  obtain ⟨d, before, after⟩ := superviseFaults_visit now c kind
  rw [superviseFault_of_unseen now ((before.sighting?_eq _).trans unseen)] at after
  rw [handleFaults_faults]
  exact after.kept.trans before.kept

theorem tended_handleFaults_alert (now : Nat) (c : Controller σ n) (alert : Alert) :
    Tended alert.pace (alert.sighting c.report) now (some (.clear ∅ {alert}))
      (since c (c.handleFaults now)) (c.monitor.alerts.get alert)
      ((c.handleFaults now).monitor.alerts.get alert) := by
  have faults := elsewhere_superviseFaults now c
  obtain ⟨_, zeroth⟩ := faults.logged
  obtain ⟨d, before, after⟩ := superviseAlerts_visit now (c.superviseFaults now).reportFaults alert
  obtain ⟨_, first⟩ := before.logged
  obtain ⟨_, second, -⟩ := passage_superviseAlert now d alert
  obtain ⟨_, third⟩ := after.logged
  have alerts : (c.superviseFaults now).reportFaults.monitor.alerts = c.monitor.alerts :=
    faults.kept
  have report : (c.superviseFaults now).reportFaults.report = c.report := faults.report
  have tended := tended_superviseAlert now d alert
  rw [before.report, before.kept, report, alerts, ← after.kept] at tended
  exact tended.mono
    (since_subset (zeroth.trans first.of_reportFaults) second (third.reportAlerts now))

end Controller
end PackGuard
