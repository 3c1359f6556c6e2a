import PackGuard.Proofs.Detection

/-!
Access to the registers of a chip that is spoken to at its address and in its mode. No task changes
a register but those it writes, whether it succeeds or fails. Once nothing disturbs the chip any
more, every access succeeds, reads what the register holds, and stores what is written.
-/

namespace PackGuard.Chip

section Leads

variable {δ σ α γ : Type} {ρ : σ → σ → Prop}

def ending (task : EStateM δ σ α) (s : σ) : σ :=
  match task s with
  | .ok _ t | .error _ t => t

def Leads (ρ : σ → σ → Prop) (task : EStateM δ σ α) : Prop := ∀ s, ρ s (ending task s)

theorem ending_of_ok {task : EStateM δ σ α} {s t : σ} {a : α} (h : task s = .ok a t) :
    ending task s = t := by
  rw [ending, h]

theorem ending_of_error {task : EStateM δ σ α} {s t : σ} {e : δ} (h : task s = .error e t) :
    ending task s = t := by
  rw [ending, h]

theorem Leads.of_ok {task : EStateM δ σ α} (h : Leads ρ task) {s t : σ} {a : α}
    (done : task s = .ok a t) : ρ s t := by
  rw [← ending_of_ok done]
  exact h s

theorem Leads.of_error {task : EStateM δ σ α} (h : Leads ρ task) {s t : σ} {e : δ}
    (done : task s = .error e t) : ρ s t := by
  rw [← ending_of_error done]
  exact h s

theorem leads_pure (refl : ∀ s, ρ s s) (a : α) : Leads ρ (pure a : EStateM δ σ α) := refl

theorem leads_get (refl : ∀ s, ρ s s) : Leads ρ (get : EStateM δ σ σ) := refl

theorem leads_throw (refl : ∀ s, ρ s s) (e : δ) : Leads ρ (throw e : EStateM δ σ α) := refl

theorem leads_bind (trans : ∀ s t u, ρ s t → ρ t u → ρ s u) {task : EStateM δ σ α}
    {rest : α → EStateM δ σ γ} (h : Leads ρ task) (k : ∀ a, Leads ρ (rest a)) :
    Leads ρ (task >>= rest) := by
  intro s
  have first := h s
  simp only [ending, bind, EStateM.bind] at first ⊢
  cases done : task s with
  | ok a t =>
    rw [done] at first
    exact trans s t _ first (k a t)
  | error e t =>
    rw [done] at first
    exact first

theorem leads_modify {change : σ → σ} (h : ∀ s, ρ s (change s)) :
    Leads ρ (modify change : EStateM δ σ PUnit) := h

theorem leads_tryCatch (trans : ∀ s t u, ρ s t → ρ t u → ρ s u) {task : EStateM δ σ α}
    {recover : δ → EStateM δ σ α} (h : Leads ρ task) (k : ∀ e, Leads ρ (recover e)) :
    Leads ρ (tryCatch task recover) := by
  intro s
  have first := h s
  change ρ s (ending (EStateM.tryCatch task recover) s)
  delta EStateM.tryCatch
  simp only [ending] at first ⊢
  cases done : task s with
  | ok a t =>
    rw [done] at first
    exact first
  | error e t =>
    rw [done] at first
    exact trans s t _ first (k e t)

end Leads

namespace Device

/-- Nothing disturbs the chip any more: what fails or arrives garbled lies in the past. -/
structure Calm (d : Device) : Prop where
  up : d.down = false
  failing : ∀ k ∈ d.failing, k < d.log.length
  corruptions : ∀ c ∈ d.corruptions, c.transaction < d.log.length

variable {d e : Device}

theorem Calm.later (h : d.Calm) (setting : e.setting = d.setting)
    (later : d.log.length ≤ e.log.length) : e.Calm := by
  have up : e.setting.down = d.setting.down := by rw [setting]
  have failing : e.setting.failing = d.setting.failing := by rw [setting]
  have corruptions : e.setting.corruptions = d.setting.corruptions := by rw [setting]
  change e.down = d.down at up
  change e.failing = d.failing at failing
  change e.corruptions = d.corruptions at corruptions
  refine ⟨up.trans h.up, fun k member => ?_, fun c member => ?_⟩
  · exact Nat.lt_of_lt_of_le (h.failing k (failing ▸ member)) later
  · exact Nat.lt_of_lt_of_le (h.corruptions c (corruptions ▸ member)) later

theorem Calm.acknowledges (h : d.Calm) : d.acknowledges d.address = true := by
  have silent : d.failing.contains d.log.length = false := by
    rw [List.contains_eq_mem, decide_eq_false_iff_not]
    exact fun member => Nat.lt_irrefl _ (h.failing _ member)
  simp [Device.acknowledges, h.up]
  simpa using silent

theorem Calm.garbled (h : d.Calm) (position : Nat) (byte : UInt8) :
    d.garbled d.log.length position byte = byte := by
  have none : d.corruptions.filter (fun c => c.transaction = d.log.length) = [] := by
    rw [List.filter_eq_nil_iff]
    intro c member hit
    have past := h.corruptions c member
    rw [of_decide_eq_true hit] at past
    exact Nat.lt_irrefl _ past
  simp only [Device.garbled, none, List.filter_nil, List.foldl_nil]

def answer (d : Device) (r : Register) : Frame 1 :=
  #v[d.get r, Checksum.ofBytes [addressByte d.address true, d.get r]]

end Device

namespace Link

variable {link next : Link Device}

structure Fits (link : Link Device) : Prop where
  address : link.address = link.bus.address
  checked : link.checked = link.bus.checked

theorem Fits.of_scene (h : link.Fits) (scene : next.scene = link.scene) : next.Fits := by
  have address : next.address = link.address := congrArg Prod.fst scene
  have checked : next.checked = link.checked := congrArg (fun s => s.2.1) scene
  have addressThen : next.bus.address = link.bus.address := congrArg (fun s => s.2.2.address) scene
  have checkedThen : next.bus.checked = link.bus.checked := congrArg (fun s => s.2.2.checked) scene
  exact ⟨address.trans (h.address.trans addressThen.symm),
    checked.trans (h.checked.trans checkedThen.symm)⟩

/-- A relation between links that every answer the chip is asked for leads along. -/
structure Walk (ρ : Link Device → Link Device → Prop) : Prop where
  refl : ∀ link, ρ link link
  trans : ∀ link next third, ρ link next → ρ next third → ρ link third
  fetch : ∀ r count, Leads ρ (fetch r count)

namespace Walk

variable {ρ : Link Device → Link Device → Prop} (walk : Walk ρ)

include walk

theorem fetchIntact (r : Register) (count attempts : Nat) :
    Leads ρ (Link.fetchIntact r count attempts) := by
  induction attempts with
  | zero => exact leads_throw walk.refl _
  | succ attempts ih =>
    refine leads_bind walk.trans (walk.fetch r (2 * count)) fun frame =>
      leads_bind walk.trans (leads_get walk.refl) fun link => ?_
    split
    · exact leads_pure walk.refl _
    · exact ih

theorem read (r : Register) (count : Nat) : Leads ρ (Link.read r count) := by
  refine leads_bind walk.trans (leads_get walk.refl) fun link => ?_
  split
  · exact walk.fetchIntact r count attempts
  · exact walk.fetch r count

theorem readByte (r : Register) : Leads ρ (Link.readByte r) :=
  leads_bind walk.trans (walk.read r 1) fun _ => leads_pure walk.refl _

theorem readWord (r : Register) : Leads ρ (Link.readWord r) :=
  leads_bind walk.trans (walk.read r 2) fun _ => leads_pure walk.refl _

theorem readWords (r : Register) (count : Nat) : Leads ρ (Link.readWords r count) := by
  induction count with
  | zero => exact leads_pure walk.refl _
  | succ count ih =>
    exact leads_bind walk.trans ih fun _ => leads_bind walk.trans (walk.readWord _) fun _ =>
      leads_pure walk.refl _

end Walk

theorem leads_of_keeps {α : Type} {task : EStateM (ChipError DeviceError) (Link Device) α}
    (h : Keeps task) : Leads (fun link next => next.scene = link.scene) task := by
  intro link
  have kept := h link
  rw [after] at kept
  rw [ending]
  cases done : task link <;> rw [done] at kept <;> exact kept

theorem walk_scene : Walk fun link next => next.scene = link.scene where
  refl _ := rfl
  trans _ _ _ h k := k.trans h
  fetch r count := leads_of_keeps (keeps_fetch r count)

/-- How the chip is set up and spoken to is as it was, and so are the spared registers. -/
structure Spares (spared : Register → Prop) (link next : Link Device) : Prop where
  scene : next.scene = link.scene
  later : link.bus.log.length ≤ next.bus.log.length
  kept : ∀ r, spared r → next.bus.get r = link.bus.get r

def Sparing (spared : Register → Prop) (link next : Link Device) : Prop :=
  link.Fits → Spares spared link next

section Spares

variable {spared weaker : Register → Prop} {third : Link Device}

theorem Spares.refl (link : Link Device) : Spares spared link link := ⟨rfl, Nat.le_refl _, fun _ _ => rfl⟩

theorem Spares.trans (h : Spares spared link next) (k : Spares spared next third) :
    Spares spared link third where
  scene := k.scene.trans h.scene
  later := Nat.le_trans h.later k.later
  kept r among := (k.kept r among).trans (h.kept r among)

theorem Spares.mono (h : Spares spared link next) (fewer : ∀ r, weaker r → spared r) :
    Spares weaker link next :=
  ⟨h.scene, h.later, fun r among => h.kept r (fewer r among)⟩

theorem Spares.calm (h : Spares spared link next) (calm : link.bus.Calm) : next.bus.Calm :=
  calm.later (congrArg (fun s => s.2.2) h.scene) h.later

theorem Spares.fits (h : Spares spared link next) (fits : link.Fits) : next.Fits :=
  fits.of_scene h.scene

theorem Spares.frozen (h : Spares spared link next) : next.bus.frozen = link.bus.frozen :=
  congrArg (fun s => s.2.2.frozen) h.scene

theorem Sparing.refl (link : Link Device) : Sparing spared link link := fun _ => .refl link

theorem Sparing.trans (link next third : Link Device) (h : Sparing spared link next)
    (k : Sparing spared next third) : Sparing spared link third :=
  fun fits => (h fits).trans (k ((h fits).fits fits))

theorem leads_write {r : Register} (outside : ¬spared r) (value : UInt8) :
    Leads (Sparing spared) (write r value) := by
  intro link fits
  have scene := keeps_write r value link
  rw [after] at scene
  rw [ending]
  rw [write_eq] at scene ⊢
  cases acknowledged : link.bus.acknowledges link.address with
  | false => exact ⟨rfl, Nat.le_succ _, fun _ _ => rfl⟩
  | true =>
    rw [if_pos acknowledged] at scene
    rw [if_pos rfl]
    refine ⟨scene, ?_, fun r' among => ?_⟩
    · have kept := Device.log_of_fixture (Device.fixture_accept link.bus (link.writing r value))
      change link.bus.log.length ≤ (link.bus.accept (link.writing r value)).log.length + 1
      rw [kept]
      exact Nat.le_succ _
    · have apart : r ≠ r' := fun same => outside (same ▸ among)
      have stored := registers_accept_writing fits.address fits.checked r value
      have read : (link.bus.accept (link.writing r value)).get r' = (link.bus.store r value).get r' :=
        congrArg (fun registers => registers.get r'.toFin) stored
      exact read.trans (Device.get_store_ne apart value)

theorem leads_fetch (r : Register) (count : Nat) : Leads (Sparing spared) (fetch r count) := by
  intro link fits
  have scene := keeps_fetch r count link
  rw [after] at scene
  rw [ending]
  rw [fetch_eq] at scene ⊢
  cases acknowledged : link.bus.acknowledges link.address with
  | false => exact ⟨rfl, Nat.le_succ _, fun _ _ => rfl⟩
  | true =>
    rw [if_pos acknowledged] at scene
    rw [if_pos rfl]
    refine ⟨scene, ?_, fun r' _ => ?_⟩
    · rw [Device.accept_register]
      exact Nat.le_succ _
    · rw [Device.accept_register]
      rfl

theorem walk_sparing : Walk (Sparing spared) := ⟨.refl, .trans, leads_fetch⟩

end Spares

section Calm

theorem write_calm (fits : link.Fits) (calm : link.bus.Calm) (r : Register) (value : UInt8) :
    ∃ next, write r value link = .ok () next ∧ Spares (· ≠ r) link next ∧
      next.bus.registers = (link.bus.store r value).registers := by
  have acknowledged : link.bus.acknowledges link.address = true := by
    rw [fits.address]
    exact calm.acknowledges
  have done := write_eq r value link
  rw [if_pos acknowledged] at done
  have leads : Leads (Sparing (· ≠ r)) (write r value) := leads_write (fun apart => apart rfl) value
  exact ⟨_, done, leads.of_ok done fits, registers_of_write fits.address fits.checked done⟩

theorem fetch_calm (fits : link.Fits) (calm : link.bus.Calm) (r : Register) (count : Nat) :
    ∃ next, fetch r count link =
      .ok (Vector.ofFn fun i => { link.bus with pointer := r }.answerByte i) next ∧
        Spares (fun _ => True) link next := by
  have acknowledged : link.bus.acknowledges link.address = true := by
    rw [fits.address]
    exact calm.acknowledges
  have done := fetch_eq r count link
  rw [if_pos acknowledged, Device.accept_register] at done
  have arrived : { link.bus with pointer := r }.received count =
      Vector.ofFn fun i => { link.bus with pointer := r }.answerByte i := by
    have calmThen : { link.bus with pointer := r }.Calm := ⟨calm.up, calm.failing, calm.corruptions⟩
    unfold Device.received
    congr 1
    funext i
    exact calmThen.garbled i _
  rw [arrived] at done
  have leads : Leads (Sparing fun _ => True) (fetch r count) := leads_fetch r count
  exact ⟨_, done, leads.of_ok done fits⟩

theorem readByte_calm (fits : link.Fits) (calm : link.bus.Calm) (r : Register) :
    ∃ next, readByte r link = .ok (link.bus.get r) next ∧ Spares (fun _ => True) link next := by
  rw [readByte_eq]
  cases mode : link.checked with
  | false =>
    obtain ⟨next, fetched, spares⟩ := fetch_calm fits calm r 1
    refine ⟨next, ?_, spares⟩
    rw [if_neg (by decide), fetched]
    dsimp only
    congr 1
    exact (Vector.getElem_ofFn _).trans (Device.answerByte_zero _)
  | true =>
    obtain ⟨next, fetched, spares⟩ := fetch_calm fits calm r (2 * 1)
    refine ⟨next, ?_, spares⟩
    have checked : { link.bus with pointer := r }.checked = true := fits.checked.symm.trans mode
    have address : next.address = { link.bus with pointer := r }.address :=
      (congrArg Prod.fst spares.scene).trans fits.address
    have frame : (Vector.ofFn fun i => { link.bus with pointer := r }.answerByte i) =
        link.bus.answer r := by
      ext i bound
      obtain rfl | rfl : i = 0 ∨ i = 1 := by omega
      · simp [Device.answerByte_zero, Device.answer, Device.get_eq]
      · have mode : link.bus.checked = true := fits.checked.symm.trans mode
        simp [Device.answerByte_one, Device.answer, Device.get_eq, mode]
    have intact : (link.bus.answer r).intact next.address = true := by
      rw [show next.address = link.bus.address from
        (congrArg Prod.fst spares.scene).trans fits.address]
      simp [Frame.intact, Frame.expected, List.finRange, Device.answer]
    rw [frame] at fetched
    rw [if_pos rfl, show fetchIntact r 1 attempts link = _ from fetchIntact_succ r 1 9 link, fetched]
    dsimp only
    rw [if_pos intact]
    rfl

end Calm

end Link

structure Device.Settable (d : Device) (r : Register) : Prop where
  ordinary : r ≠ Register.status
  low : r < 12
  free : r ∉ d.frozen

theorem Device.Settable.get_store {d : Device} {r : Register} (h : d.Settable r) (value : UInt8) :
    (d.store r value).get r = value := by
  rw [get_store_self h.ordinary h.low, if_neg h.free]

namespace Driver

variable {n : Nat} {d : Driver Device n}

abbrev Along (ρ : Link Device → Link Device → Prop) (d e : Driver Device n) : Prop :=
  ρ d.link e.link

section Leads

variable {α : Type} {ρ : Link Device → Link Device → Prop} {r : Register}

theorem leads_access {task : EStateM (ChipError DeviceError) (Link Device) α} (h : Leads ρ task) :
    Leads (Along ρ) (access task : EStateM _ (Driver Device n) α) := by
  intro d
  have led := h d.link
  simp only [ending, access] at led ⊢
  cases done : task d.link with
  | ok a link =>
    rw [done] at led
    exact led
  | error e link =>
    rw [done] at led
    exact led

theorem leads_write {value : UInt8} (h : Leads ρ (Link.write r value)) :
    Leads (Along ρ) (write r value : EStateM _ (Driver Device n) Unit) :=
  leads_access h

section Walk

variable (walk : Link.Walk ρ)

include walk

theorem refl_along (d : Driver Device n) : Along ρ d d := walk.refl d.link

theorem trans_along (d e f : Driver Device n) (h : Along ρ d e) (k : Along ρ e f) : Along ρ d f :=
  walk.trans d.link e.link f.link h k

theorem leads_readByte (r : Register) :
    Leads (Along ρ) (readByte r : EStateM _ (Driver Device n) UInt8) :=
  leads_access (walk.readByte r)

theorem leads_update (h : ∀ value, Leads ρ (Link.write r value)) (change : UInt8 → UInt8) :
    Leads (Along ρ) (update r change : EStateM _ (Driver Device n) Unit) :=
  leads_bind (trans_along walk) (leads_readByte walk r) fun _ => leads_write (h _)

end Walk

def written (n : Nat) : Request → List Register
  | .readCurrent | .clear .. => [Register.status]
  | .protect .cellOvervoltage _ => [Register.overvoltageTrip, Register.protect3]
  | .protect .cellUndervoltage _ => [Register.undervoltageTrip, Register.protect3]
  | .protect .shortCircuit _ => [Register.protect1]
  | .protect .dischargeOvercurrent _ => [Register.protect2]
  | .setSwitch .charge _ | .setSwitch .discharge _ => [Register.control2]
  | .balance bank _ =>
    if bank < Balancing.bankCount n then [Register.balancing + UInt8.ofNat bank] else []
  | _ => []

theorem leads_perform (walk : Link.Walk ρ) {request : Request}
    (stays : ∀ mode, request ≠ .enterMode mode)
    (h : ∀ r ∈ written n request, ∀ value, Leads ρ (Link.write r value)) :
    Leads (Along ρ) (perform request : EStateM _ (Driver Device n) (request.Answer n)) := by
  have refl := refl_along (n := n) walk
  have trans := trans_along (n := n) walk
  cases request with
  | readCells =>
    exact leads_bind trans (leads_access (walk.readWords _ n)) fun _ =>
      leads_bind trans (leads_access (walk.readWord _)) fun _ =>
        leads_bind trans (leads_get refl) fun _ => leads_pure refl _
  | readCurrent =>
    exact leads_bind trans (leads_access (walk.readWord _)) fun _ =>
      leads_bind trans (leads_write (h _ (by simp [written]) _)) fun _ =>
        leads_bind trans (leads_get refl) fun _ => leads_pure refl _
  | readTemperatures =>
    exact leads_bind trans (leads_access (walk.readWords _ _)) fun _ =>
      leads_bind trans (leads_get refl) fun _ => leads_pure refl _
  | readReport =>
    exact leads_bind trans (leads_readByte walk _) fun _ =>
      leads_bind trans (leads_readByte walk _) fun _ => leads_pure refl _
  | clear faults alerts =>
    change Leads _ (clear faults alerts)
    unfold clear
    dsimp only
    split
    · exact leads_write (h _ (by simp [written]) _)
    · exact leads_pure refl _
  | protect kind codes =>
    change Leads _ (protect kind codes)
    unfold protect
    dsimp only
    split
    · exact leads_bind trans (leads_write (h _ (by simp [written]) _)) fun _ =>
        leads_update walk (h _ (by simp [written])) _
    · exact leads_bind trans (leads_write (h _ (by simp [written]) _)) fun _ =>
        leads_update walk (h _ (by simp [written])) _
    · exact leads_write (h _ (by simp [written]) _)
    · exact leads_write (h _ (by simp [written]) _)
    · exact leads_pure refl _
  | setSwitch switch closed =>
    cases switch with
    | charge => exact leads_update walk (h _ (by simp [written])) _
    | discharge => exact leads_update walk (h _ (by simp [written])) _
    | precharge => exact leads_pure refl _
  | balance bank cells =>
    change Leads _ (balance bank cells)
    unfold balance
    split
    · rename_i present
      exact leads_write (h _ (by simp [written, present]) _)
    · exact leads_pure refl _
  | enterMode mode => exact absurd rfl (stays mode)

theorem spares_perform {spared : Register → Prop} {request : Request}
    (stays : ∀ mode, request ≠ .enterMode mode) (h : ∀ r ∈ written n request, ¬spared r) :
    Leads (Along (Link.Sparing spared))
      (perform request : EStateM _ (Driver Device n) (request.Answer n)) :=
  leads_perform Link.walk_sparing stays fun r among value => Link.leads_write (h r among) value

end Leads

section Calm

theorem write_calm (fits : d.link.Fits) (calm : d.link.bus.Calm) {r : Register}
    (settable : d.link.bus.Settable r) (value : UInt8) :
    ∃ link, write r value d = .ok () { d with link } ∧ Link.Spares (· ≠ r) d.link link ∧
      link.bus.get r = value := by
  obtain ⟨link, done, spares, registers⟩ := Link.write_calm fits calm r value
  refine ⟨link, access_of_ok done, spares, ?_⟩
  rw [← settable.get_store value, Device.get_eq, Device.get_eq, registers]

theorem update_calm (fits : d.link.Fits) (calm : d.link.bus.Calm) {r : Register}
    (settable : d.link.bus.Settable r) (change : UInt8 → UInt8) :
    ∃ link, update r change d = .ok () { d with link } ∧ Link.Spares (· ≠ r) d.link link ∧
      link.bus.get r = change (d.link.bus.get r) := by
  obtain ⟨between, read, spared⟩ := Link.readByte_calm fits calm r
  have settableThen : between.bus.Settable r :=
    ⟨settable.ordinary, settable.low, spared.frozen ▸ settable.free⟩
  obtain ⟨link, wrote, spares, held⟩ := write_calm (d := { d with link := between })
    (spared.fits fits) (spared.calm calm) settableThen (change (d.link.bus.get r))
  refine ⟨link, ?_, (spared.mono fun _ _ => trivial).trans spares, held⟩
  have unfolded : update r change d = (readByte r >>= fun byte => write r (change byte)) d := rfl
  have readThen : readByte r d = .ok (d.link.bus.get r) { d with link := between } :=
    access_of_ok read
  rw [unfolded]
  simp only [bind, EStateM.bind, readThen]
  exact wrote

end Calm

end Driver
end PackGuard.Chip
