import PackGuard.Proofs.Link

/-!
What the detection of the chip settles on. It tries to speak with checksums before it tries without,
and takes the first way in which the setup register reads back as it was written. A chip that speaks
the other way can look like that too: one with checksums whose register held the setup before, or one
without whose next register holds what the checksum would be.
-/

namespace PackGuard.Chip

namespace Device

def responds (d : Device) (transaction : Nat) : Bool :=
  !d.down && !d.failing.contains transaction

def setup (d : Device) : UInt8 :=
  if Register.counterConfig ∈ d.frozen then d.get Register.counterConfig else counterSetup

/-- The two bytes that arrive when the setup register is read back in a transaction: the second is
its checksum, or the next register. -/
def setupFrame (d : Device) (transaction : Nat) : Frame 1 :=
  #v[d.garbled transaction 0 d.setup,
    d.garbled transaction 1
      (if d.checked then Checksum.ofBytes [addressByte d.address true, d.setup] else d.get 0x0C)]

/-- Reading back finds the setup, when the first transaction and the number of attempts are given:
all readings are answered up to the first one that matches its checksum, and that one has the
setup. -/
def FindsSetup (d : Device) (attempts first : Nat) : Prop :=
  ∃ tries < attempts, (∀ k ≤ tries, d.responds (first + k) = true) ∧
    (∀ k < tries, (d.setupFrame (first + k)).intact d.address = false) ∧
    (d.setupFrame (first + tries)).intact d.address = true ∧
    (d.setupFrame (first + tries))[0] = counterSetup

def AnswersChecked (d : Device) (first : Nat) : Prop :=
  d.responds first = true ∧ d.FindsSetup Link.attempts (first + 1)

instance (d : Device) (first : Nat) : Decidable (d.AnswersChecked first) := by
  unfold AnswersChecked FindsSetup
  infer_instance

/-- The transaction in which the detection first addresses the chip. Two are spent on the other
address if that comes first. -/
def trial (d : Device) : Nat := d.log.length + if d.address = 0x08 then 0 else 2

theorem findsSetup_succ (d : Device) (attempts first : Nat) :
    d.FindsSetup (attempts + 1) first ↔ d.responds first = true ∧
      ((d.setupFrame first).intact d.address = true ∧ (d.setupFrame first)[0] = counterSetup ∨
        (d.setupFrame first).intact d.address = false ∧ d.FindsSetup attempts (first + 1)) := by
  have shift : ∀ k, first + (k + 1) = first + 1 + k := by omega
  constructor
  · rintro ⟨tries, less, answered, early, last⟩
    have responds := answered 0 (by omega)
    cases tries with
    | zero => exact ⟨responds, .inl last⟩
    | succ tries =>
      refine ⟨responds, .inr ⟨early 0 (by omega), tries, by omega, ?_, ?_, shift tries ▸ last⟩⟩
      · exact fun k bound => shift k ▸ answered (k + 1) (by omega)
      · exact fun k bound => shift k ▸ early (k + 1) (by omega)
  · rintro ⟨responds, last | ⟨broken, tries, less, answered, early, last⟩⟩
    · refine ⟨0, by omega, fun k bound => ?_, fun k bound => by omega, last⟩
      obtain rfl : k = 0 := by omega
      exact responds
    · refine ⟨tries + 1, by omega, fun k bound => ?_, fun k bound => ?_, shift tries ▸ last⟩
      · cases k with
        | zero => exact responds
        | succ k => exact shift k ▸ answered k (by omega)
      · cases k with
        | zero => exact broken
        | succ k => exact shift k ▸ early k (by omega)

/-- Without disturbances, a chip with checksums is found as one, and so is a chip without whose next
register happens to hold the checksum of the setup. -/
theorem answersChecked_undisturbed {d : Device} (up : d.down = false) (failing : d.failing = [])
    (corruptions : d.corruptions = []) (free : Register.counterConfig ∉ d.frozen) (first : Nat) :
    d.AnswersChecked first ↔ d.checked = true ∨
      d.get 0x0C = Checksum.ofBytes [addressByte d.address true, counterSetup] := by
  have responds : ∀ transaction, d.responds transaction = true := by simp [responds, up, failing]
  have frame : ∀ transaction, d.setupFrame transaction = #v[counterSetup,
      if d.checked then Checksum.ofBytes [addressByte d.address true, counterSetup]
      else d.get 0x0C] := by
    intro transaction
    simp [setupFrame, garbled, corruptions, setup, free]
  have intact : ∀ transaction, (d.setupFrame transaction).intact d.address = true ↔
      d.checked = true ∨
        d.get 0x0C = Checksum.ofBytes [addressByte d.address true, counterSetup] := by
    intro transaction
    rw [frame]
    cases d.checked <;> simp [Frame.intact, Frame.expected, List.finRange]
  constructor
  · rintro ⟨-, tries, -, -, -, matching, -⟩
    exact (intact _).mp matching
  · intro h
    refine ⟨responds _, 0, by decide, fun _ _ => responds _, fun k bound => by omega, ?_, ?_⟩
    · exact (intact _).mpr h
    · rw [frame]
      rfl

theorem acknowledges_eq {d e : Device} (h : e.setting = d.setting) :
    e.acknowledges d.address = d.responds e.log.length := by
  change (!e.setting.down && d.setting.address == e.setting.address &&
    !e.setting.failing.contains e.log.length) = _
  rw [h]
  simp [setting, fixture, responds]

theorem get_accept_setup (d : Device) :
    (d.accept [Register.counterConfig, counterSetup, Checksum.ofBytes
      [addressByte d.address false, Register.counterConfig, counterSetup]]).get
        Register.counterConfig = d.setup ∧
    (d.accept [Register.counterConfig, counterSetup, Checksum.ofBytes
      [addressByte d.address false, Register.counterConfig, counterSetup]]).get 0x0C =
        d.get 0x0C := by
  have stored : ({ d with pointer := Register.counterConfig }.store Register.counterConfig
      counterSetup).get Register.counterConfig = d.setup := get_store_self (by decide) (by decide) _
  have beside : ({ d with pointer := Register.counterConfig }.store Register.counterConfig
      counterSetup).get 0x0C = d.get 0x0C := get_store_ne (by decide) _
  cases kind : d.checked with
  | true =>
    rw [accept_matching kind]
    exact ⟨stored, beside⟩
  | false =>
    rw [accept_unchecked kind]
    simp only [storeAll, List.foldl_cons, List.foldl_nil]
    rw [store_measurement (by decide)]
    exact ⟨stored, beside⟩

theorem received_setup (d : Device) {e : Device} (setting : e.setting = d.setting)
    (setup : e.get Register.counterConfig = d.setup) (beside : e.get 0x0C = d.get 0x0C) :
    (e.accept [Register.counterConfig]).received 2 = d.setupFrame e.log.length := by
  have checked : e.setting.checked = d.setting.checked := by rw [setting]
  have address : e.setting.address = d.setting.address := by rw [setting]
  have corruptions : e.setting.corruptions = d.setting.corruptions := by rw [setting]
  change e.checked = d.checked at checked
  change e.address = d.address at address
  change e.corruptions = d.corruptions at corruptions
  have next : Register.counterConfig + 1 = 0x0C := by decide
  rw [accept_register, received_two, answerByte_zero, answerByte_one]
  change #v[e.garbled _ _ (e.get _), e.garbled _ _ (if e.checked then Checksum.ofBytes
    [addressByte e.address true, e.get _] else e.get (Register.counterConfig + 1))] = _
  rw [next, setup, beside, checked, address]
  simp only [garbled, corruptions, setupFrame]

end Device

namespace Link

structure Prepared (d : Device) (number : Nat) (link : Link Device) : Prop where
  address : link.address = d.address
  setting : link.bus.setting = d.setting
  length : link.bus.log.length = number
  setup : link.bus.get Register.counterConfig = d.setup
  beside : link.bus.get 0x0C = d.get 0x0C

variable {d : Device} {number : Nat} {link : Link Device}

theorem Prepared.of_write (address : link.address = link.bus.address) (checked : link.checked = true)
    (responds : link.bus.responds link.bus.log.length = true) :
    ∃ next, write Register.counterConfig counterSetup link = .ok () next ∧
      Prepared link.bus (link.bus.log.length + 1) next ∧ next.checked = true := by
  have acknowledged : link.bus.acknowledges link.address = true := by
    rw [address, Device.acknowledges_eq rfl, responds]
  have bytes : link.writing Register.counterConfig counterSetup =
      [Register.counterConfig, counterSetup, Checksum.ofBytes
        [addressByte link.bus.address false, Register.counterConfig, counterSetup]] := by
    rw [writing, if_pos checked, address]
  have fixture := Device.fixture_accept link.bus (link.writing Register.counterConfig counterSetup)
  have held := Device.get_accept_setup link.bus
  rw [← bytes] at held
  rw [write_eq, if_pos acknowledged]
  have kept := Device.setting_of_fixture fixture
  have longer := congrArg (fun log => log.length + 1) (Device.log_of_fixture fixture)
  exact ⟨_, rfl, ⟨address, kept, longer, held.1, held.2⟩, checked⟩

theorem Prepared.fetch_cases (h : Prepared d number link) :
    (d.responds number = true ∧ ∃ next, fetch Register.counterConfig 2 link =
      .ok (d.setupFrame number) next ∧ Prepared d (number + 1) next) ∨
    (d.responds number = false ∧ ∃ e next, fetch Register.counterConfig 2 link = .error e next) := by
  have acknowledges : link.bus.acknowledges link.address = d.responds number := by
    rw [h.address, Device.acknowledges_eq h.setting, h.length]
  rw [fetch_eq, acknowledges]
  cases responds : d.responds number with
  | false => exact .inr ⟨rfl, _, _, rfl⟩
  | true =>
    left
    have fixture := Device.fixture_accept link.bus [Register.counterConfig]
    have frame := Device.received_setup d h.setting h.setup h.beside
    rw [h.length] at frame
    rw [if_pos rfl, frame]
    refine ⟨rfl, _, rfl, h.address, ?_, ?_, ?_, ?_⟩
    · exact (Device.setting_of_fixture fixture).trans h.setting
    · rw [← h.length]
      exact congrArg (fun log => log.length + 1) (Device.log_of_fixture fixture)
    · rw [Device.accept_register]
      exact h.setup
    · rw [Device.accept_register]
      exact h.beside

theorem Prepared.fetchIntact_iff {attempts : Nat} (h : Prepared d number link) :
    (∃ bytes next, fetchIntact Register.counterConfig 1 attempts link = .ok bytes next ∧
      bytes.get ⟨0, Nat.one_pos⟩ = counterSetup) ↔ d.FindsSetup attempts number := by
  induction attempts generalizing number link with
  | zero =>
    constructor
    · rintro ⟨bytes, next, done, -⟩
      cases done
    · rintro ⟨tries, less, -⟩
      omega
  | succ attempts ih =>
    rw [fetchIntact_succ, Device.findsSetup_succ]
    rcases h.fetch_cases with ⟨responds, next, fetched, after⟩ | ⟨silent, e, next, fetched⟩
    · rw [show fetch Register.counterConfig (2 * 1) link = _ from fetched]
      dsimp only
      rw [after.address]
      cases intact : (d.setupFrame number).intact d.address with
      | true =>
        have first : (Frame.bytes (d.setupFrame number)).get ⟨0, Nat.one_pos⟩ =
            (d.setupFrame number)[0] := by
          change (Frame.bytes (d.setupFrame number))[0] = _
          simp [Frame.bytes]
        rw [← first]
        simp [responds]
      | false => simpa [responds] using ih after
    · rw [show fetch Register.counterConfig (2 * 1) link = _ from fetched]
      simp [silent]

theorem answers_checked_iff {link next : Link Device} {found : Bool}
    (done : answers link.bus.address true link = .ok found next) :
    found = true ↔ link.bus.AnswersChecked link.bus.log.length := by
  rw [answers_eq] at done
  rw [Device.AnswersChecked]
  generalize start_eq : ({ link with address := link.bus.address, checked := true } : Link Device) =
    start at done
  have bus : start.bus = link.bus := by rw [← start_eq]
  have address : start.address = start.bus.address := by rw [← start_eq]
  have checked : start.checked = true := by rw [← start_eq]
  rw [← bus]
  cases responds : start.bus.responds start.bus.log.length with
  | false =>
    have silent : start.bus.acknowledges start.address = false := by
      rw [address, Device.acknowledges_eq rfl, responds]
    rw [write_eq, silent] at done
    cases done
    simp
  | true =>
    obtain ⟨written, wrote, prepared, checkedThen⟩ := Prepared.of_write address checked responds
    rw [wrote] at done
    dsimp only at done
    rw [readByte_eq, if_pos checkedThen] at done
    rw [← prepared.fetchIntact_iff]
    cases read : fetchIntact Register.counterConfig 1 attempts written with
    | error e final =>
      rw [read] at done
      cases done
      simp
    | ok bytes final =>
      rw [read] at done
      cases done
      simp

theorem answers_elsewhere {address : UInt8} (checked : Bool) {link : Link Device}
    (h : link.bus.address ≠ address) :
    ∃ transaction, answers address checked link =
      .ok false ⟨link.bus.note transaction, address, checked⟩ := by
  have silent : link.bus.acknowledges address = false := by
    have apart : (address == link.bus.address) = false := beq_eq_false_iff_ne.mpr h.symm
    simp [Device.acknowledges, apart]
  rw [answers_eq, write_eq]
  dsimp only
  rw [silent]
  exact ⟨_, rfl⟩

theorem probeAmong_elsewhere {address : UInt8} (rest : List (UInt8 × Bool)) {link : Link Device}
    (h : link.bus.address ≠ address) :
    ∃ first second, probeAmong ((address, true) :: (address, false) :: rest) link =
      probeAmong rest ⟨(link.bus.note first).note second, address, false⟩ := by
  obtain ⟨first, tried⟩ := answers_elsewhere true h
  have noted : (⟨link.bus.note first, address, true⟩ : Link Device).bus.address ≠ address := h
  obtain ⟨second, again⟩ := answers_elsewhere false noted
  rw [probeAmong_cons, tried]
  dsimp only
  rw [probeAmong_cons, again]
  exact ⟨first, second, rfl⟩

theorem probeAmong_here (rest : List (UInt8 × Bool)) {link final : Link Device}
    (done : probeAmong ((link.bus.address, true) :: (link.bus.address, false) :: rest) link =
      .ok () final) :
    final.scene = (link.bus.address,
      decide (link.bus.AnswersChecked link.bus.log.length), link.bus.setting) ∨
    ∃ next : Link Device, next.bus.setting = link.bus.setting ∧
      probeAmong rest next = .ok () final := by
  obtain ⟨checked, next, tried, kept⟩ := answers_cases link.bus.address true link
  have outcome := answers_checked_iff tried
  rw [probeAmong_cons, tried] at done
  cases checked with
  | true =>
    cases done
    rw [decide_eq_true (outcome.mp rfl)]
    exact .inl kept
  | false =>
    have silent : decide (link.bus.AnswersChecked link.bus.log.length) = false :=
      decide_eq_false fun found => by cases outcome.mpr found
    obtain ⟨plain, last, again, keptThen⟩ := answers_cases link.bus.address false next
    have setting : next.bus.setting = link.bus.setting := congrArg (fun s => s.2.2) kept
    rw [setting] at keptThen
    dsimp only at done
    rw [probeAmong_cons, again] at done
    cases plain with
    | true =>
      cases done
      rw [silent]
      exact .inl keptThen
    | false => exact .inr ⟨last, congrArg (fun s => s.2.2) keptThen, done⟩

theorem scene_of_probe {link final : Link Device} (done : probe link = .ok () final) :
    final.scene = (link.bus.address, decide (link.bus.AnswersChecked link.bus.trial),
      link.bus.setting) := by
  change probeAmong candidates link = .ok () final at done
  rw [candidates] at done
  by_cases low : link.bus.address = 0x08
  · have trial : link.bus.trial = link.bus.log.length := by simp [Device.trial, low]
    rw [trial]
    rw [← low] at done
    rcases probeAmong_here _ done with settled | ⟨next, setting, rest⟩
    · exact settled
    · have address : next.bus.setting.address = link.bus.setting.address := by rw [setting]
      change next.bus.address = link.bus.address at address
      have apart : next.bus.address ≠ 0x18 := by rw [address, low]; decide
      obtain ⟨_, _, exhausted⟩ := probeAmong_elsewhere [] apart
      rw [exhausted] at rest
      cases rest
  · have trial : link.bus.trial = link.bus.log.length + 2 := by simp [Device.trial, low]
    obtain ⟨first, second, skipped⟩ := probeAmong_elsewhere [(0x18, true), (0x18, false)] low
    rw [skipped] at done
    by_cases high : link.bus.address = 0x18
    · rw [← high] at done
      rcases probeAmong_here _ done with settled | ⟨next, setting, rest⟩
      · rw [trial]
        exact settled
      · cases rest
    · have noted : (⟨(link.bus.note first).note second, 0x08, false⟩ : Link Device).bus.address ≠
          0x18 := high
      obtain ⟨_, _, exhausted⟩ := probeAmong_elsewhere [] noted
      rw [exhausted] at done
      cases done

theorem registers_accept_writing {link : Link Device} (address : link.address = link.bus.address)
    (checked : link.checked = link.bus.checked) (r : Register) (value : UInt8) :
    (link.bus.accept (link.writing r value)).registers = (link.bus.store r value).registers := by
  rw [writing, checked, address]
  cases kind : link.bus.checked with
  | true =>
    rw [if_pos rfl, Device.accept_matching kind]
    exact Device.registers_store ..
  | false =>
    rw [if_neg (by decide), Device.accept_unchecked kind]
    exact Device.registers_store ..

theorem registers_of_write {link next : Link Device} (address : link.address = link.bus.address)
    (checked : link.checked = link.bus.checked) {r : Register} {value : UInt8}
    (done : write r value link = .ok () next) :
    next.bus.registers = (link.bus.store r value).registers := by
  rw [write_eq] at done
  split at done
  · cases done
    exact registers_accept_writing address checked r value
  · cases done

end Link

/-- A detection that succeeds settles on the address of the chip; it settles on the mode of the chip
exactly when the trial with checksums succeeds on a chip with checksums and fails on one without; and
in that mode every register write that is acknowledged takes effect. -/
theorem Driver.mode_of_probe {n : Nat} {driver probed : Driver Device n}
    (done : Driver.access Link.probe driver = .ok () probed) :
    probed.link.address = driver.link.bus.address ∧
    (probed.link.checked = driver.link.bus.checked ↔
      (driver.link.bus.AnswersChecked driver.link.bus.trial ↔ driver.link.bus.checked = true)) ∧
    (probed.link.checked = driver.link.bus.checked →
      ∀ (r : Register) (value : UInt8) (written : Driver Device n),
        Driver.write r value probed = .ok () written →
          written.link.bus.registers = (probed.link.bus.store r value).registers) := by
  have scene := Link.scene_of_probe (of_access_ok done)
  have address : probed.link.address = driver.link.bus.address := congrArg Prod.fst scene
  have checked : probed.link.checked =
      decide (driver.link.bus.AnswersChecked driver.link.bus.trial) :=
    congrArg (fun s => s.2.1) scene
  have setting : probed.link.bus.setting = driver.link.bus.setting :=
    congrArg (fun s => s.2.2) scene
  refine ⟨address, ?_, ?_⟩
  · rw [checked, Bool.eq_iff_iff, decide_eq_true_iff]
  · intro right r value written wrote
    have addressThen : probed.link.bus.setting.address = driver.link.bus.setting.address := by
      rw [setting]
    have checkedThen : probed.link.bus.setting.checked = driver.link.bus.setting.checked := by
      rw [setting]
    exact Link.registers_of_write (address.trans addressThen.symm) (right.trans checkedThen.symm)
      (of_access_ok wrote)

def plainChip : Device := { address := 0x18, checked := false }

theorem Driver.mode_of_probe_plain :
    ∃ probed : Driver Device 5, Driver.access Link.probe (.new 5 plainChip 1.0 3435.0) =
      .ok () probed ∧ probed.link.address = 0x18 ∧ probed.link.checked = false := by
  have found : Link.succeeds Link.probe { bus := plainChip } = true := by decide +kernel
  obtain ⟨_, probed⟩ := Link.eq_ok_of_succeeds found
  have done := Driver.access_of_ok (show Link.probe (Driver.new 5 plainChip 1.0 3435.0).link = _
    from probed)
  have mode := Driver.mode_of_probe done
  have silent : ¬plainChip.AnswersChecked plainChip.trial := by
    rw [Device.answersChecked_undisturbed rfl rfl rfl (by decide)]
    decide +kernel
  have plain : ¬plainChip.checked = true := by decide
  exact ⟨_, done, mode.1, mode.2.1.mpr (iff_of_false silent plain)⟩

def preparedChip : Device :=
  ({ failing := [0] } : Device).poke Register.counterConfig counterSetup

/-- The detection takes it for one without checksums, and the chip acknowledges register writes
without storing them. -/
theorem Driver.mode_missed :
    ∃ probed written : Driver Device 5,
      Driver.access Link.probe (.new 5 preparedChip 1.0 3435.0) = .ok () probed ∧
      probed.link.checked = false ∧ probed.link.bus.checked = true ∧
      Driver.write 0x01 0x01 probed = .ok () written ∧ written.link.bus.get 0x01 = 0x00 := by
  have found : Link.succeeds Link.probe { bus := preparedChip } = true := by decide +kernel
  obtain ⟨_, probed⟩ := Link.eq_ok_of_succeeds found
  have stored : Link.succeeds (Link.write 0x01 0x01) (Link.after Link.probe { bus := preparedChip }) =
      true := by decide +kernel
  obtain ⟨_, written⟩ := Link.eq_ok_of_succeeds stored
  have done := Driver.access_of_ok (show Link.probe (Driver.new 5 preparedChip 1.0 3435.0).link = _
    from probed)
  exact ⟨_, _, done, by decide +kernel, by decide +kernel, Driver.access_of_ok written,
    by decide +kernel⟩

end PackGuard.Chip
