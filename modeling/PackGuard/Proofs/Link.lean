import PackGuard.Chip.Driver
import PackGuard.Proofs.Device

/-!
Access to the registers, task by task, as one transaction after the other. No access changes how the
chip is set up, and only the detection changes how it is spoken to.
-/

namespace PackGuard.Chip

namespace Link

section Unfolding

variable {β δ : Type} [Bus β δ]

theorem fetchIntact_succ (r : Register) (count attempts : Nat) (link : Link β) :
    fetchIntact r count (attempts + 1) link =
      match (fetch r (2 * count) : EStateM (ChipError δ) (Link β) (Frame count)) link with
      | .ok frame link =>
        if Frame.intact link.address frame then .ok (Frame.bytes frame) link
        else fetchIntact r count attempts link
      | .error e link => .error e link := by
  simp only [fetchIntact, bind, EStateM.bind]
  cases (fetch r (2 * count) : EStateM (ChipError δ) (Link β) (Frame count)) link with
  | error e link => rfl
  | ok frame link =>
    change (if Frame.intact link.address frame then pure (Frame.bytes frame)
      else fetchIntact r count attempts : EStateM (ChipError δ) (Link β) _) link = _
    dsimp only
    cases Frame.intact link.address frame <;> rfl

theorem readByte_eq (r : Register) (link : Link β) :
    (readByte r : EStateM (ChipError δ) (Link β) UInt8) link =
      match if link.checked then fetchIntact r 1 attempts link else fetch r 1 link with
      | .ok bytes link => .ok (bytes.get ⟨0, Nat.one_pos⟩) link
      | .error e link => .error e link := by
  have unfolded : (readByte r : EStateM (ChipError δ) (Link β) UInt8) link =
      ((if link.checked then fetchIntact r 1 attempts else fetch r 1) >>= fun bytes =>
        pure (bytes.get ⟨0, Nat.one_pos⟩)) link := rfl
  simp only [bind, EStateM.bind] at unfolded
  rw [unfolded]
  cases link.checked with
  | true =>
    simp only [if_true]
    cases fetchIntact r 1 attempts link <;> rfl
  | false =>
    simp only [Bool.false_eq_true, if_false]
    cases fetch r 1 link <;> rfl

theorem answers_eq (address : UInt8) (checked : Bool) (link : Link β) :
    answers address checked link =
      match write Register.counterConfig counterSetup { link with address, checked } with
      | .ok _ link =>
        match (readByte Register.counterConfig : EStateM (ChipError δ) (Link β) UInt8) link with
        | .ok value link => .ok (value == counterSetup) link
        | .error _ link => .ok false link
      | .error _ link => .ok false link := by
  change EStateM.tryCatch (write Register.counterConfig counterSetup >>= fun _ =>
    readByte Register.counterConfig >>= fun value => pure (value == counterSetup))
    (fun _ => pure false) { link with address, checked } = _
  delta EStateM.tryCatch
  simp only [bind, EStateM.bind]
  cases write Register.counterConfig counterSetup { link with address, checked } with
  | error e link => rfl
  | ok _ link =>
    dsimp only
    cases (readByte Register.counterConfig : EStateM (ChipError δ) (Link β) UInt8) link <;> rfl

theorem probeAmong_cons (address : UInt8) (checked : Bool) (rest : List (UInt8 × Bool))
    (link : Link β) :
    probeAmong ((address, checked) :: rest) link =
      match answers address checked link with
      | .ok true link => .ok () link
      | .ok false link => probeAmong rest link
      | .error e link => .error e link := by
  simp only [probeAmong, bind, EStateM.bind]
  cases answers address checked link with
  | error e link => rfl
  | ok found link => cases found <;> rfl

end Unfolding

theorem write_eq (r : Register) (value : UInt8) (link : Link Device) :
    write r value link =
      if link.bus.acknowledges link.address then
        .ok () { link with
          bus := (link.bus.accept (link.writing r value)).note
            (.write link.address (link.writing r value) true) }
      else
        .error (.bus .notAcknowledged) { link with
          bus := link.bus.note (.write link.address (link.writing r value) false) } := by
  simp only [write, Bus.write, Device.write]
  cases link.bus.acknowledges link.address <;> rfl

theorem fetch_eq (r : Register) (count : Nat) (link : Link Device) :
    fetch r count link =
      if link.bus.acknowledges link.address then
        .ok ((link.bus.accept [r]).received count) { link with
          bus := ((link.bus.accept [r]).advanced count).note
            (.writeRead link.address [r] count
              (some ((link.bus.accept [r]).received count).toList)) }
      else
        .error (.bus .notAcknowledged) { link with
          bus := link.bus.note (.writeRead link.address [r] count none) } := by
  simp only [fetch, Bus.writeRead, Device.writeRead]
  cases link.bus.acknowledges link.address <;> rfl

section Keeping

variable {α γ : Type} {task : EStateM (ChipError DeviceError) (Link Device) α}

def after (task : EStateM (ChipError DeviceError) (Link Device) α) (link : Link Device) :
    Link Device :=
  match task link with
  | .ok _ link | .error _ link => link

def succeeds (task : EStateM (ChipError DeviceError) (Link Device) α) (link : Link Device) : Bool :=
  match task link with
  | .ok .. => true
  | .error .. => false

theorem eq_ok_of_succeeds {link : Link Device} (h : succeeds task link = true) :
    ∃ a, task link = .ok a (after task link) := by
  rw [succeeds] at h
  rw [after]
  cases done : task link with
  | ok a next => exact ⟨a, rfl⟩
  | error e next =>
    rw [done] at h
    cases h

/-- How the chip is spoken to, and how it is set up. -/
def scene (link : Link Device) : UInt8 × Bool × Device :=
  (link.address, link.checked, link.bus.setting)

def Keeps (task : EStateM (ChipError DeviceError) (Link Device) α) : Prop :=
  ∀ link, (after task link).scene = link.scene

theorem keeps_bind {rest : α → EStateM (ChipError DeviceError) (Link Device) γ} (h : Keeps task)
    (k : ∀ a, Keeps (rest a)) : Keeps (task >>= rest) := by
  intro link
  have first := h link
  simp only [after, bind, EStateM.bind] at first ⊢
  cases done : task link with
  | ok a next =>
    rw [done] at first
    exact (k a next).trans first
  | error e next =>
    rw [done] at first
    exact first

theorem keeps_write (r : Register) (value : UInt8) : Keeps (write r value) := by
  intro link
  simp only [after, write_eq]
  cases link.bus.acknowledges link.address with
  | true =>
    have setting := Device.setting_of_fixture (Device.fixture_accept link.bus (link.writing r value))
    exact congrArg (fun d => (link.address, link.checked, d)) setting
  | false => rfl

theorem keeps_fetch (r : Register) (count : Nat) : Keeps (fetch r count) := by
  intro link
  simp only [after, fetch_eq]
  cases link.bus.acknowledges link.address with
  | true =>
    have setting := Device.setting_of_fixture (Device.fixture_accept link.bus [r])
    exact congrArg (fun d => (link.address, link.checked, d)) setting
  | false => rfl

theorem keeps_fetchIntact (r : Register) (count attempts : Nat) :
    Keeps (fetchIntact r count attempts) := by
  induction attempts with
  | zero => exact fun _ => rfl
  | succ attempts ih =>
    refine keeps_bind (keeps_fetch r (2 * count)) fun frame => keeps_bind (fun _ => rfl) fun link => ?_
    split
    · exact fun _ => rfl
    · exact ih

theorem keeps_readByte (r : Register) : Keeps (readByte r) := by
  have read : Keeps (read r 1) := by
    refine keeps_bind (fun _ => rfl) fun link => ?_
    split
    · exact keeps_fetchIntact r 1 attempts
    · exact keeps_fetch r 1
  exact keeps_bind read fun _ _ => rfl

theorem answers_cases (address : UInt8) (checked : Bool) (link : Link Device) :
    ∃ found next, answers address checked link = .ok found next ∧
      next.scene = (address, checked, link.bus.setting) := by
  have written := keeps_write Register.counterConfig counterSetup { link with address, checked }
  rw [answers_eq]
  simp only [after] at written
  cases made : write Register.counterConfig counterSetup { link with address, checked } with
  | error e next =>
    rw [made] at written
    exact ⟨false, next, rfl, written⟩
  | ok _ next =>
    rw [made] at written
    have read := keeps_readByte Register.counterConfig next
    simp only [after] at read
    cases asked : readByte Register.counterConfig next with
    | error e final =>
      rw [asked] at read
      exact ⟨false, final, by dsimp only; rw [asked], read.trans written⟩
    | ok value final =>
      rw [asked] at read
      exact ⟨value == counterSetup, final, by dsimp only; rw [asked], read.trans written⟩

end Keeping
end Link

namespace Driver

variable {β δ α : Type} {n : Nat} {task : EStateM (ChipError δ) (Link β) α}

theorem access_of_ok {driver : Driver β n} {a : α} {link : Link β}
    (h : task driver.link = .ok a link) : access task driver = .ok a { driver with link } := by
  rw [access, h]

theorem of_access_ok {driver next : Driver β n} {a : α} (h : access task driver = .ok a next) :
    task driver.link = .ok a next.link := by
  rw [access] at h
  cases done : task driver.link with
  | ok b link =>
    rw [done] at h
    cases h
    rfl
  | error e link =>
    rw [done] at h
    cases h

end Driver
end PackGuard.Chip
