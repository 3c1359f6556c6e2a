import PackGuard.Chip.Device

/-!
What a transaction does to the chip: it is entered in the log, and may change registers and the
pointer. How the chip is set up, and when it is disturbed, stays.
-/

namespace PackGuard.Chip.Device

variable {d e : Device}

def fixture (d : Device) : Device := { d with registers := .replicate 256 0, pointer := 0 }

def setting (d : Device) : Device := { d.fixture with log := [] }

theorem get_eq (d : Device) (r : Register) : d.get r = d.registers[r.toFin] := rfl

theorem get_poke_self (d : Device) (r : Register) (value : UInt8) :
    (d.poke r value).get r = value := by
  simp [get_eq, poke]

theorem get_poke_ne {r r' : Register} (h : r ≠ r') (value : UInt8) :
    (d.poke r value).get r' = d.get r' := by
  have apart : r.toNat ≠ r'.toNat := fun same => h (UInt8.toNat_inj.mp same)
  simp [get_eq, poke, Vector.getElem_set_ne, apart]

theorem get_store_ne {r r' : Register} (h : r ≠ r') (value : UInt8) :
    (d.store r value).get r' = d.get r' := by
  unfold store
  split
  · exact get_poke_ne h _
  · split
    · rfl
    · exact get_poke_ne h _

theorem get_store_self {r : Register} (control : r ≠ Register.status) (low : r < 12) (value : UInt8) :
    (d.store r value).get r = if r ∈ d.frozen then d.get r else value := by
  have settable : ¬12 ≤ r := by grind
  simp only [store, control, settable, if_false, false_or]
  split
  · rfl
  · exact get_poke_self d r value

theorem store_measurement {r : Register} (high : 12 ≤ r) (value : UInt8) : d.store r value = d := by
  have control : r ≠ Register.status := by
    rintro rfl
    revert high
    decide
  simp [store, control, high]

theorem registers_store (d : Device) (p r : Register) (value : UInt8) :
    ({ d with pointer := p }.store r value).registers = (d.store r value).registers := by
  unfold store
  split
  · rfl
  · split <;> rfl

theorem accept_matching (h : d.checked = true) (r : Register) (value : UInt8) :
    d.accept [r, value, Checksum.ofBytes [addressByte d.address false, r, value]] =
      { d with pointer := r }.store r value := by
  change (if d.checked = true then _ else _) = _
  rw [if_pos h]
  exact if_pos rfl

theorem accept_unchecked (h : d.checked = false) (r : Register) (data : List UInt8) :
    d.accept (r :: data) = { d with pointer := r }.storeAll data := by
  change (if d.checked = true then _ else _) = _
  exact if_neg (by simp [h])

theorem accept_register (d : Device) (r : Register) : d.accept [r] = { d with pointer := r } := by
  change (if d.checked = true then _ else _) = _
  split <;> rfl

theorem answerByte_zero (d : Device) : d.answerByte 0 = d.get d.pointer := by
  simp [answerByte]

theorem answerByte_one (d : Device) :
    d.answerByte 1 =
      if d.checked then Checksum.ofBytes [addressByte d.address true, d.get d.pointer]
      else d.get (d.pointer + 1) := by
  simp [answerByte]

theorem received_two (d : Device) :
    d.received 2 = #v[d.garbled d.log.length 0 (d.answerByte 0),
      d.garbled d.log.length 1 (d.answerByte 1)] := by
  ext i bound
  obtain rfl | rfl : i = 0 ∨ i = 1 := by omega
  · simp [received]
  · simp [received]

theorem fixture_store (d : Device) (r : Register) (value : UInt8) :
    (d.store r value).fixture = d.fixture := by
  unfold store
  split
  · rfl
  · split <;> rfl

theorem fixture_storeAll (d : Device) (bytes : List UInt8) :
    (d.storeAll bytes).fixture = d.fixture := by
  induction bytes generalizing d with
  | nil => rfl
  | cons value rest ih =>
    rw [storeAll, List.foldl_cons]
    exact (ih _).trans (fixture_store d d.pointer value)

theorem fixture_accept (d : Device) (bytes : List UInt8) : (d.accept bytes).fixture = d.fixture := by
  unfold accept
  split
  · rfl
  · dsimp only
    split
    · split
      · split
        · exact fixture_store ..
        · rfl
      · rfl
    · exact fixture_storeAll ..

theorem setting_of_fixture (h : e.fixture = d.fixture) : e.setting = d.setting :=
  congrArg (fun f : Device => { f with log := [] }) h

theorem log_of_fixture (h : e.fixture = d.fixture) : e.log = d.log := by
  have same := congrArg log h
  exact same

end PackGuard.Chip.Device
